import Mathlib.Data.List.Infix
import Rex.TraceEvent.Accesses
import Rex.TraceEvent.Symbols

namespace Rex.TraceEvent

open Calls Machine

/-! The loader prints the stacks and takes them out of the table, while samples go
on to be taken on all processors: an access of a sample may come between any two of
the loader's calls into the kernel. -/

def sysReadName : List UInt8 := [115, 121, 115, 95, 114, 101, 97, 100]

def sysWriteName : List UInt8 := [115, 121, 115, 95, 119, 114, 105, 116, 101]

@[ext] structure Seen where
  sysRead : Bool
  sysWrite : Bool
deriving DecidableEq

/-- `strstr` returns a null pointer for a name that does not hold the other one, so
both tests of `print_ksym` are the wrong way round. -/
def Seen.name (seen : Seen) (name : List UInt8) : Seen :=
  if ¬ sysReadName <:+: name then
    { seen with sysRead := true }
  else if ¬ sysWriteName <:+: name then
    { seen with sysWrite := true }
  else
    seen

def Seen.frame (seen : Seen) : Option Ksym → Seen
  | none => seen
  | some sym => seen.name sym.name

inductive Output
  | stack (key : KeyT) (count : UInt64) (kern : Option (List (Option Ksym)))
      (user : Option (List UInt64))
  | collisions
  | errStackid (kernstack userstack : UInt32)
  | bug
deriving DecidableEq

structure Console where
  output : List Output
  seen : Seen
  warned : Bool

def frames (ip : List UInt64) : List UInt64 :=
  ip.reverse.filter (· ≠ 0)

def kernFrames (syms : List Ksym) (ip : List UInt64) : List (Option Ksym) :=
  (frames ip).map fun addr => ksymSearch syms addr.toInt64

/-- `-EEXIST` in an id. -/
def eexist : UInt32 := 0xffffffef

def warnings (key : KeyT) (warned : Bool) : List Output :=
  if key.kernstack = eexist ∧ warned = false then
    [.collisions]
  else if key.kernstack.toInt32 < 0 ∧ key.userstack.toInt32 < 0 then
    [.errStackid key.kernstack key.userstack]
  else
    []

/-- `kern` and `user` are what the kernel finds under the two ids. -/
def printStack (syms : List Ksym) (key : KeyT) (count : UInt64)
    (kern user : Option (List UInt64)) (console : Console) : Console where
  output := console.output ++
    .stack key count (kern.map (kernFrames syms)) (user.map frames) ::
      warnings key console.warned
  seen := ((kern.map (kernFrames syms)).getD []).foldl Seen.frame console.seen
  warned := console.warned || decide (key.kernstack = eexist)

inductive Phase
  | idle
  | nextKey (key : KeyT)
  | lookup (nextKey : KeyT)
  | delete (nextKey : KeyT)
  | exited
deriving DecidableEq

/-- `value` is the variable into which the counts are read. -/
structure Loader where
  host : Host CountTable (Code Int32)
  phase : Phase
  value : UInt64
  console : Console

inductive Action
  | sample (cpu : Nat) (sample : Sample)
  | advance (cpu element : Nat)
  | start
  | call (kern user : Option (List UInt64))

def zeroKey : KeyT :=
  ⟨Vector.replicate taskCommLen 0, 0, 0⟩

namespace Loader

def counts (loader : Loader) : CountMap :=
  loader.host.shared.contents

def boot (value : UInt64) : Loader :=
  ⟨⟨.empty fun _ => 0, fun _ => .done 0⟩, .idle, value, ⟨[], ⟨false, false⟩, false⟩⟩

def delete (loader : Loader) (key : KeyT) : Loader :=
  { loader with host := ⟨loader.host.shared.remove key, loader.host.running⟩ }

@[simp] theorem counts_delete (loader : Loader) (key : KeyT) :
    (loader.delete key).counts = loader.counts.remove key :=
  loader.host.shared.contents_remove key

def print (loader : Loader) (lines : List Output) : Console :=
  { loader.console with output := loader.console.output ++ lines }

/-- One call of `print_stacks`.  When there is no next key the round is over, and
the loader exits unless it has seen what it looks for. -/
def call (syms : List Ksym) (loader : Loader) (kern user : Option (List UInt64)) :
    Option Loader :=
  match loader.phase with
  | .idle | .exited => none
  | .nextKey key =>
      match loader.counts.nextKey key with
      | some next => some { loader with phase := .lookup next }
      | none =>
          if loader.console.seen = ⟨true, true⟩ then
            some { loader with phase := .idle }
          else
            some { loader with phase := .exited, console := loader.print [.bug] }
  | .lookup next =>
      let value := (loader.counts.lookup next).getD loader.value
      some { loader with
        value
        phase := .delete next
        console := printStack syms next value kern user loader.console }
  | .delete next =>
      some { loader.delete next with phase := .nextKey next }

def start (loader : Loader) : Option Loader :=
  match loader.phase with
  | .idle =>
      some { loader with
        phase := .nextKey zeroKey
        console := { loader.console with seen := ⟨false, false⟩ } }
  | _ => none

def step (syms : List Ksym) (loader : Loader) : Action → Option Loader
  | .sample cpu sample =>
      (loader.host.launch cpu (Code.rexProg1 sample)).map fun host => { loader with host }
  | .advance cpu element =>
      (loader.host.advance serve cpu element).map fun host => { loader with host }
  | .start => loader.start
  | .call kern user => loader.call syms kern user

end Loader

/-- A sample that nothing interrupts does to the counts what the whole program
does. -/
theorem Loader.sample_alone (syms : List Ksym) (loader : Loader) {cpu : Nat}
    (idle : (loader.host.running cpu).finished = true) (sample : Sample) :
    ∃ (elements : List Nat) (counts : CountTable),
      exec (step syms) loader (.sample cpu sample :: elements.map (.advance cpu)) =
        some { loader with
          host := loader.host.put cpu (ofExcept ((rexProg1 sample).run loader.counts).1)
            counts } ∧
      counts.contents = ((rexProg1 sample).run loader.counts).2 := by
  obtain ⟨elements, counts, run, ended⟩ := ends_rexProg1 loader.host.shared sample
  refine ⟨elements, counts, ?_, ended⟩
  refine exec_cons_eq_some.mpr ⟨{ loader with
    host := loader.host.put cpu (Code.rexProg1 sample) loader.host.shared }, ?_, ?_⟩
  · rw [step, Host.launch, if_pos idle]
    rfl
  · refine Host.exec_alone (fun host => { loader with host }) ?_ run
    exact fun _ _ => rfl

/-! The calls, one by one. -/

section Call

variable {syms : List Ksym} {loader next : Loader} {kern user : Option (List UInt64)}

inductive Calls (syms : List Ksym) (kern user : Option (List UInt64)) (loader : Loader) :
    Loader → Prop
  | found {key found : KeyT} (phase : loader.phase = .nextKey key)
      (follows : loader.counts.nextKey key = some found) :
      Calls syms kern user loader { loader with phase := .lookup found }
  | passed {key : KeyT} (phase : loader.phase = .nextKey key)
      (last : loader.counts.nextKey key = none)
      (seen : loader.console.seen = ⟨true, true⟩) :
      Calls syms kern user loader { loader with phase := .idle }
  | failed {key : KeyT} (phase : loader.phase = .nextKey key)
      (last : loader.counts.nextKey key = none)
      (unseen : loader.console.seen ≠ ⟨true, true⟩) :
      Calls syms kern user loader
        { loader with phase := .exited, console := loader.print [.bug] }
  | printed {key : KeyT} {value : UInt64} (phase : loader.phase = .lookup key)
      (read : value = (loader.counts.lookup key).getD loader.value) :
      Calls syms kern user loader
        { loader with
          value
          phase := .delete key
          console := printStack syms key value kern user loader.console }
  | deleted {key : KeyT} (phase : loader.phase = .delete key) :
      Calls syms kern user loader
        { loader.delete key with phase := .nextKey key }

theorem calls_of_call (called : loader.call syms kern user = some next) :
    Calls syms kern user loader next := by
  rw [Loader.call] at called
  split at called
  · cases called
  · cases called
  · rename_i key phase
    split at called
    · rename_i found follows
      obtain rfl := Option.some.inj called
      exact .found phase follows
    · rename_i last
      split at called
      · rename_i seen
        obtain rfl := Option.some.inj called
        exact .passed phase last seen
      · rename_i unseen
        obtain rfl := Option.some.inj called
        exact .failed phase last unseen
  · rename_i key phase
    obtain rfl := Option.some.inj called
    exact .printed phase rfl
  · rename_i key phase
    obtain rfl := Option.some.inj called
    exact .deleted phase

theorem start_eq_some (started : loader.start = some next) :
    loader.phase = .idle ∧
      next = { loader with
        phase := .nextKey zeroKey
        console := { loader.console with seen := ⟨false, false⟩ } } := by
  rw [Loader.start] at started
  split at started
  · rename_i phase
    exact ⟨phase, (Option.some.inj started).symm⟩
  · cases started

end Call

/-! Where the samples go. -/

def Output.charge (key : KeyT) : Output → UInt64
  | .stack other count _ _ => if other = key then count else 0
  | .collisions | .errStackid _ _ | .bug => 0

def charged (key : KeyT) (output : List Output) : UInt64 :=
  output.foldr (fun line rest => line.charge key + rest) 0

theorem charged_append (key : KeyT) (first second : List Output) :
    charged key (first ++ second) = charged key first + charged key second := by
  induction first with
  | nil => exact (UInt64.zero_add _).symm
  | cons line rest induction =>
      show line.charge key + charged key (rest ++ second) = _
      rw [induction, ← UInt64.add_assoc]
      rfl

theorem charged_warnings (key printed : KeyT) (warned : Bool) :
    charged key (warnings printed warned) = 0 := by
  rw [warnings]
  split
  · rfl
  · split
    · rfl
    · rfl

theorem charged_printStack (syms : List Ksym) (key printed : KeyT) (count : UInt64)
    (kern user : Option (List UInt64)) (console : Console) :
    charged key (printStack syms printed count kern user console).output =
      charged key console.output + if printed = key then count else 0 := by
  rw [printStack, charged_append]
  refine congrArg (charged key console.output + ·) ?_
  show Output.charge key (.stack printed count _ _) +
    charged key (warnings printed console.warned) = _
  rw [charged_warnings, UInt64.add_zero]
  rfl

/-- The count of a key has been read, and the key is about to be deleted. -/
def Phase.deletes (key : KeyT) : Phase → Bool
  | .delete other => other = key
  | _ => false

inductive Fate
  | kept
  | lost
deriving DecidableEq

/-- A sample is lost when it is counted under a key whose count has been read, or
in an element that its key has lost. -/
def takes (loader : Loader) : Action → Multiset (KeyT × Fate)
  | .advance cpu element =>
      match loader.host.running cpu with
      | .call access _ =>
          match access.counted loader.host.shared element with
          | none => 0
          | some key =>
              {(key, if loader.phase.deletes key = false ∧
                access.lands loader.host.shared = true then .kept else .lost)}
      | .done _ | .halt _ => 0
  | .sample .. | .start | .call .. => 0

def Undisturbed (loader : Loader) : Action → Prop
  | .advance cpu _ =>
      match loader.host.running cpu with
      | .call access _ => access.Undisturbed loader.host.shared
      | .done _ | .halt _ => True
  | .sample .. | .start | .call .. => True

def held (loader : Loader) (key : KeyT) : UInt64 :=
  if loader.phase.deletes key then 0 else (loader.counts.lookup key).getD 0

structure Accounts (loader : Loader) (taken : Multiset (KeyT × Fate)) : Prop where
  present : ∀ key, loader.phase = .lookup key → key ∈ loader.counts.keys
  exact : ∀ key, charged key loader.console.output + held loader key =
    .ofNat (taken.count (key, .kept))

section Accounts

variable {syms : List Ksym} {loader next : Loader} {taken : Multiset (KeyT × Fate)}

theorem Accounts.of_same {host : Host CountTable (Code Int32)}
    (accounts : Accounts loader taken)
    (same : host.shared.contents = loader.counts) :
    Accounts { loader with host } taken := by
  refine ⟨fun key phase => ?_, fun key => ?_⟩
  · show key ∈ host.shared.contents.keys
    rw [same]
    exact accounts.present key phase
  · rw [← accounts.exact]
    refine congrArg (charged key loader.console.output + ·) ?_
    show (if loader.phase.deletes key then 0 else (host.shared.contents.lookup key).getD 0) = _
    rw [same]
    rfl

theorem accounts_adds {host : Host CountTable (Code Int32)} {counted : KeyT}
    (accounts : Accounts loader taken)
    (adds : Adds counted loader.counts host.shared.contents) :
    Accounts { loader with host }
      (taken + {(counted, if loader.phase.deletes counted = false then .kept else .lost)}) := by
  refine ⟨fun key phase => adds.keys.subset (accounts.present key phase), fun key => ?_⟩
  have before := accounts.exact key
  rw [Multiset.count_add, UInt64.ofNat_add, ← before, UInt64.add_assoc]
  refine congrArg (charged key loader.console.output + ·) ?_
  show (if loader.phase.deletes key then 0 else (host.shared.contents.lookup key).getD 0) = _
  rw [held, adds.lookup]
  by_cases own : key = counted
  · subst own
    rw [Function.update_self, Option.getD_some]
    cases loader.phase.deletes key with
    | true => simp
    | false => simp
  · have other : (key, Fate.kept) ≠ (counted, if loader.phase.deletes counted = false then
        Fate.kept else Fate.lost) := fun same => own (Prod.mk.inj same).1
    rw [Function.update_of_ne own, Multiset.count_singleton, if_neg other]
    exact (UInt64.add_zero _).symm

theorem Accounts.lost (accounts : Accounts loader taken) (key : KeyT) :
    Accounts loader (taken + {(key, .lost)}) := by
  refine ⟨accounts.present, fun other => ?_⟩
  have kept : (other, Fate.kept) ≠ (key, Fate.lost) := by simp
  rw [accounts.exact, Multiset.count_add, Multiset.count_singleton, if_neg kept]
  rfl

theorem accounts_advance {cpu element : Nat} (accounts : Accounts loader taken)
    (undisturbed : Undisturbed loader (.advance cpu element))
    (stepped : loader.step syms (.advance cpu element) = some next) :
    Accounts next (taken + takes loader (.advance cpu element)) := by
  obtain ⟨host, advanced, rfl⟩ := Option.map_eq_some_iff.mp stepped
  obtain ⟨access, rest, answer, counts, running, served, rfl⟩ :=
    Host.advance_eq_some advanced
  simp only [Undisturbed, running] at undisturbed
  simp only [takes, running]
  rcases serve_cases undisturbed served with ⟨nothing, same⟩ |
    ⟨key, counted, ⟨landed, adds⟩ | ⟨missed, same⟩⟩
  · rw [nothing, add_zero]
    exact accounts.of_same same
  · simp only [counted, landed, and_true]
    exact accounts_adds accounts adds
  · simp only [counted, missed, Bool.false_eq_true, and_false, if_false]
    exact (accounts.of_same same).lost key

theorem held_of_settled {key : KeyT} (settled : loader.phase.deletes key = false) :
    held loader key = (loader.counts.lookup key).getD 0 := by
  rw [held, settled]
  rfl

theorem accounts_printed {kern user : Option (List UInt64)} {key : KeyT} {value : UInt64}
    (accounts : Accounts loader taken) (phase : loader.phase = .lookup key)
    (read : value = (loader.counts.lookup key).getD loader.value) :
    Accounts { loader with
      value
      phase := .delete key
      console := printStack syms key value kern user loader.console } taken := by
  obtain ⟨count, found⟩ := Option.isSome_iff_exists.mp
    (HashTable.isSome_lookup_iff.mpr (accounts.present key phase))
  rw [found, Option.getD_some] at read
  subst read
  refine ⟨fun other same => (by cases same), fun other => ?_⟩
  rw [← accounts.exact, held, held, phase, charged_printStack, UInt64.add_assoc]
  -- what has been held until now is what is printed
  refine congrArg (charged other loader.console.output + ·) ?_
  show _ + (if _ then _ else (loader.counts.lookup other).getD 0) = _
  by_cases own : key = other
  · subst own
    simp [Phase.deletes, found]
  · simp [Phase.deletes, own]

theorem accounts_deleted {key : KeyT} (accounts : Accounts loader taken)
    (phase : loader.phase = .delete key) :
    Accounts { loader.delete key with phase := .nextKey key } taken := by
  refine ⟨fun other same => (by cases same), fun other => ?_⟩
  rw [← accounts.exact, held, held, phase]
  show _ + (if _ then _ else ((loader.delete key).counts.lookup other).getD 0) = _
  rw [Loader.counts_delete, HashTable.lookup_remove]
  refine congrArg (charged other loader.console.output + ·) ?_
  by_cases own : other = key
  · subst own
    simp [Phase.deletes]
  · simp [Phase.deletes, own, Ne.symm own]

theorem accounts_call {kern user : Option (List UInt64)} (accounts : Accounts loader taken)
    (called : loader.call syms kern user = some next) : Accounts next taken := by
  cases calls_of_call called with
  | @found key found phase follows =>
      refine ⟨fun other same => ?_, fun other => ?_⟩
      · obtain rfl := Phase.lookup.inj same
        exact (loader.counts.keysAfter_suffix key).subset (List.mem_of_head? follows)
      · rw [← accounts.exact, held, held, phase]
        rfl
  | passed phase last seen =>
      refine ⟨fun other same => (by cases same), fun other => ?_⟩
      rw [← accounts.exact, held, held, phase]
      rfl
  | failed phase last unseen =>
      refine ⟨fun other same => (by cases same), fun other => ?_⟩
      rw [← accounts.exact, held, held, phase]
      refine congrArg (· + _) ?_
      exact (charged_append _ _ _).trans (UInt64.add_zero _)
  | printed phase read => exact accounts_printed accounts phase read
  | deleted phase => exact accounts_deleted accounts phase

theorem accounts_step {action : Action} (accounts : Accounts loader taken)
    (undisturbed : Undisturbed loader action)
    (stepped : loader.step syms action = some next) :
    Accounts next (taken + takes loader action) := by
  cases action with
  | sample cpu sample =>
      obtain ⟨host, launched, rfl⟩ := Option.map_eq_some_iff.mp stepped
      obtain rfl := Host.launch_eq_some launched
      rw [takes, add_zero]
      exact accounts.of_same rfl
  | advance cpu element => exact accounts_advance accounts undisturbed stepped
  | start =>
      obtain ⟨phase, rfl⟩ := start_eq_some stepped
      rw [takes, add_zero]
      refine ⟨fun other same => (by cases same), fun other => ?_⟩
      rw [← accounts.exact, held, held, phase]
      rfl
  | call kern user =>
      rw [takes, add_zero]
      exact accounts_call accounts stepped

end Accounts

/-- No sample is counted twice or forgotten.  Over any number of rounds, whatever
comes between the calls of the loader, what has been printed for a key and what is
still in the table make up all the samples that were counted under it, but for
those that came between the reading of its count and its deletion, or still went to
the element it had before.  A sample that finds the count changed between its load
and its store is not undisturbed. -/
theorem samples_accounted {syms : List Ksym} {value : UInt64} {schedule : List Action}
    {loader : Loader}
    (undisturbed : EveryStep (Loader.step syms) Undisturbed (.boot value) schedule)
    (run : exec (Loader.step syms) (.boot value) schedule = some loader)
    (key : KeyT) (settled : loader.phase.deletes key = false) :
    charged key loader.console.output + (loader.counts.lookup key).getD 0 =
      .ofNat ((total (Loader.step syms) takes (.boot value) schedule).count
        (key, .kept)) := by
  have initial : Accounts (.boot value) 0 :=
    ⟨fun other phase => (by cases phase), fun _ => rfl⟩
  have accounts := exec_accounting_of_everyStep Accounts accounts_step initial undisturbed run
  rw [← held_of_settled settled, accounts.exact, zero_add]

def ddSample : Sample :=
  ⟨10000, 0, some #v[100, 100, 0, 0, 0, 0, 0, 0, 0, 0, 0, 0, 0, 0, 0, 0], 5, -14, 0,
    fun _ => true, .ok 0⟩

def ddKey : KeyT :=
  ⟨#v[100, 100, 0, 0, 0, 0, 0, 0, 0, 0, 0, 0, 0, 0, 0, 0], 5, 0⟩

/-- The second sample has loaded the count when the key is deleted. -/
def interruptedRound : List Action :=
  [.sample 0 ddSample, .advance 0 0, .advance 0 0, .start, .call none none,
    .call none none, .sample 1 ddSample, .advance 1 0, .advance 1 0, .call none none,
    .advance 1 0, .sample 0 ddSample, .advance 0 3, .advance 0 3]

theorem samples_accounted_interrupted :
    ∃ loader, exec (Loader.step []) (.boot 0) interruptedRound = some loader ∧
      charged ddKey loader.console.output + (loader.counts.lookup ddKey).getD 0 = 2 := by
  obtain ⟨loader, run, settled⟩ : ∃ loader,
      exec (Loader.step []) (.boot 0) interruptedRound = some loader ∧
      loader.phase.deletes ddKey = false := ⟨_, rfl, by decide +kernel⟩
  have undisturbed : EveryStep (Loader.step []) Undisturbed (.boot 0) interruptedRound :=
    ⟨trivial, trivial, trivial, trivial, trivial, trivial, trivial, trivial, trivial,
      trivial, .inr (show (0 : Nat) ∉ [] by decide), trivial, trivial, trivial, trivial⟩
  refine ⟨loader, run, ?_⟩
  rw [samples_accounted undisturbed run ddKey settled]
  decide +kernel

-- Two samples that load the same count are counted once.
example :
    (exec (Loader.step []) (.boot 0)
      [.sample 0 ddSample, .advance 0 0, .advance 0 0, .sample 0 ddSample, .advance 0 0,
        .sample 1 ddSample, .advance 1 0, .advance 0 0, .advance 1 0, .advance 0 0,
        .advance 1 0]).map (fun loader => loader.counts.lookup ddKey) = some (some 2) := by
  decide +kernel

/-! A round that nothing interrupts. -/

def Output.entry : Output → Option (KeyT × UInt64)
  | .stack key count _ _ => some (key, count)
  | .collisions | .errStackid _ _ | .bug => none

section Round

variable {syms : List Ksym} {loader : Loader}

theorem entry_warnings (key : KeyT) (warned : Bool) :
    (warnings key warned).filterMap Output.entry = [] := by
  rw [warnings]
  split
  · rfl
  · split
    · rfl
    · rfl

def calling (answers : List (Option (List UInt64) × Option (List UInt64))) :
    List Action :=
  answers.map fun answer => .call answer.1 answer.2

theorem three_calls {key next : KeyT} {value : UInt64}
    {first second third : Option (List UInt64) × Option (List UInt64)}
    {rest : List (Option (List UInt64) × Option (List UInt64))}
    (phase : loader.phase = .nextKey key)
    (follows : loader.counts.nextKey key = some next)
    (found : loader.counts.lookup next = some value) :
    exec (Loader.step syms) loader (calling (first :: second :: third :: rest)) =
      exec (Loader.step syms)
        { loader.delete next with
          phase := .nextKey next
          value
          console := printStack syms next value second.1 second.2 loader.console }
        (calling rest) := by
  simp only [Loader.counts] at follows found
  simp only [calling, List.map_cons, exec, Loader.step, Loader.call, Loader.delete,
    Loader.counts, phase, follows, found, Option.getD_some, Option.bind_some]

theorem last_call {key : KeyT} (answer : Option (List UInt64) × Option (List UInt64))
    (phase : loader.phase = .nextKey key) (last : loader.counts.nextKey key = none) :
    ∃ final lines, exec (Loader.step syms) loader (calling [answer]) = some final ∧
      final.counts = loader.counts ∧ (final.phase = .idle ∨ final.phase = .exited) ∧
      final.console.output = loader.console.output ++ lines ∧
      lines.filterMap Output.entry = [] := by
  simp only [calling, List.map_cons, List.map_nil, exec, Loader.step, Loader.call, phase,
    last]
  split
  · exact ⟨_, [], rfl, rfl, .inl rfl, (List.append_nil _).symm, rfl⟩
  · exact ⟨_, [.bug], rfl, rfl, .inr rfl, rfl, rfl⟩

theorem exists_three {Entry : Type} {entries : List Entry} {count : Nat}
    (enough : entries.length = 3 * (count + 1) + 1) :
    ∃ first second third rest, entries = first :: second :: third :: rest ∧
      rest.length = 3 * count + 1 := by
  rcases entries with _ | ⟨first, _ | ⟨second, _ | ⟨third, rest⟩⟩⟩
  · cases enough
  · simp only [List.length_cons, List.length_nil] at enough
    omega
  · simp only [List.length_cons, List.length_nil] at enough
    omega
  · simp only [List.length_cons] at enough
    exact ⟨first, second, third, rest, rfl, by omega⟩

/-- From a key that is not the last one on, everything is printed and deleted: a key
that has been deleted is followed by the first of those that are left. -/
theorem drained {key : KeyT}
    {answers : List (Option (List UInt64) × Option (List UInt64))}
    (phase : loader.phase = .nextKey key)
    (follows : loader.counts.keysAfter key = [] → loader.counts.keys = [])
    (enough : answers.length = 3 * loader.counts.keys.length + 1) :
    ∃ final lines, exec (Loader.step syms) loader (calling answers) = some final ∧
      final.counts.keys = [] ∧ (final.phase = .idle ∨ final.phase = .exited) ∧
      final.console.output = loader.console.output ++ lines ∧
      (lines.filterMap Output.entry).Perm loader.counts.entries := by
  generalize size : loader.counts.keys.length = count at enough
  induction count generalizing loader key answers with
  | zero =>
      have empty := List.length_eq_zero_iff.mp size
      obtain ⟨answer, rfl⟩ := List.length_eq_one_iff.mp enough
      have last : loader.counts.nextKey key = none := by
        rw [HashTable.nextKey, List.head?_eq_none_iff, ← List.suffix_nil, ← empty]
        exact loader.counts.keysAfter_suffix key
      obtain ⟨final, lines, ran, counts, ended, output, nothing⟩ :=
        @last_call syms loader key answer phase last
      refine ⟨final, lines, ran, counts ▸ empty, ended, output, ?_⟩
      rw [nothing, List.map_eq_nil_iff.mp empty]
  | succ count induction =>
      obtain ⟨first, second, third, rest, rfl, remaining⟩ := exists_three enough
      cases after : loader.counts.keysAfter key with
      | nil =>
          rw [follows after] at size
          cases size
      | cons next later =>
          have member : next ∈ loader.counts.keys :=
            (loader.counts.keysAfter_suffix key).subset (after ▸ List.mem_cons_self)
          obtain ⟨value, found⟩ := Option.isSome_iff_exists.mp
            (HashTable.isSome_lookup_iff.mpr member)
          have perm := HashTable.perm_remove found
          have goes : loader.counts.nextKey key = some next := by
            rw [HashTable.nextKey, after]
            rfl
          rw [three_calls phase goes found]
          have fewer : (loader.delete next).counts.keys.length = count := by
            have length := HashTable.length_keys_remove found
            rw [Loader.counts_delete]
            omega
          have absent : next ∉ (loader.delete next).counts.keys := by
            rw [Loader.counts_delete]
            exact loader.counts.notMem_keys_remove next
          obtain ⟨final, lines, ran, empty, ended, output, entries⟩ :=
            @induction { loader.delete next with
              phase := .nextKey next
              value
              console := printStack syms next value second.1 second.2 loader.console }
              next rest rfl
              (fun none => (HashTable.keysAfter_of_absent absent).symm.trans none)
              fewer remaining
          refine ⟨final, .stack next value (second.1.map (kernFrames syms))
            (second.2.map frames) :: warnings next loader.console.warned ++ lines, ran,
            empty, ended, ?_, ?_⟩
          · rw [output]
            exact List.append_assoc ..
          · refine List.Perm.trans ?_ perm
            rw [List.filterMap_append, List.filterMap_cons, entry_warnings,
              ← Loader.counts_delete]
            exact entries.cons _

theorem exec_start (idle : loader.phase = .idle) (actions : List Action) :
    exec (Loader.step syms) loader (.start :: actions) =
      exec (Loader.step syms)
        { loader with
          phase := .nextKey zeroKey
          console := { loader.console with seen := ⟨false, false⟩ } } actions := by
  simp only [exec, Loader.step, Loader.start, idle, Option.bind_some]

theorem keysAfter_eq_nil {counts : CountMap} {key : KeyT}
    (none : counts.keysAfter key = []) :
    counts.keys = [] ∨ counts.keys.getLast? = some key := by
  by_cases member : key ∈ counts.keys
  · obtain ⟨before, after, split⟩ := List.append_of_mem member
    rw [HashTable.keysAfter_of_split split] at none
    subst none
    right
    rw [split, List.getLast?_concat]
  · left
    rwa [HashTable.keysAfter_of_absent member] at none

end Round

/-- A round that no sample interrupts prints every entry of the table once and
leaves the table empty, unless the key with which it begins is the last one of the
table: then it ends at once, and the loader exits. -/
theorem print_stacks_drains {syms : List Ksym} {loader : Loader}
    {answers : List (Option (List UInt64) × Option (List UInt64))}
    (idle : loader.phase = .idle)
    (enough : answers.length = 3 * loader.counts.keys.length + 1) :
    (loader.counts.keys.getLast? ≠ some zeroKey →
      ∃ final lines,
        exec (Loader.step syms) loader (.start :: calling answers) = some final ∧
        final.counts.keys = [] ∧ (final.phase = .idle ∨ final.phase = .exited) ∧
        final.console.output = loader.console.output ++ lines ∧
        (lines.filterMap Output.entry).Perm loader.counts.entries) ∧
    (loader.counts.keys.getLast? = some zeroKey →
      ∀ answer, ∃ final,
        exec (Loader.step syms) loader (.start :: calling [answer]) = some final ∧
        final.counts = loader.counts ∧ final.phase = .exited ∧
        final.console.output = loader.console.output ++ [.bug]) := by
  refine ⟨fun notLast => ?_, fun last answer => ?_⟩
  · rw [exec_start idle]
    refine drained rfl (fun none => ?_) enough
    exact (keysAfter_eq_nil none).resolve_right notLast
  · rw [exec_start idle]
    obtain ⟨before, split⟩ := List.getLast?_eq_some_iff.mp last
    have ends : loader.host.shared.contents.nextKey zeroKey = none := by
      rw [Loader.counts] at split
      rw [HashTable.nextKey, HashTable.keysAfter_of_split split]
      rfl
    refine ⟨{ loader with
      phase := .exited
      console := ⟨loader.console.output ++ [.bug], ⟨false, false⟩, loader.console.warned⟩ },
      ?_, rfl, rfl, rfl⟩
    simp [calling, exec, Loader.step, Loader.call, Loader.print, Loader.counts, ends]

def namelessSample : Sample :=
  { ddSample with comm := some (Vector.replicate _ 1) }

def sampledTwice : List Action :=
  [.sample 0 ddSample, .advance 0 0, .advance 0 0, .sample 0 ddSample, .advance 0 0,
    .advance 0 0, .advance 0 0, .sample 0 namelessSample, .advance 0 1, .advance 0 1]

theorem print_stacks_drains_two :
    ∃ loader final, exec (Loader.step []) (.boot 0) sampledTwice = some loader ∧
      loader.counts.entries.map Prod.snd = [1, 2] ∧
      exec (Loader.step []) loader (.start :: calling (List.replicate 7 (none, none))) =
        some final ∧
      final.counts.keys = [] := by
  obtain ⟨loader, run, idle, counted, size, last⟩ : ∃ loader,
      exec (Loader.step []) (.boot 0) sampledTwice = some loader ∧
      loader.phase = .idle ∧ loader.counts.entries.map Prod.snd = [1, 2] ∧
      loader.counts.keys.length = 2 ∧ loader.counts.keys.getLast? ≠ some zeroKey :=
    ⟨_, rfl, rfl, by decide +kernel, by decide +kernel, by decide +kernel⟩
  have enough : (List.replicate 7 ((none, none) : Option (List UInt64) ×
      Option (List UInt64))).length = 3 * loader.counts.keys.length + 1 := by
    rw [size]
    rfl
  obtain ⟨final, _, ran, empty, _⟩ := (print_stacks_drains idle enough).1 last
  exact ⟨loader, final, run, counted, ran, empty⟩

/-! The test at the end of a round. -/

def Output.names : Output → List (List UInt8)
  | .stack _ _ (some kern) _ => kern.filterMap (Option.map Ksym.name)
  | .stack _ _ none _ | .collisions | .errStackid _ _ | .bug => []

def names (lines : List Output) : List (List UInt8) :=
  lines.flatMap Output.names

/-- What the flags say of the names that were printed. -/
structure Tells (seen : Seen) (names : List (List UInt8)) : Prop where
  sysRead : seen.sysRead = true ↔ ∃ name ∈ names, ¬ sysReadName <:+: name
  sysWrite : seen.sysWrite = true ↔
    ∃ name ∈ names, sysReadName <:+: name ∧ ¬ sysWriteName <:+: name

theorem tells_name {seen : Seen} {names : List (List UInt8)} (tells : Tells seen names)
    (name : List UInt8) : Tells (seen.name name) (names ++ [name]) := by
  obtain ⟨sysRead, sysWrite⟩ := tells
  simp only [Seen.name]
  by_cases read : sysReadName <:+: name
  · by_cases write : sysWriteName <:+: name
    · constructor <;> simp [read, write, sysRead, sysWrite, or_and_right, exists_or]
    · constructor <;> simp [read, write, sysRead, or_and_right, exists_or]
  · constructor <;> simp [read, sysWrite, or_and_right, exists_or]

theorem tells_frames {seen : Seen} {names : List (List UInt8)} (tells : Tells seen names)
    (kern : List (Option Ksym)) :
    Tells (kern.foldl Seen.frame seen)
      (names ++ kern.filterMap (Option.map Ksym.name)) := by
  induction kern generalizing seen names with
  | nil =>
      rw [List.filterMap_nil, List.append_nil]
      exact tells
  | cons frame rest induction =>
      cases frame with
      | none => exact induction tells
      | some sym =>
          have later := induction (tells_name tells sym.name)
          rw [List.append_assoc] at later
          exact later

/-- What a round has printed, and how it stands. -/
structure Judges (before : List Output) (loader : Loader) (lines : List Output) : Prop where
  output : loader.console.output = before ++ lines
  tells : Tells loader.console.seen (names lines)
  passed : loader.phase = .idle → loader.console.seen = ⟨true, true⟩
  failed : loader.phase = .exited → loader.console.seen ≠ ⟨true, true⟩

theorem names_warnings (key : KeyT) (warned : Bool) : names (warnings key warned) = [] := by
  rw [warnings]
  split
  · rfl
  · split
    · rfl
    · rfl

section Judges

variable {syms : List Ksym} {before : List Output} {loader next : Loader}
  {lines : List Output}

theorem judges_call {kern user : Option (List UInt64)} (judges : Judges before loader lines)
    (called : loader.call syms kern user = some next) :
    ∃ more, Judges before next (lines ++ more) := by
  have quiet : ∀ {next : Loader}, next.console = loader.console →
      (next.phase = .idle → loader.console.seen = ⟨true, true⟩) →
      next.phase ≠ .exited → ∃ more, Judges before next (lines ++ more) := by
    intro next same passed goes
    refine ⟨[], ?_⟩
    rw [List.append_nil]
    refine ⟨?_, ?_, ?_, fun exited => absurd exited goes⟩
    · rw [same, judges.output]
    · rw [same]
      exact judges.tells
    · rw [same]
      exact passed
  cases calls_of_call called with
  | found phase follows =>
      exact quiet rfl (fun same => (by cases same)) (fun same => (by cases same))
  | passed phase last seen =>
      exact quiet rfl (fun _ => seen) (fun same => (by cases same))
  | failed phase last unseen =>
      refine ⟨[.bug], ?_, ?_, fun same => (by cases same), fun _ => unseen⟩
      · show loader.console.output ++ [.bug] = _
        rw [judges.output, List.append_assoc]
      · show Tells loader.console.seen (names (lines ++ [.bug]))
        rw [names, List.flatMap_append, List.flatMap_singleton, Output.names,
          List.append_nil]
        exact judges.tells
  | @printed key value phase read =>
      refine ⟨.stack key value (kern.map (kernFrames syms)) (user.map frames) ::
        warnings key loader.console.warned, ?_, ?_, fun same => (by cases same),
        fun same => (by cases same)⟩
      · show loader.console.output ++ _ = _
        rw [judges.output, List.append_assoc]
      · show Tells (List.foldl Seen.frame loader.console.seen _) (names (lines ++ _))
        have warned := names_warnings key loader.console.warned
        rw [names] at warned
        rw [names, List.flatMap_append, List.flatMap_cons, warned, List.append_nil]
        have later := tells_frames judges.tells ((kern.map (kernFrames syms)).getD [])
        cases kern with
        | none => exact later
        | some ip => exact later
  | deleted phase =>
      exact quiet rfl (fun same => (by cases same)) (fun same => (by cases same))

theorem judges_run {schedule : List Action} {final : Loader}
    (judges : Judges before loader lines) (once : .start ∉ schedule)
    (run : exec (Loader.step syms) loader schedule = some final) :
    ∃ more, Judges before final (lines ++ more) := by
  induction schedule generalizing loader lines with
  | nil =>
      obtain rfl := Option.some.inj run
      exact ⟨[], (List.append_nil lines).symm ▸ judges⟩
  | cons action rest induction =>
      obtain ⟨next, stepped, remaining⟩ := exec_cons_eq_some.mp run
      rw [List.mem_cons, not_or] at once
      have goes : ∃ more, Judges before next (lines ++ more) := by
        cases action with
        | sample cpu sample =>
            obtain ⟨host, _, rfl⟩ := Option.map_eq_some_iff.mp stepped
            refine ⟨[], ?_⟩
            rw [List.append_nil]
            exact ⟨judges.output, judges.tells, judges.passed, judges.failed⟩
        | advance cpu element =>
            obtain ⟨host, _, rfl⟩ := Option.map_eq_some_iff.mp stepped
            refine ⟨[], ?_⟩
            rw [List.append_nil]
            exact ⟨judges.output, judges.tells, judges.passed, judges.failed⟩
        | start => exact absurd rfl once.1
        | call kern user => exact judges_call judges stepped
      obtain ⟨more, judgesNext⟩ := goes
      obtain ⟨later, judgesFinal⟩ := induction judgesNext once.2 remaining
      rw [List.append_assoc] at judgesFinal
      exact ⟨_, judgesFinal⟩

end Judges

/-- The test at the end of a round asks for a name without `sys_read` in it and for
one that has it but not `sys_write`.  Whether `sys_write` is ever called does not
matter. -/
theorem round_passes_iff {syms : List Ksym} {loader final : Loader}
    {schedule : List Action}
    (run : exec (Loader.step syms) loader (.start :: schedule) = some final)
    (once : .start ∉ schedule) (ended : final.phase = .idle ∨ final.phase = .exited) :
    ∃ lines, final.console.output = loader.console.output ++ lines ∧
      (final.phase = .idle ↔
        (∃ name ∈ names lines, ¬ sysReadName <:+: name) ∧
          ∃ name ∈ names lines, sysReadName <:+: name ∧ ¬ sysWriteName <:+: name) := by
  obtain ⟨first, started, remaining⟩ := exec_cons_eq_some.mp run
  obtain ⟨_, rfl⟩ := start_eq_some started
  have initial : Judges loader.console.output
      { loader with
        phase := .nextKey zeroKey
        console := { loader.console with seen := ⟨false, false⟩ } } [] := by
    refine ⟨(List.append_nil _).symm, ⟨?_, ?_⟩, fun same => (by cases same),
      fun same => (by cases same)⟩
    · simp [names]
    · simp [names]
  obtain ⟨lines, output, ⟨sysRead, sysWrite⟩, passed, failed⟩ :=
    judges_run initial once remaining
  refine ⟨lines, output, ?_⟩
  rw [List.nil_append] at sysRead sysWrite
  rw [← sysRead, ← sysWrite]
  constructor
  · intro idle
    rw [passed idle]
    exact ⟨rfl, rfl⟩
  · rintro ⟨read, write⟩
    exact ended.resolve_right fun exited => failed exited (Seen.ext read write)

def readSymbolTable : List Ksym :=
  [⟨16, sysReadName⟩, ⟨32, [120]⟩, ⟨48, [121]⟩]

def readingRound : List Action :=
  [.call none none, .call (some [20, 36]) none, .call none none, .call none none]

theorem round_passes_iff_reading :
    ∃ loader final lines,
      exec (Loader.step readSymbolTable) loader (.start :: readingRound) = some final ∧
      final.phase = .idle ∧ final.console.output = loader.console.output ++ lines ∧
      ∃ name ∈ names lines, sysReadName <:+: name ∧ ¬ sysWriteName <:+: name := by
  obtain ⟨loader, final, run, idle⟩ : ∃ loader final,
      exec (Loader.step readSymbolTable) loader (.start :: readingRound) = some final ∧
      final.phase = .idle :=
    ⟨(exec (Loader.step readSymbolTable) (.boot 0)
      [.sample 0 ddSample, .advance 0 0, .advance 0 0]).getD (.boot 0), _, rfl,
      by decide +kernel⟩
  have once : .start ∉ readingRound := by simp [readingRound]
  obtain ⟨lines, output, passes⟩ := round_passes_iff run once (.inl idle)
  exact ⟨loader, final, lines, run, idle, output, (passes.mp idle).2⟩

/-! The two warnings. -/

def KeyT.Genuine (key : KeyT) : Prop :=
  0 ≤ key.kernstack.toInt32 ∧ 0 ≤ key.userstack.toInt32

theorem warnings_of_genuine {key : KeyT} (genuine : key.Genuine) (warned : Bool) :
    warnings key warned = [] := by
  have negative : eexist.toInt32 < 0 := by decide
  have other : key.kernstack ≠ eexist := by
    intro same
    have positive := genuine.1
    rw [same] at positive
    exact absurd positive (Int32.not_le.mpr negative)
  rw [warnings, if_neg (fun both => other both.1),
    if_neg (fun both => absurd genuine.1 (Int32.not_le.mpr both.1))]

def Action.Bucketed : Action → Prop
  | .sample _ taken => taken.kernStack.toInt < 2 ^ 31 ∧ taken.userStack.toInt < 2 ^ 31
  | .advance .. | .start | .call .. => True

structure Quiet (loader : Loader) : Prop where
  keys : ∀ key ∈ loader.counts.keys, key.Genuine
  running : ∀ cpu, (loader.host.running cpu).Uses (Access.Inserts KeyT.Genuine)
  phase : ∀ key, loader.phase = .lookup key → key.Genuine
  output : ∀ line ∈ loader.console.output, line ≠ .collisions ∧ ∀ kern user,
    line ≠ .errStackid kern user

section Quiet

variable {syms : List Ksym} {loader next : Loader}

theorem quiet_sample {cpu : Nat} {sample : Sample} (quiet : Quiet loader)
    (bucketed : (Action.sample cpu sample).Bucketed)
    (stepped : loader.step syms (.sample cpu sample) = some next) : Quiet next := by
  obtain ⟨host, launched, rfl⟩ := Option.map_eq_some_iff.mp stepped
  obtain rfl := Host.launch_eq_some launched
  refine ⟨quiet.keys, Host.uses_put quiet.running (uses_rexProg1 fun key taken => ?_) _,
    quiet.phase, quiet.output⟩
  obtain ⟨_, _, kern, user⟩ := sampleKey_eq_key taken
  exact ⟨stackid_nonneg bucketed.1 kern, stackid_nonneg bucketed.2 user⟩

theorem quiet_advance {cpu element : Nat} (quiet : Quiet loader)
    (stepped : loader.step syms (.advance cpu element) = some next) : Quiet next := by
  obtain ⟨host, advanced, rfl⟩ := Option.map_eq_some_iff.mp stepped
  obtain ⟨access, rest, answer, counts, running, served, rfl⟩ :=
    Host.advance_eq_some advanced
  have uses := quiet.running cpu
  rw [running] at uses
  refine ⟨fun key member => ?_, Host.uses_put quiet.running (uses.2 answer) _, quiet.phase,
    quiet.output⟩
  exact (mem_keys_serve uses.1 served member).elim (quiet.keys key) id

theorem quiet_call {kern user : Option (List UInt64)} (quiet : Quiet loader)
    (called : loader.call syms kern user = some next) : Quiet next := by
  cases calls_of_call called with
  | @found key found phase follows =>
      refine ⟨quiet.keys, quiet.running, fun other same => ?_, quiet.output⟩
      obtain rfl := Phase.lookup.inj same
      exact quiet.keys _ ((loader.counts.keysAfter_suffix key).subset
        (List.mem_of_head? follows))
  | passed phase last seen =>
      exact ⟨quiet.keys, quiet.running, fun other same => (by cases same), quiet.output⟩
  | failed phase last unseen =>
      refine ⟨quiet.keys, quiet.running, fun other same => (by cases same), ?_⟩
      refine List.forall_mem_append.mpr ⟨quiet.output, ?_⟩
      rintro line member
      rw [List.mem_singleton.mp member]
      exact ⟨fun same => (by cases same), fun _ _ same => (by cases same)⟩
  | @printed key value phase read =>
      refine ⟨quiet.keys, quiet.running, fun other same => (by cases same), ?_⟩
      refine List.forall_mem_append.mpr ⟨quiet.output, ?_⟩
      intro line member
      rw [warnings_of_genuine (quiet.phase key phase)] at member
      rw [List.mem_singleton.mp member]
      exact ⟨fun same => (by cases same), fun _ _ same => (by cases same)⟩
  | @deleted key phase =>
      refine ⟨fun other member => ?_, quiet.running, fun other same => (by cases same),
        quiet.output⟩
      have kept : other ∈ (loader.delete key).counts.keys := member
      rw [Loader.counts_delete] at kept
      obtain ⟨entry, stored, rfl⟩ := List.mem_map.mp kept
      exact quiet.keys _ (List.mem_map_of_mem (HashTable.mem_remove.mp stored).1)

end Quiet

/-- The loader warns of collisions among the stacks, and of stacks that could not be
taken, when it finds an error in the place of an id.  It never does: the program
puts the result of its own message there. -/
theorem warnings_never_printed {syms : List Ksym} {value : UInt64}
    {schedule : List Action} {loader : Loader}
    (bucketed : ∀ action ∈ schedule, action.Bucketed)
    (run : exec (Loader.step syms) (.boot value) schedule = some loader) :
    .collisions ∉ loader.console.output ∧
      ∀ kern user, .errStackid kern user ∉ loader.console.output := by
  have initial : Quiet (.boot value) :=
    ⟨fun key member => (by cases member), fun _ => trivial,
      fun key phase => (by cases phase), fun line member => (by cases member)⟩
  suffices quiet : Quiet loader from
    ⟨fun member => (quiet.output _ member).1 rfl,
      fun kern user member => (quiet.output _ member).2 kern user rfl⟩
  generalize Loader.boot value = first at run initial
  induction schedule generalizing first with
  | nil => exact Option.some.inj run ▸ initial
  | cons action rest induction =>
      obtain ⟨next, stepped, remaining⟩ := exec_cons_eq_some.mp run
      obtain ⟨now, later⟩ := List.forall_mem_cons.mp bucketed
      refine induction later next remaining ?_
      cases action with
      | sample cpu sample => exact quiet_sample initial now stepped
      | advance cpu element => exact quiet_advance initial stepped
      | start =>
          obtain ⟨_, rfl⟩ := start_eq_some stepped
          exact ⟨initial.keys, initial.running, fun other same => (by cases same),
            initial.output⟩
      | call kern user => exact quiet_call initial stepped

theorem warnings_never_printed_interrupted :
    ∃ loader, exec (Loader.step []) (.boot 0) interruptedRound = some loader ∧
      ddSample.userStack < 0 ∧ .collisions ∉ loader.console.output ∧
      ∀ kern user, .errStackid kern user ∉ loader.console.output := by
  obtain ⟨loader, run⟩ : ∃ loader,
      exec (Loader.step []) (.boot 0) interruptedRound = some loader := ⟨_, rfl⟩
  have sampled : ∀ cpu, (Action.sample cpu ddSample).Bucketed :=
    fun _ => ⟨by decide, by decide⟩
  have bucketed : ∀ action ∈ interruptedRound, action.Bucketed := by
    simp only [interruptedRound, List.forall_mem_cons, List.not_mem_nil, false_imp_iff,
      implies_true, and_true]
    exact ⟨sampled 0, trivial, trivial, trivial, trivial, trivial, sampled 1, trivial,
      trivial, trivial, trivial, sampled 0, trivial, trivial⟩
  exact ⟨loader, run, by decide, warnings_never_printed bucketed run⟩

end Rex.TraceEvent
