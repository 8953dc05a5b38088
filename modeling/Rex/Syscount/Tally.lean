import Rex.Syscount.Trace

namespace Rex.Syscount

open Effect Machine

/-! What the maps hold, in terms of the events that the programs have seen.  A
history has the last event first. -/

def Event.thread (event : Event) : Option Int32 :=
  event.kernel.task.map TaskStruct.pid

def Event.began : Event → Option UInt64
  | .enter _ kernel => some kernel.ktime
  | .exit .. => none

/-- When the call that a thread is in had begun, if the last that was seen of it
is that it was entered. -/
def opened (id : UInt32) (pid : Int32) : List Event → Option UInt64
  | [] => none
  | event :: before =>
      if event.syscall = id ∧ event.thread = some pid then
        event.began
      else
        opened id pid before

/-- What an event adds to a total. -/
def Event.amount (before : List Event) : Total → Event → Option UInt64
  | .counts, .enter .. => some 1
  | .errors, .exit _ ret _ => if ret < 0 then some 1 else none
  | .latency, .exit id _ kernel =>
      kernel.task.bind fun task =>
        (opened (syscallOf id) task.pid before).map (kernel.ktime - ·)
  | _, _ => none

def amounts (total : Total) (id : UInt32) : List Event → List UInt64
  | [] => []
  | event :: before =>
      if event.syscall = id then
        (event.amount before total).toList ++ amounts total id before
      else
        amounts total id before

/-- The sum as a loop forms it, modulo the size of a word. -/
def sumOf (words : List UInt64) : UInt64 :=
  words.foldl (· + ·) 0

theorem foldl_add (start : UInt64) (words : List UInt64) :
    words.foldl (· + ·) start = sumOf words + start := by
  induction words generalizing start with
  | nil => exact (UInt64.zero_add start).symm
  | cons word rest induction =>
      rw [sumOf, List.foldl_cons, List.foldl_cons, induction, induction, UInt64.zero_add,
        UInt64.add_assoc, UInt64.add_comm start]

theorem sumOf_cons (word : UInt64) (rest : List UInt64) :
    sumOf (word :: rest) = sumOf rest + word := by
  rw [sumOf, List.foldl_cons, UInt64.zero_add, foldl_add]

def entryOf : List UInt64 → Option UInt64
  | [] => none
  | amount :: rest => some (sumOf (amount :: rest))

theorem getD_entryOf (amounts : List UInt64) : (entryOf amounts).getD 0 = sumOf amounts := by
  cases amounts with
  | nil => rfl
  | cons amount rest => rfl

theorem entryOf_cons (amount : UInt64) (rest : List UInt64) :
    entryOf (amount :: rest) = some ((entryOf rest).getD 0 + amount) := by
  rw [getD_entryOf, entryOf, sumOf_cons]

structure Represents (maps : Maps) (history : List Event) : Prop where
  totals : ∀ total id, (maps.totals total).lookup id = entryOf (amounts total id history)
  start : ∀ id task, maps.start.lookup (startKey id task) = opened id task.pid history

theorem represents_empty : Represents .empty [] :=
  ⟨fun _ _ => rfl, fun _ _ => rfl⟩

section Step

variable {maps next : Maps} {history : List Event} {event : Event}

theorem amounts_of_none {total : Total} (nothing : event.amount history total = none)
    (id : UInt32) : amounts total id (event :: history) = amounts total id history := by
  rw [amounts, nothing]
  split
  · rfl
  · rfl

theorem lookup_of_amount {total : Total} {amount : UInt64} {before after : TotalMap}
    (adds : event.amount history total = some amount)
    (held : ∀ id, before.lookup id = entryOf (amounts total id history))
    (added : after.lookup = Function.update before.lookup event.syscall
      (some ((before.lookup event.syscall).getD 0 + amount))) (id : UInt32) :
    after.lookup id = entryOf (amounts total id (event :: history)) := by
  rw [added, amounts, adds]
  by_cases same : event.syscall = id
  · subst same
    rw [if_pos rfl, Function.update_self, held]
    exact (entryOf_cons _ _).symm
  · rw [if_neg same, Function.update_of_ne (Ne.symm same), held]

theorem startKey_of_thread {id : UInt32} {task thread : TaskStruct}
    (running : event.kernel.task = some thread) :
    startKey id task = startKey event.syscall thread ↔
      event.syscall = id ∧ event.thread = some task.pid := by
  rw [startKey_eq_iff, Event.thread, running]
  simp [eq_comm]

theorem start_of_set {thread : TaskStruct} {before after : StartMap}
    (running : event.kernel.task = some thread)
    (held : ∀ id task, before.lookup (startKey id task) = opened id task.pid history)
    (set : after.lookup = Function.update before.lookup (startKey event.syscall thread)
      event.began) (id : UInt32) (task : TaskStruct) :
    after.lookup (startKey id task) = opened id task.pid (event :: history) := by
  rw [set]
  by_cases same : startKey id task = startKey event.syscall thread
  · rw [same, Function.update_self, opened,
      if_pos ((startKey_of_thread running).mp same)]
  · rw [Function.update_of_ne same, held, opened,
      if_neg (fun own => same ((startKey_of_thread running).mpr own))]

theorem opened_of_idle (idle : event.kernel.task = none) (id : UInt32) (pid : Int32) :
    opened id pid (event :: history) = opened id pid history := by
  rw [opened, if_neg]
  rw [Event.thread, idle]
  exact fun own => nomatch own.2

theorem represents_enter {id : Int64} {kernel : Kernel} {value : Int32}
    (represents : Represents maps history)
    (ran : (traceSyscallEnter id kernel).run maps = (.ok value, next)) :
    Represents next (.enter id kernel :: history) := by
  obtain ⟨_, middle, counted, rest⟩ := run_bind_eq_ok.mp ran
  obtain ⟨table, rfl, added⟩ := add_eq_ok counted
  have totals : ∀ total other, ((maps.setTotal .counts table).totals total).lookup other =
      entryOf (amounts total other (.enter id kernel :: history)) := by
    intro total other
    cases total with
    | counts => exact lookup_of_amount rfl (represents.totals .counts) added other
    | errors => rw [amounts_of_none rfl]; exact represents.totals .errors other
    | latency => rw [amounts_of_none rfl]; exact represents.totals .latency other
  cases running : kernel.task with
  | none =>
      rw [running] at rest
      obtain rfl := (Prod.mk.inj rest).2
      refine ⟨totals, fun other task => ?_⟩
      refine (represents.start other task).trans ?_
      exact (opened_of_idle (show (Event.enter id kernel).kernel.task = none from running)
        _ _).symm
  | some thread =>
      rw [running] at rest
      obtain ⟨_, last, stored, ended⟩ := run_bind_eq_ok.mp rest
      obtain rfl := (Prod.mk.inj ended).2
      obtain ⟨start, rfl, set⟩ := updateStart_eq_ok stored
      exact ⟨totals, start_of_set running represents.start set⟩

/-- What the rest of the programs leaves of the two other totals is theirs. -/
theorem represents_charge {id ret : Int64} {kernel : Kernel} {value : Int32}
    (others : ∀ total, total ≠ .latency → ∀ other, (maps.totals total).lookup other =
      entryOf (amounts total other (.exit id ret kernel :: history)))
    (held : ∀ other, (maps.totals .latency).lookup other =
      entryOf (amounts .latency other history))
    (start : ∀ other task, maps.start.lookup (startKey other task) =
      opened other task.pid history)
    (ran : (chargeLatency (syscallOf id) kernel).run maps = (.ok value, next)) :
    Represents next (.exit id ret kernel :: history) := by
  -- without a start, nothing is charged and nothing is open
  have uncharged : Event.amount history .latency (.exit id ret kernel) = none →
      ∀ total other, (maps.totals total).lookup other =
        entryOf (amounts total other (.exit id ret kernel :: history)) := by
    intro nothing total other
    by_cases same : total = .latency
    · rw [same, amounts_of_none nothing, held]
    · exact others total same other
  rw [chargeLatency] at ran
  cases running : kernel.task with
  | none =>
      rw [running] at ran
      obtain rfl := (Prod.mk.inj ran).2
      refine ⟨uncharged (by rw [Event.amount, running]; rfl), fun other task => ?_⟩
      refine (start other task).trans ?_
      exact (opened_of_idle (show (Event.exit id ret kernel).kernel.task = none from running)
        _ _).symm
  | some thread =>
      rw [running] at ran
      dsimp only at ran
      rw [run_get_bind, start] at ran
      have adds : Event.amount history .latency (.exit id ret kernel) =
          (opened (syscallOf id) thread.pid history).map (kernel.ktime - ·) := by
        rw [Event.amount, running]
        rfl
      cases known : opened (syscallOf id) thread.pid history with
      | none =>
          rw [known] at ran adds
          obtain rfl := (Prod.mk.inj ran).2
          refine ⟨uncharged adds, start_of_set running start ?_⟩
          refine (Function.update_eq_self_iff.mpr ?_).symm
          exact ((start _ _).trans known).symm
      | some began =>
          rw [known] at ran adds
          dsimp only at ran
          obtain ⟨_, middle, charged, rest⟩ := run_bind_eq_ok.mp ran
          obtain ⟨table, rfl, added⟩ := add_eq_ok charged
          obtain ⟨_, last, deleted, ended⟩ := run_bind_eq_ok.mp rest
          obtain rfl := (Prod.mk.inj ended).2
          obtain ⟨left, rfl, set⟩ := deleteStart_eq_ok deleted
          refine ⟨fun total other => ?_, start_of_set running start set⟩
          cases total with
          | counts => exact others .counts (fun same => nomatch same) other
          | errors => exact others .errors (fun same => nomatch same) other
          | latency => exact lookup_of_amount adds held added other

theorem represents_exit {id ret : Int64} {kernel : Kernel} {value : Int32}
    (represents : Represents maps history)
    (ran : (traceSyscallExit id ret kernel).run maps = (.ok value, next)) :
    Represents next (.exit id ret kernel :: history) := by
  have counts : ∀ other, (maps.totals .counts).lookup other =
      entryOf (amounts .counts other (.exit id ret kernel :: history)) := by
    intro other
    rw [amounts_of_none rfl]
    exact represents.totals .counts other
  rw [traceSyscallExit] at ran
  dsimp only at ran
  by_cases failed : ret < 0
  · rw [if_pos failed] at ran
    obtain ⟨_, middle, counted, rest⟩ := run_bind_eq_ok.mp ran
    obtain ⟨table, rfl, added⟩ := add_eq_ok counted
    have others : ∀ total, total ≠ .latency → ∀ other,
        ((maps.setTotal .errors table).totals total).lookup other =
          entryOf (amounts total other (.exit id ret kernel :: history)) := by
      intro total kept other
      cases total with
      | counts => exact counts other
      | errors =>
          have adds : Event.amount history .errors (.exit id ret kernel) = some 1 :=
            if_pos failed
          exact lookup_of_amount adds (represents.totals .errors) added other
      | latency => exact absurd rfl kept
    exact represents_charge others (represents.totals .latency) represents.start rest
  · rw [if_neg failed] at ran
    refine represents_charge (fun total kept other => ?_) (represents.totals .latency)
      represents.start ran
    cases total with
    | counts => exact counts other
    | errors =>
        have nothing : Event.amount history .errors (.exit id ret kernel) = none :=
          if_neg failed
        rw [amounts_of_none nothing]
        exact represents.totals .errors other
    | latency => exact absurd rfl kept

theorem represents_step {value : Int32} (represents : Represents maps history)
    (ran : event.program.run maps = (.ok value, next)) :
    Represents next (event :: history) := by
  cases event with
  | enter id kernel => exact represents_enter represents ran
  | exit id ret kernel => exact represents_exit represents ran

end Step

/-- A program comes to its end. -/
def Succeeds (maps : Maps) (event : Event) : Prop :=
  ∃ value, (event.program.run maps).1 = .ok value

theorem represents_run {maps last : Maps} {history events : List Event}
    (represents : Represents maps history)
    (succeeds : EveryStep handle Succeeds maps events)
    (run : exec handle maps events = some last) :
    Represents last (events.reverse ++ history) := by
  induction events generalizing maps history with
  | nil => exact Option.some.inj run ▸ represents
  | cons event rest induction =>
      obtain ⟨next, taken, remaining⟩ := exec_cons_eq_some.mp run
      simp only [EveryStep, taken] at succeeds
      obtain ⟨⟨value, ended⟩, later⟩ := succeeds
      obtain rfl := Option.some.inj taken
      have ran : event.program.run maps = (.ok value, (event.program.run maps).2) :=
        Prod.ext ended rfl
      rw [List.reverse_cons, List.append_assoc]
      exact induction (represents_step represents ran) later remaining

/-! The totals that only count. -/

def Event.enters (id : UInt32) : Event → Bool
  | .enter entered _ => syscallOf entered = id
  | .exit .. => false

def Event.fails (id : UInt32) : Event → Bool
  | .enter .. => false
  | .exit left ret _ => syscallOf left = id ∧ ret < 0

def countEntry (count : Nat) : Option UInt64 :=
  if count = 0 then none else some (.ofNat count)

theorem sumOf_replicate_one (count : Nat) :
    sumOf (List.replicate count 1) = .ofNat count := by
  induction count with
  | zero => rfl
  | succ count induction =>
      rw [List.replicate_succ, sumOf_cons, induction, UInt64.ofNat_add]
      rfl

theorem entryOf_replicate (count : Nat) :
    entryOf (List.replicate count 1) = countEntry count := by
  cases count with
  | zero => rfl
  | succ count =>
      rw [countEntry, if_neg (Nat.succ_ne_zero count), ← sumOf_replicate_one]
      rfl

theorem amounts_counts (id : UInt32) (history : List Event) :
    amounts .counts id history =
      List.replicate (history.countP (Event.enters id)) 1 := by
  induction history with
  | nil => rfl
  | cons event before induction =>
      rw [amounts, induction, List.countP_cons]
      cases event with
      | enter entered kernel =>
          by_cases same : syscallOf entered = id
          · simp [Event.syscall, Event.amount, Event.enters, same, List.replicate_succ]
          · simp [Event.syscall, Event.enters, same]
      | exit left ret kernel => simp [Event.amount, Event.enters]

theorem amounts_errors (id : UInt32) (history : List Event) :
    amounts .errors id history =
      List.replicate (history.countP (Event.fails id)) 1 := by
  induction history with
  | nil => rfl
  | cons event before induction =>
      rw [amounts, induction, List.countP_cons]
      cases event with
      | enter entered kernel => simp [Event.amount, Event.fails]
      | exit left ret kernel =>
          by_cases same : syscallOf left = id
          · by_cases failed : ret < 0
            · simp [Event.syscall, Event.amount, Event.fails, same, failed,
                List.replicate_succ]
            · simp [Event.syscall, Event.amount, Event.fails, same, failed]
          · simp [Event.syscall, Event.fails, same]

section Counted

variable {maps : Maps} {events : List Event} (represents : Represents maps events.reverse)

include represents

theorem lookup_counts (id : UInt32) : (maps.totals .counts).lookup id =
    countEntry (events.countP (Event.enters id)) := by
  rw [represents.totals, amounts_counts, List.countP_reverse, entryOf_replicate]

theorem lookup_errors (id : UInt32) : (maps.totals .errors).lookup id =
    countEntry (events.countP (Event.fails id)) := by
  rw [represents.totals, amounts_errors, List.countP_reverse, entryOf_replicate]

end Counted

/-- As long as no program is refused a place in a map, the maps say what has
happened: how often each system call was entered and how often it has failed,
the sum of the times between its entries and the exits that followed in the same
thread, and when the calls have begun in which the threads still are. -/
theorem tables_exact {events : List Event} {last : Maps}
    (succeeds : EveryStep handle Succeeds .empty events)
    (run : exec handle .empty events = some last) :
    (∀ id, (last.totals .counts).lookup id =
      countEntry (events.countP (Event.enters id))) ∧
    (∀ id, (last.totals .errors).lookup id =
      countEntry (events.countP (Event.fails id))) ∧
    (∀ id, (last.totals .latency).lookup id =
      entryOf (amounts .latency id events.reverse)) ∧
    ∀ id task, last.start.lookup (startKey id task) =
      opened id task.pid events.reverse := by
  have represents := represents_run represents_empty succeeds run
  rw [List.append_nil] at represents
  exact ⟨lookup_counts represents, lookup_errors represents, represents.totals .latency,
    represents.start⟩

def Kernel.at (pid : Int32) (time : UInt64) : Kernel :=
  ⟨some ⟨pid, pid⟩, time, fun _ => .ok 0, .ok 0, .ok ()⟩

def writers : List Event :=
  [.enter 1 (.at 7 10), .enter 1 (.at 8 12), .exit 1 (-11) (.at 7 15),
    .enter 7 (.at 7 20), .exit 1 64 (.at 8 32)]

theorem tables_exact_writers :
    EveryStep handle Succeeds .empty writers ∧
    ∃ last, exec handle .empty writers = some last ∧
      (last.totals .counts).lookup 1 = some 2 ∧ (last.totals .errors).lookup 1 = some 1 ∧
      (last.totals .latency).lookup 1 = some 25 ∧
      last.start.lookup (startKey 7 ⟨7, 7⟩) = some 20 := by
  have succeeds : EveryStep handle Succeeds .empty writers :=
    ⟨⟨_, rfl⟩, ⟨_, rfl⟩, ⟨_, rfl⟩, ⟨_, rfl⟩, ⟨_, rfl⟩, trivial⟩
  obtain ⟨last, run⟩ : ∃ last, exec handle .empty writers = some last := ⟨_, rfl⟩
  obtain ⟨counts, errors, latency, start⟩ := tables_exact succeeds run
  refine ⟨succeeds, last, run, ?_, ?_, ?_, ?_⟩
  · rw [counts]; decide
  · rw [errors]; decide
  · rw [latency]; decide
  · rw [start]; decide

/-! A call that never returns leaves its start behind for good. -/

section Saturated

variable {maps last : Maps} {event : Event}

/-- The event belongs to none of the calls whose starts are kept. -/
def Event.Elsewhere (maps : Maps) (event : Event) : Prop :=
  ∀ task, event.kernel.task = some task →
    startKey event.syscall task ∉ maps.start.keys

def timing (maps : Maps) : StartMap × TotalMap :=
  (maps.start, maps.totals .latency)

theorem keeps_timing_add {total : Total} (other : total ≠ .latency) (id : UInt32)
    (amount : UInt64) (answer : Except Int32 Nat) :
    Keeps timing (add total id amount answer) := by
  intro maps
  have kept : ∀ table, timing (maps.setTotal total table) = timing maps :=
    fun table => congrArg (Prod.mk maps.start)
      (maps.totals_setTotal_of_ne table other.symm)
  rcases add_cases total id amount answer maps with ⟨value, _, ended⟩ |
    ⟨place, table, _, _, ended⟩ | ⟨code, _, ended⟩
  · rw [ended]
    exact kept _
  · rw [ended]
    exact kept _
  · rw [ended]

theorem timing_updateStart {key time : UInt64} {answer : Except Int32 Nat}
    (full : maps.start.keys.length = 1024) (absent : key ∉ maps.start.keys) :
    ((updateStart key time answer).run maps).2 = maps := by
  cases answer with
  | error code => rfl
  | ok place =>
      have refused : maps.start.update place key time = none :=
        HashTable.update_eq_none_iff.mpr ⟨HashTable.lookup_eq_none_iff.mpr absent, full⟩
      rw [updateStart, run_get_bind, refused]
      rfl

theorem timing_chargeLatency {syscallId : UInt32} {kernel : Kernel}
    (absent : ∀ task, kernel.task = some task →
      startKey syscallId task ∉ maps.start.keys) :
    ((chargeLatency syscallId kernel).run maps).2 = maps := by
  rw [chargeLatency]
  cases running : kernel.task with
  | none => rfl
  | some task =>
      dsimp only
      rw [run_get_bind, HashTable.lookup_eq_none_iff.mpr (absent task running)]
      rfl

theorem timing_after_add {total : Total} {id : UInt32} {amount : UInt64}
    {answer : Except Int32 Nat} {Value : Type} {rest : Unit → Program Value}
    (other : total ≠ .latency)
    (stays : ∀ middle, timing middle = timing maps →
      timing ((rest ()).run middle).2 = timing middle) :
    timing ((add total id amount answer >>= rest).run maps).2 = timing maps := by
  have kept := keeps_timing_add other id amount answer maps
  rw [run_bind]
  split
  · rename_i value middle ended
    rw [ended] at kept
    exact (stays middle kept).trans kept
  · rename_i code middle ended
    rw [ended] at kept
    exact kept

theorem timing_program (full : maps.start.keys.length = 1024)
    (elsewhere : event.Elsewhere maps) :
    timing (event.program.run maps).2 = timing maps := by
  have start : ∀ {middle}, timing middle = timing maps → middle.start = maps.start :=
    fun same => (Prod.mk.inj same).1
  cases event with
  | enter id kernel =>
      refine timing_after_add (fun same => nomatch same) fun middle same => ?_
      cases running : kernel.task with
      | none => rfl
      | some task =>
          have stays : ((updateStart (startKey (syscallOf id) task) kernel.ktime
              kernel.onStart).run middle).2 = middle := by
            apply timing_updateStart
            · rw [start same, full]
            · rw [start same]
              exact elsewhere task running
          dsimp only
          rw [run_bind]
          split
          · rename_i value last ended
            rw [ended] at stays
            exact congrArg timing stays
          · rename_i code last ended
            rw [ended] at stays
            exact congrArg timing stays
  | exit id ret kernel =>
      have charged : ∀ middle, timing middle = timing maps →
          timing ((chargeLatency (syscallOf id) kernel).run middle).2 = timing middle := by
        intro middle same
        refine congrArg timing (timing_chargeLatency ?_)
        rw [start same]
        exact elsewhere
      show timing ((traceSyscallExit id ret kernel).run maps).2 = timing maps
      rw [traceSyscallExit]
      dsimp only
      split
      · exact timing_after_add (fun same => nomatch same) charged
      · exact charged maps rfl

end Saturated

/-- A call that is entered and never left keeps its place among the starts.  Once
all the places are taken, no other call is timed again: whatever it does, both the
starts and the latencies stay as they are. -/
theorem starts_saturate {maps last : Maps} {events : List Event}
    (full : maps.start.keys.length = 1024)
    (elsewhere : ∀ event ∈ events, event.Elsewhere maps)
    (run : exec handle maps events = some last) :
    last.start = maps.start ∧ last.totals .latency = maps.totals .latency := by
  suffices same : timing last = timing maps from Prod.mk.inj same
  induction events generalizing maps with
  | nil => exact congrArg timing (Option.some.inj run).symm
  | cons event rest induction =>
      obtain ⟨next, taken, remaining⟩ := exec_cons_eq_some.mp run
      obtain rfl := Option.some.inj taken
      obtain ⟨now, later⟩ := List.forall_mem_cons.mp elsewhere
      have same := timing_program full now
      have start : (event.program.run maps).2.start = maps.start := (Prod.mk.inj same).1
      refine (induction ?_ ?_ remaining).trans same
      · rw [start, full]
      · intro event member
        rw [Event.Elsewhere, start]
        exact later event member

def exited : StartMap where
  entries := (List.range 1024).map fun pid => (packed 60 (.ofNat pid), 0)
  nodup := by
    rw [List.map_map]
    refine List.nodup_range.map_on fun pid within other near same => ?_
    have high := congrArg (fun word : UInt64 => (word >>> 32).toUInt32) same
    simp only [Function.comp_apply, toUInt32_packed_shift] at high
    have nats := congrArg UInt32.toNat high
    rw [List.mem_range] at within near
    rwa [UInt32.toNat_ofNat_of_lt' (within.trans (by decide)),
      UInt32.toNat_ofNat_of_lt' (near.trans (by decide))] at nats
  bounded := by rw [List.length_map, List.length_range]

def afterExits : Maps :=
  ⟨fun _ => .empty, exited⟩

def oneWrite : List Event :=
  [.enter 1 (.at 7 10), .exit 1 64 (.at 7 15)]

theorem starts_saturate_exited :
    afterExits.start.keys.length = 1024 ∧
    ∃ last, exec handle afterExits oneWrite = some last ∧
      (last.totals .latency).lookup 1 = none := by
  have full : afterExits.start.keys.length = 1024 := by
    rw [HashTable.keys, afterExits, exited, List.length_map, List.length_map,
      List.length_range]
  have elsewhere : ∀ task, startKey 1 task ∉ afterExits.start.keys := by
    intro task member
    simp only [HashTable.keys, afterExits, exited, List.map_map, List.mem_map,
      Function.comp_apply] at member
    obtain ⟨pid, _, same⟩ := member
    have low := congrArg UInt64.toUInt32 same
    rw [startKey_eq_packed, toUInt32_packed, toUInt32_packed] at low
    exact absurd low (by decide)
  have others : ∀ event ∈ oneWrite, event.Elsewhere afterExits := by
    intro event member task running
    have same : event.syscall = 1 := by
      rcases List.mem_pair.mp member with rfl | rfl
      · rfl
      · rfl
    rw [same]
    exact elsewhere task
  obtain ⟨last, run⟩ : ∃ last, exec handle afterExits oneWrite = some last := ⟨_, rfl⟩
  refine ⟨full, last, run, ?_⟩
  rw [(starts_saturate full others run).2]
  rfl

end Rex.Syscount
