import Rex.Data.Effect
import Rex.Data.Machine

/-! Programs as trees of the calls that they make.  Between two calls a program
has nothing to do with what it shares with others, so any interleaving of several
programs is one of their calls. -/

inductive Calls (Op : Type) (Answer : Op → Type) (Stop Value : Type) : Type
  | done (value : Value)
  | halt (stop : Stop)
  | call (op : Op) (next : Answer op → Calls Op Answer Stop Value)

namespace Calls

open Machine

variable {Op : Type} {Answer : Op → Type} {Stop Value Next : Type}

def bind : Calls Op Answer Stop Value → (Value → Calls Op Answer Stop Next) →
    Calls Op Answer Stop Next
  | .done value, next => next value
  | .halt stop, _ => .halt stop
  | .call op rest, next => .call op fun answer => (rest answer).bind next

instance : Monad (Calls Op Answer Stop) where
  pure := done
  bind := bind

def request (op : Op) : Calls Op Answer Stop (Answer op) :=
  .call op .done

@[simp] theorem request_bind (op : Op) (next : Answer op → Calls Op Answer Stop Next) :
    (request op >>= next) = .call op next :=
  rfl

def ofExcept : Except Stop Value → Calls Op Answer Stop Value
  | .ok value => .done value
  | .error stop => .halt stop

def finished : Calls Op Answer Stop Value → Bool
  | .done _ | .halt _ => true
  | .call _ _ => false

/-! The calls that a program may make, whatever it is answered. -/

def Uses (Allowed : Op → Prop) : Calls Op Answer Stop Value → Prop
  | .done _ | .halt _ => True
  | .call op next => Allowed op ∧ ∀ answer, (next answer).Uses Allowed

theorem uses_request {Allowed : Op → Prop} {op : Op} (allowed : Allowed op) :
    (request op : Calls Op Answer Stop (Answer op)).Uses Allowed :=
  ⟨allowed, fun _ => trivial⟩

theorem uses_ofExcept (Allowed : Op → Prop) (result : Except Stop Value) :
    (ofExcept result : Calls Op Answer Stop Value).Uses Allowed := by
  cases result with
  | ok value => trivial
  | error stop => trivial

theorem Uses.bind {Allowed : Op → Prop} {program : Calls Op Answer Stop Value}
    {next : Value → Calls Op Answer Stop Next} (first : program.Uses Allowed)
    (rest : ∀ value, (next value).Uses Allowed) :
    (program >>= next).Uses Allowed := by
  induction program with
  | done value => exact rest value
  | halt stop => trivial
  | call op later induction =>
      exact ⟨first.1, fun answer => induction answer (first.2 answer)⟩

/-! A call is served with a choice, which holds all that is left open by the call
and by the state.  A choice that is not possible in the state is not served. -/

section Serve

variable {Choice State View : Type}
  (serve : Choice → (op : Op) → State → Option (Answer op × State))

def advance (choice : Choice) : Calls Op Answer Stop Value → State →
    Option (Calls Op Answer Stop Value × State)
  | .done _, _ | .halt _, _ => none
  | .call op next, state =>
      (serve choice op state).map fun served => (next served.1, served.2)

/-- A program that nothing interrupts. -/
def alone (here : Calls Op Answer Stop Value × State) (choice : Choice) :
    Option (Calls Op Answer Stop Value × State) :=
  here.1.advance serve choice here.2

variable {serve}

theorem advance_eq_some {choice : Choice} {program next : Calls Op Answer Stop Value}
    {state last : State} (moved : program.advance serve choice state = some (next, last)) :
    ∃ op rest answer, program = .call op rest ∧
      serve choice op state = some (answer, last) ∧ next = rest answer := by
  cases program with
  | done value => cases moved
  | halt stop => cases moved
  | call op rest =>
      obtain ⟨⟨answer, middle⟩, served, same⟩ := Option.map_eq_some_iff.mp moved
      obtain ⟨rfl, rfl⟩ := Prod.mk.inj same
      exact ⟨op, rest, answer, rfl, served, rfl⟩

theorem exec_alone_bind {program reached : Calls Op Answer Stop Value}
    {state last : State} {choices : List Choice}
    (run : exec (alone serve) (program, state) choices = some (reached, last))
    (next : Value → Calls Op Answer Stop Next) :
    exec (alone serve) (program >>= next, state) choices = some (reached >>= next, last) := by
  induction choices generalizing program state with
  | nil =>
      obtain ⟨rfl, rfl⟩ := Prod.mk.inj (Option.some.inj run)
      rfl
  | cons choice rest induction =>
      obtain ⟨⟨middle, between⟩, moved, remaining⟩ := exec_cons_eq_some.mp run
      obtain ⟨op, later, answer, rfl, served, rfl⟩ := advance_eq_some moved
      refine exec_cons_eq_some.mpr ⟨_, ?_, induction remaining⟩
      show (serve choice op state).map _ = _
      rw [served]
      rfl

/-! How a program ends that nothing interrupts, as far as a view of the state
tells. -/

variable (serve)

def Ends (view : State → View) (state : State) (program : Calls Op Answer Stop Value)
    (outcome : Except Stop Value × View) : Prop :=
  ∃ choices last, exec (alone serve) (program, state) choices =
    some (ofExcept outcome.1, last) ∧ view last = outcome.2

variable {serve} {view : State → View} {state middle : State}

theorem ends_ofExcept (result : Except Stop Value) :
    Ends serve view state (ofExcept result : Calls Op Answer Stop Value)
      (result, view state) :=
  ⟨[], state, rfl, rfl⟩

theorem Ends.call {choice : Choice} {op : Op} {answer : Answer op}
    {next : Answer op → Calls Op Answer Stop Value} {outcome : Except Stop Value × View}
    (served : serve choice op state = some (answer, middle))
    (rest : Ends serve view middle (next answer) outcome) :
    Ends serve view state (.call op next) outcome := by
  obtain ⟨choices, last, run, seen⟩ := rest
  refine ⟨choice :: choices, last, exec_cons_eq_some.mpr ⟨_, ?_, run⟩, seen⟩
  show (serve choice op state).map _ = _
  rw [served]
  rfl

theorem Ends.bind {program : Calls Op Answer Stop Value}
    {next : Value → Calls Op Answer Stop Next} {effect : Effect Stop View Value}
    {later : Value → Effect Stop View Next}
    (first : Ends serve view state program (effect.run (view state)))
    (rest : ∀ value last, Ends serve view last (next value) ((later value).run (view last))) :
    Ends serve view state (program >>= next) ((effect >>= later).run (view state)) := by
  obtain ⟨choices, between, run, seen⟩ := first
  rw [Effect.run_bind]
  cases ended : effect.run (view state) with
  | mk result middle =>
      rw [ended] at run seen
      subst seen
      have begun := exec_alone_bind run next
      cases result with
      | ok value =>
          obtain ⟨more, last, ran, seen⟩ := rest value between
          refine ⟨choices ++ more, last, ?_, seen⟩
          rw [exec_append, begun]
          exact ran
      | error stop => exact ⟨choices, between, begun, rfl⟩

end Serve

end Calls

/-! Processors that share a state, each with a program of its own. -/

structure Host (State Program : Type) where
  shared : State
  running : Nat → Program

namespace Host

variable {Op : Type} {Answer : Op → Type} {Stop Value State Choice : Type}
  {host next : Host State (Calls Op Answer Stop Value)} {cpu : Nat}

def put {Program : Type} (host : Host State Program) (cpu : Nat) (program : Program)
    (shared : State) : Host State Program :=
  ⟨shared, Function.update host.running cpu program⟩

section Put

variable {Program : Type} (host : Host State Program) {cpu other : Nat}
  (program : Program) (shared : State)

@[simp] theorem running_put_self :
    (host.put cpu program shared).running cpu = program :=
  Function.update_self ..

theorem running_put_of_ne (elsewhere : other ≠ cpu) :
    (host.put cpu program shared).running other = host.running other :=
  Function.update_of_ne elsewhere ..

@[simp] theorem put_put (last : Program) (lastShared : State) :
    (host.put cpu program shared).put cpu last lastShared = host.put cpu last lastShared := by
  simp only [put, Function.update_idem]

end Put

/-- A processor takes a program only when it is done with the last one. -/
def launch (host : Host State (Calls Op Answer Stop Value)) (cpu : Nat)
    (program : Calls Op Answer Stop Value) :
    Option (Host State (Calls Op Answer Stop Value)) :=
  if (host.running cpu).finished then some (host.put cpu program host.shared) else none

def advance (serve : Choice → (op : Op) → State → Option (Answer op × State))
    (host : Host State (Calls Op Answer Stop Value)) (cpu : Nat) (choice : Choice) :
    Option (Host State (Calls Op Answer Stop Value)) :=
  ((host.running cpu).advance serve choice host.shared).map fun moved =>
    host.put cpu moved.1 moved.2

theorem launch_eq_some {program : Calls Op Answer Stop Value}
    (launched : host.launch cpu program = some next) :
    next = host.put cpu program host.shared := by
  rw [launch] at launched
  split at launched
  · exact (Option.some.inj launched).symm
  · cases launched

theorem advance_eq_some
    {serve : Choice → (op : Op) → State → Option (Answer op × State)} {choice : Choice}
    (moved : host.advance serve cpu choice = some next) :
    ∃ op rest answer shared, host.running cpu = .call op rest ∧
      serve choice op host.shared = some (answer, shared) ∧
      next = host.put cpu (rest answer) shared := by
  obtain ⟨⟨program, shared⟩, stepped, rfl⟩ := Option.map_eq_some_iff.mp moved
  obtain ⟨op, rest, answer, running, served, rfl⟩ := Calls.advance_eq_some stepped
  exact ⟨op, rest, answer, shared, running, served, rfl⟩

theorem exec_alone {Whole Label : Type} {outer : Whole → Label → Option Whole}
    {serve : Choice → (op : Op) → State → Option (Answer op × State)}
    {label : Choice → Label} {program reached : Calls Op Answer Stop Value}
    {shared last : State} {choices : List Choice}
    (embed : Host State (Calls Op Answer Stop Value) → Whole)
    (advances : ∀ host choice,
      outer (embed host) (label choice) = (host.advance serve cpu choice).map embed)
    (run : Machine.exec (Calls.alone serve) (program, shared) choices =
      some (reached, last)) :
    Machine.exec outer (embed (host.put cpu program shared)) (choices.map label) =
      some (embed (host.put cpu reached last)) := by
  have inside := @Machine.exec_map _ _ (Calls.alone serve) _ _ outer
    (fun here => embed (host.put cpu here.1 here.2)) label ?_ (program, shared) choices
  · rw [inside, run]
    rfl
  · intro here choice
    rw [advances, advance, running_put_self, Option.map_map]
    simp only [Function.comp_def, put_put]
    rfl

theorem uses_put {Allowed : Op → Prop} {program : Calls Op Answer Stop Value}
    (uses : ∀ cpu, (host.running cpu).Uses Allowed) (own : program.Uses Allowed)
    (shared : State) (other : Nat) :
    ((host.put cpu program shared).running other).Uses Allowed := by
  by_cases same : other = cpu
  · rw [same, running_put_self]
    exact own
  · rw [running_put_of_ne _ _ _ same]
    exact uses other

end Host
