import Mathlib.Logic.Function.Basic

/-! Computations over a state that may stop before their end.  What they have
done to the state by then stays done. -/

def Effect (Stop State Value : Type) : Type :=
  State → Except Stop Value × State

namespace Effect

variable {Stop State Value Next : Type}

def run (program : Effect Stop State Value) (state : State) :
    Except Stop Value × State :=
  program state

instance : Monad (Effect Stop State) where
  pure value := fun state => (.ok value, state)
  bind first next := fun state =>
    match first state with
    | (.ok value, middle) => next value middle
    | (.error stop, middle) => (.error stop, middle)

def get : Effect Stop State State := fun state => (.ok state, state)

def modify (change : State → State) : Effect Stop State Unit :=
  fun state => (.ok (), change state)

def halt (stop : Stop) : Effect Stop State Value :=
  fun state => (.error stop, state)

def demand (stop : Stop) : Option Value → Effect Stop State Value
  | some value => pure value
  | none => halt stop

/-- A computation between two changes of the state, the second of which is made
however the computation ends. -/
def bracket (enter leave : State → State)
    (body : Effect Stop State Value) : Effect Stop State Value :=
  fun state => ((body (enter state)).1, leave (body (enter state)).2)

@[simp] theorem run_pure (value : Value) (state : State) :
    (pure value : Effect Stop State Value).run state = (.ok value, state) :=
  rfl

@[simp] theorem run_get (state : State) :
    (get : Effect Stop State State).run state = (.ok state, state) :=
  rfl

@[simp] theorem run_modify (change : State → State) (state : State) :
    (modify change : Effect Stop State Unit).run state =
      (.ok (), change state) :=
  rfl

@[simp] theorem run_halt (stop : Stop) (state : State) :
    (halt stop : Effect Stop State Value).run state = (.error stop, state) :=
  rfl

@[simp] theorem demand_some (stop : Stop) (value : Value) :
    (demand stop (some value) : Effect Stop State Value) = pure value :=
  rfl

@[simp] theorem demand_none (stop : Stop) :
    (demand stop none : Effect Stop State Value) = halt stop :=
  rfl

@[simp] theorem run_bracket (enter leave : State → State)
    (body : Effect Stop State Value) (state : State) :
    (bracket enter leave body).run state =
      ((body.run (enter state)).1, leave (body.run (enter state)).2) :=
  rfl

theorem run_bind (first : Effect Stop State Value)
    (next : Value → Effect Stop State Next) (state : State) :
    (first >>= next).run state =
      match first.run state with
      | (.ok value, middle) => (next value).run middle
      | (.error stop, middle) => (.error stop, middle) :=
  rfl

@[simp] theorem run_pure_bind (value : Value)
    (next : Value → Effect Stop State Next) (state : State) :
    (pure value >>= next).run state = (next value).run state :=
  rfl

@[simp] theorem run_get_bind (next : State → Effect Stop State Next)
    (state : State) : (get >>= next).run state = (next state).run state :=
  rfl

@[simp] theorem run_modify_bind (change : State → State)
    (next : Unit → Effect Stop State Next) (state : State) :
    (modify change >>= next).run state = (next ()).run (change state) :=
  rfl

@[simp] theorem run_halt_bind (stop : Stop)
    (next : Value → Effect Stop State Next) (state : State) :
    (halt stop >>= next).run state = (.error stop, state) :=
  rfl

theorem run_bind_eq_ok {first : Effect Stop State Value}
    {next : Value → Effect Stop State Next} {state final : State} {result : Next} :
    (first >>= next).run state = (.ok result, final) ↔
      ∃ value middle, first.run state = (.ok value, middle) ∧
        (next value).run middle = (.ok result, final) := by
  rw [run_bind]
  cases first.run state with
  | mk ended middle =>
      cases ended with
      | ok value =>
          refine ⟨fun ended => ⟨value, middle, rfl, ended⟩, ?_⟩
          rintro ⟨_, _, same, ended⟩
          obtain ⟨⟨rfl⟩, rfl⟩ := Prod.mk.inj same
          exact ended
      | error stop => simp

theorem run_demand_eq_ok {stop : Stop} {value : Option Value} {state final : State}
    {result : Value} (ran : (demand stop value).run state = (.ok result, final)) :
    value = some result ∧ final = state := by
  cases value with
  | none => cases (Prod.mk.inj ran).1
  | some value =>
      obtain ⟨same, rfl⟩ := Prod.mk.inj ran
      exact ⟨congrArg some (Except.ok.inj same), rfl⟩

theorem run_ite (condition : Prop) [Decidable condition]
    (first second : Effect Stop State Value) (state : State) :
    (if condition then first else second).run state =
      if condition then first.run state else second.run state := by
  split <;> rfl

theorem bind_bind {Last : Type} (first : Effect Stop State Value)
    (second : Value → Effect Stop State Next)
    (third : Next → Effect Stop State Last) :
    first >>= second >>= third = first >>= fun value => second value >>= third := by
  funext state
  show (match (match first state with
    | (.ok value, middle) => second value middle
    | (.error stop, middle) => (.error stop, middle)) with
    | (.ok value, middle) => third value middle
    | (.error stop, middle) => (.error stop, middle)) =
      match first state with
      | (.ok value, middle) => (second value >>= third) middle
      | (.error stop, middle) => (.error stop, middle)
  cases first state with
  | mk ended middle =>
      cases ended with
      | ok value => rfl
      | error stop => rfl

theorem pure_bind_eq (value : Value) (next : Value → Effect Stop State Next) :
    pure value >>= next = next value :=
  rfl

theorem ite_bind (condition : Prop) [Decidable condition]
    (first second : Effect Stop State Value) (next : Value → Effect Stop State Next) :
    ((if condition then first else second) >>= next) =
      if condition then first >>= next else second >>= next := by
  split <;> rfl

/-! What a computation leaves alone, however it ends. -/

section Keeps

variable {View : Type} {observe : State → View}

def Keeps (observe : State → View) (program : Effect Stop State Value) : Prop :=
  ∀ state, observe (program.run state).2 = observe state

theorem keeps_pure (value : Value) :
    Keeps observe (pure value : Effect Stop State Value) :=
  fun _ => rfl

theorem keeps_get : Keeps observe (get : Effect Stop State State) :=
  fun _ => rfl

theorem keeps_halt (stop : Stop) :
    Keeps observe (halt stop : Effect Stop State Value) :=
  fun _ => rfl

theorem keeps_modify {change : State → State}
    (same : ∀ state, observe (change state) = observe state) :
    Keeps observe (modify change : Effect Stop State Unit) :=
  same

theorem keeps_demand (stop : Stop) (value : Option Value) :
    Keeps observe (demand stop value : Effect Stop State Value) := by
  cases value with
  | none => exact keeps_halt stop
  | some value => exact keeps_pure value

theorem Keeps.bind {first : Effect Stop State Value}
    {next : Value → Effect Stop State Next} (before : Keeps observe first)
    (after : ∀ value, Keeps observe (next value)) :
    Keeps observe (first >>= next) := by
  intro state
  have kept := before state
  rw [run_bind]
  split
  · rename_i value middle ended
    rw [ended] at kept
    exact (after value middle).trans kept
  · rename_i stop middle ended
    rw [ended] at kept
    exact kept

theorem Keeps.ite {condition : Prop} [Decidable condition]
    {first second : Effect Stop State Value} (yes : Keeps observe first)
    (no : Keeps observe second) :
    Keeps observe (if condition then first else second) := by
  split
  · exact yes
  · exact no

theorem Keeps.bracket {enter leave : State → State}
    {body : Effect Stop State Value}
    (entered : ∀ state, observe (enter state) = observe state)
    (left : ∀ state, observe (leave state) = observe state)
    (inside : Keeps observe body) :
    Keeps observe (bracket enter leave body) := by
  intro state
  rw [run_bracket, left, inside, entered]

end Keeps

/-! What is true of every value that a computation may return. -/

section Yields

variable {Good : Next → Prop}

def Yields (Good : Value → Prop) (program : Effect Stop State Value) : Prop :=
  ∀ state value, (program.run state).1 = .ok value → Good value

theorem yields_pure {value : Next} (good : Good value) :
    Yields Good (pure value : Effect Stop State Next) := by
  intro state result ended
  exact Except.ok.inj ended ▸ good

theorem Yields.after {next : Value → Effect Stop State Next}
    (first : Effect Stop State Value) (good : ∀ value, Yields Good (next value)) :
    Yields Good (first >>= next) := by
  intro state result
  rw [run_bind]
  split
  · rename_i value middle ended
    exact good value middle result
  · exact fun ended => nomatch ended

theorem Yields.ite {condition : Prop} [Decidable condition]
    {first second : Effect Stop State Next} (yes : Yields Good first)
    (no : Yields Good second) :
    Yields Good (if condition then first else second) := by
  split
  · exact yes
  · exact no

end Yields

/-! How the states before and after a computation are related, however it
ends. -/

section Relates

variable {R : State → State → Prop}

def Relates (R : State → State → Prop) (program : Effect Stop State Value) : Prop :=
  ∀ state, R state (program.run state).2

theorem Relates.bind {first : Effect Stop State Value}
    {next : Value → Effect Stop State Next}
    (composes : ∀ {first second third}, R first second → R second third →
      R first third)
    (before : Relates R first) (after : ∀ value, Relates R (next value)) :
    Relates R (first >>= next) := by
  intro state
  have related := before state
  rw [run_bind]
  split
  · rename_i value middle ended
    rw [ended] at related
    exact composes related (after value middle)
  · rename_i stop middle ended
    rw [ended] at related
    exact related

theorem Relates.ite {condition : Prop} [Decidable condition]
    {first second : Effect Stop State Value} (yes : Relates R first)
    (no : Relates R second) :
    Relates R (if condition then first else second) := by
  split
  · exact yes
  · exact no

end Relates

/-! What a computation leaves alone, and the ways in which it may stop. -/

section Contained

variable {View : Type} {observe : State → View} {Stops : Stop → Prop}

structure Contained (Stops : Stop → Prop) (observe : State → View)
    (program : Effect Stop State Value) : Prop where
  keeps : Keeps observe program
  stops : ∀ state reason, (program.run state).1 = .error reason → Stops reason

theorem Contained.view {Coarser : Type} {program : Effect Stop State Value}
    (contained : Contained Stops observe program) (coarsen : View → Coarser) :
    Contained Stops (fun state => coarsen (observe state)) program :=
  ⟨fun state => congrArg coarsen (contained.keeps state), contained.stops⟩

theorem contained_pure (value : Value) :
    Contained Stops observe (pure value : Effect Stop State Value) :=
  ⟨keeps_pure value, fun _ _ ended => by cases ended⟩

theorem contained_get :
    Contained Stops observe (get : Effect Stop State State) :=
  ⟨keeps_get, fun _ _ ended => by cases ended⟩

theorem contained_modify {change : State → State}
    (same : ∀ state, observe (change state) = observe state) :
    Contained Stops observe (modify change : Effect Stop State Unit) :=
  ⟨keeps_modify same, fun _ _ ended => by cases ended⟩

theorem contained_halt {stop : Stop} (may : Stops stop) :
    Contained Stops observe (halt stop : Effect Stop State Value) :=
  ⟨keeps_halt stop, fun _ _ ended => Except.error.inj ended ▸ may⟩

theorem contained_demand {stop : Stop} (may : Stops stop) (value : Option Value) :
    Contained Stops observe (demand stop value : Effect Stop State Value) := by
  cases value with
  | none => exact contained_halt may
  | some value => exact contained_pure value

theorem Contained.bind {first : Effect Stop State Value}
    {next : Value → Effect Stop State Next}
    (before : Contained Stops observe first)
    (after : ∀ value, Contained Stops observe (next value)) :
    Contained Stops observe (first >>= next) := by
  refine ⟨before.keeps.bind fun value => (after value).keeps, ?_⟩
  intro state reason
  have stops := before.stops state
  rw [run_bind]
  split
  · rename_i value middle ended
    exact (after value).stops middle reason
  · rename_i stop middle ended
    rw [ended] at stops
    exact fun same => stops reason (congrArg Except.error (Except.error.inj same))

theorem Contained.ite {condition : Prop} [Decidable condition]
    {first second : Effect Stop State Value}
    (yes : Contained Stops observe first) (no : Contained Stops observe second) :
    Contained Stops observe (if condition then first else second) := by
  split
  · exact yes
  · exact no

theorem Contained.bracket {enter leave : State → State}
    {body : Effect Stop State Value}
    (entered : ∀ state, observe (enter state) = observe state)
    (left : ∀ state, observe (leave state) = observe state)
    (inside : Contained Stops observe body) :
    Contained Stops observe (bracket enter leave body) :=
  ⟨inside.keeps.bracket entered left,
    fun state reason => inside.stops (enter state) reason⟩

end Contained

/-! Computations that come to their end, and computations that never do. -/

section Completes

variable {before middle after : State → Prop}

def Completes (before : State → Prop) (program : Effect Stop State Value)
    (after : State → Prop) : Prop :=
  ∀ state, before state →
    ∃ value final, program.run state = (.ok value, final) ∧ after final

def Halts (before : State → Prop) (stop : Stop)
    (program : Effect Stop State Value) : Prop :=
  ∀ state, before state → (program.run state).1 = .error stop

theorem completes_pure (value : Value) :
    Completes before (pure value : Effect Stop State Value) before :=
  fun state holds => ⟨value, state, rfl, holds⟩

theorem completes_get :
    Completes before (get : Effect Stop State State) before :=
  fun state holds => ⟨state, state, rfl, holds⟩

theorem completes_modify {change : State → State}
    (changed : ∀ state, before state → after (change state)) :
    Completes before (modify change : Effect Stop State Unit) after :=
  fun state holds => ⟨(), change state, rfl, changed state holds⟩

theorem Completes.weaken {last : State → Prop} {program : Effect Stop State Value}
    (completes : Completes before program after)
    (weaker : ∀ state, after state → last state) : Completes before program last := by
  intro state holds
  obtain ⟨value, final, ended, reached⟩ := completes state holds
  exact ⟨value, final, ended, weaker final reached⟩

theorem Completes.ite {condition : Prop} [Decidable condition]
    {first second : Effect Stop State Value} (yes : Completes before first after)
    (no : Completes before second after) :
    Completes before (if condition then first else second) after := by
  split
  · exact yes
  · exact no

theorem Completes.bind {first : Effect Stop State Value}
    {next : Value → Effect Stop State Next} (start : Completes before first middle)
    (rest : ∀ value, Completes middle (next value) after) :
    Completes before (first >>= next) after := by
  intro state holds
  obtain ⟨value, reached, ended, between⟩ := start state holds
  rw [run_bind, ended]
  exact rest value reached between

theorem Completes.bind_halts {stop : Stop} {first : Effect Stop State Value}
    {next : Value → Effect Stop State Next} (start : Completes before first middle)
    (rest : ∀ value, Halts middle stop (next value)) :
    Halts before stop (first >>= next) := by
  intro state holds
  obtain ⟨value, reached, ended, between⟩ := start state holds
  rw [run_bind, ended]
  exact rest value reached between

theorem Halts.bind {stop : Stop} {first : Effect Stop State Value}
    (next : Value → Effect Stop State Next) (halts : Halts before stop first) :
    Halts before stop (first >>= next) := by
  intro state holds
  have stopped := halts state holds
  rw [run_bind]
  split
  · rename_i value reached ended
    rw [ended] at stopped
    cases stopped
  · rename_i reason reached ended
    rw [ended] at stopped
    exact congrArg Except.error (Except.error.inj stopped)

end Completes

end Effect
