import Mathlib.Algebra.Order.Group.Multiset

namespace Machine

universe u v

variable {State : Type u} {Action : Type v}

/-! Finite runs of a machine whose transitions are labelled by actions.  An
action carries every nondeterministic choice of its transition, so a schedule
determines at most one run. -/

def exec (step : State → Action → Option State) :
    State → List Action → Option State
  | state, [] => some state
  | state, action :: rest =>
      (step state action).bind fun next => exec step next rest

variable {step : State → Action → Option State}

@[simp] theorem exec_nil (state : State) : exec step state [] = some state :=
  rfl

theorem exec_cons_eq_some {state final : State} {action : Action}
    {rest : List Action} :
    exec step state (action :: rest) = some final ↔
      ∃ next, step state action = some next ∧
        exec step next rest = some final := by
  simp only [exec, Option.bind_eq_some_iff]

theorem exec_append (state : State) (first second : List Action) :
    exec step state (first ++ second) =
      (exec step state first).bind fun middle => exec step middle second := by
  induction first generalizing state with
  | nil => rfl
  | cons action rest induction =>
      cases taken : step state action with
      | none => simp [exec, taken]
      | some next => simp [exec, taken, induction]

theorem exec_concat {state final : State} {schedule : List Action}
    {action : Action} :
    exec step state (schedule ++ [action]) = some final ↔
      ∃ middle, exec step state schedule = some middle ∧
        step middle action = some final := by
  simp only [exec_append, Option.bind_eq_some_iff, exec_cons_eq_some, exec_nil,
    Option.some.injEq, exists_eq_right]

theorem exec_map {Whole : Type*} {Label : Type*} {outer : Whole → Label → Option Whole}
    {embed : State → Whole} {label : Action → Label}
    (same : ∀ state action,
      outer (embed state) (label action) = (step state action).map embed)
    (state : State) (schedule : List Action) :
    exec outer (embed state) (schedule.map label) =
      (exec step state schedule).map embed := by
  induction schedule generalizing state with
  | nil => rfl
  | cons action rest induction =>
      rw [List.map_cons, exec, exec, same]
      cases step state action with
      | none => rfl
      | some next => exact induction next

theorem exec_invariant (Inv : State → Prop)
    (preserved : ∀ {state next action},
      Inv state → step state action = some next → Inv next)
    {state final : State} {schedule : List Action}
    (initial : Inv state) (run : exec step state schedule = some final) :
    Inv final := by
  induction schedule generalizing state with
  | nil => exact Option.some.inj run ▸ initial
  | cons action rest induction =>
      obtain ⟨next, taken, remaining⟩ := exec_cons_eq_some.mp run
      exact induction (preserved initial taken) remaining

/-- Every transition taken by a schedule meets a condition on the state it
starts from and its action. -/
def EveryStep (step : State → Action → Option State)
    (Good : State → Action → Prop) : State → List Action → Prop
  | _, [] => True
  | state, action :: rest =>
      Good state action ∧
        match step state action with
        | none => True
        | some next => EveryStep step Good next rest

theorem exec_invariant_of_everyStep (Inv : State → Prop)
    {Good : State → Action → Prop}
    (preserved : ∀ {state next action},
      Inv state → Good state action → step state action = some next →
        Inv next)
    {state final : State} {schedule : List Action}
    (initial : Inv state) (good : EveryStep step Good state schedule)
    (run : exec step state schedule = some final) : Inv final := by
  induction schedule generalizing state with
  | nil => exact Option.some.inj run ▸ initial
  | cons action rest induction =>
      obtain ⟨next, taken, remaining⟩ := exec_cons_eq_some.mp run
      simp only [EveryStep, taken] at good
      exact induction (preserved initial good.1 taken) good.2 remaining

theorem everyStep_congr_of_invariant (Inv : State → Prop)
    {First Second : State → Action → Prop}
    (same : ∀ {state action}, Inv state → (First state action ↔ Second state action))
    (preserved : ∀ {state next action},
      Inv state → First state action → step state action = some next → Inv next)
    {state : State} (initial : Inv state) (schedule : List Action) :
    EveryStep step First state schedule ↔
      EveryStep step Second state schedule := by
  induction schedule generalizing state with
  | nil => rfl
  | cons action rest induction =>
      cases taken : step state action with
      | none => simp [EveryStep, taken, same initial]
      | some next =>
          simp only [EveryStep, taken, ← same initial]
          exact and_congr_right fun first =>
            induction (preserved initial first taken)

theorem everyStep_congr {First Second : State → Action → Prop}
    (same : ∀ state action, First state action ↔ Second state action)
    (state : State) (schedule : List Action) :
    EveryStep step First state schedule ↔
      EveryStep step Second state schedule :=
  everyStep_congr_of_invariant (fun _ => True) (fun _ => same _ _)
    (fun _ _ _ => trivial) trivial schedule

theorem everyStep_of_forall {Good : State → Action → Prop}
    (good : ∀ state action, Good state action)
    (state : State) (schedule : List Action) :
    EveryStep step Good state schedule := by
  induction schedule generalizing state with
  | nil => trivial
  | cons action rest induction =>
      cases taken : step state action with
      | none => simp [EveryStep, taken, good]
      | some next => simp [EveryStep, taken, good, induction]

theorem EveryStep.mono {Good Weaker : State → Action → Prop}
    (weaker : ∀ {state action}, Good state action → Weaker state action)
    {state : State} {schedule : List Action}
    (good : EveryStep step Good state schedule) :
    EveryStep step Weaker state schedule := by
  induction schedule generalizing state with
  | nil => trivial
  | cons action rest induction =>
      refine ⟨weaker good.1, ?_⟩
      cases taken : step state action with
      | none => trivial
      | some next =>
          simp only [EveryStep, taken] at good
          exact induction good.2

theorem everyStep_append {Good : State → Action → Prop} (state : State)
    (first second : List Action) :
    EveryStep step Good state (first ++ second) ↔
      EveryStep step Good state first ∧
        ∀ middle, exec step state first = some middle →
          EveryStep step Good middle second := by
  induction first generalizing state with
  | nil => simp [EveryStep]
  | cons action rest induction =>
      cases taken : step state action with
      | none => simp [EveryStep, exec, taken]
      | some next => simp [EveryStep, exec, taken, induction, and_assoc]

/-- A run either never meets a condition, or there is a last transition that
does. -/
theorem everyStep_or_last (Meets : State → Action → Prop) {state final : State}
    {schedule : List Action} (run : exec step state schedule = some final) :
    EveryStep step (fun state action => ¬ Meets state action) state schedule ∨
      ∃ before action later middle next,
        schedule = before ++ action :: later ∧
        exec step state before = some middle ∧ Meets middle action ∧
        step middle action = some next ∧ exec step next later = some final ∧
        EveryStep step (fun state action => ¬ Meets state action) next later := by
  induction schedule generalizing state with
  | nil => exact .inl trivial
  | cons action rest induction =>
      obtain ⟨next, taken, remaining⟩ := exec_cons_eq_some.mp run
      rcases induction remaining with never | ⟨before, last, later, middle, after,
        rfl, ran, meets, stepped, ended, never⟩
      · by_cases meets : Meets state action
        · exact .inr ⟨[], action, rest, state, next, rfl, rfl, meets, taken,
            remaining, never⟩
        · left
          simp only [EveryStep, taken]
          exact ⟨meets, never⟩
      · exact .inr ⟨action :: before, last, later, middle, after, rfl,
          exec_cons_eq_some.mpr ⟨next, taken, ran⟩, meets, stepped, ended, never⟩

section Total

variable {Resource : Type*}

def total (step : State → Action → Option State)
    (cost : State → Action → Multiset Resource) :
    State → List Action → Multiset Resource
  | _, [] => 0
  | state, action :: rest =>
      cost state action +
        match step state action with
        | none => 0
        | some next => total step cost next rest

variable {cost : State → Action → Multiset Resource}

/-- An invariant that accounts for what each transition loses accounts, at the
end of a run, for everything the run has lost. -/
theorem exec_accounting_of_everyStep (Inv : State → Multiset Resource → Prop)
    {Good : State → Action → Prop}
    (preserved : ∀ {state next action lost},
      Inv state lost → Good state action → step state action = some next →
        Inv next (lost + cost state action))
    {state final : State} {schedule : List Action} {lost : Multiset Resource}
    (initial : Inv state lost) (good : EveryStep step Good state schedule)
    (run : exec step state schedule = some final) :
    Inv final (lost + total step cost state schedule) := by
  induction schedule generalizing state lost with
  | nil =>
      obtain rfl := Option.some.inj run
      simpa [total] using initial
  | cons action rest induction =>
      obtain ⟨next, taken, remaining⟩ := exec_cons_eq_some.mp run
      simp only [EveryStep, taken] at good
      have final := induction (preserved initial good.1 taken) good.2 remaining
      simpa only [total, taken, add_assoc] using final

theorem exec_accounting (Inv : State → Multiset Resource → Prop)
    (preserved : ∀ {state next action lost},
      Inv state lost → step state action = some next →
        Inv next (lost + cost state action))
    {state final : State} {schedule : List Action}
    {lost : Multiset Resource}
    (initial : Inv state lost)
    (run : exec step state schedule = some final) :
    Inv final (lost + total step cost state schedule) :=
  exec_accounting_of_everyStep Inv (fun holds _ => preserved holds) initial
    (everyStep_of_forall (fun _ _ => trivial) state schedule) run

theorem total_forall_iff (Kind : Resource → Prop) (state : State)
    (schedule : List Action) :
    (∀ resource ∈ total step cost state schedule, ¬ Kind resource) ↔
      EveryStep step
        (fun state action => ∀ resource ∈ cost state action, ¬ Kind resource)
        state schedule := by
  induction schedule generalizing state with
  | nil => simp [total, EveryStep]
  | cons action rest induction =>
      cases taken : step state action with
      | none => simp [total, EveryStep, taken]
      | some next =>
          simp only [total, EveryStep, taken, Multiset.mem_add, ← induction]
          constructor
          · exact fun none => ⟨fun resource member => none resource (.inl member),
              fun resource member => none resource (.inr member)⟩
          · rintro ⟨head, tail⟩ resource (member | member)
            · exact head resource member
            · exact tail resource member

end Total

end Machine
