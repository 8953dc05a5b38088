import Mathlib.Logic.Basic
import Mathlib.Tactic.ByContra

/-! Procedures that change a state and come back in one of three ways: with
success, with an error code, or by an exception.  A procedure that crashes does
not come back. -/

namespace Procedure

inductive Status
  | success
  | failure
  | thrown
deriving DecidableEq

abbrev Proc (Crash State : Type) : Type :=
  State → Except Crash (Status × State)

variable {Crash State Item : Type}

def andThen (first second : Proc Crash State) : Proc Crash State := fun state =>
  match first state with
  | .error crash => .error crash
  | .ok (.success, next) => second next
  | .ok (.failure, next) => .ok (.failure, next)
  | .ok (.thrown, next) => .ok (.thrown, next)

/-- A loop that stops at the first item that does not succeed. -/
def each (body : Item → Proc Crash State) : List Item → Proc Crash State
  | [] => fun state => .ok (.success, state)
  | item :: rest => andThen (body item) (each body rest)

theorem bind_eq_ok {α β : Type} {first : Except Crash α} {next : α → Except Crash β}
    {value : β} :
    (first >>= next) = .ok value ↔
      ∃ middle, first = .ok middle ∧ next middle = .ok value := by
  cases first with
  | error crash => simp [bind, Except.bind]
  | ok middle => simp [bind, Except.bind]

theorem andThen_of_success {first second : Proc Crash State} {state next : State}
    (done : first state = .ok (.success, next)) :
    andThen first second state = second next := by
  simp only [andThen, done]

theorem andThen_cases {first second : Proc Crash State} {state final : State}
    {status : Status} (ran : andThen first second state = .ok (status, final)) :
    (∃ next, first state = .ok (.success, next) ∧
        second next = .ok (status, final)) ∨
      (first state = .ok (status, final) ∧ status ≠ .success) := by
  unfold andThen at ran
  split at ran
  · cases ran
  · rename_i next done
    exact .inl ⟨next, done, ran⟩
  · rename_i next done
    cases ran
    exact .inr ⟨done, by decide⟩
  · rename_i next done
    cases ran
    exact .inr ⟨done, by decide⟩

def Keeps (Inv : State → Prop) (proc : Proc Crash State) : Prop :=
  ∀ state status final, Inv state → proc state = .ok (status, final) → Inv final

theorem Keeps.andThen {Inv : State → Prop} {first second : Proc Crash State}
    (keepsFirst : Keeps Inv first) (keepsSecond : Keeps Inv second) :
    Keeps Inv (andThen first second) := by
  intro state status final holds ran
  rcases andThen_cases ran with ⟨next, done, ran⟩ | ⟨done, _⟩
  · exact keepsSecond next status final (keepsFirst state _ next holds done) ran
  · exact keepsFirst state status final holds done

theorem Keeps.each {Inv : State → Prop} {body : Item → Proc Crash State}
    (keeps : ∀ item, Keeps Inv (body item)) (items : List Item) :
    Keeps Inv (each body items) := by
  induction items with
  | nil =>
      intro state status final holds ran
      cases ran
      exact holds
  | cons item rest induction => exact (keeps item).andThen induction

/-! How procedures come back.  `Returns` leaves out crashes and exceptions. -/

def Returns (proc : Proc Crash State) (state : State) : Prop :=
  ∃ status final, proc state = .ok (status, final) ∧ status ≠ .thrown

def Succeeds (proc : Proc Crash State) (state : State) : Prop :=
  ∃ final, proc state = .ok (.success, final)

theorem Succeeds.returns {proc : Proc Crash State} {state : State}
    (succeeds : Succeeds proc state) : Returns proc state := by
  obtain ⟨final, ran⟩ := succeeds
  exact ⟨_, final, ran, by decide⟩

theorem returns_of_failure {proc : Proc Crash State} {state final : State}
    (ran : proc state = .ok (.failure, final)) : Returns proc state :=
  ⟨_, final, ran, by decide⟩

theorem not_returns_of_crash {proc : Proc Crash State} {state : State} {crash : Crash}
    (ran : proc state = .error crash) : ¬ Returns proc state := by
  rintro ⟨status, final, returned, -⟩
  rw [ran] at returned
  cases returned

theorem not_returns_of_thrown {proc : Proc Crash State} {state final : State}
    (ran : proc state = .ok (.thrown, final)) : ¬ Returns proc state := by
  rintro ⟨status, other, returned, caught⟩
  rw [ran] at returned
  cases returned
  exact caught rfl

theorem not_succeeds_of_failure {proc : Proc Crash State} {state final : State}
    (ran : proc state = .ok (.failure, final)) : ¬ Succeeds proc state := by
  rintro ⟨other, succeeded⟩
  rw [ran] at succeeded
  cases succeeded

theorem returns_congr {first second : Proc Crash State} {state other : State}
    (same : first state = second other) :
    Returns first state ↔ Returns second other := by
  unfold Returns
  rw [same]

theorem succeeds_congr {first second : Proc Crash State} {state other : State}
    (same : first state = second other) :
    Succeeds first state ↔ Succeeds second other := by
  unfold Succeeds
  rw [same]

theorem andThen_assoc (first second third : Proc Crash State) :
    andThen first (andThen second third) = andThen (andThen first second) third := by
  funext state
  unfold andThen
  cases first state with
  | error crash => rfl
  | ok returned =>
      obtain ⟨status, next⟩ := returned
      cases status <;> rfl

theorem returns_andThen_iff {first second : Proc Crash State} {state : State} :
    Returns (andThen first second) state ↔
      Returns first state ∧
        ∀ next, first state = .ok (.success, next) → Returns second next := by
  constructor
  · rintro ⟨status, final, ran, caught⟩
    rcases andThen_cases ran with ⟨next, done, rest⟩ | ⟨stopped, failed⟩
    · refine ⟨⟨_, next, done, by decide⟩, fun other same => ?_⟩
      cases done.symm.trans same
      exact ⟨status, final, rest, caught⟩
    · refine ⟨⟨status, final, stopped, caught⟩, fun other same => ?_⟩
      cases stopped.symm.trans same
      exact absurd rfl failed
  · rintro ⟨⟨status, next, done, caught⟩, rest⟩
    cases status with
    | success =>
        obtain ⟨status, final, ran, caught⟩ := rest next done
        exact ⟨status, final, (andThen_of_success done).trans ran, caught⟩
    | failure => exact ⟨.failure, next, by simp only [andThen, done], caught⟩
    | thrown => exact absurd rfl caught

theorem succeeds_andThen_iff {first second : Proc Crash State} {state : State} :
    Succeeds (andThen first second) state ↔
      ∃ next, first state = .ok (.success, next) ∧ Succeeds second next := by
  constructor
  · rintro ⟨final, ran⟩
    rcases andThen_cases ran with ⟨next, done, rest⟩ | ⟨_, failed⟩
    · exact ⟨next, done, final, rest⟩
    · exact absurd rfl failed
  · rintro ⟨next, done, final, rest⟩
    exact ⟨final, (andThen_of_success done).trans rest⟩

/-! A loop whose body judges each item by itself and the items before it. -/

structure Judges (body : Item → Proc Crash State)
    (Inv : List Item → State → Prop)
    (Accepts Rejects : List Item → Item → Prop) : Prop where
  accepts : ∀ before item state, Inv before state → Accepts before item →
    ∃ next, body item state = .ok (.success, next) ∧ Inv (before ++ [item]) next
  rejects : ∀ before item state, Inv before state → Rejects before item →
    ∃ next, body item state = .ok (.failure, next)
  breaks : ∀ before item state, Inv before state → ¬ Accepts before item →
    ¬ Rejects before item → ¬ Returns (body item) state

/-- Every item is accepted after those before it. -/
def Passes (Accepts : List Item → Item → Prop) (items : List Item) : Prop :=
  ∀ before item after, items = before ++ item :: after → Accepts before item

/-- The first item that is not accepted, if there is one, is rejected. -/
def Handles (Accepts Rejects : List Item → Item → Prop) (items : List Item) : Prop :=
  ∀ before item after, items = before ++ item :: after → Passes Accepts before →
    Accepts before item ∨ Rejects before item

theorem passes_nil (Accepts : List Item → Item → Prop) : Passes Accepts [] := by
  intro before item after impossible
  simp at impossible

theorem passes_cons_iff {Accepts : List Item → Item → Prop} {head : Item}
    {items : List Item} :
    Passes Accepts (head :: items) ↔
      Accepts [] head ∧ Passes (fun before => Accepts (head :: before)) items := by
  constructor
  · intro passes
    refine ⟨passes [] head items rfl, fun before item after split => ?_⟩
    exact passes (head :: before) item after (by rw [split, List.cons_append])
  · rintro ⟨first, rest⟩ before item after split
    cases before with
    | nil =>
        obtain ⟨rfl, rfl⟩ := List.cons.inj split
        exact first
    | cons earlier before =>
        obtain ⟨rfl, later⟩ := List.cons.inj split
        exact rest before item after later

theorem passes_iff_forall {Accepts : Item → Prop} {items : List Item} :
    Passes (fun _ => Accepts) items ↔ ∀ item ∈ items, Accepts item := by
  constructor
  · intro passes item member
    obtain ⟨before, after, split⟩ := List.append_of_mem member
    exact passes before item after split
  · rintro accepts before item after rfl
    exact accepts item (List.mem_append_right _ List.mem_cons_self)

theorem handles_cons_iff {Accepts Rejects : List Item → Item → Prop} {head : Item}
    {items : List Item} :
    Handles Accepts Rejects (head :: items) ↔
      (Accepts [] head ∨ Rejects [] head) ∧
        (Accepts [] head → Handles (fun before => Accepts (head :: before))
          (fun before => Rejects (head :: before)) items) := by
  constructor
  · intro handles
    refine ⟨handles [] head items rfl (passes_nil Accepts), fun first => ?_⟩
    intro before item after split passes
    exact handles (head :: before) item after (by rw [split, List.cons_append])
      (passes_cons_iff.mpr ⟨first, passes⟩)
  · rintro ⟨first, rest⟩ before item after split passes
    cases before with
    | nil =>
        obtain ⟨rfl, rfl⟩ := List.cons.inj split
        exact first
    | cons earlier before =>
        obtain ⟨rfl, later⟩ := List.cons.inj split
        obtain ⟨accepted, passes⟩ := passes_cons_iff.mp passes
        exact rest accepted before item after later passes

theorem handles_iff_passes {Accepts : List Item → Item → Prop} {items : List Item} :
    Handles Accepts (fun _ _ => False) items ↔ Passes Accepts items := by
  induction items generalizing Accepts with
  | nil =>
      refine iff_of_true ?_ (passes_nil Accepts)
      intro before item after impossible
      simp at impossible
  | cons head items induction =>
      rw [handles_cons_iff, passes_cons_iff, or_false]
      exact and_congr_right fun accepted =>
        (forall_prop_of_true accepted).trans induction

namespace Judges

variable {body : Item → Proc Crash State} {Inv : List Item → State → Prop}
  {Accepts Rejects : List Item → Item → Prop} {state : State}

theorem tail (judges : Judges body Inv Accepts Rejects) (head : Item) :
    Judges body (fun before => Inv (head :: before))
      (fun before => Accepts (head :: before))
      (fun before => Rejects (head :: before)) where
  accepts before := judges.accepts (head :: before)
  rejects before := judges.rejects (head :: before)
  breaks before := judges.breaks (head :: before)

theorem accepts_of_success (judges : Judges body Inv Accepts Rejects)
    {before : List Item} {item : Item} (holds : Inv before state)
    (succeeds : Succeeds (body item) state) : Accepts before item := by
  by_contra refused
  by_cases rejected : Rejects before item
  · obtain ⟨next, failed⟩ := judges.rejects before item state holds rejected
    exact not_succeeds_of_failure failed succeeds
  · exact judges.breaks before item state holds refused rejected succeeds.returns

theorem passes (judges : Judges body Inv Accepts Rejects) {items : List Item}
    (holds : Inv [] state) (passes : Passes Accepts items) :
    ∃ final, each body items state = .ok (.success, final) ∧ Inv items final := by
  induction items generalizing Inv Accepts Rejects state with
  | nil => exact ⟨state, rfl, holds⟩
  | cons head items induction =>
      obtain ⟨first, rest⟩ := passes_cons_iff.mp passes
      obtain ⟨next, done, holdsNext⟩ := judges.accepts [] head state holds first
      obtain ⟨final, ran, holdsFinal⟩ := induction (judges.tail head) holdsNext rest
      exact ⟨final, (andThen_of_success done).trans ran, holdsFinal⟩

theorem succeeds_iff (judges : Judges body Inv Accepts Rejects) {items : List Item}
    (holds : Inv [] state) :
    Succeeds (each body items) state ↔ Passes Accepts items := by
  constructor
  · intro succeeds
    induction items generalizing Inv Accepts Rejects state with
    | nil => exact passes_nil Accepts
    | cons head items induction =>
        obtain ⟨next, done, rest⟩ := succeeds_andThen_iff.mp succeeds
        have first := judges.accepts_of_success holds ⟨next, done⟩
        obtain ⟨other, again, holdsNext⟩ := judges.accepts [] head state holds first
        cases done.symm.trans again
        exact passes_cons_iff.mpr ⟨first, induction (judges.tail head) holdsNext rest⟩
  · intro passes
    obtain ⟨final, ran, -⟩ := judges.passes holds passes
    exact ⟨final, ran⟩

theorem invariant (judges : Judges body Inv Accepts Rejects) {items : List Item}
    (holds : Inv [] state) {final : State}
    (ran : each body items state = .ok (.success, final)) : Inv items final := by
  obtain ⟨other, again, holdsFinal⟩ :=
    judges.passes holds ((judges.succeeds_iff holds).mp ⟨final, ran⟩)
  cases ran.symm.trans again
  exact holdsFinal

theorem returns_iff (judges : Judges body Inv Accepts Rejects) {items : List Item}
    (holds : Inv [] state) :
    Returns (each body items) state ↔ Handles Accepts Rejects items := by
  induction items generalizing Inv Accepts Rejects state with
  | nil =>
      refine iff_of_true ⟨.success, state, rfl, by decide⟩ ?_
      intro before item after impossible
      simp at impossible
  | cons head items induction =>
      rw [handles_cons_iff]
      refine returns_andThen_iff.trans ?_
      by_cases accepted : Accepts [] head
      · obtain ⟨next, done, holdsNext⟩ := judges.accepts [] head state holds accepted
        rw [← induction (judges.tail head) holdsNext, done]
        simp [accepted, Succeeds.returns ⟨next, done⟩]
      · have stopped : ∀ next, body head state ≠ .ok (.success, next) :=
          fun next done => accepted (judges.accepts_of_success holds ⟨next, done⟩)
        by_cases rejected : Rejects [] head
        · obtain ⟨next, failed⟩ := judges.rejects [] head state holds rejected
          simp [accepted, rejected, returns_of_failure failed, stopped]
        · have broken := judges.breaks [] head state holds accepted rejected
          simp [accepted, rejected, broken]

end Judges

/-! Procedures that pay no attention to a part of the state. -/

def CommutesAt (change : State → State) (proc : Proc Crash State) (state : State) :
    Prop :=
  proc (change state) = (proc state).map fun returned => (returned.1, change returned.2)

theorem CommutesAt.andThen {change : State → State} {first second : Proc Crash State}
    {state : State} (before : CommutesAt change first state)
    (after : ∀ next, first state = .ok (.success, next) →
      CommutesAt change second next) :
    CommutesAt change (andThen first second) state := by
  unfold CommutesAt Procedure.andThen
  rw [before]
  cases done : first state with
  | error crash => rfl
  | ok returned =>
      obtain ⟨status, next⟩ := returned
      cases status with
      | success => exact after next done
      | failure | thrown => rfl

theorem commutesAt_each {change : State → State} {body : Item → Proc Crash State}
    (commutes : ∀ item state, CommutesAt change (body item) state) (items : List Item)
    (state : State) : CommutesAt change (each body items) state := by
  induction items generalizing state with
  | nil => rfl
  | cons item rest induction =>
      exact (commutes item state).andThen fun next _ => induction next

end Procedure
