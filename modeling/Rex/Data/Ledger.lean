import Mathlib.Data.List.Induction
import Mathlib.Data.Multiset.Count
import Rex.Data.Machine

namespace Ledger

universe u v

/-! Accounting of resources that are acquired and must be released.  A log of
calls is replayed against the multiset of references currently outstanding; a
release that finds no outstanding reference has no replay. -/

inductive Event (Resource : Type u)
  | acquire (resource : Resource)
  | release (resource : Resource)
deriving DecidableEq

variable {Resource : Type u} {Call : Type v} [DecidableEq Resource]

def post (held : Multiset Resource) : Event Resource → Option (Multiset Resource)
  | .acquire resource => some (resource ::ₘ held)
  | .release resource =>
      if resource ∈ held then some (held.erase resource) else none

def postCall (effect : Call → Option (Event Resource))
    (held : Multiset Resource) (call : Call) : Option (Multiset Resource) :=
  match effect call with
  | none => some held
  | some event => post held event

def replay (effect : Call → Option (Event Resource)) (log : List Call) :
    Option (Multiset Resource) :=
  Machine.exec (postCall effect) 0 log

variable {effect : Call → Option (Event Resource)}

def acquired (effect : Call → Option (Event Resource))
    (resource : Resource) (log : List Call) : Nat :=
  log.countP fun call => effect call = some (.acquire resource)

def released (effect : Call → Option (Event Resource))
    (resource : Resource) (log : List Call) : Nat :=
  log.countP fun call => effect call = some (.release resource)

theorem replay_append (log : List Call) (call : Call) :
    replay effect (log ++ [call]) =
      (replay effect log).bind fun held => postCall effect held call := by
  rw [replay, Machine.exec_append]
  congr 1
  funext held
  simp [Machine.exec]

@[simp] theorem replay_nil : replay effect [] = some 0 := rfl

/-- The calls take the outstanding references from `held` to `next`. -/
def Posts (effect : Call → Option (Event Resource)) (calls : List Call)
    (held next : Multiset Resource) : Prop :=
  Machine.exec (postCall effect) held calls = some next

@[simp] theorem posts_nil (held : Multiset Resource) :
    Posts effect [] held held :=
  rfl

theorem Posts.append {first second : List Call}
    {held middle next : Multiset Resource}
    (posted : Posts effect first held middle)
    (later : Posts effect second middle next) :
    Posts effect (first ++ second) held next := by
  unfold Posts at *
  rw [Machine.exec_append, posted]
  exact later

theorem Posts.replay {log calls : List Call} {held next : Multiset Resource}
    (posted : Posts effect calls held next)
    (current : replay effect log = some held) :
    replay effect (log ++ calls) = some next :=
  Posts.append current posted

theorem posts_silent {call : Call} (silent : effect call = none)
    (held : Multiset Resource) : Posts effect [call] held held := by
  simp [Posts, Machine.exec, postCall, silent]

theorem posts_acquire {call : Call} {resource : Resource}
    (acquires : effect call = some (.acquire resource))
    (held : Multiset Resource) :
    Posts effect [call] held (resource ::ₘ held) := by
  simp [Posts, Machine.exec, postCall, acquires, post]

theorem posts_release {call : Call} {resource : Resource}
    (releases : effect call = some (.release resource))
    (held : Multiset Resource) :
    Posts effect [call] (resource ::ₘ held) held := by
  simp [Posts, Machine.exec, postCall, releases, post]

theorem posts_releaseAll {Item : Type*} {call : Item → Call}
    {resource : Item → Resource}
    (releases : ∀ item, effect (call item) = some (.release (resource item)))
    (items : List Item) (held : Multiset Resource) :
    Posts effect (items.map call) (↑(items.map resource) + held) held := by
  induction items with
  | nil => simp
  | cons item rest induction =>
      rw [List.map_cons, List.map_cons, ← Multiset.cons_coe, Multiset.cons_add]
      exact (posts_release (releases item) _).append induction

private theorem count_step {held next : Multiset Resource} {call : Call}
    (posted : postCall effect held call = some next) (resource : Resource) :
    acquired effect resource [call] + held.count resource =
      released effect resource [call] + next.count resource := by
  unfold postCall at posted
  cases eventOf : effect call with
  | none =>
      rw [eventOf] at posted
      obtain rfl := Option.some.inj posted
      simp [acquired, released, eventOf]
  | some event =>
      rw [eventOf] at posted
      cases event with
      | acquire taken =>
          obtain rfl := Option.some.inj posted
          by_cases same : taken = resource
          · subst same
            simp [acquired, released, eventOf, Nat.add_comm]
          · simp [acquired, released, eventOf, same, Ne.symm same]
      | release given =>
          simp only [post, Option.ite_none_right_eq_some, Option.some.injEq]
            at posted
          obtain ⟨outstanding, rfl⟩ := posted
          by_cases same : given = resource
          · subst same
            have positive := Multiset.count_pos.mpr outstanding
            simp [acquired, released, eventOf]
            omega
          · simp [acquired, released, eventOf, same, Ne.symm same]

/-- Replaying a log balances, for each resource, what was acquired against what
was released and what is still outstanding. -/
theorem acquired_eq_released_add {log : List Call} {held : Multiset Resource}
    (replayed : replay effect log = some held) (resource : Resource) :
    acquired effect resource log =
      released effect resource log + held.count resource := by
  induction log using List.reverseRecOn generalizing held with
  | nil =>
      obtain rfl := Option.some.inj replayed
      simp [acquired, released]
  | append_singleton log call induction =>
      rw [replay_append, Option.bind_eq_some_iff] at replayed
      obtain ⟨before, current, posted⟩ := replayed
      have earlier := induction current
      have last := count_step posted resource
      simp only [acquired, released, List.countP_append] at earlier last ⊢
      omega

theorem replay_of_isPrefix {earlier log : List Call}
    {held : Multiset Resource}
    (replayed : replay effect log = some held) (before : earlier <+: log) :
    ∃ outstanding, replay effect earlier = some outstanding := by
  obtain ⟨later, rfl⟩ := before
  rw [replay, Machine.exec_append, Option.bind_eq_some_iff] at replayed
  obtain ⟨outstanding, current, _⟩ := replayed
  exact ⟨outstanding, current⟩

theorem released_le_acquired {earlier log : List Call}
    {held : Multiset Resource} (replayed : replay effect log = some held)
    (before : earlier <+: log) (resource : Resource) :
    released effect resource earlier ≤ acquired effect resource earlier := by
  obtain ⟨outstanding, current⟩ := replay_of_isPrefix replayed before
  have balance := acquired_eq_released_add current resource
  omega

theorem acquired_eq_released_iff {log : List Call} {leaked : Multiset Resource}
    (replayed : replay effect log = some leaked) (resource : Resource) :
    acquired effect resource log = released effect resource log ↔
      resource ∉ leaked := by
  rw [acquired_eq_released_add replayed, ← Multiset.count_eq_zero]
  omega

end Ledger
