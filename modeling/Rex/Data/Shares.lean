import Mathlib.Data.Finset.Prod

namespace Rex.Shares

/-! Work dealt out in shares of one size.  Every worker takes `count / workers`
items in a row, the first one at its fraction of the whole. -/

def start (count workers worker : Nat) : Nat :=
  worker * count / workers

section Workers

variable {count workers worker : Nat}

theorem start_add_share_le :
    start count workers worker + count / workers ≤
      start count workers (worker + 1) := by
  rw [start, start, Nat.succ_mul]
  exact Nat.div_add_div_le_add_div

theorem start_mono {later : Nat} (before : worker ≤ later) :
    start count workers worker ≤ start count workers later :=
  Nat.div_le_div_right (Nat.mul_le_mul_right count before)

theorem start_add_share_le_of_lt (count workers : Nat) {worker later : Nat}
    (before : worker < later) :
    start count workers worker + count / workers ≤ start count workers later :=
  start_add_share_le.trans (start_mono before)

theorem start_workers (some : 0 < workers) : start count workers workers = count :=
  Nat.mul_div_cancel_left count some

theorem start_add_share_le_count (employed : worker < workers) :
    start count workers worker + count / workers ≤ count := by
  have within := start_add_share_le_of_lt count workers employed
  rwa [start_workers (Nat.zero_lt_of_lt employed)] at within

theorem start_add_inj {other idx otherIdx : Nat}
    (inShare : idx < count / workers) (inOther : otherIdx < count / workers)
    (same : start count workers worker + idx =
      start count workers other + otherIdx) :
    worker = other ∧ idx = otherIdx := by
  rcases Nat.lt_trichotomy worker other with before | rfl | after
  · have apart := start_add_share_le_of_lt count workers before
    omega
  · exact ⟨rfl, Nat.add_left_cancel same⟩
  · have apart := start_add_share_le_of_lt count workers after
    omega

theorem start_of_dvd (even : workers ∣ count) :
    start count workers worker = worker * (count / workers) :=
  Nat.mul_div_assoc worker even

end Workers

/-- The shares make up the whole exactly if the workers divide it evenly. -/
theorem covers_iff {count workers : Nat} :
    (∀ item < count, ∃ worker < workers, ∃ idx < count / workers,
        start count workers worker + idx = item) ↔ workers ∣ count := by
  constructor
  · intro covers
    have covered : Finset.range count ⊆
        (Finset.range workers ×ˢ Finset.range (count / workers)).image
          fun pair => start count workers pair.1 + pair.2 := by
      intro item member
      obtain ⟨worker, employed, idx, inShare, same⟩ :=
        covers item (Finset.mem_range.mp member)
      refine Finset.mem_image.mpr ⟨(worker, idx), ?_, same⟩
      exact Finset.mem_product.mpr
        ⟨Finset.mem_range.mpr employed, Finset.mem_range.mpr inShare⟩
    have few := (Finset.card_le_card covered).trans Finset.card_image_le
    rw [Finset.card_product, Finset.card_range, Finset.card_range,
      Finset.card_range] at few
    exact ⟨_, few.antisymm (Nat.mul_div_le count workers)⟩
  · intro even item below
    have whole := Nat.mul_div_cancel' even
    have share : 0 < count / workers := by
      apply Nat.pos_of_ne_zero
      intro none
      rw [none, Nat.mul_zero] at whole
      omega
    refine ⟨item / (count / workers), ?_, item % (count / workers),
      Nat.mod_lt _ share, ?_⟩
    · rw [Nat.div_lt_iff_lt_mul share, whole]
      exact below
    · rw [start_of_dvd even]
      exact Nat.div_add_mod' item (count / workers)

theorem flatten_shares {Item : Type} (list : List Item) (workers size : Nat) :
    ((List.range workers).map fun worker =>
        (list.drop (worker * size)).take size).flatten =
      list.take (workers * size) := by
  induction workers with
  | zero => rw [Nat.zero_mul, List.take_zero]; rfl
  | succ workers induction =>
      rw [List.range_succ, List.map_append, List.flatten_append, induction,
        Nat.succ_mul, List.take_add]
      simp only [List.map_cons, List.map_nil, List.flatten_cons, List.flatten_nil,
        List.append_nil]

end Rex.Shares
