import Mathlib.Data.Finset.Card
import Mathlib.Data.Nat.Bitwise

/-! Words as sets of small numbers. -/

namespace Bitset

def Marks (word : Nat) (members : Finset Nat) : Prop :=
  ∀ idx, word.testBit idx = true ↔ idx ∈ members

theorem marks_zero : Marks 0 ∅ := by
  intro idx
  simp

theorem testBit_or_shiftLeft (word idx other : Nat) :
    (word ||| 1 <<< idx).testBit other = (word.testBit other || decide (idx = other)) := by
  rw [Nat.testBit_or, Nat.one_shiftLeft, Nat.testBit_two_pow]

variable {word : Nat} {members : Finset Nat}

theorem Marks.insert (marks : Marks word members) (idx : Nat) :
    Marks (word ||| 1 <<< idx) (insert idx members) := by
  intro other
  rw [testBit_or_shiftLeft, Bool.or_eq_true, decide_eq_true_iff, marks other,
    Finset.mem_insert, or_comm, eq_comm]

theorem Marks.unique {others : Finset Nat} (marks : Marks word members)
    (same : Marks word others) : members = others := by
  ext idx
  rw [← marks idx, same idx]

theorem Marks.lt_of_mem {width idx : Nat} (marks : Marks word members)
    (bounded : word < 2 ^ width) (member : idx ∈ members) : idx < width := by
  by_contra beyond
  have clear : word.testBit idx = false :=
    Nat.testBit_lt_two_pow (bounded.trans_le (Nat.pow_le_pow_right (by decide) (by omega)))
  exact Bool.false_ne_true (clear.symm.trans ((marks idx).mpr member))

theorem Marks.countP_eq {width : Nat} (marks : Marks word members)
    (bounded : word < 2 ^ width) :
    (List.range width).countP (fun idx => word.testBit idx) = members.card := by
  have listed : ((List.range width).filter fun idx => word.testBit idx).toFinset =
      members := by
    ext idx
    rw [List.mem_toFinset, List.mem_filter, List.mem_range, marks idx]
    exact ⟨And.right, fun member => ⟨marks.lt_of_mem bounded member, member⟩⟩
  rw [List.countP_eq_length_filter, ← listed,
    List.toFinset_card_of_nodup (List.nodup_range.filter _)]

end Bitset
