import Mathlib.Data.Nat.ModEq

/-! Sums whose carries are added back at the low end, over digits of any base. -/

namespace OnesComplement

def carry (base sum : Nat) : Nat :=
  sum % base + sum / base

def foldFor (base : Nat) : (fuel sum : Nat) → Nat
  | 0, sum => sum
  | fuel + 1, sum => if sum < base then sum else foldFor base fuel (carry base sum)

def fold (base sum : Nat) : Nat :=
  foldFor base sum sum

section Fold

variable {base sum : Nat}

theorem carry_add (base sum : Nat) :
    carry (base + 1) sum + base * (sum / (base + 1)) = sum := by
  have split := Nat.mod_add_div sum (base + 1)
  rw [Nat.add_mul, Nat.one_mul] at split
  rw [carry]
  omega

theorem carry_lt (proper : 1 ≤ base) (long : base + 1 ≤ sum) :
    carry (base + 1) sum < sum := by
  have digits : 1 ≤ sum / (base + 1) := (Nat.one_le_div_iff (by omega)).mpr long
  have more : 1 ≤ base * (sum / (base + 1)) := Nat.mul_pos proper digits
  have split := carry_add base sum
  omega

theorem carry_modEq (base sum : Nat) : carry (base + 1) sum ≡ sum [MOD base] := by
  have split := carry_add base sum
  calc carry (base + 1) sum
    _ ≡ carry (base + 1) sum + base * (sum / (base + 1)) [MOD base] :=
      (Nat.add_mul_mod_self_left ..).symm
    _ = sum := split

theorem carry_eq_zero : carry (base + 1) sum = 0 ↔ sum = 0 := by
  constructor
  · intro zero
    rw [carry, Nat.add_eq_zero_iff] at zero
    have split := Nat.mod_add_div sum (base + 1)
    rw [zero.1, zero.2] at split
    omega
  · rintro rfl
    rw [carry, Nat.zero_mod, Nat.zero_div]

/-- What the carries leave alone: the remainder, and whether there is anything. -/
structure SameSum (base first second : Nat) : Prop where
  modEq : first ≡ second [MOD base]
  zero : first = 0 ↔ second = 0

theorem sameSum_foldFor (base fuel sum : Nat) :
    SameSum base (foldFor (base + 1) fuel sum) sum := by
  induction fuel generalizing sum with
  | zero => exact ⟨.rfl, .rfl⟩
  | succ fuel induction =>
      rw [foldFor]
      split
      · exact ⟨.rfl, .rfl⟩
      · obtain ⟨modEq, zero⟩ := induction (carry (base + 1) sum)
        exact ⟨modEq.trans (carry_modEq base sum), zero.trans carry_eq_zero⟩

theorem foldFor_lt (proper : 1 ≤ base) {fuel : Nat} (enough : sum ≤ fuel) :
    foldFor (base + 1) fuel sum < base + 1 := by
  induction fuel generalizing sum with
  | zero =>
      rw [foldFor]
      omega
  | succ fuel induction =>
      rw [foldFor]
      split
      · assumption
      · rename_i long
        have less := carry_lt proper (not_lt.mp long)
        exact induction (by omega)

theorem fold_lt (proper : 1 ≤ base) (sum : Nat) : fold (base + 1) sum < base + 1 :=
  foldFor_lt proper le_rfl

theorem sameSum_fold (base sum : Nat) : SameSum base (fold (base + 1) sum) sum :=
  sameSum_foldFor base sum sum

/-- The remainder and the digit zero tell digits apart. -/
theorem SameSum.eq_of_lt {first second : Nat} (same : SameSum base first second)
    (left : first < base + 1) (right : second < base + 1) : first = second := by
  rcases Nat.eq_zero_or_pos first with zero | positive
  · rw [zero, same.zero.mp zero]
  · have other : 0 < second := Nat.pos_of_ne_zero (mt same.zero.mpr (by omega))
    rcases Nat.lt_or_ge first base with less | full
    · rcases Nat.lt_or_ge second base with less' | full'
      · exact same.modEq.eq_of_lt_of_lt less less'
      · obtain rfl : second = base := by omega
        have zero := same.modEq
        rw [Nat.ModEq, Nat.mod_self, Nat.mod_eq_of_lt less] at zero
        omega
    · obtain rfl : first = base := by omega
      have zero := same.modEq
      rw [Nat.ModEq, Nat.mod_self] at zero
      have divides := Nat.dvd_of_mod_eq_zero zero.symm
      have atLeast := Nat.le_of_dvd other divides
      omega

theorem fold_eq_iff (proper : 1 ≤ base) {digit : Nat} (inside : digit < base + 1) :
    fold (base + 1) sum = digit ↔ SameSum base digit sum := by
  have folded := sameSum_fold base sum
  constructor
  · rintro rfl
    exact folded
  · intro same
    refine SameSum.eq_of_lt ?_ (fold_lt proper sum) inside
    exact ⟨folded.modEq.trans same.modEq.symm, folded.zero.trans same.zero.symm⟩

end Fold

end OnesComplement
