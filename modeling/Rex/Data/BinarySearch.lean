import Mathlib.Data.Nat.Basic

namespace BinarySearch

/-! The search loop that halves a range.  It is told by `probe` on which side of an
index it has to go on, and stops at an index or in the gap before one. -/

inductive Outcome
  | found (index : Nat)
  | gap (place : Nat)
deriving DecidableEq

variable (probe : Nat → Ordering)

def search : (fuel start stop : Nat) → Outcome
  | 0, start, _ => .gap start
  | fuel + 1, start, stop =>
      if start < stop then
        let middle := start + (stop - start) / 2
        match probe middle with
        | .lt => search fuel start middle
        | .gt => search fuel (middle + 1) stop
        | .eq => .found middle
      else
        .gap start

/-- What was wanted is behind the first index of a range and before the end. -/
structure Brackets (size start stop : Nat) : Prop where
  ordered : start ≤ stop
  within : stop ≤ size
  before : start = 0 ∨ probe (start - 1) = .gt
  after : stop = size ∨ probe stop = .lt

def Meets (size : Nat) : Outcome → Prop
  | .found index => index < size ∧ probe index = .eq
  | .gap place => Brackets probe size place place

variable {probe} {size : Nat}

/-- Nothing has to be known about how the answers hang together. -/
theorem search_meets {fuel start stop : Nat} (brackets : Brackets probe size start stop)
    (enough : stop - start ≤ fuel) : Meets probe size (search probe fuel start stop) := by
  induction fuel generalizing start stop with
  | zero =>
      have ordered := brackets.ordered
      obtain rfl : start = stop := by omega
      exact brackets
  | succ fuel induction =>
      rw [search]
      split
      · rename_i nonempty
        have inside : start + (stop - start) / 2 < stop := by omega
        cases answer : probe (start + (stop - start) / 2) with
        | lt =>
            simp only [answer]
            refine induction ⟨by omega, ?_, brackets.before, .inr answer⟩ (by omega)
            exact Nat.le_trans (Nat.le_of_lt inside) brackets.within
        | gt =>
            simp only [answer]
            refine induction ⟨inside, brackets.within, .inr ?_, brackets.after⟩ (by omega)
            rw [Nat.add_sub_cancel]
            exact answer
        | eq =>
            simp only [answer]
            exact ⟨Nat.lt_of_lt_of_le inside brackets.within, answer⟩
      · rename_i empty
        have ordered := brackets.ordered
        obtain rfl : start = stop := by omega
        exact brackets

theorem search_all (probe : Nat → Ordering) (size : Nat) :
    Meets probe size (search probe size 0 size) :=
  search_meets ⟨Nat.zero_le _, Nat.le_refl _, .inl rfl, .inl rfl⟩ (Nat.le_refl _)

/-- The answers of a sorted sequence: what is wanted is behind a part of the front
and before a part of the end. -/
structure Sorted (probe : Nat → Ordering) (size : Nat) : Prop where
  behind : ∀ {first second}, first ≤ second → second < size → probe second = .gt →
    probe first = .gt
  ahead : ∀ {first second}, first ≤ second → second < size → probe first = .lt →
    probe second = .lt

theorem Brackets.split {place : Nat} (sorted : Sorted probe size)
    (brackets : Brackets probe size place place) (index : Nat) (within : index < size) :
    (index < place → probe index = .gt) ∧ (place ≤ index → probe index = .lt) := by
  have bounded := brackets.within
  refine ⟨fun lower => ?_, fun upper => ?_⟩
  · rcases brackets.before with first | greater
    · omega
    · exact sorted.behind (by omega) (by omega) greater
  · rcases brackets.after with last | less
    · omega
    · exact sorted.ahead upper within less

end BinarySearch
