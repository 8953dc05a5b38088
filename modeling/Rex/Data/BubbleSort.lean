import Mathlib.Data.List.Basic

namespace BubbleSort

variable {Row : Type} (swaps : Row → Row → Prop) [DecidableRel swaps]

/-! The sort by neighbours, as two nested loops write it: the inner loop goes
over so many pairs from the front and swaps the rows of a pair that stand in the
wrong order, and each round of the outer loop leaves out one pair more. -/

def pass : Nat → List Row → List Row
  | pairs + 1, first :: second :: rest =>
      if swaps first second then
        second :: pass pairs (first :: rest)
      else
        first :: pass pairs (second :: rest)
  | _, rows => rows

def rounds : Nat → List Row → List Row
  | 0, rows => rows
  | pairs + 1, rows => rounds pairs (pass swaps (pairs + 1) rows)

def sort (rows : List Row) : List Row :=
  rounds swaps (rows.length - 1) rows

variable {swaps}

section Order

variable (asymm : ∀ first second, swaps first second → ¬ swaps second first)
  (trans : ∀ first second third, ¬ swaps first second → ¬ swaps second third →
    ¬ swaps first third)

include asymm trans

end Order

end BubbleSort
