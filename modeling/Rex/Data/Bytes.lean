import Mathlib.Data.List.Basic
import Mathlib.Data.List.TakeWhile

/-! Ranges of a sequence of cells: reading, writing and exchanging them. -/

namespace Bytes

variable {Cell : Type}

def field (cells : List Cell) (off width : Nat) : List Cell :=
  (cells.drop off).take width

/-- The range `start..finish`; `none` is a range outside the sequence. -/
def slice (cells : List Cell) (start finish : Nat) : Option (List Cell) :=
  if start ≤ finish ∧ finish ≤ cells.length then
    some (field cells start (finish - start))
  else
    none

def put (cells : List Cell) (off : Nat) (values : List Cell) : List Cell :=
  cells.take off ++ values ++ cells.drop (off + values.length)

def exchange (cells : List Cell) (off width : Nat) : List Cell :=
  put cells off (field cells (off + width) width ++ field cells off width)

theorem slice_eq_some {cells : List Cell} {start finish : Nat}
    (ordered : start ≤ finish) (inRange : finish ≤ cells.length) :
    slice cells start finish = some (field cells start (finish - start)) :=
  if_pos ⟨ordered, inRange⟩

theorem slice_to_end {cells : List Cell} {start : Nat}
    (inRange : start ≤ cells.length) :
    slice cells start cells.length = some (cells.drop start) := by
  rw [slice_eq_some inRange le_rfl, field, ← List.length_drop, List.take_length]

theorem slice_some {cells found : List Cell} {start finish : Nat}
    (sliced : slice cells start finish = some found) :
    found = field cells start (finish - start) := by
  unfold slice at sliced
  split at sliced
  · exact (Option.some.inj sliced).symm
  · cases sliced

theorem length_field {cells : List Cell} {off width : Nat}
    (fits : off + width ≤ cells.length) :
    (field cells off width).length = width := by
  rw [field, List.length_take, List.length_drop]
  omega

theorem length_put {cells values : List Cell} {off : Nat}
    (fits : off + values.length ≤ cells.length) :
    (put cells off values).length = cells.length := by
  simp only [put, List.length_append, List.length_take, List.length_drop]
  omega

theorem drop_put {cells values : List Cell} {off n : Nat}
    (fits : off + values.length ≤ cells.length) (beyond : off + values.length ≤ n) :
    (put cells off values).drop n = cells.drop n := by
  have front : (cells.take off ++ values).length = off + values.length := by
    rw [List.length_append, List.length_take]
    omega
  rw [put, List.drop_append, List.drop_eq_nil_of_le (by omega), front,
    List.nil_append, List.drop_drop]
  congr 1
  omega

theorem take_put {cells values : List Cell} {off n : Nat}
    (fits : off ≤ cells.length) (before : n ≤ off) :
    (put cells off values).take n = cells.take n := by
  rw [put, List.append_assoc, List.take_append_of_le_length (by simp; omega),
    List.take_take, min_eq_left before]

theorem field_put_self {cells values : List Cell} {off : Nat}
    (fits : off ≤ cells.length) :
    field (put cells off values) off values.length = values := by
  have front : (cells.take off).length = off := by
    rw [List.length_take]
    omega
  rw [field, put, List.append_assoc, List.drop_append, front,
    List.drop_eq_nil_of_le (by omega)]
  simp

theorem drop_put_self {cells values : List Cell} {off : Nat}
    (fits : off ≤ cells.length) :
    (put cells off values).drop off =
      values ++ cells.drop (off + values.length) := by
  have front : (cells.take off).length = off := by
    rw [List.length_take]
    omega
  rw [put, List.append_assoc, List.drop_append, front,
    List.drop_eq_nil_of_le (by omega), Nat.sub_self, List.drop_zero,
    List.nil_append]

theorem field_put_of_before {cells values : List Cell} {off start width : Nat}
    (fits : off ≤ cells.length) (before : start + width ≤ off) :
    field (put cells off values) start width = field cells start width := by
  rw [field, field, List.take_drop, List.take_drop, take_put fits before]

theorem field_put_of_beyond {cells values : List Cell} {off start width : Nat}
    (fits : off + values.length ≤ cells.length)
    (beyond : off + values.length ≤ start) :
    field (put cells off values) start width = field cells start width := by
  rw [field, field, drop_put fits beyond]

theorem field_field {cells : List Cell} {off width start size : Nat}
    (inside : start + size ≤ width) :
    field (field cells off width) start size = field cells (off + start) size := by
  rw [field, field, field, List.drop_take, List.take_take, List.drop_drop,
    min_eq_left (by omega)]

theorem field_drop (cells : List Cell) (start off width : Nat) :
    field (cells.drop start) off width = field cells (start + off) width := by
  rw [field, field, List.drop_drop]

theorem field_take {cells : List Cell} {start width n : Nat}
    (inside : start + width ≤ n) :
    field (cells.take n) start width = field cells start width := by
  rw [field, field, List.drop_take, List.take_take, min_eq_left (by omega)]

theorem put_put {cells first second : List Cell} {off : Nat}
    (fits : off + first.length ≤ cells.length) :
    put (put cells off first) (off + first.length) second =
      put cells off (first ++ second) := by
  have front : (cells.take off ++ first).length = off + first.length := by
    rw [List.length_append, List.length_take]
    omega
  have kept : (put cells off first).take (off + first.length) =
      cells.take off ++ first := by
    rw [put, List.take_append_of_le_length (by omega), ← front, List.take_length]
  rw [put, kept, drop_put fits (by omega), put, List.length_append,
    List.append_assoc, ← Nat.add_assoc]
  simp only [List.append_assoc]

theorem put_overwrite {cells first second : List Cell} {off : Nat}
    (fits : off + first.length ≤ cells.length)
    (same : first.length = second.length) :
    put (put cells off first) off second = put cells off second := by
  rw [put, take_put (by omega) le_rfl, drop_put fits (by omega), put]

theorem put_isPrefix {cells values : List Cell} {off : Nat}
    (present : values <+: cells.drop off) : put cells off values = cells := by
  obtain ⟨rest, split⟩ := present
  rw [put, ← List.drop_drop, ← split, List.drop_left, List.append_assoc, split,
    List.take_append_drop]

theorem all_zip_eq_iff [BEq Cell] [LawfulBEq Cell] {cells other : List Cell}
    (shorter : other.length ≤ cells.length) :
    ((cells.zip other).all fun pair => pair.1 == pair.2) = true ↔
      cells.take other.length = other := by
  induction other generalizing cells with
  | nil => simp
  | cons cell rest induction =>
      cases cells with
      | nil => simp at shorter
      | cons head tail =>
          rw [List.length_cons, List.length_cons] at shorter
          simp only [List.zip_cons_cons, List.all_cons, Bool.and_eq_true,
            beq_iff_eq, List.length_cons, List.take_succ_cons, List.cons.injEq]
          rw [induction (by omega)]

theorem length_exchange {cells : List Cell} {off width : Nat}
    (fits : off + 2 * width ≤ cells.length) :
    (exchange cells off width).length = cells.length := by
  apply length_put
  rw [List.length_append, length_field (by omega), length_field (by omega)]
  omega

theorem drop_exchange {cells : List Cell} {off width n : Nat}
    (fits : off + 2 * width ≤ cells.length) (beyond : off + 2 * width ≤ n) :
    (exchange cells off width).drop n = cells.drop n := by
  have moved :
      (field cells (off + width) width ++ field cells off width).length =
        2 * width := by
    rw [List.length_append, length_field (by omega), length_field (by omega)]
    omega
  exact drop_put (by omega) (by omega)

/-! A token: the cells up to the first one that does not belong to it. -/

structure Token (belongs : Cell → Bool) (cells name : List Cell)
    (stopper : Cell) : Prop where
  shape : ∃ rest, cells = name ++ stopper :: rest
  inside : ∀ cell ∈ name, belongs cell = true
  stops : belongs stopper = false

namespace Token

variable {belongs : Cell → Bool} {cells name other : List Cell}
  {stopper another : Cell}

theorem takeWhile_eq (token : Token belongs cells name stopper) :
    cells.takeWhile belongs = name := by
  obtain ⟨rest, rfl⟩ := token.shape
  rw [List.takeWhile_append_of_pos token.inside, List.takeWhile_cons_of_neg,
    List.append_nil]
  simp [token.stops]

theorem getElem?_eq (token : Token belongs cells name stopper) :
    cells[name.length]? = some stopper := by
  obtain ⟨rest, rfl⟩ := token.shape
  simp

theorem unique (token : Token belongs cells name stopper)
    (found : Token belongs cells other another) :
    other = name ∧ another = stopper := by
  obtain rfl := token.takeWhile_eq.symm.trans found.takeWhile_eq
  exact ⟨rfl, Option.some.inj (found.getElem?_eq.symm.trans token.getElem?_eq)⟩

theorem of_takeWhile {cells : List Cell} {stopper : Cell}
    (found : cells[(cells.takeWhile belongs).length]? = some stopper) :
    Token belongs cells (cells.takeWhile belongs) stopper := by
  induction cells with
  | nil => cases found
  | cons cell rest induction =>
      cases member : belongs cell with
      | false =>
          rw [List.takeWhile_cons_of_neg (by simp [member])] at found ⊢
          obtain rfl := Option.some.inj found
          exact ⟨⟨rest, rfl⟩, by simp, member⟩
      | true =>
          rw [List.takeWhile_cons_of_pos member] at found ⊢
          rw [List.length_cons, List.getElem?_cons_succ] at found
          obtain ⟨⟨tail, shape⟩, inside, stops⟩ := induction found
          refine ⟨⟨tail, ?_⟩, ?_, stops⟩
          · rw [List.cons_append, ← shape]
          · exact List.forall_mem_cons.mpr ⟨member, inside⟩

theorem extend (token : Token belongs cells name stopper) (more : List Cell) :
    Token belongs (cells ++ more) name stopper := by
  obtain ⟨⟨rest, rfl⟩, inside, stops⟩ := token
  exact ⟨⟨rest ++ more, by simp⟩, inside, stops⟩

theorem take {n : Nat} (token : Token belongs cells name stopper)
    (reaches : name.length < n) :
    Token belongs (cells.take n) name stopper := by
  obtain ⟨⟨rest, rfl⟩, inside, stops⟩ := token
  refine ⟨⟨rest.take (n - name.length - 1), ?_⟩, inside, stops⟩
  obtain ⟨more, rfl⟩ : ∃ more, n = name.length + (more + 1) :=
    ⟨n - name.length - 1, by omega⟩
  rw [List.take_length_add_append, List.take_succ_cons]
  congr 3
  omega

end Token

end Bytes
