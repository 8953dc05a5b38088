import Mathlib.Logic.Equiv.Defs

/-! A run of consecutive cells of a buffer of fixed size, read and written as a
unit. -/

structure Window (size len : Nat) where
  start : Nat
  inRange : start + len ≤ size

namespace Window

def locate (size len start : Nat) : Option (Window size len) :=
  if inRange : start + len ≤ size then
    some ⟨start, inRange⟩
  else
    none

theorem locate_eq_some {size len start : Nat} (inRange : start + len ≤ size) :
    locate size len start = some ⟨start, inRange⟩ :=
  dif_pos inRange

theorem start_of_locate {size len start : Nat} {window : Window size len}
    (located : locate size len start = some window) : window.start = start := by
  unfold locate at located
  split at located
  · cases located
    rfl
  · cases located

def Covers (window : Window size len) (idx : Nat) : Prop :=
  window.start ≤ idx ∧ idx < window.start + len

instance (window : Window size len) (idx : Nat) :
    Decidable (window.Covers idx) :=
  inferInstanceAs (Decidable (_ ∧ _))

def read (window : Window size len) (buffer : Vector α size) : Vector α len :=
  Vector.ofFn fun idx =>
    have inBuffer : window.start + idx < size := by
      have := window.inRange
      omega
    buffer[window.start + idx]

def write (window : Window size len) (buffer : Vector α size)
    (values : Vector α len) : Vector α size :=
  Vector.ofFn fun idx =>
    if inside : window.Covers idx then
      have inWindow : idx - window.start < len := by
        have := inside.1
        have := inside.2
        omega
      values[idx - window.start]
    else
      buffer[idx]

theorem getElem_write_of_not_covers (window : Window size len)
    (buffer : Vector α size) (values : Vector α len) (inBuffer : idx < size)
    (outside : ¬ window.Covers idx) :
    (window.write buffer values)[idx] = buffer[idx] := by
  simp [write, outside]

theorem getElem_write_start_add (window : Window size len)
    (buffer : Vector α size) (values : Vector α len) (inWindow : idx < len)
    (inBuffer : window.start + idx < size) :
    (window.write buffer values)[window.start + idx] = values[idx] := by
  have inside : window.Covers (window.start + idx) := ⟨by omega, by omega⟩
  simp [write, inside]

@[simp] theorem read_write (window : Window size len) (buffer : Vector α size)
    (values : Vector α len) :
    window.read (window.write buffer values) = values := by
  ext idx inWindow
  have inBuffer : window.start + idx < size := by
    have := window.inRange
    omega
  have written :=
    getElem_write_start_add window buffer values inWindow inBuffer
  simpa [read] using written

theorem read_congr (window : Window size len) {buffer other : Vector α size}
    (same : ∀ idx (inBuffer : idx < size), window.Covers idx →
      buffer[idx] = other[idx]) : window.read buffer = window.read other := by
  ext idx inWindow
  have inside : window.Covers (window.start + idx) := ⟨by omega, by omega⟩
  have inBuffer : window.start + idx < size := by
    have := window.inRange
    omega
  simpa [read] using same (window.start + idx) inBuffer inside

theorem getElem_of_read_eq (window : Window size len) {buffer other : Vector α size}
    (same : window.read buffer = window.read other) (inBuffer : idx < size)
    (inside : window.Covers idx) : buffer[idx] = other[idx] := by
  obtain ⟨offset, rfl⟩ := Nat.exists_eq_add_of_le inside.1
  have inWindow : offset < len := by
    have := inside.2
    omega
  have cells := congrArg (fun values : Vector α len => values[offset]) same
  simpa [read] using cells

@[simp] theorem write_read (window : Window size len) (buffer : Vector α size) :
    window.write buffer (window.read buffer) = buffer := by
  ext idx inBuffer
  by_cases inside : window.Covers idx
  · have position : window.start + (idx - window.start) = idx := by
      have := inside.1
      omega
    simp [write, read, inside, position]
  · exact getElem_write_of_not_covers window buffer _ inBuffer inside

@[simp] theorem write_write (window : Window size len) (buffer : Vector α size)
    (values later : Vector α len) :
    window.write (window.write buffer values) later =
      window.write buffer later := by
  ext idx inBuffer
  by_cases inside : window.Covers idx
  · simp [write, inside]
  · simp only [getElem_write_of_not_covers window _ _ inBuffer inside]

theorem toList_write (window : Window size len) (buffer : Vector α size)
    (values : Vector α len) :
    (window.write buffer values).toList =
      buffer.toList.take window.start ++ values.toList ++
        buffer.toList.drop (window.start + len) := by
  have bound := window.inRange
  apply List.ext_getElem
  · simp
    omega
  · intro idx inWritten inList
    have inBuffer : idx < size := by simpa using inWritten
    have lengthTake : (buffer.toList.take window.start).length = window.start := by
      rw [List.length_take, Vector.length_toList]
      omega
    have lengths : (buffer.toList.take window.start ++ values.toList).length =
        window.start + len := by
      rw [List.length_append, lengthTake, Vector.length_toList]
    rw [Vector.getElem_toList]
    rcases Nat.lt_or_ge idx (window.start + len) with early | late
    · rw [List.getElem_append_left (by omega)]
      rcases Nat.lt_or_ge idx window.start with before | inside
      · rw [List.getElem_append_left (by omega), List.getElem_take,
          Vector.getElem_toList]
        exact getElem_write_of_not_covers window buffer values inBuffer
          fun covers => Nat.not_le.mpr before covers.1
      · obtain ⟨offset, rfl⟩ := Nat.exists_eq_add_of_le inside
        rw [List.getElem_append_right (by omega), Vector.getElem_toList]
        simp only [lengthTake, Nat.add_sub_cancel_left]
        exact getElem_write_start_add window buffer values (by omega) inBuffer
    · rw [List.getElem_append_right (by omega), List.getElem_drop,
        Vector.getElem_toList]
      have position : window.start + len + (idx - (window.start + len)) = idx := by
        omega
      simp only [lengths, position]
      exact getElem_write_of_not_covers window buffer values inBuffer
        fun covers => Nat.not_lt.mpr late covers.2

end Window
