import Rex.Data.Bytes
import Rex.Data.Window

/-! Text with a terminating 0 in a buffer of bytes. -/

namespace Text

/-- Copies `s` to `off` and terminates it; `none` is an access out of range. -/
def put (buffer : Vector UInt8 size) (off : Nat) (s : List UInt8) :
    Option (Vector UInt8 size) := do
  let window ← Window.locate size s.length off
  let copied := window.write buffer ⟨s.toArray, List.size_toArray⟩
  if inRange : off + s.length < size then
    some (copied.set (off + s.length) 0)
  else
    none

def Shows (buffer : Vector UInt8 size) (message : List UInt8) : Prop :=
  message ++ [0] <+: buffer.toList

theorem put_shows {buffer : Vector UInt8 size} {message : List UInt8}
    (starts : message <+: buffer.toList) (s : List UInt8)
    (fits : message.length + s.length < size) :
    ∃ next, put buffer message.length s = some next ∧
      Shows next (message ++ s) := by
  simp only [put, Window.locate_eq_some (Nat.le_of_lt fits), Option.bind_eq_bind,
    Option.bind_some, dif_pos fits]
  refine ⟨_, rfl, ?_⟩
  obtain ⟨tail, split⟩ := starts
  -- the byte after the copied text is the one that the terminator replaces
  have room : s.length < tail.length := by
    have := congrArg List.length split
    simp at this
    omega
  obtain ⟨byte, rest, remaining⟩ := List.exists_cons_of_length_pos
    (l := tail.drop s.length) (by simp; omega)
  refine ⟨rest, ?_⟩
  simp [Vector.toList_set, Window.toList_write, ← split, remaining]

theorem put_rest {buffer next : Vector UInt8 size} {off : Nat} {s : List UInt8}
    (done : put buffer off s = some next) :
    next.toList.drop (off + s.length + 1) = buffer.toList.drop (off + s.length + 1) := by
  by_cases fits : off + s.length < size
  · simp only [put, Window.locate_eq_some (Nat.le_of_lt fits), Option.bind_eq_bind,
      Option.bind_some, dif_pos fits, Option.some.injEq] at done
    have written : ∀ window : Window size s.length, window.start = off →
        (window.write buffer ⟨s.toArray, List.size_toArray⟩).toList =
          Bytes.put buffer.toList off s := by
      rintro window rfl
      rw [Window.toList_write]
      rfl
    rw [← done, Vector.toList_set, List.drop_set_of_lt (Nat.lt_succ_self _),
      written _ rfl,
      Bytes.drop_put (by rw [Vector.length_toList]; omega) (Nat.le_succ _)]
  · simp [put, Window.locate, fits] at done

theorem Shows.starts {buffer : Vector UInt8 size} {message : List UInt8}
    (shows : Shows buffer message) : message <+: buffer.toList :=
  (List.prefix_append message [0]).trans shows

end Text
