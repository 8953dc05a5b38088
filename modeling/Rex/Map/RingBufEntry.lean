import Rex.Data.Machine
import Rex.Log.LogBuf

namespace Rex

open Machine

/-! Text in the payload that a ring buffer has reserved. -/

structure RexRingBufEntry (size : Nat) where
  data : Vector UInt8 size
  off : Nat

namespace RexRingBufEntry

variable {size : Nat}

def reserved (data : Vector UInt8 size) : RexRingBufEntry size :=
  { data, off := 0 }

def writeStr (entry : RexRingBufEntry size) (s : List UInt8) :
    Except Fault (FmtResult × RexRingBufEntry size) :=
  -- `saturating_sub`, as on natural numbers
  if s.length > size - (entry.off + 1) then
    .ok (.error, entry)
  else
    match Text.put entry.data entry.off s with
    | none => .error .outOfRange
    | some data => .ok (.ok, { data, off := entry.off + s.length })

def write (entry : RexRingBufEntry size) (s : List UInt8) :
    Option (RexRingBufEntry size) :=
  match entry.writeStr s with
  | .error _ => none
  | .ok (_, next) => some next

/-- The calls that find room, with their terminator, after `used` bytes. -/
def accepted (size : Nat) : (used : Nat) → List (List UInt8) → List (List UInt8)
  | _, [] => []
  | used, s :: rest =>
      if used + s.length < size then
        s :: accepted size (used + s.length) rest
      else
        accepted size used rest

/-- A call returns, with an error and no effect exactly when there is no room. -/
def Obeys (entry : RexRingBufEntry size) (s : List UInt8) : Prop :=
  ∃ result next, entry.writeStr s = .ok (result, next) ∧
    (result = .error ↔ size ≤ entry.off + s.length) ∧
    (result = .error → next = entry)

/-- The entry after some pieces of text have been accepted. -/
structure Reads (data : Vector UInt8 size) (pieces : List (List UInt8))
    (entry : RexRingBufEntry size) : Prop where
  off : entry.off = pieces.flatten.length
  starts : pieces.flatten <+: entry.data.toList
  terminated : pieces ≠ [] → Text.Shows entry.data pieces.flatten
  rest : entry.data.toList.drop (entry.off + 1) = data.toList.drop (entry.off + 1)
  untouched : pieces = [] → entry.data = data

theorem reads_reserved (data : Vector UInt8 size) :
    (reserved data).Reads data [] := by
  refine ⟨rfl, List.nil_prefix, fun some => absurd rfl some, rfl, fun _ => rfl⟩

section Step

variable {data : Vector UInt8 size} {entry : RexRingBufEntry size}
  {pieces : List (List UInt8)} {s : List UInt8}

theorem writeStr_fits (reads : entry.Reads data pieces)
    (fits : entry.off + s.length < size) :
    ∃ next, entry.writeStr s = .ok (.ok, next) ∧ next.Reads data (pieces ++ [s]) := by
  have offEq := reads.off
  obtain ⟨written, done, shows⟩ := Text.put_shows reads.starts s (offEq ▸ fits)
  rw [← offEq] at done
  have joined : (pieces ++ [s]).flatten = pieces.flatten ++ s := by simp
  refine ⟨⟨written, entry.off + s.length⟩, ?_, ?_, ?_, ?_, ?_, ?_⟩
  · rw [writeStr, if_neg (by omega), done]
  · rw [joined, List.length_append, ← offEq]
  · rw [joined]
    exact shows.starts
  · rw [joined]
    exact fun _ => shows
  · rw [Text.put_rest done]
    have kept := congrArg (List.drop s.length) reads.rest
    rw [List.drop_drop, List.drop_drop] at kept
    rwa [Nat.add_right_comm] at kept
  · simp

/-- The smallest payload has no room for the terminator of the empty text, which
the test of the capacity lets through. -/
theorem writeStr_full (room : entry.off < size ∨ s ≠ [])
    (full : size ≤ entry.off + s.length) :
    entry.writeStr s = .ok (.error, entry) := by
  have positive : entry.off < size ∨ 0 < s.length :=
    room.imp_right List.length_pos_iff.mpr
  rw [writeStr, if_pos (by omega)]

end Step

theorem write_eq_some {entry next : RexRingBufEntry size} {s : List UInt8}
    {result : FmtResult} (done : entry.writeStr s = .ok (result, next)) :
    entry.write s = some next := by
  rw [write, done]

theorem reads_run {data : Vector UInt8 size} {strings : List (List UInt8)}
    (proper : 0 < size ∨ [] ∉ strings) {entry : RexRingBufEntry size}
    {pieces : List (List UInt8)} (reads : entry.Reads data pieces)
    (room : 0 < size → entry.off < size) :
    EveryStep write Obeys entry strings ∧
      ∃ final, exec write entry strings = some final ∧
        final.Reads data (pieces ++ accepted size entry.off strings) := by
  induction strings generalizing entry pieces with
  | nil => exact ⟨trivial, entry, rfl, by rwa [accepted, List.append_nil]⟩
  | cons s rest induction =>
      have later : 0 < size ∨ [] ∉ rest :=
        proper.imp_right fun absent => mt (List.mem_cons_of_mem s) absent
      rw [accepted]
      by_cases fits : entry.off + s.length < size
      · obtain ⟨next, done, readsNext⟩ := writeStr_fits reads fits
        have offEq : next.off = entry.off + s.length := by
          rw [readsNext.off, reads.off]
          simp
        obtain ⟨obeys, final, run, readsFinal⟩ :=
          induction later readsNext fun _ => offEq ▸ fits
        rw [offEq, List.append_assoc] at readsFinal
        rw [if_pos fits]
        refine ⟨⟨⟨.ok, next, done, ?_, nofun⟩, ?_⟩, final, ?_, readsFinal⟩
        · exact iff_of_false nofun (not_le.mpr fits)
        · rwa [write_eq_some done]
        · rw [exec, write_eq_some done, Option.bind_some, run]
      · have full := not_lt.mp fits
        have rejected : entry.writeStr s = .ok (.error, entry) := by
          apply writeStr_full _ full
          refine proper.imp room fun absent => ?_
          rintro rfl
          exact absent List.mem_cons_self
        obtain ⟨obeys, final, run, readsFinal⟩ := induction later reads room
        rw [if_neg fits]
        refine ⟨⟨⟨.error, entry, rejected, iff_of_true rfl full, fun _ => rfl⟩, ?_⟩,
          final, ?_, readsFinal⟩
        · rwa [write_eq_some rejected]
        · rw [exec, write_eq_some rejected, Option.bind_some, run]

theorem panics_when_empty {entry : RexRingBufEntry 0} (fresh : entry.off = 0)
    {strings : List (List UInt8)} (member : [] ∈ strings) :
    ¬ EveryStep write Obeys entry strings := by
  induction strings with
  | nil => exact absurd member List.not_mem_nil
  | cons s rest induction =>
      rintro ⟨obeys, later⟩
      cases s with
      | nil =>
          obtain ⟨result, next, done, -⟩ := obeys
          rw [writeStr, if_neg (by simp)] at done
          simp [Text.put, Window.locate, fresh] at done
      | cons byte more =>
          have rejected : entry.writeStr (byte :: more) = .ok (.error, entry) :=
            writeStr_full (.inr (List.cons_ne_nil _ _)) (Nat.zero_le _)
          rw [write_eq_some rejected] at later
          exact induction (by simpa using member) later

/-- Writing text obeys its contract for every payload that is not empty, and for
the empty one as long as no text is. -/
theorem ring_buffer_text_iff (data : Vector UInt8 size)
    (strings : List (List UInt8)) :
    (EveryStep write Obeys (reserved data) strings ∧
        ∃ final, exec write (reserved data) strings = some final ∧
          final.Reads data (accepted size 0 strings)) ↔
      0 < size ∨ [] ∉ strings := by
  constructor
  · rintro ⟨obeys, -⟩
    rcases Nat.eq_zero_or_pos size with rfl | positive
    · exact .inr fun member => panics_when_empty rfl member obeys
    · exact .inl positive
  · intro proper
    exact reads_run proper (reads_reserved data) fun positive => positive

/-- Two texts around one that is too long. -/
theorem ring_buffer_text_iff_mixed :
    ∃ final, exec write (reserved (Vector.replicate 4 255))
        [[104], [105, 105, 105], [105]] = some final ∧
      final.Reads (Vector.replicate 4 255) [[104], [105]] :=
  ((ring_buffer_text_iff (Vector.replicate 4 255)
    [[104], [105, 105, 105], [105]]).mpr (.inl (by decide))).2

theorem empty_text_panics :
    ¬ ∀ (size : Nat) (data : Vector UInt8 size) (strings : List (List UInt8)),
      EveryStep write Obeys (reserved data) strings ∧
        ∃ final, exec write (reserved data) strings = some final ∧
          final.Reads data (accepted size 0 strings) := by
  intro always
  have obeys := (always 0 #v[] [[]]).1
  exact panics_when_empty rfl List.mem_cons_self obeys

end RexRingBufEntry

end Rex
