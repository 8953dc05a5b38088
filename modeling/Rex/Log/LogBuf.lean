import Rex.Data.Text

namespace Rex

/-! The per-CPU log buffer, through which panic messages and trace output reach
the kernel. -/

inductive Fault
  | subtractOverflow
  | outOfRange
deriving DecidableEq

structure LogBuf (size : Nat) where
  buf : Vector UInt8 size
  off : Nat

inductive FmtResult
  | ok
  | error
deriving DecidableEq

namespace LogBuf

variable {size : Nat}

def new (buf : Vector UInt8 size) : LogBuf size :=
  { buf, off := 0 }

def reset (log : LogBuf size) : LogBuf size :=
  { log with off := 0 }

def writeStr (log : LogBuf size) (s : List UInt8) :
    Except Fault (FmtResult × LogBuf size) :=
  -- `self.buf.len() - self.off - 1` subtracts unsigned numbers twice
  if size < log.off ∨ size - log.off < 1 then
    .error .subtractOverflow
  else if s.length > size - log.off - 1 then
    .ok (.error, log)
  else
    match Text.put log.buf log.off s with
    | none => .error .outOfRange
    | some buf => .ok (.ok, { buf, off := log.off + s.length })

def writeFmt (log : LogBuf size) :
    List (List UInt8) → Except Fault (FmtResult × LogBuf size)
  | [] => .ok (.ok, log)
  | fragment :: rest => do
      match ← log.writeStr fragment with
      | (.ok, log) => log.writeFmt rest
      | (.error, log) => return (.error, log)

end LogBuf

def unknownRustPanic : List UInt8 :=
  "unknown rust panic".toUTF8.data.toList

/-- The message part of the panic handler; the result is the buffer that
`rex_landingpad` finds. -/
def panicMessage (buf : Vector UInt8 size) (info : List (List UInt8)) :
    Except Fault (Vector UInt8 size) := do
  match ← (LogBuf.new buf).writeFmt info with
  | (.ok, log) => return log.buf
  | (.error, log) =>
      let (_, log) ← log.reset.writeFmt [unknownRustPanic]
      return log.buf

def e2big : Int32 := 7

/-- The second component is the buffer that the kernel's printk finds, if it is
called. -/
def rexTracePrintk (buf : Vector UInt8 size) (args : List (List UInt8)) :
    Except Fault (Except Int32 Int32 × Option (Vector UInt8 size)) := do
  match ← (LogBuf.new buf).writeFmt args with
  | (.ok, log) => return (.ok 0, some log.buf)
  | (.error, _) => return (.error (-e2big), none)

namespace LogBuf

variable {size : Nat}

structure Holds (log : LogBuf size) (message : List UInt8) : Prop where
  off : log.off = message.length
  room : message.length < size
  starts : message <+: log.buf.toList

theorem holds_nil (log : LogBuf size) (positive : 0 < size) :
    log.reset.Holds [] :=
  ⟨rfl, positive, List.nil_prefix⟩

theorem writeStr_fits {log : LogBuf size} {message : List UInt8}
    (holds : log.Holds message) {s : List UInt8}
    (fits : message.length + s.length < size) :
    ∃ next, log.writeStr s = .ok (.ok, next) ∧ next.Holds (message ++ s) ∧
      Text.Shows next.buf (message ++ s) := by
  obtain ⟨buf, written, shows⟩ := Text.put_shows holds.starts s fits
  refine ⟨{ buf, off := message.length + s.length }, ?_, ?_, shows⟩
  · rw [writeStr, holds.off, if_neg (by omega), if_neg (by omega), written]
  · exact ⟨by simp, by simpa using fits, shows.starts⟩

theorem writeStr_overflows {log : LogBuf size} {message : List UInt8}
    (holds : log.Holds message) {s : List UInt8}
    (overflows : size ≤ message.length + s.length) :
    log.writeStr s = .ok (.error, log) := by
  have room := holds.room
  rw [writeStr, holds.off, if_neg (by omega), if_pos (by omega)]

theorem writeFmt_fits {log : LogBuf size} {message : List UInt8}
    (holds : log.Holds message) (fragments : List (List UInt8))
    (fits : message.length + fragments.flatten.length < size)
    (terminated : fragments ≠ [] ∨ Text.Shows log.buf message) :
    ∃ next, log.writeFmt fragments = .ok (.ok, next) ∧
      Text.Shows next.buf (message ++ fragments.flatten) := by
  induction fragments generalizing log message with
  | nil =>
      refine ⟨log, rfl, ?_⟩
      simpa using terminated
  | cons fragment rest induction =>
      simp only [List.flatten_cons, List.length_append] at fits
      obtain ⟨next, written, holdsNext, shows⟩ :=
        writeStr_fits holds (s := fragment) (by omega)
      obtain ⟨final, formatted, result⟩ :=
        induction holdsNext (by rw [List.length_append]; omega) (.inr shows)
      refine ⟨final, ?_, ?_⟩
      · simp only [writeFmt, written, bind, Except.bind, formatted]
      · simpa using result

theorem writeFmt_overflows {log : LogBuf size} {message : List UInt8}
    (holds : log.Holds message) (fragments : List (List UInt8))
    (overflows : size ≤ message.length + fragments.flatten.length) :
    ∃ next, log.writeFmt fragments = .ok (.error, next) := by
  induction fragments generalizing log message with
  | nil =>
      have room := holds.room
      simp at overflows
      omega
  | cons fragment rest induction =>
      simp only [List.flatten_cons, List.length_append] at overflows
      by_cases fits : message.length + fragment.length < size
      · obtain ⟨next, written, holdsNext, _⟩ := writeStr_fits holds fits
        obtain ⟨final, formatted⟩ :=
          induction holdsNext (by rw [List.length_append]; omega)
        refine ⟨final, ?_⟩
        simp only [writeFmt, written, bind, Except.bind, formatted]
      · refine ⟨log, ?_⟩
        have rejected := writeStr_overflows holds (s := fragment) (by omega)
        simp only [writeFmt, rejected, bind, Except.bind]
        rfl

end LogBuf

theorem length_unknownRustPanic : unknownRustPanic.length = 18 :=
  rfl

/-- No check inside the crate fails, and what the kernel sees is either the
whole message or none of it. -/
theorem log_messages_all_or_nothing (buf : Vector UInt8 size)
    (fragments : List (List UInt8)) (long : 19 ≤ size)
    (nonempty : fragments ≠ []) :
    (∃ log, (LogBuf.new buf).writeFmt fragments =
      .ok (if fragments.flatten.length ≤ size - 1 then .ok else .error, log)) ∧
    (∃ shown, panicMessage buf fragments = .ok shown ∧
      Text.Shows shown (if fragments.flatten.length ≤ size - 1 then
        fragments.flatten else unknownRustPanic)) ∧
    if fragments.flatten.length ≤ size - 1 then
      ∃ printed, rexTracePrintk buf fragments = .ok (.ok 0, some printed) ∧
        Text.Shows printed fragments.flatten
    else
      rexTracePrintk buf fragments = .ok (.error (-e2big), none) := by
  have start : (LogBuf.new buf).Holds [] :=
    LogBuf.holds_nil (LogBuf.new buf) (by omega)
  by_cases fits : fragments.flatten.length ≤ size - 1
  · obtain ⟨log, formatted, shows⟩ :=
      LogBuf.writeFmt_fits start fragments (by rw [List.length_nil]; omega)
        (.inl nonempty)
    simp only [if_pos fits]
    refine ⟨⟨log, formatted⟩, ⟨log.buf, ?_, shows⟩, log.buf, ?_, shows⟩
    · simp only [panicMessage, formatted, bind, Except.bind]
      rfl
    · simp only [rexTracePrintk, formatted, bind, Except.bind]
      rfl
  · obtain ⟨log, formatted⟩ :=
      LogBuf.writeFmt_overflows start fragments (by rw [List.length_nil]; omega)
    obtain ⟨final, fallback, shows⟩ :=
      LogBuf.writeFmt_fits (LogBuf.holds_nil log (by omega)) [unknownRustPanic]
        (by simp [length_unknownRustPanic]; omega) (.inl (by simp))
    simp only [if_neg fits]
    refine ⟨⟨log, formatted⟩, ⟨final.buf, ?_, by simpa using shows⟩, ?_⟩
    · simp only [panicMessage, formatted, fallback, bind, Except.bind]
      rfl
    · simp only [rexTracePrintk, formatted, bind, Except.bind]
      rfl

theorem log_messages_all_or_nothing_short :
    ∃ shown,
      panicMessage (Vector.replicate 19 255) [[104], [], [105]] = .ok shown ∧
        Text.Shows shown [104, 105] := by
  obtain ⟨_, ⟨shown, displayed, shows⟩, _⟩ :=
    log_messages_all_or_nothing (Vector.replicate 19 255) [[104], [], [105]]
      (by decide) (by decide)
  exact ⟨shown, displayed, shows⟩

end Rex
