import Rex.Data.Effect
import Rex.Data.HashTable
import Rex.Data.Text
import Rex.Map.Helpers

namespace Rex.TraceEvent

open Effect

/-! `rex_prog1`, which runs at each sample of a perf event and counts the stacks. -/

def taskCommLen : Nat := 16

structure KeyT where
  comm : Vector UInt8 taskCommLen
  kernstack : UInt32
  userstack : UInt32
deriving DecidableEq

abbrev CountMap : Type := HashTable KeyT UInt64 10000

inductive Message
  | kernStack
  | userStack
  | readFailed
  | readTime
  | address
deriving DecidableEq

/-- A sample, with what the kernel answers to the helpers.  A message fits in the
log buffer or does not; a new entry goes to some place of the table, unless the
kernel refuses it. -/
structure Sample where
  period : UInt64
  addr : UInt64
  comm : Option (Vector UInt8 taskCommLen)
  kernStack : Int64
  userStack : Int64
  readValue : Int64
  fits : Message → Bool
  place : Except Int32 Nat

inductive Stop
  | code (err : Int32)
  | panic
deriving DecidableEq

def e2big : Int32 := -7

def rexPrintk (sample : Sample) (message : Message) : Except Stop Int32 :=
  if sample.fits message then .ok 0 else .error (.code e2big)

/-- `get_comm`, which fails when there is no 0 among the bytes. -/
def getComm (comm : Vector UInt8 taskCommLen) : Option (List UInt8) :=
  if 0 ∈ comm.toList then some (comm.toList.takeWhile (· ≠ 0)) else none

/-- The stack is left out if the helper fails: then the result of the message takes
the place of its id. -/
def stackid (sample : Sample) (answer : Int64) (message : Message) :
    Except Stop UInt32 :=
  match Map.toResult Int64.toInt32 answer with
  | .ok id => .ok id.toUInt32
  | .error _ => (rexPrintk sample message).map Int32.toUInt32

/-- The part of `rex_prog1` before the table.  There is no key for a sample that is
not to be counted. -/
def sampleKey (sample : Sample) : Except Stop (Option KeyT) :=
  if sample.period < 10000 then
    .ok none
  else
    match sample.comm with
    | none => .error (.code 0)
    | some comm =>
        let name := (getComm comm).getD []
        match Text.put (Vector.replicate taskCommLen 0) 0 name with
        | none => .error .panic
        | some comm => do
            let kernstack ← stackid sample sample.kernStack .kernStack
            let userstack ← stackid sample sample.userStack .userStack
            let _ ← rexPrintk sample
              (if sample.readValue < 0 then .readFailed else .readTime)
            if sample.addr ≠ 0 then
              let _ ← rexPrintk sample .address
            pure (some ⟨comm, kernstack, userstack⟩)

abbrev Program (Value : Type) : Type := Effect Stop CountMap Value

def insert (key : KeyT) : Except Int32 Nat → Program Unit
  | .error code => halt (.code code)
  | .ok place => do
      let counts ← get
      let table ← demand (.code e2big) (counts.update place key 1)
      modify fun _ => table

def count (key : KeyT) (place : Except Int32 Nat) : Program Int32 := do
  let counts ← get
  match counts.lookup key with
  | none =>
      insert key place
      pure 0
  | some _ =>
      modify fun counts => counts.modify key (· + 1)
      pure 0

def rexProg1 (sample : Sample) : Program Int32 :=
  match sampleKey sample with
  | .error stop => halt stop
  | .ok none => pure 0
  | .ok (some key) => count key sample.place

/-! What is in a key. -/

theorem length_getComm (comm : Vector UInt8 taskCommLen) :
    ((getComm comm).getD []).length < taskCommLen := by
  rw [getComm]
  split
  · rename_i terminated
    have all := comm.length_toList
    by_contra long
    have whole := (List.takeWhile_prefix fun byte : UInt8 => byte ≠ 0).eq_of_length_le
      (all.le.trans (Nat.le_of_not_lt long))
    have nonzero := List.mem_takeWhile_imp (whole.symm ▸ terminated)
    exact absurd rfl (of_decide_eq_true nonzero)
  · decide

theorem put_comm (comm : Vector UInt8 taskCommLen) :
    ∃ buffer, Text.put (Vector.replicate taskCommLen 0) 0 ((getComm comm).getD []) =
      some buffer ∧ Text.Shows buffer ((getComm comm).getD []) := by
  refine @Text.put_shows _ _ [] List.nil_prefix _ ?_
  rw [List.length_nil, Nat.zero_add]
  exact length_getComm comm

theorem exists_of_bind_eq_ok {Error Value Next : Type} {first : Except Error Value}
    {next : Value → Except Error Next} {result : Next}
    (ran : (first >>= next) = .ok result) :
    ∃ value, first = .ok value ∧ next value = .ok result := by
  cases first with
  | error stop => cases ran
  | ok value => exact ⟨value, rfl, ran⟩

theorem sampleKey_eq_key {sample : Sample} {key : KeyT}
    (taken : sampleKey sample = .ok (some key)) :
    10000 ≤ sample.period ∧
    (∃ comm, sample.comm = some comm ∧ Text.Shows key.comm ((getComm comm).getD [])) ∧
    stackid sample sample.kernStack .kernStack = .ok key.kernstack ∧
    stackid sample sample.userStack .userStack = .ok key.userstack := by
  rw [sampleKey] at taken
  split at taken
  · cases taken
  rename_i long
  refine ⟨UInt64.not_lt.mp long, ?_⟩
  cases running : sample.comm with
  | none =>
      rw [running] at taken
      cases taken
  | some comm =>
      obtain ⟨buffer, put, shows⟩ := put_comm comm
      simp only [running, put] at taken
      obtain ⟨kernstack, kern, taken⟩ := exists_of_bind_eq_ok taken
      obtain ⟨userstack, user, taken⟩ := exists_of_bind_eq_ok taken
      obtain ⟨_, _, taken⟩ := exists_of_bind_eq_ok taken
      have last : some (KeyT.mk buffer kernstack userstack) = some key := by
        split at taken
        · obtain ⟨_, _, taken⟩ := exists_of_bind_eq_ok taken
          exact Except.ok.inj taken
        · exact Except.ok.inj taken
      obtain rfl := Option.some.inj last
      exact ⟨⟨comm, rfl, shows⟩, kern, user⟩

/-- An id that the kernel gives out is the number of a bucket; no other id gets into
a key, since a helper that fails leaves the id to the message. -/
theorem stackid_nonneg {sample : Sample} {answer : Int64} {message : Message}
    {id : UInt32} (bucket : answer.toInt < 2 ^ 31)
    (given : stackid sample answer message = .ok id) : 0 ≤ id.toInt32 := by
  rw [stackid, Map.toResult] at given
  split at given
  · rename_i tested
    split at tested
    · cases tested
    · rename_i positive
      obtain rfl := Except.ok.inj tested
      obtain rfl := Except.ok.inj given
      rw [Int64.lt_iff_toInt_lt, Int64.toInt_zero] at positive
      rw [Int32.toInt32_toUInt32, Int32.le_iff_toInt_le, Int64.toInt_toInt32,
        Int.bmod_eq_of_le (by omega) (by omega)]
      exact Int.not_lt.mp positive
  · rw [rexPrintk] at given
    split at given
    · obtain rfl := Except.ok.inj given
      decide
    · cases given

end Rex.TraceEvent
