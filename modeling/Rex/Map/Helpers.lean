import Rex.Librex.MapLayout
import Rex.Panic.CleanupEntries

namespace Rex.Map

open Librex (RexMapHandle)

/-! The wrappers around the kernel's map functions.  Each reads the pointer of
its handle, calls at most one kernel function under `termination_check!`, and
turns the 64-bit value that comes back into an `Option` or a `Result`. -/

variable {K V Value : Type}

/-- The kernel functions, with the arguments they are given.  A key or a value
stands for the pointer to it. -/
inductive KernelFn (K V : Type)
  | bpfMapLookupElem (map : Ptr) (key : K)
  | bpfMapUpdateElem (map : Ptr) (key : K) (value : V) (flags : UInt64)
  | bpfMapDeleteElem (map : Ptr) (key : K)
  | bpfMapPushElem (map : Ptr) (value : V) (flags : UInt64)
  | bpfMapPopElem (map : Ptr)
  | bpfMapPeekElem (map : Ptr)
  | bpfRingbufReserve (ringbuf : Ptr) (size flags : UInt64)
  | bpfRingbufOutput (ringbuf : Ptr) (data : List UInt8) (size flags : UInt64)
  | bpfRingbufQuery (ringbuf : Ptr) (flags : UInt64)
  | bpfGetStackidPe (ctx map : Ptr) (flags : UInt64)
  | bpfPerfEventOutputTp (tpBuff map : Ptr) (flags : UInt64) (data : V)
      (size : UInt64)

def KernelFn.map : KernelFn K V → Ptr
  | .bpfMapLookupElem map _ | .bpfMapUpdateElem map _ _ _
  | .bpfMapDeleteElem map _ | .bpfMapPushElem map _ _ | .bpfMapPopElem map
  | .bpfMapPeekElem map | .bpfRingbufReserve map _ _
  | .bpfRingbufOutput map _ _ _ | .bpfRingbufQuery map _
  | .bpfGetStackidPe _ map _ | .bpfPerfEventOutputTp _ map _ _ _ => map

/-- What a kernel function leaves behind: the value it returns, the contents of
the buffer it was given to fill, and whether the timer has fired meanwhile. -/
structure Answer (V : Type) where
  ret : UInt64
  value : V
  late : Bool

abbrev Kernel (K V : Type) : Type := KernelFn K V → Answer V

abbrev KernelResult : Type := Except Int32 Int32

/-- A run of a wrapper.  Nothing is returned if `__rex_handle_timeout` takes
over. -/
structure Run (K V Value : Type) where
  calls : List (KernelFn K V)
  returned : Option Value

def Run.map {Other : Type} (change : Value → Other) (run : Run K V Value) :
    Run K V Other :=
  { calls := run.calls, returned := run.returned.map change }

def einval : Int32 := 22

def bpfAny : UInt64 := 0

def bpfNoexist : UInt64 := 1

def bpfExist : UInt64 := 2

def bpfRbAvailData : UInt64 := 0

def bpfRbRingSize : UInt64 := 1

def bpfRbConsPos : UInt64 := 2

def bpfRbProdPos : UInt64 := 3

def bpfFIndexMask : UInt64 := 0xffffffff

def bpfFCurrentCpu : UInt64 := bpfFIndexMask

def toResult [OfNat Value 0] [LT Value] [DecidableLT Value]
    (asI32 : Value → Int32) (val : Value) : KernelResult :=
  if val < 0 then .error (asI32 val) else .ok (asI32 val)

/-- `to_result!(… as i32)`: the value is narrowed and then tested. -/
def narrowedResult (answer : Answer V) : KernelResult :=
  toResult id answer.ret.toInt64.toInt32

/-- `to_result!(…)`: the value is tested and then narrowed. -/
def testedResult (answer : Answer V) : KernelResult :=
  toResult Int64.toInt32 answer.ret.toInt64

def Answer.pointer (answer : Answer V) : Option Ptr :=
  if answer.ret = 0 then none else some answer.ret

section Wrappers

variable (kernel : Kernel K V) (handle : RexMapHandle)

def terminationCheck (call : KernelFn K V) (read : Answer V → Value) :
    Run K V Value where
  calls := [call]
  returned := if (kernel call).late then none else some (read (kernel call))

def checked (refused : Value) (call : Ptr → KernelFn K V)
    (read : Answer V → Value) : Run K V Value :=
  if handle.kptr = 0 then
    { calls := [], returned := some refused }
  else
    terminationCheck kernel (call handle.kptr) read

def bpfMapLookupElem (key : K) : Run K V (Option Ptr) :=
  checked kernel handle none (.bpfMapLookupElem · key) Answer.pointer

def bpfMapUpdateElem (key : K) (value : V) (flags : UInt64) :
    Run K V KernelResult :=
  checked kernel handle (.error einval) (.bpfMapUpdateElem · key value flags)
    narrowedResult

def bpfMapDeleteElem (key : K) : Run K V KernelResult :=
  checked kernel handle (.error einval) (.bpfMapDeleteElem · key) narrowedResult

def bpfMapPushElem (value : V) (flags : UInt64) : Run K V KernelResult :=
  checked kernel handle (.error einval) (.bpfMapPushElem · value flags)
    narrowedResult

def bufferOf (answer : Answer V) : Option V :=
  match narrowedResult answer with
  | .ok _ => some answer.value
  | .error _ => none

def bpfMapPopElem : Run K V (Option V) :=
  checked kernel handle none .bpfMapPopElem bufferOf

def bpfMapPeekElem : Run K V (Option V) :=
  checked kernel handle none .bpfMapPeekElem bufferOf

def reserve (size : UInt64) : Run K V (Option (Ptr × UInt64)) :=
  checked kernel handle none (.bpfRingbufReserve · size 0) fun answer =>
    answer.pointer.map fun data => (data, size)

def output (data : List UInt8) (flags : UInt64) : Run K V KernelResult :=
  checked kernel handle (.error einval)
    (.bpfRingbufOutput · data (.ofNat data.length) flags) testedResult

def ringbufQuery (flags : UInt64) : Run K V (Option UInt64) :=
  checked kernel handle none (.bpfRingbufQuery · flags) fun answer =>
    some answer.ret

def availableBytes : Run K V (Option UInt64) :=
  ringbufQuery kernel handle bpfRbAvailData

def size : Run K V (Option UInt64) :=
  ringbufQuery kernel handle bpfRbRingSize

def consumerPosition : Run K V (Option UInt64) :=
  ringbufQuery kernel handle bpfRbConsPos

def producerPosition : Run K V (Option UInt64) :=
  ringbufQuery kernel handle bpfRbProdPos

def bpfGetStackidPe (ctx : Ptr) (flags : UInt64) : Run K V KernelResult :=
  checked kernel handle (.error einval) (.bpfGetStackidPe ctx · flags)
    testedResult

structure PerfEventMaskedCPU where
  maskedCpu : UInt64

def PerfEventMaskedCPU.currentCpu : PerfEventMaskedCPU := ⟨bpfFCurrentCpu⟩

def PerfEventMaskedCPU.anyCpu (cpu : UInt64) : PerfEventMaskedCPU :=
  ⟨cpu &&& bpfFIndexMask⟩

/-- Unlike the others, this wrapper does not look at the pointer. -/
def outputEvent (sizeOfV : UInt64) (ctx : Ptr) (data : V)
    (cpu : PerfEventMaskedCPU) : Run K V KernelResult :=
  terminationCheck kernel
    (.bpfPerfEventOutputTp ctx handle.kptr cpu.maskedCpu data sizeOfV)
    testedResult

end Wrappers

inductive Operation (K V : Type)
  | lookupElem (key : K)
  | updateElem (key : K) (value : V) (flags : UInt64)
  | deleteElem (key : K)
  | pushElem (value : V) (flags : UInt64)
  | popElem
  | peekElem
  | reserve (size : UInt64)
  | output (data : List UInt8) (flags : UInt64)
  | availableBytes
  | size
  | consumerPosition
  | producerPosition
  | getStackid (ctx : Ptr) (flags : UInt64)
  | outputEvent (sizeOfV : UInt64) (ctx : Ptr) (data : V) (cpu : PerfEventMaskedCPU)

/-! The methods of the map types differ only in the flags they pass on. -/

def Operation.insert (key : K) (value : V) : Operation K V :=
  .updateElem key value bpfAny

def Operation.insertNew (key : K) (value : V) : Operation K V :=
  .updateElem key value bpfNoexist

def Operation.update (key : K) (value : V) : Operation K V :=
  .updateElem key value bpfExist

def Operation.push (value : V) : Operation K V :=
  .pushElem value bpfAny

def Operation.forcePush (value : V) : Operation K V :=
  .pushElem value bpfExist

inductive Returned (V : Type)
  | reference (value : Option Ptr)
  | value (value : Option V)
  | entry (entry : Option (Ptr × UInt64))
  | amount (amount : Option UInt64)
  | result (result : KernelResult)

def Operation.run (kernel : Kernel K V) (handle : RexMapHandle) :
    Operation K V → Run K V (Returned V)
  | .lookupElem key => (bpfMapLookupElem kernel handle key).map .reference
  | .updateElem key value flags =>
      (bpfMapUpdateElem kernel handle key value flags).map .result
  | .deleteElem key => (bpfMapDeleteElem kernel handle key).map .result
  | .pushElem value flags => (bpfMapPushElem kernel handle value flags).map .result
  | .popElem => (bpfMapPopElem kernel handle).map .value
  | .peekElem => (bpfMapPeekElem kernel handle).map .value
  | .reserve length => (Map.reserve kernel handle length).map .entry
  | .output data flags => (Map.output kernel handle data flags).map .result
  | .availableBytes => (Map.availableBytes kernel handle).map .amount
  | .size => (Map.size kernel handle).map .amount
  | .consumerPosition => (Map.consumerPosition kernel handle).map .amount
  | .producerPosition => (Map.producerPosition kernel handle).map .amount
  | .getStackid ctx flags => (bpfGetStackidPe kernel handle ctx flags).map .result
  | .outputEvent sizeOfV ctx data cpu =>
      (Map.outputEvent kernel handle sizeOfV ctx data cpu).map .result

/-! The convention that the wrappers are to keep. -/

def Returned.Failed : Returned V → Prop
  | .reference found => found = none
  | .value taken => taken = none
  | .entry reserved => reserved = none
  | .amount answered => answered = none
  | .result ended => ∃ code, ended = .error code

/-- Errors are negative and values are not; `wrong` says that there is an error
to report. -/
structure Signed (wrong : Prop) (result : KernelResult) : Prop where
  error_neg : ∀ code, result = .error code → code < 0
  ok_nonneg : ∀ value, result = .ok value → 0 ≤ value
  error_iff : (∃ code, result = .error code) ↔ wrong

structure Convention (kernel : Kernel K V) (handle : RexMapHandle)
    (run : Run K V (Returned V)) : Prop where
  refused : handle.kptr = 0 →
    run.calls = [] ∧ ∃ returned, run.returned = some returned ∧ returned.Failed
  called : handle.kptr ≠ 0 →
    ∃ call, run.calls = [call] ∧ call.map = handle.kptr
  signed : ∀ result, run.returned = some (.result result) →
    Signed (handle.kptr = 0 ∨
      ∃ call ∈ run.calls, (kernel call).ret.toInt64 < 0) result

/-- The lower half of the value has the sign of the whole. -/
def KeepsSign (ret : UInt64) : Prop :=
  ret.toInt64.toInt32 < 0 ↔ ret.toInt64 < 0

theorem signed_toResult_iff [OfNat Value 0] [LT Value] [DecidableLT Value]
    (asI32 : Value → Int32) (val : Value) (wrong : Prop) :
    Signed wrong (toResult asI32 val) ↔
      (val < 0 ↔ wrong) ∧ (asI32 val < 0 ↔ val < 0) := by
  unfold toResult
  by_cases negative : val < 0
  · rw [if_pos negative]
    constructor
    · intro signed
      have reported := signed.error_iff.mp ⟨_, rfl⟩
      exact ⟨iff_of_true negative reported,
        iff_of_true (signed.error_neg _ rfl) negative⟩
    · rintro ⟨wrongIff, narrowed⟩
      refine ⟨?_, nofun, iff_of_true ⟨_, rfl⟩ (wrongIff.mp negative)⟩
      rintro code ⟨⟩
      exact narrowed.mpr negative
  · rw [if_neg negative]
    constructor
    · intro signed
      have nonneg := signed.ok_nonneg _ rfl
      refine ⟨iff_of_false negative fun reported => ?_,
        iff_of_false (Int32.not_lt.mpr nonneg) negative⟩
      obtain ⟨code, impossible⟩ := signed.error_iff.mpr reported
      cases impossible
    · rintro ⟨wrongIff, narrowed⟩
      refine ⟨nofun, ?_, iff_of_false nofun fun reported => ?_⟩
      · rintro value ⟨⟩
        exact Int32.not_lt.mp fun low => negative (narrowed.mp low)
      · exact negative (wrongIff.mpr reported)

theorem signed_narrowed_iff (answer : Answer V) :
    Signed (answer.ret.toInt64 < 0) (narrowedResult answer) ↔
      KeepsSign answer.ret := by
  rw [narrowedResult, signed_toResult_iff]
  exact and_iff_left Iff.rfl

theorem signed_tested_iff (answer : Answer V) :
    Signed (answer.ret.toInt64 < 0) (testedResult answer) ↔
      KeepsSign answer.ret := by
  rw [testedResult, signed_toResult_iff]
  exact and_iff_right Iff.rfl

section Convention

variable {kernel : Kernel K V} {handle : RexMapHandle}

structure Plain {Found : Type} (wrap : Option Found → Returned V) : Prop where
  failed : (wrap none).Failed
  unsigned : ∀ found result, wrap found ≠ .result result

theorem plain_reference : Plain (.reference (V := V)) :=
  ⟨rfl, fun _ _ same => by cases same⟩

theorem plain_value : Plain (.value (V := V)) :=
  ⟨rfl, fun _ _ same => by cases same⟩

theorem plain_entry : Plain (.entry (V := V)) :=
  ⟨rfl, fun _ _ same => by cases same⟩

theorem plain_amount : Plain (.amount (V := V)) :=
  ⟨rfl, fun _ _ same => by cases same⟩

theorem convention_of_option {Found : Type} {wrap : Option Found → Returned V}
    (plain : Plain wrap)
    {call : Ptr → KernelFn K V} (passes : ∀ map, (call map).map = map)
    (read : Answer V → Option Found) :
    Convention kernel handle ((checked kernel handle none call read).map wrap) := by
  refine ⟨fun null => ?_, fun loaded => ?_, fun result returned => ?_⟩
  · rw [checked, if_pos null]
    exact ⟨rfl, _, rfl, plain.failed⟩
  · rw [checked, if_neg loaded]
    exact ⟨_, rfl, passes _⟩
  · obtain ⟨found, -, same⟩ := Option.map_eq_some_iff.mp returned
    exact absurd same (plain.unsigned found result)

theorem convention_terminationCheck_iff (loaded : handle.kptr ≠ 0)
    {call : KernelFn K V} (passes : call.map = handle.kptr)
    {read : Answer V → KernelResult}
    (reads : Signed ((kernel call).ret.toInt64 < 0) (read (kernel call)) ↔
      KeepsSign (kernel call).ret) :
    Convention kernel handle ((terminationCheck kernel call read).map .result) ↔
      (kernel call).late = true ∨ KeepsSign (kernel call).ret := by
  have wrongIff : (handle.kptr = 0 ∨
      ∃ asked ∈ [call], (kernel asked).ret.toInt64 < 0) ↔
        (kernel call).ret.toInt64 < 0 := by
    simp [loaded]
  cases late : (kernel call).late with
  | true =>
      refine iff_of_true ⟨fun null => absurd null loaded,
        fun _ => ⟨call, rfl, passes⟩, fun result returned => ?_⟩ (.inl rfl)
      simp [Run.map, terminationCheck, late] at returned
  | false =>
      have returns : ((terminationCheck kernel call read).map
          (Returned.result (V := V))).returned =
            some (.result (read (kernel call))) := by
        simp [Run.map, terminationCheck, late]
      rw [or_iff_right Bool.false_ne_true, ← reads]
      constructor
      · intro convention
        have signed := convention.signed _ returns
        exact ⟨signed.error_neg, signed.ok_nonneg, signed.error_iff.trans wrongIff⟩
      · intro signed
        refine ⟨fun null => absurd null loaded, fun _ => ⟨call, rfl, passes⟩, ?_⟩
        intro result returned
        obtain rfl : read (kernel call) = result := by
          simpa [returns] using returned
        exact ⟨signed.error_neg, signed.ok_nonneg, signed.error_iff.trans wrongIff.symm⟩

theorem not_convention_of_null (null : handle.kptr = 0)
    (call : Ptr → KernelFn K V) (read : Answer V → KernelResult) :
    ¬ Convention kernel handle
      ((checked kernel handle (.error einval) call read).map .result) := by
  intro convention
  rw [checked, if_pos null] at convention
  exact absurd ((convention.signed _ rfl).error_neg _ rfl) (by decide)

/-- The missing check hands the null pointer to the kernel. -/
theorem not_convention_of_outputEvent (null : handle.kptr = 0) (sizeOfV : UInt64)
    (ctx : Ptr) (data : V) (cpu : PerfEventMaskedCPU) :
    ¬ Convention kernel handle
      ((outputEvent (K := K) kernel handle sizeOfV ctx data cpu).map .result) := by
  intro convention
  have silent := (convention.refused null).1
  cases silent

theorem convention_of_result_iff {call : Ptr → KernelFn K V}
    (passes : ∀ map, (call map).map = map) {read : Answer V → KernelResult}
    (reads : ∀ answer, Signed (answer.ret.toInt64 < 0) (read answer) ↔
      KeepsSign answer.ret) :
    Convention kernel handle
        ((checked kernel handle (.error einval) call read).map .result) ↔
      handle.kptr ≠ 0 ∧ ((kernel (call handle.kptr)).late = true ∨
        KeepsSign (kernel (call handle.kptr)).ret) := by
  by_cases null : handle.kptr = 0
  · exact iff_of_false (not_convention_of_null null call read) fun both => both.1 null
  · rw [checked, if_neg null, and_iff_right null]
    exact convention_terminationCheck_iff null (passes _) (reads _)

end Convention

def Operation.call : Operation K V → Ptr → KernelFn K V
  | .lookupElem key, map => .bpfMapLookupElem map key
  | .updateElem key value flags, map => .bpfMapUpdateElem map key value flags
  | .deleteElem key, map => .bpfMapDeleteElem map key
  | .pushElem value flags, map => .bpfMapPushElem map value flags
  | .popElem, map => .bpfMapPopElem map
  | .peekElem, map => .bpfMapPeekElem map
  | .reserve length, map => .bpfRingbufReserve map length 0
  | .output data flags, map =>
      .bpfRingbufOutput map data (.ofNat data.length) flags
  | .availableBytes, map => .bpfRingbufQuery map bpfRbAvailData
  | .size, map => .bpfRingbufQuery map bpfRbRingSize
  | .consumerPosition, map => .bpfRingbufQuery map bpfRbConsPos
  | .producerPosition, map => .bpfRingbufQuery map bpfRbProdPos
  | .getStackid ctx flags, map => .bpfGetStackidPe ctx map flags
  | .outputEvent sizeOfV ctx data cpu, map =>
      .bpfPerfEventOutputTp ctx map cpu.maskedCpu data sizeOfV

def Operation.ReturnsResult : Operation K V → Prop
  | .updateElem .. | .deleteElem .. | .pushElem .. | .output .. | .getStackid ..
  | .outputEvent .. => True
  | _ => False

/-- The operations that return an `Option` keep the convention; those that return
a `Result` keep it exactly for a loaded map and a value whose lower half has the
sign of the whole, or if the timer leaves nothing to return. -/
theorem convention_iff (kernel : Kernel K V) (handle : RexMapHandle)
    (operation : Operation K V) :
    Convention kernel handle (operation.run kernel handle) ↔
      (operation.ReturnsResult → handle.kptr ≠ 0 ∧
        ((kernel (operation.call handle.kptr)).late = true ∨
          KeepsSign (kernel (operation.call handle.kptr)).ret)) := by
  cases operation with
  | lookupElem =>
      exact iff_of_true (convention_of_option plain_reference (fun _ => rfl) _) False.elim
  | popElem | peekElem =>
      exact iff_of_true (convention_of_option plain_value (fun _ => rfl) _) False.elim
  | reserve =>
      exact iff_of_true (convention_of_option plain_entry (fun _ => rfl) _) False.elim
  | availableBytes | size | consumerPosition | producerPosition =>
      exact iff_of_true (convention_of_option plain_amount (fun _ => rfl) _) False.elim
  | updateElem | deleteElem | pushElem =>
      refine Iff.trans ?_ (forall_prop_of_true trivial).symm
      exact convention_of_result_iff (fun _ => rfl) signed_narrowed_iff
  | output | getStackid =>
      refine Iff.trans ?_ (forall_prop_of_true trivial).symm
      exact convention_of_result_iff (fun _ => rfl) signed_tested_iff
  | outputEvent sizeOfV ctx data cpu =>
      refine Iff.trans ?_ (forall_prop_of_true trivial).symm
      by_cases null : handle.kptr = 0
      · exact iff_of_false (not_convention_of_outputEvent null sizeOfV ctx data cpu)
          fun both => both.1 null
      · rw [and_iff_right null]
        exact convention_terminationCheck_iff null rfl (signed_tested_iff _)

def unloaded : RexMapHandle := .new 1 4 8 16 0

def loaded : RexMapHandle := { unloaded with kptr := 0x1000 }

def answering (ret : UInt64) : Kernel Nat Nat :=
  fun _ => { ret, value := 0, late := false }

/-- An update that the kernel refuses with `-ENOENT`. -/
theorem convention_iff_refused :
    Convention (answering (-2)) loaded
      ((Operation.update 1 7).run (answering (-2)) loaded) :=
  (convention_iff (answering (-2)) loaded (.update 1 7)).mpr fun _ =>
    ⟨by decide, .inr (by unfold KeepsSign; decide)⟩

/-- A refusal has a positive code, one wrapper calls the kernel with a null
pointer, and a value above the range of an `i32` is returned as negative. -/
theorem convention_broken :
    ¬ Convention (answering 0) unloaded
        ((Operation.insert 1 7).run (answering 0) unloaded) ∧
      ¬ Convention (answering 0) unloaded
        ((Operation.outputEvent 8 1 7 .currentCpu).run (answering 0) unloaded) ∧
      ¬ Convention (answering 0x80000000) loaded
        ((Operation.output [1, 2] 0).run (answering 0x80000000) loaded) := by
  refine ⟨not_convention_of_null rfl _ _,
    not_convention_of_outputEvent rfl _ _ _ _, fun convention => ?_⟩
  have keeps := ((convention_of_result_iff (fun _ => rfl) signed_tested_iff).mp
    convention).2
  revert keeps
  unfold KeepsSign
  decide

end Rex.Map
