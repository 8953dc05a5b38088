import Rex.Electrode.Paxos

namespace Rex.Electrode

open Bytes Effect Program Rex.Frame

/-! What a Prepare does to the replica. -/

def State.besides (state : State) : Maps × List Frame × List Vote :=
  (state.maps, state.clones, state.votes)

def Regular (stop : Stop) : Prop :=
  stop = .panic .slice ∨ stop = .err 0

abbrev OnFrame {Value : Type} (program : Program Value) : Prop :=
  Contained Regular State.besides program

section OnFrame

theorem regular_slice : Regular (.panic .slice) :=
  .inl rfl

theorem regular_err : Regular (.err 0) :=
  .inr rfl

theorem Regular.ne_overflow {stop : Stop} (regular : Regular stop) :
    stop ≠ .panic .overflow := by
  rintro rfl
  rcases regular with same | same
  · cases same
  · cases same

theorem onFrame_editFrame (edit : Frame → Frame) : OnFrame (editFrame edit) :=
  contained_modify fun _ => rfl

theorem onFrame_sliceOf (bytes : List UInt8) (start finish : Nat) :
    OnFrame (sliceOf bytes start finish) :=
  contained_demand regular_slice _

theorem onFrame_sliceFrom (start : Nat) : OnFrame (sliceFrom start) :=
  contained_get.bind fun _ => onFrame_sliceOf _ _ _

theorem onFrame_store (off : Nat) (bytes : List UInt8) :
    OnFrame (store off bytes) :=
  contained_get.bind fun _ =>
    (onFrame_editFrame _).ite (contained_halt regular_slice)

theorem onFrame_storeEach (off : Nat) (bytes : List UInt8) :
    OnFrame (storeEach off bytes) := by
  induction bytes generalizing off with
  | nil => exact contained_pure ()
  | cons byte rest induction =>
      exact (onFrame_store off [byte]).bind fun _ => induction (off + 1)

theorem onFrame_editHeader (start : Nat) (header : Header) (edit : Frame → Frame) :
    OnFrame (editHeader start header edit) :=
  contained_get.bind fun _ =>
    (onFrame_editFrame edit).ite (contained_halt regular_slice)

theorem onFrame_lookupConfigure (key : UInt32) :
    OnFrame (lookupConfigure key 0) :=
  (contained_demand regular_err _).bind fun _ =>
    contained_get.bind fun _ => contained_pure _

theorem onFrame_replyHeaders (leaderInfo : PaxosConfigure) (newLen : UInt16) :
    OnFrame (replyHeaders leaderInfo newLen) :=
  (onFrame_editHeader _ _ _).bind fun _ =>
    (onFrame_editHeader _ _ _).bind fun _ => onFrame_editHeader _ _ _

theorem onFrame_writeMyPrepareOk (ctrState : PaxosCtrState) (payloadIndex : Nat) :
    OnFrame (writeMyPrepareOk ctrState payloadIndex) := by
  apply (onFrame_store _ _).bind
  intro _
  apply (onFrame_store _ _).bind
  intro _
  apply (onFrame_storeEach _ _).bind
  intro _
  apply (onFrame_sliceFrom _).bind
  intro _
  apply (onFrame_store _ _).bind
  intro _
  apply (onFrame_store _ _).bind
  intro _
  exact onFrame_store _ _

theorem onFrame_prepareFastReply (kernel : Kernel) (payloadIndex : Nat) :
    OnFrame (prepareFastReply kernel payloadIndex) := by
  apply (onFrame_sliceFrom _).bind
  intro payload
  apply (contained_pure _).ite
  apply (contained_demand regular_err _).bind
  intro idx
  apply contained_get.bind
  intro state
  apply (onFrame_lookupConfigure _).bind
  intro leaderInfo
  apply (onFrame_writeMyPrepareOk _ _).bind
  intro _
  apply (onFrame_sliceFrom _).bind
  intro body
  apply (contained_pure _).ite
  apply (onFrame_store _ _).bind
  intro _
  apply (onFrame_sliceFrom _).bind
  intro useless
  apply contained_get.bind
  intro written
  apply (onFrame_replyHeaders _ _).bind
  intro _
  apply contained_get.bind
  intro turned
  split
  · exact contained_pure _
  · exact (onFrame_editFrame _).bind fun _ => contained_pure _

theorem onFrame_hasType (len typeLen : Nat) (payload : List UInt8)
    (start finish : Nat) (mark : List UInt8) :
    OnFrame (hasType len typeLen payload start finish mark) :=
  ((onFrame_sliceOf _ _ _).bind fun _ =>
    ((onFrame_sliceOf _ _ _).bind fun _ => contained_pure _).ite
      (contained_pure _)).ite (contained_pure _)

end OnFrame

/-! The fields of a Prepare, after its type string. -/

def prepareView (payload : List UInt8) : UInt64 :=
  (u32At payload 0).toUInt64

def prepareLastOp (payload : List UInt8) : UInt64 :=
  (u32At payload 4).toUInt64

def prepareBatchStart (payload : List UInt8) : UInt64 :=
  (u32At payload 8).toUInt64

/-- The Prepare continues the log of the replica without a gap. -/
structure Advances (ctrState : PaxosCtrState) (payload : List UInt8) : Prop where
  long : fastPaxosDataLen ≤ payload.length
  normal : ctrState.state = .statusNormal
  sameView : prepareView payload = ctrState.view
  later : ctrState.lastOp.toNat < (prepareLastOp payload).toNat
  joins : (prepareBatchStart payload).toNat ≤ ctrState.lastOp.toNat + 1

theorem run_handlePrepare (kernel : Kernel) {payloadIndex : Nat} {state : State}
    {payload : List UInt8} (payloadEq : state.dataSlice.drop payloadIndex = payload)
    (long : fastPaxosDataLen ≤ payload.length) :
    let ctrState := state.ctrState
    (handlePrepare kernel payloadIndex).run state =
      if ctrState.state ≠ .statusNormal then
        (.ok xdpDrop, state)
      else if prepareView payload < ctrState.view then
        (.ok xdpDrop, state)
      else if ctrState.view < prepareView payload then
        (.ok xdpPass, state)
      else if prepareLastOp payload ≤ ctrState.lastOp then
        (prepareFastReply kernel payloadIndex).run state
      else if 2 ^ 64 ≤ ctrState.lastOp.toNat + 1 then
        (.error (.panic .overflow), state)
      else if ctrState.lastOp + 1 < prepareBatchStart payload then
        (.ok xdpPass, state)
      else
        (writeBuffer kernel payloadIndex).run
          (state.setLastOp 0 (prepareLastOp payload)) := by
  have inside : payloadIndex ≤ state.dataSlice.length := by
    rw [← payloadEq, List.length_drop, show fastPaxosDataLen = 12 from rfl] at long
    omega
  unfold handlePrepare
  rw [run_sliceFrom_bind _ inside, payloadEq, if_neg (not_lt.mpr long)]
  simp only [lookupCtrState, bpfMapLookupElem_eq_some Nat.one_pos, demand_some,
    run_pure_bind, run_get_bind, run_ite, run_pure, run_halt, run_modify_bind]
  rfl

theorem run_writeBuffer (kernel : Kernel) {payloadIndex : Nat} {state : State}
    (long : fastPaxosDataLen ≤ (state.dataSlice.drop payloadIndex).length) :
    let data := state.dataSlice.drop (payloadIndex + fastPaxosDataLen)
    (writeBuffer kernel payloadIndex).run state =
      if data.length < maxDataLen then
        (.ok xdpPass, state)
      else if kernel.reserves = false then
        (.error (.err 0), state)
      else
        (prepareFastReply kernel payloadIndex).run
          (state.submit (data.take maxDataLen)) := by
  have inside : payloadIndex + fastPaxosDataLen ≤ state.dataSlice.length := by
    rw [List.length_drop] at long
    rw [show fastPaxosDataLen = 12 from rfl] at long ⊢
    omega
  unfold writeBuffer
  rw [run_get_bind, if_neg (not_lt.mpr inside), run_sliceFrom_bind _ inside]
  simp only [run_ite, run_pure, run_halt, run_modify_bind]

def State.moved (state : State) (payloadIndex : Nat) : State :=
  state.setPosition (prepareLastOp (state.dataSlice.drop payloadIndex))

def prepareData (frame : Frame) (payloadIndex : Nat) : List UInt8 :=
  frame.drop (payloadIndex + fastPaxosDataLen)

inductive PrepareOutcome (kernel : Kernel) (payloadIndex : Nat) (state : State) :
    Except Stop Int32 × State → Prop
  | passedUp (advances : Advances state.ctrState (state.dataSlice.drop payloadIndex))
      (short : (prepareData state.dataSlice payloadIndex).length < maxDataLen) :
      PrepareOutcome kernel payloadIndex state (.ok xdpPass, state.moved payloadIndex)
  | lost (advances : Advances state.ctrState (state.dataSlice.drop payloadIndex))
      (enough : maxDataLen ≤ (prepareData state.dataSlice payloadIndex).length)
      (full : kernel.reserves = false) :
      PrepareOutcome kernel payloadIndex state
        (.error (.err 0), state.moved payloadIndex)
  | stored (advances : Advances state.ctrState (state.dataSlice.drop payloadIndex))
      (enough : maxDataLen ≤ (prepareData state.dataSlice payloadIndex).length)
      (room : kernel.reserves = true) :
      PrepareOutcome kernel payloadIndex state
        ((prepareFastReply kernel payloadIndex).run
          ((state.moved payloadIndex).submit
            ((prepareData state.dataSlice payloadIndex).take maxDataLen)))
  | resent
      (notAdvances : ¬ Advances state.ctrState (state.dataSlice.drop payloadIndex))
      (seen : (prepareLastOp (state.dataSlice.drop payloadIndex)).toNat ≤
        state.ctrState.lastOp.toNat) :
      PrepareOutcome kernel payloadIndex state
        ((prepareFastReply kernel payloadIndex).run state)
  | ended {result : Except Stop Int32}
      (notAdvances : ¬ Advances state.ctrState (state.dataSlice.drop payloadIndex))
      (other : result = .ok xdpPass ∨ result = .ok xdpDrop ∨
        result = .error (.panic .slice)) :
      PrepareOutcome kernel payloadIndex state (result, state)

theorem writeBuffer_outcome (kernel : Kernel) {payloadIndex : Nat} {state : State}
    (advances : Advances state.ctrState (state.dataSlice.drop payloadIndex)) :
    PrepareOutcome kernel payloadIndex state
      ((writeBuffer kernel payloadIndex).run (state.moved payloadIndex)) := by
  have long : fastPaxosDataLen ≤
      ((state.moved payloadIndex).dataSlice.drop payloadIndex).length :=
    advances.long
  rw [run_writeBuffer kernel long]
  split
  · rename_i short
    exact .passedUp advances short
  · rename_i enough
    cases room : kernel.reserves with
    | false => exact .lost advances (not_lt.mp enough) room
    | true => exact .stored advances (not_lt.mp enough) room

/-- A Prepare of the right view that is not ahead of the replica. -/
def SeenBefore (ctrState : PaxosCtrState) (payload : List UInt8) : Prop :=
  ctrState.state = .statusNormal ∧ prepareView payload = ctrState.view ∧
    prepareLastOp payload ≤ ctrState.lastOp

theorem SeenBefore.not_advances {ctrState : PaxosCtrState} {payload : List UInt8}
    (seen : SeenBefore ctrState payload) : ¬ Advances ctrState payload := by
  intro advances
  have later := advances.later
  have notLater := UInt64.le_iff_toNat_le.mp seen.2.2
  omega

/-- With all its fields in the frame, a Prepare is written to the buffer, answered
at once, or turned away. -/
theorem handlePrepare_cases (kernel : Kernel) {payloadIndex : Nat} {state : State}
    {payload : List UInt8} (payloadEq : state.dataSlice.drop payloadIndex = payload)
    (long : fastPaxosDataLen ≤ payload.length) :
    let ran := (handlePrepare kernel payloadIndex).run state
    (Advances state.ctrState payload ∧
      ran = (writeBuffer kernel payloadIndex).run (state.moved payloadIndex)) ∨
    (SeenBefore state.ctrState payload ∧
      ran = (prepareFastReply kernel payloadIndex).run state) ∨
    (¬ Advances state.ctrState payload ∧ ¬ SeenBefore state.ctrState payload ∧
      (ran = (.ok xdpPass, state) ∨ ran = (.ok xdpDrop, state))) := by
  intro ran
  have ranEq : ran = _ := run_handlePrepare kernel payloadEq long
  rw [ranEq]
  split
  · rename_i abnormal
    exact .inr (.inr ⟨fun advances => abnormal advances.normal,
      fun seen => abnormal seen.1, .inr rfl⟩)
  · rename_i normal
    split
    · rename_i older
      have notSame : prepareView payload ≠ state.ctrState.view :=
        UInt64.ne_of_lt older
      exact .inr (.inr ⟨fun advances => notSame advances.sameView,
        fun seen => notSame seen.2.1, .inr rfl⟩)
    · rename_i notOlder
      split
      · rename_i newer
        have notSame : state.ctrState.view ≠ prepareView payload :=
          UInt64.ne_of_lt newer
        exact .inr (.inr ⟨fun advances => notSame advances.sameView.symm,
          fun seen => notSame seen.2.1.symm, .inl rfl⟩)
      · rename_i notNewer
        have sameView : prepareView payload = state.ctrState.view :=
          UInt64.le_antisymm (UInt64.not_lt.mp notNewer)
            (UInt64.not_lt.mp notOlder)
        split
        · rename_i seen
          exact .inr (.inl ⟨⟨not_not.mp normal, sameView, seen⟩, rfl⟩)
        · rename_i fresh
          have notSeen : ¬ SeenBefore state.ctrState payload :=
            fun seen => fresh seen.2.2
          rw [UInt64.le_iff_toNat_le] at fresh
          -- a 32-bit operation number is above the last one
          have bound := (prepareLastOp payload).toNat_lt
          rw [if_neg (by omega)]
          have next : (state.ctrState.lastOp + 1).toNat =
              state.ctrState.lastOp.toNat + 1 :=
            (UInt64.toNat_add _ _).trans (Nat.mod_eq_of_lt (by
              show state.ctrState.lastOp.toNat + 1 < 2 ^ 64
              omega))
          split
          · rename_i gap
            rw [UInt64.lt_iff_toNat_lt, next] at gap
            exact .inr (.inr ⟨fun advances => absurd advances.joins (by omega),
              notSeen, .inl rfl⟩)
          · rename_i joins
            rw [UInt64.lt_iff_toNat_lt, next] at joins
            refine .inl ⟨⟨long, not_not.mp normal, sameView, by omega, by omega⟩, ?_⟩
            rw [State.moved, payloadEq]
            rfl

theorem run_handlePrepare_short (kernel : Kernel) {payloadIndex : Nat} {state : State}
    (inside : payloadIndex ≤ state.dataSlice.length)
    (short : ¬ fastPaxosDataLen ≤ (state.dataSlice.drop payloadIndex).length) :
    (handlePrepare kernel payloadIndex).run state = (.ok xdpPass, state) := by
  unfold handlePrepare
  rw [run_sliceFrom_bind _ inside, if_pos (not_le.mp short), run_pure]

theorem run_handlePrepare_outside (kernel : Kernel) {payloadIndex : Nat}
    {state : State} (outside : ¬ payloadIndex ≤ state.dataSlice.length) :
    (handlePrepare kernel payloadIndex).run state =
      (.error (.panic .slice), state) := by
  unfold handlePrepare
  rw [run_sliceFrom_short _ outside]

theorem handlePrepare_outcome (kernel : Kernel) (payloadIndex : Nat) (state : State) :
    PrepareOutcome kernel payloadIndex state
      ((handlePrepare kernel payloadIndex).run state) := by
  by_cases long : fastPaxosDataLen ≤ (state.dataSlice.drop payloadIndex).length
  · rcases handlePrepare_cases kernel rfl long with
      ⟨advances, ran⟩ | ⟨seen, ran⟩ | ⟨notAdvances, _, passed | dropped⟩
    · rw [ran]
      exact writeBuffer_outcome kernel advances
    · rw [ran]
      exact .resent seen.not_advances (UInt64.le_iff_toNat_le.mp seen.2.2)
    · rw [passed]
      exact .ended notAdvances (.inl rfl)
    · rw [dropped]
      exact .ended notAdvances (.inr (.inl rfl))
  · have notAdvances : ¬ Advances state.ctrState
        (state.dataSlice.drop payloadIndex) :=
      fun advances => long advances.long
    by_cases inside : payloadIndex ≤ state.dataSlice.length
    · rw [run_handlePrepare_short kernel inside long]
      exact .ended notAdvances (.inl rfl)
    · rw [run_handlePrepare_outside kernel inside]
      exact .ended notAdvances (.inr (.inr rfl))

theorem besides_prepareFastReply (kernel : Kernel) (payloadIndex : Nat)
    (state : State) :
    ((prepareFastReply kernel payloadIndex).run state).2.besides = state.besides :=
  (onFrame_prepareFastReply kernel payloadIndex).keeps state

theorem ctrState_prepareFastReply (kernel : Kernel) (payloadIndex : Nat)
    (state : State) :
    ((prepareFastReply kernel payloadIndex).run state).2.ctrState =
      state.ctrState :=
  congrArg (fun view => view.1.mapCtrState 0)
    (besides_prepareFastReply kernel payloadIndex state)

end Rex.Electrode
