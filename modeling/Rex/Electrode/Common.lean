import Rex.Packet.Program

namespace Rex.Electrode

open Bytes Effect

/-! The constants and maps of the two programs of the replica, `fast_paxos_main`
on ingress and `fast_broad_cast_main` on egress. -/

def mtu : Nat := 1500

def maxDataLen : Nat := 64

def fastReplicaMax : Nat := 100

def nonfragMagic : Nat := 0x20050318

def magicLen : Nat := 4

def requestTypeLen : Nat := 33

def prepareTypeLen : Nat := 33

def prepareokTypeLen : Nat := 35

def myprepareokTypeLen : Nat := 24

def fastPaxosDataLen : Nat := 12

def broadcastSignBit : UInt32 := 0x80000000

def quorumBitsetEntry : Nat := 1024

def paxosPort : Nat := 12345

def magicBits : List UInt8 := [0x18, 0x03, 0x05, 0x20]

/-- The features and the constant `CLUSTER_SIZE` that a build fixes. -/
structure Build where
  fastReply : Bool
  fastQuorumPrune : Bool
  clusterSize : UInt8

def Build.default : Build :=
  ⟨false, false, 3⟩

def Build.quorumSize (build : Build) : UInt32 :=
  (build.clusterSize.toUInt32 + 1) >>> 1

inductive ReplicaStatus
  | statusNormal
  | statusViewChange
  | statusRecovering
deriving DecidableEq

structure PaxosQuorum where
  view : UInt32
  opnum : UInt32
  bitset : UInt32
deriving DecidableEq

structure PaxosCtrState where
  state : ReplicaStatus
  myIdx : UInt32
  leaderIdx : UInt32
  view : UInt64
  lastOp : UInt64

structure PaxosConfigure where
  addr : UInt32
  port : UInt16
  eth : List UInt8
  sized : eth.length = 6

structure Maps where
  mapConfigure : RexArrayMap fastReplicaMax PaxosConfigure
  mapCtrState : RexArrayMap 1 PaxosCtrState
  mapQuorum : RexArrayMap quorumBitsetEntry PaxosQuorum
  /-- What has been submitted, in order. -/
  mapPrepareBuffer : List (List UInt8)

structure Vote where
  msgView : UInt32
  msgOpnum : UInt32
  msgReplicaIdx : UInt32
deriving DecidableEq

structure State where
  dataSlice : Frame
  maps : Maps
  /-- The frames that `bpf_clone_redirect` has sent. -/
  clones : List Frame
  votes : List Vote

abbrev Program (Value : Type) : Type := Effect Stop State Value

def Maps.ctrState (maps : Maps) : PaxosCtrState :=
  maps.mapCtrState 0

def Maps.start (maps : Maps) (frame : Frame) : State :=
  ⟨frame, maps, [], []⟩

/-- What the kernel answers to the helpers that a run may call. -/
structure Kernel where
  reserves : Bool
  refusesTail : Bool
  fill : Nat → UInt8
  redirects : Bool

namespace State

def withFrame (state : State) (frame : Frame) : State :=
  { state with dataSlice := frame }

@[simp] theorem dataSlice_withFrame (state : State) (frame : Frame) :
    (state.withFrame frame).dataSlice = frame :=
  rfl

@[simp] theorem withFrame_withFrame (state : State) (first second : Frame) :
    (state.withFrame first).withFrame second = state.withFrame second :=
  rfl

def ctrState (state : State) : PaxosCtrState :=
  state.maps.mapCtrState 0

def setLastOp (state : State) (idx : Fin 1) (lastOp : UInt64) : State :=
  { state with maps := { state.maps with
      mapCtrState := Function.update state.maps.mapCtrState idx
        { state.maps.mapCtrState idx with lastOp } } }

def setPosition (state : State) (lastOp : UInt64) : State :=
  state.setLastOp 0 lastOp

def setQuorum (state : State) (idx : Fin quorumBitsetEntry) (entry : PaxosQuorum) :
    State :=
  { state with maps := { state.maps with
      mapQuorum := Function.update state.maps.mapQuorum idx entry } }

def submit (state : State) (data : List UInt8) : State :=
  { state with maps := { state.maps with
      mapPrepareBuffer := state.maps.mapPrepareBuffer ++ [data] } }

def vote (state : State) (read : Vote) : State :=
  { state with votes := state.votes ++ [read] }

def redirect (state : State) : State :=
  { state with clones := state.clones ++ [state.dataSlice] }

end State

namespace Program

def sliceOf (bytes : List UInt8) (start finish : Nat) : Program (List UInt8) :=
  demand (.panic .slice) (slice bytes start finish)

def sliceFrom (start : Nat) : Program (List UInt8) := do
  let state ← get
  sliceOf state.dataSlice start state.dataSlice.length

def readField (start width : Nat) : Program Nat := do
  let state ← get
  let bytes ← sliceOf state.dataSlice start (start + width)
  pure (bigEndian bytes)

def editFrame (edit : Frame → Frame) : Program Unit :=
  modify fun state => state.withFrame (edit state.dataSlice)

def store (off : Nat) (bytes : List UInt8) : Program Unit := do
  let state ← get
  if off + bytes.length ≤ state.dataSlice.length then
    editFrame fun frame => put frame off bytes
  else
    halt (.panic .slice)

def storeEach : (off : Nat) → List UInt8 → Program Unit
  | _, [] => pure ()
  | off, byte :: rest => do
      store off [byte]
      storeEach (off + 1) rest

def editHeader (start : Nat) (header : Header) (edit : Frame → Frame) :
    Program Unit := do
  let state ← get
  if state.dataSlice.Holds start header then
    editFrame edit
  else
    halt (.panic .slice)

def lookupCtrState : Program (Fin 1) :=
  demand (.err 0) (bpfMapLookupElem 1 0)

def lookupConfigure (key : UInt32) (code : Int32) : Program PaxosConfigure := do
  let idx ← demand (.err code) (bpfMapLookupElem fastReplicaMax key.toNat)
  let state ← get
  pure (state.maps.mapConfigure idx)

def lookupQuorum (key : UInt32) : Program (Fin quorumBitsetEntry) :=
  demand (.err 0) (bpfMapLookupElem quorumBitsetEntry key.toNat)

end Program

open Program

/-! What the primitives do. -/

theorem run_sliceFrom {start : Nat} {state : State}
    (inside : start ≤ state.dataSlice.length) :
    (sliceFrom start).run state = (.ok (state.dataSlice.drop start), state) := by
  simp only [sliceFrom, run_get_bind, sliceOf, slice_to_end inside, demand_some,
    run_pure]

theorem run_sliceFrom_bind {Value : Type} {start : Nat}
    (next : List UInt8 → Program Value) {state : State}
    (inside : start ≤ state.dataSlice.length) :
    (sliceFrom start >>= next).run state =
      (next (state.dataSlice.drop start)).run state := by
  rw [run_bind, run_sliceFrom inside]

theorem run_sliceFrom_short {Value : Type} {start : Nat}
    (next : List UInt8 → Program Value) {state : State}
    (outside : ¬ start ≤ state.dataSlice.length) :
    (sliceFrom start >>= next).run state = (.error (.panic .slice), state) := by
  have none : slice state.dataSlice start state.dataSlice.length = none :=
    if_neg fun inside => outside inside.1
  rw [run_bind]
  simp only [sliceFrom, run_get_bind, sliceOf, none, demand_none, run_halt]

theorem sliceFrom_ok {start : Nat} {state final : State} {bytes : List UInt8}
    (ran : (sliceFrom start).run state = (.ok bytes, final)) :
    start ≤ state.dataSlice.length ∧ bytes = state.dataSlice.drop start ∧
      final = state := by
  by_cases inside : start ≤ state.dataSlice.length
  · rw [run_sliceFrom inside, Prod.mk.injEq, Except.ok.injEq] at ran
    exact ⟨inside, ran.1.symm, ran.2.symm⟩
  · have none : slice state.dataSlice start state.dataSlice.length = none :=
      if_neg fun within => inside within.1
    simp only [sliceFrom, run_get_bind, sliceOf, none, demand_none, run_halt] at ran
    cases ran

theorem run_readField_bind {Value : Type} {start width : Nat}
    (next : Nat → Program Value) {state : State}
    (inside : start + width ≤ state.dataSlice.length) :
    (readField start width >>= next).run state =
      (next (bigEndian (field state.dataSlice start width))).run state := by
  rw [run_bind]
  simp only [readField, run_get_bind, sliceOf,
    slice_eq_some (Nat.le_add_right _ _) inside, Nat.add_sub_cancel_left,
    demand_some, run_pure_bind, run_pure]

theorem run_readField_short {Value : Type} {start width : Nat}
    (next : Nat → Program Value) {state : State}
    (outside : ¬ start + width ≤ state.dataSlice.length) :
    (readField start width >>= next).run state =
      (.error (.panic .slice), state) := by
  have none : slice state.dataSlice start (start + width) = none :=
    if_neg fun inside => outside inside.2
  rw [run_bind]
  simp only [readField, run_get_bind, sliceOf, none, demand_none, run_halt_bind]

theorem store_ok {off : Nat} {bytes : List UInt8} {state final : State}
    (ran : (store off bytes).run state = (.ok (), final)) :
    off + bytes.length ≤ state.dataSlice.length ∧
      final = state.withFrame (put state.dataSlice off bytes) := by
  simp only [store, run_get_bind, run_ite] at ran
  split at ran
  · rename_i inside
    exact ⟨inside, (Prod.mk.inj ran).2.symm⟩
  · cases ran

theorem run_editHeader {start : Nat} {header : Header} (edit : Frame → Frame)
    {state : State} (holds : state.dataSlice.Holds start header) :
    (editHeader start header edit).run state =
      (.ok (), state.withFrame (edit state.dataSlice)) := by
  simp only [editHeader, run_get_bind, if_pos holds, editFrame, run_modify]

theorem run_editHeader_bind {Value : Type} {start : Nat} {header : Header}
    (edit : Frame → Frame) (next : Unit → Program Value) {state : State}
    (holds : state.dataSlice.Holds start header) :
    (editHeader start header edit >>= next).run state =
      (next ()).run (state.withFrame (edit state.dataSlice)) := by
  rw [run_bind, run_editHeader edit holds]

end Rex.Electrode
