import Rex.Electrode.Paxos

namespace Rex.Electrode

open Bytes Effect Program Rex.Frame

/-! The egress program `fast_broad_cast_main`. -/

inductive FastProgXdp
  | failed
  | handlePrepare
  | handleRequest
  | handlePrepareok
deriving DecidableEq

def computeMessageType (payload : List UInt8) : FastProgXdp :=
  let len := payload.length
  if len < 13 ∨ vrMark.isPrefixOf (field payload 10 2) = false then
    .failed
  else if prepareTypeLen < len ∧ prepareMark.isPrefixOf (field payload 19 8) then
    .handlePrepare
  else if requestTypeLen < len ∧ requestMark.isPrefixOf (field payload 19 8) then
    .handleRequest
  else if prepareokTypeLen < len ∧
      prepareokMark.isPrefixOf (field payload 19 8) then
    .handlePrepareok
  else if myprepareokTypeLen < len ∧
      myprepareokMark.isPrefixOf (field payload 13 4) then
    .handlePrepareok
  else
    .failed

def PaxosQuorum.install (entry : PaxosQuorum) (msgView msgLastOp : UInt32) :
    PaxosQuorum :=
  if entry.view ≠ msgView ∨ entry.opnum ≠ msgLastOp then
    ⟨msgView, msgLastOp, 0⟩
  else
    entry

def installPrepare (msgView msgLastOp : UInt32) : Program Unit := do
  let idx ← lookupQuorum (quorumIdx msgLastOp)
  modify fun state =>
    state.setQuorum idx ((state.maps.mapQuorum idx).install msgView msgLastOp)

/-- Notes a Prepare in the table of quorums.  `compute_message_type` is given the
bytes after the type string. -/
def recordPrepare (payload : List UInt8) : Program Unit :=
  if computeMessageType payload = .handlePrepare then
    installPrepare (u32At payload 0 ^^^ broadcastSignBit) (u32At payload 4)
  else
    pure ()

-- `sp`, the first two bytes of every type string.
def spMark : List UInt8 := [115, 112]

def nextId (leaderIdx : UInt32) (id : UInt8) : UInt8 :=
  if leaderIdx = (id + 1).toUInt32 then id + 1 + 1 else id + 1

def cloneRedirect (build : Build) (kernel : Kernel) (nxt : UInt8) : Program Unit :=
  if nxt < build.clusterSize then
    if kernel.redirects then
      modify State.redirect
    else
      halt (.panic .unwrap)
  else
    pure ()

/-- Sends a copy on to the next replica, with its number in place of the start of
the type string, and returns the number that this frame had. -/
def passOn (build : Build) (kernel : Kernel) (leaderIdx : UInt32) :
    Program UInt8 := do
  let typeStr ← sliceFrom typeStart
  if spMark.isPrefixOf typeStr then do
    let id : UInt8 := if leaderIdx = 0 then 1 else 0
    let nxt := nextId leaderIdx id
    store typeStart [nxt]
    store (typeStart + 1) [77]
    cloneRedirect build kernel nxt
    pure id
  else do
    let id ← demand (.panic .slice) typeStr[0]?
    let nxt := nextId leaderIdx id
    store typeStart [nxt]
    cloneRedirect build kernel nxt
    pure id

def addressUdp (replicaInfo : PaxosConfigure) (frame : Frame) : Frame :=
  (frame.setDestPort (LittleEndian.encode 2 replicaInfo.port.toNat)).clearUdpCheck

def addressIp (replicaInfo : PaxosConfigure) (frame : Frame) : Frame :=
  (frame.setDaddr (LittleEndian.encode 4 replicaInfo.addr.toNat)).setChecksum

def addressEth (replicaInfo : PaxosConfigure) (frame : Frame) : Frame :=
  put frame 0 replicaInfo.eth

def addressHeaders (replicaInfo : PaxosConfigure) : Program Int32 := do
  editHeader transportStart .udp (addressUdp replicaInfo)
  editHeader ipStart .ip (addressIp replicaInfo)
  editHeader 0 .eth (addressEth replicaInfo)
  pure tcActOk

def address (id : UInt8) : Program Int32 := do
  store typeStart [115]
  store (typeStart + 1) [112]
  let replicaInfo ← lookupConfigure id.toUInt32 tcActShot
  addressHeaders replicaInfo

def broadcastMessage (build : Build) (kernel : Kernel) (payload : List UInt8) :
    Program Int32 := do
  let isBroadcast := u32At payload 0 &&& broadcastSignBit
  recordPrepare payload
  if isBroadcast = 0 then
    pure tcActOk
  else do
    let idx ← lookupCtrState
    let state ← get
    let id ← passOn build kernel (state.maps.mapCtrState idx).leaderIdx
    address id

def handleUdpFastBroadCast (build : Build) (kernel : Kernel) : Program Int32 := do
  let payload ← sliceFrom (headersLen + magicLen)
  let typeLenBytes ← sliceOf payload 0 8
  let payload := payload.drop 8
  let typeLen := LittleEndian.decode typeLenBytes
  let len := payload.length
  if mtu ≤ typeLen ∨ len < typeLen ∨ len < 5 then
    pure tcActShot
  else do
    let payload := payload.drop typeLen
    if payload.length < fastPaxosDataLen then
      pure tcActShot
    else
      broadcastMessage build kernel payload

def fastBroadCastMain (build : Build) (kernel : Kernel) : Program Int32 := do
  let state ← get
  if state.dataSlice.length ≤ headersLen then
    pure tcActOk
  else do
    let protocol ← readField (ipStart + 9) 1
    if protocol = ipprotoUdp then do
      let port ← readField (transportStart + 2) 2
      let payload ← sliceFrom headersLen
      if port ≠ paxosPort ∨ payload.length < magicLen + 8 ∨
          magicBits.isPrefixOf payload = false then
        pure tcActOk
      else
        handleUdpFastBroadCast build kernel
    else
      pure tcActOk

/-! What a run does with a message that passes the checks of its length. -/

def quorumSlot (opnum : UInt32) : Fin quorumBitsetEntry :=
  ⟨opnum.toNat % quorumBitsetEntry, Nat.mod_lt _ (by decide)⟩

theorem toNat_quorumIdx (opnum : UInt32) :
    (quorumIdx opnum).toNat = opnum.toNat % quorumBitsetEntry := by
  rw [quorumIdx, UInt32.toNat_and]
  exact Nat.and_two_pow_sub_one_eq_mod opnum.toNat 10

theorem lookupQuorum_quorumIdx (opnum : UInt32) :
    lookupQuorum (quorumIdx opnum) = pure (quorumSlot opnum) := by
  have inRange : (quorumIdx opnum).toNat < quorumBitsetEntry := by
    rw [toNat_quorumIdx]
    exact Nat.mod_lt _ (by decide)
  have found : (⟨(quorumIdx opnum).toNat, inRange⟩ : Fin quorumBitsetEntry) =
      quorumSlot opnum := Fin.ext (toNat_quorumIdx opnum)
  rw [lookupQuorum, bpfMapLookupElem_eq_some inRange, demand_some, found]

def State.recorded (state : State) (payload : List UInt8) : State :=
  if computeMessageType payload = .handlePrepare then
    let idx := quorumSlot (u32At payload 4)
    state.setQuorum idx ((state.maps.mapQuorum idx).install
      (u32At payload 0 ^^^ broadcastSignBit) (u32At payload 4))
  else
    state

theorem run_recordPrepare (payload : List UInt8) (state : State) :
    (recordPrepare payload).run state = (.ok (), state.recorded payload) := by
  rw [recordPrepare, run_ite, State.recorded]
  split
  · rw [installPrepare, lookupQuorum_quorumIdx, run_pure_bind, run_modify]
  · rw [run_pure]

theorem run_broadcastMessage (build : Build) (kernel : Kernel)
    (payload : List UInt8) (state : State) :
    (broadcastMessage build kernel payload).run state =
      let recorded := state.recorded payload
      if u32At payload 0 &&& broadcastSignBit = 0 then
        (.ok tcActOk, recorded)
      else
        (passOn build kernel recorded.ctrState.leaderIdx >>= address).run recorded := by
  rw [broadcastMessage, run_bind, run_recordPrepare]
  simp only [run_ite, run_pure, lookupCtrState, bpfMapLookupElem_eq_some Nat.one_pos,
    demand_some, run_pure_bind, run_get_bind]
  rfl

def messageTypeLen (frame : Frame) : Nat :=
  LittleEndian.decode (field frame (headersLen + magicLen) 8)

def messageBody (frame : Frame) : List UInt8 :=
  frame.drop (typeStart + messageTypeLen frame)

structure IsMessage (frame : Frame) : Prop where
  protocol : frame.protocol = ipprotoUdp
  port : frame.destPort = paxosPort
  magic : magicBits <+: frame.drop headersLen
  typeLen : messageTypeLen frame < mtu
  long : typeStart + messageTypeLen frame + fastPaxosDataLen ≤ frame.length

theorem IsMessage.typeStart_le {frame : Frame} (message : IsMessage frame) :
    typeStart + fastPaxosDataLen ≤ frame.length :=
  le_trans (by omega) message.long

theorem run_handleUdpFastBroadCast (build : Build) (kernel : Kernel) {state : State}
    (message : IsMessage state.dataSlice) :
    (handleUdpFastBroadCast build kernel).run state =
      (broadcastMessage build kernel (messageBody state.dataSlice)).run state := by
  have long := message.long
  have typeLen := message.typeLen
  rw [show typeStart = headersLen + magicLen + 8 from rfl,
    show fastPaxosDataLen = 12 from rfl] at long
  have typeSlice : slice (state.dataSlice.drop (headersLen + magicLen)) 0 8 =
      some (field state.dataSlice (headersLen + magicLen) 8) := by
    rw [slice_eq_some (Nat.zero_le _) (by rw [List.length_drop]; omega), field_drop]
    rfl
  rw [messageTypeLen] at long typeLen
  rw [handleUdpFastBroadCast, run_sliceFrom_bind _ (by omega)]
  simp only [sliceOf, typeSlice, demand_some, run_pure_bind, List.length_drop,
    List.drop_drop]
  rw [if_neg (by omega), if_neg (by rw [show fastPaxosDataLen = 12 from rfl]; omega)]
  rfl

theorem run_fastBroadCastMain (build : Build) (kernel : Kernel) {state : State}
    (message : IsMessage state.dataSlice) :
    (fastBroadCastMain build kernel).run state =
      (broadcastMessage build kernel (messageBody state.dataSlice)).run state := by
  have long : 54 + 12 ≤ state.dataSlice.length := message.typeStart_le
  have toProtocol : ipStart + 9 + 1 ≤ state.dataSlice.length :=
    le_trans (by decide) long
  have toPort : transportStart + 2 + 2 ≤ state.dataSlice.length :=
    le_trans (by decide) long
  have protocol := message.protocol
  have port := message.port
  rw [Frame.protocol] at protocol
  rw [destPort] at port
  have magic := List.isPrefixOf_iff_prefix.mpr message.magic
  have room : ¬ state.dataSlice.length ≤ headersLen := by
    rw [show headersLen = 42 from rfl]
    omega
  rw [fastBroadCastMain, run_get_bind, if_neg room,
    run_readField_bind _ toProtocol, protocol, if_pos rfl,
    run_readField_bind _ toPort, port,
    run_sliceFrom_bind _ (by omega), magic, List.length_drop]
  have checks : ¬ (paxosPort ≠ paxosPort ∨
      state.dataSlice.length - headersLen < magicLen + 8 ∨ true = false) := by
    rw [show headersLen = 42 from rfl, show magicLen = 4 from rfl]
    simp
    omega
  rw [if_neg checks, run_handleUdpFastBroadCast build kernel message]

end Rex.Electrode
