import Rex.Electrode.Common

namespace Rex.Electrode

open Bytes Effect Program Rex.Frame

/-! The ingress program `fast_paxos_main`. -/

def u32At (payload : List UInt8) (off : Nat) : UInt32 :=
  UInt32.ofNat (LittleEndian.field payload off 4)

def typeStart : Nat := headersLen + magicLen + 8

-- `specpaxos.vr.` is the start of all type strings.
def vrMark : List UInt8 := [118, 114]

-- `PrepareM`
def prepareMark : List UInt8 := [80, 114, 101, 112, 97, 114, 101, 77]

-- `PrepareO`
def prepareokMark : List UInt8 := [80, 114, 101, 112, 97, 114, 101, 79]

-- `RequestM`
def requestMark : List UInt8 := [82, 101, 113, 117, 101, 115, 116, 77]

-- `MyPr`
def myprepareokMark : List UInt8 := [77, 121, 80, 114]

-- `MyPrepareOK`
def myprepareokName : List UInt8 := [77, 121, 80, 114, 101, 112, 97, 114, 101, 79, 75]

def prepareOkBody (ctrState : PaxosCtrState) (payloadIndex : Nat) : List UInt8 :=
  LittleEndian.encode 8 20 ++ LittleEndian.encode 8 ctrState.view.toNat ++
    LittleEndian.encode 8 payloadIndex ++ LittleEndian.encode 4 ctrState.myIdx.toNat

def replyUdp (leaderInfo : PaxosConfigure) (newLen : UInt16) (frame : Frame) :
    Frame :=
  ((frame.copyDestPort.setDestPort
    (LittleEndian.encode 2 leaderInfo.port.toNat)).clearUdpCheck).setUdpLen
      newLen.toNat

def replyIp (leaderInfo : PaxosConfigure) (newLen : UInt16) (frame : Frame) :
    Frame :=
  ((frame.setTotLen (newLen + UInt16.ofNat Header.ip.size).toNat).copyDaddr.setDaddr
    (LittleEndian.encode 4 leaderInfo.addr.toNat)).setChecksum

def replyHeaders (leaderInfo : PaxosConfigure) (newLen : UInt16) : Program Unit := do
  editHeader 0 .eth Frame.swapMacs
  editHeader Frame.transportStart .udp (replyUdp leaderInfo newLen)
  editHeader Frame.ipStart .ip (replyIp leaderInfo newLen)

/-- The first part of the reply: magic, type string and the data that follows
it. -/
def writeMyPrepareOk (ctrState : PaxosCtrState) (payloadIndex : Nat) :
    Program Unit := do
  store payloadIndex (LittleEndian.encode 4 nonfragMagic)
  store (payloadIndex + 4) (LittleEndian.encode 8 myprepareokTypeLen)
  storeEach (payloadIndex + 12 + 13) myprepareokName
  let extra := payloadIndex + 12 + myprepareokTypeLen
  let _ ← sliceFrom extra
  store extra (LittleEndian.encode 4 ctrState.view.toUInt32.toNat)
  store (extra + 4) (LittleEndian.encode 4 payloadIndex)
  store (extra + 8) (LittleEndian.encode 4 ctrState.myIdx.toNat)

def prepareFastReply (kernel : Kernel) (payloadIndex : Nat) : Program Int32 := do
  let payload ← sliceFrom payloadIndex
  if payload.length ≤ fastPaxosDataLen + 8 then
    pure xdpPass
  else do
    let idx ← lookupCtrState
    let state ← get
    let ctrState := state.maps.mapCtrState idx
    let leaderInfo ← lookupConfigure ctrState.leaderIdx 0
    writeMyPrepareOk ctrState payloadIndex
    let bodyStart := payloadIndex + 12 + myprepareokTypeLen + fastPaxosDataLen
    let body ← sliceFrom bodyStart
    if body.length < 8 * 3 + 4 then
      pure xdpPass
    else do
      store bodyStart (prepareOkBody ctrState payloadIndex)
      let useless ← sliceFrom (bodyStart + (8 * 3 + 4))
      let state ← get
      let uselessLen := UInt16.ofNat useless.length
      let newLen := UInt16.ofNat state.dataSlice.length - uselessLen
      replyHeaders leaderInfo newLen
      let state ← get
      match state.dataSlice.adjustTail kernel.refusesTail kernel.fill
          ((newLen.toNat : Int) - state.dataSlice.length) with
      | none => pure xdpDrop
      | some adjusted => do
          editFrame fun _ => adjusted
          pure xdpTx

def writeBuffer (kernel : Kernel) (payloadIndex : Nat) : Program Int32 := do
  let state ← get
  if state.dataSlice.length < payloadIndex + fastPaxosDataLen then
    pure xdpPass
  else do
    let payload ← sliceFrom (payloadIndex + fastPaxosDataLen)
    if payload.length < maxDataLen then
      pure xdpPass
    else if kernel.reserves = false then
      -- an error of the program, which the entry function returns as a verdict
      halt (.err 0)
    else do
      modify fun state => state.submit (payload.take maxDataLen)
      prepareFastReply kernel payloadIndex

def handlePrepare (kernel : Kernel) (payloadIndex : Nat) : Program Int32 := do
  let payload ← sliceFrom payloadIndex
  if payload.length < fastPaxosDataLen then
    pure xdpPass
  else do
    let msgView := (u32At payload 0).toUInt64
    let msgLastOp := (u32At payload 4).toUInt64
    let msgBatchStart := (u32At payload 8).toUInt64
    let idx ← lookupCtrState
    let state ← get
    let ctrState := state.maps.mapCtrState idx
    if ctrState.state ≠ .statusNormal then
      pure xdpDrop
    else if msgView < ctrState.view then
      pure xdpDrop
    else if ctrState.view < msgView then
      pure xdpPass
    else if msgLastOp ≤ ctrState.lastOp then
      prepareFastReply kernel payloadIndex
    else if 2 ^ 64 ≤ ctrState.lastOp.toNat + 1 then
      halt (.panic .overflow)
    else if ctrState.lastOp + 1 < msgBatchStart then
      pure xdpPass
    else do
      modify fun state => state.setLastOp idx msgLastOp
      writeBuffer kernel payloadIndex

def countOnes (bits : UInt32) : Nat :=
  (List.range 32).countP fun idx => bits.toNat.testBit idx

def quorumIdx (opnum : UInt32) : UInt32 :=
  opnum &&& (UInt32.ofNat quorumBitsetEntry - 1)

def handlePrepareOk (build : Build) (kernel : Kernel) (payloadIndex : Nat) :
    Program Int32 := do
  let payload ← sliceFrom payloadIndex
  if payload.length ≤ fastPaxosDataLen then
    pure xdpDrop
  else do
    let msgView := u32At payload 0
    let msgOpnum := u32At payload 4
    let msgReplicaIdx := u32At payload 8
    modify fun state => state.vote ⟨msgView, msgOpnum, msgReplicaIdx⟩
    let idx ← lookupQuorum (quorumIdx msgOpnum)
    let state ← get
    let entry := state.maps.mapQuorum idx
    if entry.view ≠ msgView ∨ entry.opnum ≠ msgOpnum then
      pure xdpPass
    else do
      -- a release build takes the shift distance modulo 32
      let bitset := entry.bitset ||| 1 <<< (msgReplicaIdx % 32)
      modify fun state => state.setQuorum idx { entry with bitset }
      if countOnes bitset ≠ (build.quorumSize - 1).toNat then
        pure xdpDrop
      else
        match state.dataSlice.adjustTail kernel.refusesTail kernel.fill
            (-(payloadIndex : Int)) with
        | none => pure xdpDrop
        | some adjusted => do
            editFrame fun _ => adjusted
            pure xdpPass

/-- A message of at least the length of its type, with the mark of that type at
`start`. -/
def hasType (len typeLen : Nat) (payload : List UInt8) (start finish : Nat)
    (mark : List UInt8) : Program Bool :=
  if typeLen < len then do
    let protocol ← sliceOf payload 10 12
    if vrMark.isPrefixOf protocol then do
      let name ← sliceOf payload start finish
      pure (mark.isPrefixOf name)
    else
      pure false
  else
    pure false

def pruneQuorum (build : Build) (kernel : Kernel) (len : Nat)
    (payload : List UInt8) (payloadIndex : Nat) : Program Int32 :=
  if build.fastQuorumPrune then do
    let isPrepareok ← hasType len prepareokTypeLen payload 19 27 prepareokMark
    if isPrepareok then
      handlePrepareOk build kernel payloadIndex
    else do
      let isMyprepareok ←
        hasType len myprepareokTypeLen payload 13 17 myprepareokMark
      if isMyprepareok then
        handlePrepareOk build kernel payloadIndex
      else
        pure xdpPass
  else
    pure xdpPass

def handleUdpFastPaxos (build : Build) (kernel : Kernel) : Program Int32 := do
  let payload ← sliceFrom (headersLen + magicLen)
  let typeLenBytes ← sliceOf payload 0 8
  let typeLen := LittleEndian.decode typeLenBytes
  let len := payload.length
  if mtu ≤ typeLen ∨ len < typeLen then
    pure xdpPass
  else do
    let payloadIndex := typeStart
    let payload ← sliceFrom payloadIndex
    let isPrepare ←
      if build.fastReply then hasType len prepareTypeLen payload 19 27 prepareMark
      else pure false
    if isPrepare then
      handlePrepare kernel (payloadIndex + prepareTypeLen)
    else
      pruneQuorum build kernel len payload payloadIndex

def fastPaxosMain (build : Build) (kernel : Kernel) : Program Int32 := do
  let protocol ← readField (ipStart + 9) 1
  if protocol = ipprotoUdp then do
    let port ← readField (transportStart + 2) 2
    let payload ← sliceFrom headersLen
    if port ≠ paxosPort ∨ payload.length < magicLen + 8 ∨
        magicBits.isPrefixOf payload = false then
      pure xdpPass
    else
      handleUdpFastPaxos build kernel
  else
    pure xdpPass

/-! A Prepare in the layout of the leader, and the maps of a fresh replica. -/

-- `specpaxos.vr.proto.PrepareMessage`
def prepareTypeName : List UInt8 :=
  [115, 112, 101, 99, 112, 97, 120, 111, 115, 46, 118, 114, 46, 112, 114, 111, 116,
    111, 46, 80, 114, 101, 112, 97, 114, 101, 77, 101, 115, 115, 97, 103, 101]

def prepareFrame (view lastOp batchStart : Nat) : Frame :=
  .between 17 headersLen 50000 paxosPort
    (magicBits ++ LittleEndian.encode 8 prepareTypeLen ++ prepareTypeName ++
      LittleEndian.encode 4 view ++ LittleEndian.encode 4 lastOp ++
      LittleEndian.encode 4 batchStart ++ List.replicate maxDataLen 7)

def firstMaps : Maps where
  mapConfigure _ := ⟨0, 0, List.replicate 6 0, rfl⟩
  mapCtrState _ := ⟨.statusNormal, 1, 0, 0, 0⟩
  mapQuorum _ := ⟨0, 0, 0⟩
  mapPrepareBuffer := []

def roomy : Kernel :=
  ⟨true, false, fun _ => 0, true⟩

end Rex.Electrode
