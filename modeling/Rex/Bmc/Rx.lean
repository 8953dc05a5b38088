import Rex.Bmc.Cache

namespace Rex.Bmc

open Bytes Effect Program

/-! The ingress program `xdp_rx_filter`. -/

def getCommand : List UInt8 := [103, 101, 116, 32]

def setCommand : List UInt8 := [115, 101, 116, 32]

def endOfReply : List UInt8 := [69, 78, 68, 13, 10]

def storeEach : (off : Nat) → List UInt8 → Program Unit
  | _, [] => pure ()
  | off, byte :: rest => do
      let state ← get
      if off < state.dataSlice.length then
        editFrame fun frame => put frame off [byte]
        storeEach (off + 1) rest
      else
        halt (.panic .slice)

/-- The record goes where the request had its `get `, and the end mark behind
it. -/
def writeRecord (payloadIndex : Nat) (slot : Slot) (entry : BmcCacheEntry) :
    Program Unit := do
  let state ← get
  let payload ← sliceOf state.dataSlice (payloadIndex - 4) state.dataSlice.length
  let record ← sliceOf entry.data 0 entry.len
  let _ ← sliceOf payload 0 entry.len
  editFrame fun frame => put frame (payloadIndex - 4) record
  note (.copied slot record)
  storeEach (payloadIndex - 4 + entry.len) endOfReply

def copyCacheData (kernel : Kernel) (payloadIndex : Nat) (slot : Slot) :
    Program Int32 := do
  let stats ← lookupStats 0
  bump stats fun stats => { stats with hitCount := stats.hitCount + 1 }
  let state ← get
  let entry := state.mapKcache slot
  let padding : Int :=
    (entry.len : Int) - (state.dataSlice.length - payloadIndex) + 1
  match state.dataSlice.adjustTail kernel.refusesTail kernel.fill padding with
  | none =>
      match kernel.printk with
      | .error code => halt (.err code)
      | .ok () => pure xdpDrop
  | some adjusted =>
      editFrame fun _ => adjusted
      -- `padding as u16` is added modulo 2 ^ 16
      editHeader Frame.ipStart .ip fun frame =>
        (frame.setTotLen ((frame.totLen + padding) % 2 ^ 16).toNat).setChecksum
      editHeader Frame.transportStart .udp fun frame =>
        (frame.setUdpLen ((frame.udpLen + padding) % 2 ^ 16).toNat).clearUdpCheck
      writeRecord payloadIndex slot entry
      pure xdpTx

/-- Whether the entry is that of the key, by hash and then byte by byte. -/
def verifyKey (slot : Slot) (key : MemcachedKey) (stats : Fin 1) :
    Program Bool := do
  let state ← get
  let entry := state.mapKcache slot
  if entry.valid = 1 ∧ entry.hash = key.hash then
    if maxKeyLength ≤ key.len then
      pure false
    else do
      let entryDataKey ← sliceOf entry.data 6 (6 + key.len)
      let cacheHit := (key.data.zip entryDataKey).all fun pair =>
        pair.1 == pair.2
      if cacheHit then
        pure true
      else do
        bump stats fun stats =>
          { stats with hitMisprediction := stats.hitMisprediction + 1 }
        pure false
  else
    pure false

def writePktReply (kernel : Kernel) (payloadIndex : Nat)
    (pctx : ParsingContext) (stats : Fin 1) : Program Int32 := do
  note .reply
  let keyRef ← lookupKey pctx.currentKey xdpPass
  let state ← get
  let key := state.cpu.mapKeys keyRef
  let slot ← lookupEntry key.hash xdpDrop
  guarded slot do
    let cacheHit ← verifyKey slot key stats
    if cacheHit then
      copyCacheData kernel payloadIndex slot
    else do
      bump stats fun stats => { stats with missCount := stats.missCount + 1 }
      pure xdpTx

def isKeyByte (byte : UInt8) : Bool :=
  byte != carriageReturn && byte != space

/-- Subtraction on `usize`, as a release build computes it. -/
def wrappingSub (a b : Nat) : Nat :=
  if b ≤ a then a - b else 2 ^ 64 - (b - a)

def windowLen (dataLength : Nat) (readPktOffset : UInt8) : Nat :=
  min (maxKeyLength + 1) (wrappingSub dataLength readPktOffset.toNat)

def MemcachedKey.hold (key : MemcachedKey) (hash : UInt32)
    (name : List UInt8) : MemcachedKey where
  hash := hash
  data := put key.data 0 (name.take maxKeyLength)
  len := name.length
  sized := by
    rw [length_put, key.sized]
    rw [List.length_take, key.sized]
    omega

/-- The next key of the request and the byte after it.  The window always starts
at the first key, whatever has been read before. -/
def scanKey (payload : List UInt8) (keyRef : Fin maxKeyInPacket)
    (readPktOffset : UInt8) : Program (List UInt8 × UInt8) := do
  let state ← get
  let key := state.cpu.mapKeys keyRef
  setKey keyRef { key with hash := fnvOffsetBasis32 }
  let window ← sliceOf payload 0
    (windowLen state.dataSlice.length readPktOffset)
  let name := window.takeWhile isKeyByte
  setKey keyRef { key with hash := fnv1a name }
  let delimiter ← demand (.panic .slice) window[name.length]?
  pure (name, delimiter)

/-- Looks the key up in the cache; the number of keys kept for the reply. -/
def probe (name : List UInt8) (keyRef : Fin maxKeyInPacket) (stats : Fin 1)
    (keyCount : Nat) : Program Nat := do
  let hash := fnv1a name
  let slot ← lookupEntry hash 0
  let state ← get
  let entry := state.mapKcache slot
  let entryValid ← guarded slot
    (pure (decide (entry.valid = 1 ∧ entry.hash = hash)))
  if entryValid then do
    setKey keyRef ((state.cpu.mapKeys keyRef).hold hash name)
    pure (keyCount + 1)
  else do
    bump stats fun stats => { stats with missCount := stats.missCount + 1 }
    pure keyCount

def swapHeaders : Program Unit := do
  editHeader 0 .eth Frame.swapMacs
  editHeader Frame.ipStart .ip Frame.swapAddrs
  editHeader Frame.transportStart .udp Frame.swapPorts

def keyLoop (kernel : Kernel) (payload : List UInt8) (payloadIndex : Nat)
    (stats : Fin 1) : (fuel : Nat) → ParsingContext → Program Int32
  | 0, _ => halt .unfinished
  | fuel + 1, pctx => do
      note .iteration
      let keyRef ← lookupKey pctx.keyCount 0
      let (name, delimiter) ← scanKey payload keyRef pctx.readPktOffset
      if name.length = 0 ∨ maxKeyLength < name.length then
        pure xdpPass
      else do
        let keyCount ← probe name keyRef stats pctx.keyCount
        if delimiter = carriageReturn then
          if 0 < keyCount then do
            swapHeaders
            writePktReply kernel payloadIndex { pctx with keyCount } stats
          else
            pure xdpPass
        else
          keyLoop kernel payload payloadIndex stats fuel
            { pctx with
              keyCount
              readPktOffset :=
                pctx.readPktOffset + (UInt8.ofNat name.length + 1) }

def hashKey (kernel : Kernel) (fuel : Nat) (pctx : ParsingContext)
    (payloadIndex : Nat) (stats : Fin 1) : Program Int32 := do
  let state ← get
  let payload ← sliceOf state.dataSlice payloadIndex state.dataSlice.length
  keyLoop kernel payload payloadIndex stats fuel pctx

/-! What a reply and a GET leave alone.  A reply also comes to an end. -/

section Keeps

def Ends (stop : Stop) : Prop :=
  stop ≠ .unfinished

variable {View : Type} {observe : State → View}

structure Apart (observe : State → View) : Prop where
  frame : ∀ state frame, observe (State.withFrame state frame) = observe state
  stats : ∀ state idx count, observe (State.bump state idx count) = observe state
  copied : ∀ state slot record,
    observe (State.note state (.copied slot record)) = observe state

theorem apart_mapKcache : Apart State.mapKcache :=
  ⟨fun _ _ => rfl, fun _ _ _ => rfl, fun _ _ _ => rfl⟩

theorem ends_err (code : Int32) : Ends (.err code) :=
  Stop.noConfusion

theorem ends_panic (reason : Panic) : Ends (.panic reason) :=
  Stop.noConfusion

theorem contained_sliceOf (bytes : List UInt8) (start finish : Nat) :
    Contained Ends observe (sliceOf bytes start finish) :=
  contained_demand (ends_panic _) _

namespace Apart

theorem editFrame (apart : Apart observe) (edit : Frame → Frame) :
    Contained Ends observe (editFrame edit) :=
  contained_modify fun state => apart.frame state _

theorem bump (apart : Apart observe) (idx : Fin 1) (count : BmcStats → BmcStats) :
    Contained Ends observe (Program.bump idx count) :=
  contained_modify fun state => apart.stats state idx count

theorem editHeader (apart : Apart observe) (start : Nat) (header : Header)
    (edit : Frame → Frame) :
    Contained Ends observe (editHeader start header edit) :=
  contained_get.bind fun _ =>
    (apart.editFrame edit).ite (contained_halt (ends_panic _))

theorem storeEach (apart : Apart observe) (off : Nat) (bytes : List UInt8) :
    Contained Ends observe (storeEach off bytes) := by
  induction bytes generalizing off with
  | nil => exact contained_pure ()
  | cons byte rest induction =>
      apply contained_get.bind
      intro state
      apply Contained.ite
      · exact (apart.editFrame _).bind fun _ => induction (off + 1)
      · exact contained_halt (ends_panic _)

theorem writeRecord (apart : Apart observe) (payloadIndex : Nat) (slot : Slot)
    (entry : BmcCacheEntry) :
    Contained Ends observe (writeRecord payloadIndex slot entry) := by
  apply contained_get.bind
  intro state
  apply (contained_sliceOf _ _ _).bind
  intro payload
  apply (contained_sliceOf _ _ _).bind
  intro record
  apply (contained_sliceOf _ _ _).bind
  intro target
  apply (apart.editFrame _).bind
  intro _
  apply (contained_modify fun state => apart.copied state slot record).bind
  intro _
  exact apart.storeEach _ _

theorem copyCacheData (apart : Apart observe) (kernel : Kernel)
    (payloadIndex : Nat) (slot : Slot) :
    Contained Ends observe (copyCacheData kernel payloadIndex slot) := by
  apply (contained_demand (ends_err _) _).bind
  intro stats
  apply (apart.bump _ _).bind
  intro _
  apply contained_get.bind
  intro state
  dsimp only
  split
  · split
    · exact contained_halt (ends_err _)
    · exact contained_pure _
  · apply (apart.editFrame _).bind
    intro _
    apply (apart.editHeader _ _ _).bind
    intro _
    apply (apart.editHeader _ _ _).bind
    intro _
    exact (apart.writeRecord _ _ _).bind fun _ => contained_pure _

theorem verifyKey (apart : Apart observe) (slot : Slot) (key : MemcachedKey)
    (stats : Fin 1) : Contained Ends observe (verifyKey slot key stats) := by
  apply contained_get.bind
  intro state
  apply Contained.ite
  · apply (contained_pure _).ite
    apply (contained_sliceOf _ _ _).bind
    intro entryDataKey
    exact (contained_pure _).ite ((apart.bump _ _).bind fun _ => contained_pure _)
  · exact contained_pure _

theorem swapHeaders (apart : Apart observe) : Contained Ends observe swapHeaders :=
  (apart.editHeader _ _ _).bind fun _ =>
    (apart.editHeader _ _ _).bind fun _ => apart.editHeader _ _ _

theorem writePktReply (apart : Apart observe)
    (noted : ∀ state entry, entry ≠ .iteration →
      observe (State.note state entry) = observe state)
    (kernel : Kernel) (payloadIndex : Nat) (pctx : ParsingContext)
    (stats : Fin 1) :
    Contained Ends observe (writePktReply kernel payloadIndex pctx stats) := by
  apply (contained_modify fun state => noted state _ Note.noConfusion).bind
  intro _
  apply (contained_demand (ends_err _) _).bind
  intro keyRef
  apply contained_get.bind
  intro state
  apply Contained.bind
  · apply (contained_demand (ends_err _) _).bind
    intro slot
    exact (contained_modify fun state => noted state _ Note.noConfusion).bind
      fun _ => contained_pure _
  intro slot
  apply Contained.bracket
  · exact fun state => noted state _ Note.noConfusion
  · exact fun state => noted state _ Note.noConfusion
  apply (apart.verifyKey _ _ _).bind
  intro cacheHit
  exact (apart.copyCacheData _ _ _).ite
    ((apart.bump _ _).bind fun _ => contained_pure _)

end Apart

theorem keeps_note (entry : Note) : Keeps State.mapKcache (note entry) :=
  keeps_modify fun _ => rfl

theorem keeps_setKey (keyRef : Fin maxKeyInPacket) (key : MemcachedKey) :
    Keeps State.mapKcache (setKey keyRef key) :=
  keeps_modify fun _ => rfl

theorem keeps_guarded {Value : Type} (slot : Slot) {body : Program Value}
    (inside : Keeps State.mapKcache body) :
    Keeps State.mapKcache (guarded slot body) :=
  inside.bracket (fun _ => rfl) (fun _ => rfl)

theorem keeps_lookupEntry (hash : UInt32) (code : Int32) :
    Keeps State.mapKcache (lookupEntry hash code) :=
  (keeps_demand _ _).bind fun _ => (keeps_note _).bind fun _ => keeps_pure _

theorem keeps_scanKey (payload : List UInt8) (keyRef : Fin maxKeyInPacket)
    (readPktOffset : UInt8) :
    Keeps State.mapKcache (scanKey payload keyRef readPktOffset) := by
  apply keeps_get.bind
  intro state
  apply (keeps_setKey _ _).bind
  intro _
  apply (keeps_demand _ _).bind
  intro window
  apply (keeps_setKey _ _).bind
  intro _
  exact (keeps_demand _ _).bind fun _ => keeps_pure _

theorem keeps_probe (name : List UInt8) (keyRef : Fin maxKeyInPacket)
    (stats : Fin 1) (keyCount : Nat) :
    Keeps State.mapKcache (probe name keyRef stats keyCount) := by
  apply (keeps_lookupEntry _ _).bind
  intro slot
  apply keeps_get.bind
  intro state
  apply (keeps_guarded _ (keeps_pure _)).bind
  intro entryValid
  exact ((keeps_setKey _ _).bind fun _ => keeps_pure _).ite
    ((apart_mapKcache.bump _ _).keeps.bind fun _ => keeps_pure _)

theorem keeps_keyLoop (kernel : Kernel) (payload : List UInt8)
    (payloadIndex : Nat) (stats : Fin 1) (fuel : Nat) (pctx : ParsingContext) :
    Keeps State.mapKcache
      (keyLoop kernel payload payloadIndex stats fuel pctx) := by
  induction fuel generalizing pctx with
  | zero => exact keeps_halt _
  | succ fuel induction =>
      apply (keeps_note _).bind
      intro _
      apply (keeps_demand _ _).bind
      intro keyRef
      apply (keeps_scanKey _ _ _).bind
      rintro ⟨name, delimiter⟩
      apply (keeps_pure _).ite
      apply (keeps_probe _ _ _ _).bind
      intro keyCount
      apply Keeps.ite
      · have reply := apart_mapKcache.swapHeaders.bind fun _ =>
          apart_mapKcache.writePktReply (fun _ _ _ => rfl) kernel payloadIndex
            { pctx with keyCount } stats
        exact reply.keeps.ite (keeps_pure _)
      · exact induction _

end Keeps

/-- What follows each `set ` of a segment, in order. -/
def setRequests (payload : List UInt8) : List (List UInt8) :=
  payload.tails.filterMap fun suffix =>
    if setCommand.isPrefixOf suffix then
      some (suffix.drop setCommand.length)
    else
      none

def invalidateOne (payload : List UInt8) : Program Unit := do
  let stats ← lookupStats 0
  bump stats fun stats => { stats with setRecvCount := stats.setRecvCount + 1 }
  let hash := fnv1a (payload.takeWhile (· != space))
  let slot ← lookupEntry hash 0
  let state ← get
  let entry := state.mapKcache slot
  if entry.valid = 1 then do
    bump stats fun stats =>
      { stats with invalidationCount := stats.invalidationCount + 1 }
    guarded slot
      (modify fun state => state.setEntry slot { entry with valid := 0 })
  else
    pure ()

def invalidateEach : List (List UInt8) → Program Unit
  | [] => pure ()
  | payload :: rest => do
      invalidateOne payload
      invalidateEach rest

def bmcInvalidateCache : Program Int32 := do
  editHeader Frame.transportStart .tcp id
  let state ← get
  let port := state.dataSlice.destPort
  let payload ← sliceOf state.dataSlice tcpHeaderLen state.dataSlice.length
  if port ≠ memcachedPort ∨ payload.length < 4 then
    pure xdpPass
  else do
    invalidateEach (setRequests payload)
    pure xdpPass

/-- The loop that moves past the spaces before the first key; `fuel` counts down
to `BMC_MAX_PACKET_LENGTH`. -/
def skipSpaces (payload : List UInt8) : (fuel off : Nat) → Nat
  | 0, off => off
  | fuel + 1, off =>
      if off + 1 < payload.length ∧ payload[off]? = some space then
        skipSpaces payload fuel (off + 1)
      else
        off

def firstKeyOffset (payload : List UInt8) : Nat :=
  skipSpaces payload (maxPacketLength - 4) 4

def xdpRxFilter (kernel : Kernel) (fuel : Nat) : Program Int32 := do
  editHeader Frame.ipStart .ip id
  let state ← get
  let protocol := state.dataSlice.protocol
  if protocol = ipprotoTcp then
    bmcInvalidateCache
  else if protocol = ipprotoUdp then do
    editHeader Frame.transportStart .udp id
    let port := state.dataSlice.destPort
    let payload ← sliceOf state.dataSlice udpHeaderLen state.dataSlice.length
    if port ≠ memcachedPort ∨ payload.length < 4 then
      pure xdpPass
    else if getCommand.isPrefixOf payload = false then
      pure xdpPass
    else do
      let stats ← lookupStats xdpPass
      bump stats fun stats =>
        { stats with getRecvCount := stats.getRecvCount + 1 }
      let off := firstKeyOffset payload + udpHeaderLen
      hashKey kernel fuel ⟨0, 0, UInt8.ofNat off⟩ off stats
  else
    pure xdpPass

end Rex.Bmc
