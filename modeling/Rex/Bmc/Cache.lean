import Rex.Packet.Program

namespace Rex.Bmc

open Bytes

/-! The maps of the memcached accelerator and the state of one run of its
programs. -/

def maxPacketLength : Nat := 1500

def cacheEntryCount : Nat := 3250000

def maxKeyLength : Nat := 230

def maxValLength : Nat := 1000

def maxAdditionalPayloadBytes : Nat := 53

def maxCacheDataSize : Nat :=
  maxKeyLength + maxValLength + maxAdditionalPayloadBytes

def maxKeyInPacket : Nat := 30

def fnvOffsetBasis32 : UInt32 := 2166136261

def fnvPrime32 : UInt32 := 16777619

def memcachedPort : Nat := 11211

def memcachedUdpHeaderSize : Nat := 8

def space : UInt8 := 32

def carriageReturn : UInt8 := 13

def newline : UInt8 := 10

def hashFunc (hash : UInt32) (value : UInt8) : UInt32 :=
  (hash ^^^ value.toUInt32) * fnvPrime32

def fnv1a (bytes : List UInt8) : UInt32 :=
  bytes.foldl hashFunc fnvOffsetBasis32

def udpHeaderLen : Nat :=
  Header.eth.size + Header.ip.size + Header.udp.size + memcachedUdpHeaderSize

def tcpHeaderLen : Nat :=
  Header.eth.size + Header.ip.size + Header.tcp.size

structure BmcCacheEntry where
  len : Nat
  valid : UInt8
  hash : UInt32
  data : List UInt8
  sized : data.length = maxPacketLength
deriving DecidableEq

structure MemcachedKey where
  hash : UInt32
  data : List UInt8
  len : Nat
  sized : data.length = maxKeyLength
deriving DecidableEq

structure BmcStats where
  getRecvCount : UInt32
  setRecvCount : UInt32
  getRespCount : UInt32
  hitMisprediction : UInt32
  hitCount : UInt32
  missCount : UInt32
  updateCount : UInt32
  invalidationCount : UInt32
  debugCount : UInt32
deriving DecidableEq

structure ParsingContext where
  keyCount : Nat
  currentKey : Nat
  readPktOffset : UInt8
deriving DecidableEq

abbrev MapKcache : Type := RexArrayMap cacheEntryCount BmcCacheEntry

abbrev Slot : Type := Fin cacheEntryCount

def slotOf (hash : UInt32) : Slot :=
  ⟨hash.toNat % cacheEntryCount, Nat.mod_lt _ (by decide)⟩

def BmcCacheEntry.zero : BmcCacheEntry :=
  ⟨0, 0, 0, List.replicate maxPacketLength 0, List.length_replicate⟩

def MemcachedKey.zero : MemcachedKey :=
  ⟨0, List.replicate maxKeyLength 0, 0, List.length_replicate⟩

def BmcStats.zero : BmcStats :=
  ⟨0, 0, 0, 0, 0, 0, 0, 0, 0⟩

structure PerCpu where
  mapKeys : RexArrayMap maxKeyInPacket MemcachedKey
  mapStats : RexArrayMap 1 BmcStats

def PerCpu.zero : PerCpu :=
  ⟨fun _ => .zero, fun _ => .zero⟩

/-- What a run of `xdp_rx_filter` does besides changing its state. -/
inductive Note
  | iteration
  | lookup (slot : Slot)
  | reply
  | lock (slot : Slot)
  | unlock (slot : Slot)
  | copied (slot : Slot) (record : List UInt8)
deriving DecidableEq

structure State where
  dataSlice : Frame
  mapKcache : MapKcache
  cpu : PerCpu
  notes : List Note

abbrev Program (Value : Type) : Type := Effect Stop State Value

/-- What the kernel answers to the helpers that a run may call. -/
structure Kernel where
  refusesTail : Bool
  fill : Nat → UInt8
  printk : Except Int32 Unit

namespace State

def note (state : State) (entry : Note) : State :=
  { state with notes := state.notes ++ [entry] }

def withFrame (state : State) (frame : Frame) : State :=
  { state with dataSlice := frame }

def setEntry (state : State) (slot : Slot) (entry : BmcCacheEntry) : State :=
  { state with mapKcache := Function.update state.mapKcache slot entry }

def setKey (state : State) (idx : Fin maxKeyInPacket) (key : MemcachedKey) :
    State :=
  { state with cpu := { state.cpu with
      mapKeys := Function.update state.cpu.mapKeys idx key } }

def bump (state : State) (idx : Fin 1) (count : BmcStats → BmcStats) : State :=
  { state with cpu := { state.cpu with
      mapStats := Function.update state.cpu.mapStats idx
        (count (state.cpu.mapStats idx)) } }

section Fields

variable (state : State) (entry : Note) (frame : Frame) (slot : Slot)
  (stored : BmcCacheEntry) (keyRef : Fin maxKeyInPacket) (key : MemcachedKey)
  (idx : Fin 1) (count : BmcStats → BmcStats)

@[simp] theorem dataSlice_note : (state.note entry).dataSlice = state.dataSlice :=
  rfl

@[simp] theorem dataSlice_withFrame : (state.withFrame frame).dataSlice = frame :=
  rfl

@[simp] theorem dataSlice_setEntry :
    (state.setEntry slot stored).dataSlice = state.dataSlice :=
  rfl

@[simp] theorem dataSlice_setKey :
    (state.setKey keyRef key).dataSlice = state.dataSlice :=
  rfl

@[simp] theorem dataSlice_bump : (state.bump idx count).dataSlice = state.dataSlice :=
  rfl

@[simp] theorem mapKcache_note : (state.note entry).mapKcache = state.mapKcache :=
  rfl

@[simp] theorem mapKcache_withFrame :
    (state.withFrame frame).mapKcache = state.mapKcache :=
  rfl

@[simp] theorem mapKcache_setEntry : (state.setEntry slot stored).mapKcache =
    Function.update state.mapKcache slot stored :=
  rfl

@[simp] theorem mapKcache_setKey :
    (state.setKey keyRef key).mapKcache = state.mapKcache :=
  rfl

@[simp] theorem mapKcache_bump : (state.bump idx count).mapKcache = state.mapKcache :=
  rfl

@[simp] theorem notes_note : (state.note entry).notes = state.notes ++ [entry] :=
  rfl

@[simp] theorem notes_withFrame : (state.withFrame frame).notes = state.notes :=
  rfl

@[simp] theorem notes_setEntry : (state.setEntry slot stored).notes = state.notes :=
  rfl

@[simp] theorem notes_setKey : (state.setKey keyRef key).notes = state.notes :=
  rfl

@[simp] theorem notes_bump : (state.bump idx count).notes = state.notes :=
  rfl

@[simp] theorem mapKeys_note : (state.note entry).cpu.mapKeys = state.cpu.mapKeys :=
  rfl

@[simp] theorem mapKeys_withFrame :
    (state.withFrame frame).cpu.mapKeys = state.cpu.mapKeys :=
  rfl

@[simp] theorem mapKeys_bump :
    (state.bump idx count).cpu.mapKeys = state.cpu.mapKeys :=
  rfl

@[simp] theorem mapKeys_setKey_self :
    (state.setKey keyRef key).cpu.mapKeys keyRef = key := by
  simp only [setKey, Function.update_self]

@[simp] theorem setKey_setKey (last : MemcachedKey) :
    (state.setKey keyRef key).setKey keyRef last = state.setKey keyRef last :=
  congrArg (fun mapKeys => { state with cpu := { state.cpu with mapKeys } })
    (Function.update_idem key last state.cpu.mapKeys)

end Fields

end State

namespace Program

open Effect

def note (entry : Note) : Program Unit :=
  modify fun state => state.note entry

def editFrame (edit : Frame → Frame) : Program Unit :=
  modify fun state => state.withFrame (edit state.dataSlice)

def bump (idx : Fin 1) (count : BmcStats → BmcStats) : Program Unit :=
  modify fun state => state.bump idx count

def setKey (idx : Fin maxKeyInPacket) (key : MemcachedKey) : Program Unit :=
  modify fun state => state.setKey idx key

def lookupStats (code : Int32) : Program (Fin 1) :=
  demand (.err code) (bpfMapLookupElem 1 0)

def lookupKey (idx : Nat) (code : Int32) : Program (Fin maxKeyInPacket) :=
  demand (.err code) (bpfMapLookupElem maxKeyInPacket idx)

def lookupEntry (hash : UInt32) (code : Int32) : Program Slot := do
  let slot ← demand (.err code)
    (bpfMapLookupElem cacheEntryCount (hash.toNat % cacheEntryCount))
  note (.lookup slot)
  pure slot

def sliceOf (bytes : List UInt8) (start finish : Nat) :
    Program (List UInt8) :=
  demand (.panic .slice) (slice bytes start finish)

/-- A header view of the frame: obtaining it panics when the frame is too
short, and dropping it leaves the edited header in the frame. -/
def editHeader (start : Nat) (header : Header) (edit : Frame → Frame) :
    Program Unit := do
  let state ← get
  if state.dataSlice.Holds start header then
    editFrame edit
  else
    halt (.panic .slice)

/-- `rex_spinlock_guard`.  That the lock is released however the scope is left, by
`drop` or by the cleanup entry after a panic, is taken from `Rex.Runtime.Release`; the
watchdog is only let in between two iterations of a loop. -/
def guarded {Value : Type} (slot : Slot) (body : Program Value) :
    Program Value :=
  bracket (fun state => state.note (.lock slot))
    (fun state => state.note (.unlock slot)) body

end Program

end Rex.Bmc
