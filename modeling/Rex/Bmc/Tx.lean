import Rex.Bmc.Cache

namespace Rex.Bmc

open Bytes Effect Program

/-! The egress program `xdp_tx_filter`, which fills the cache from the responses
of the server. -/

def valueMark : List UInt8 := [86, 65, 76, 85, 69, 32]

/-- The hash loop of `bmc_update_cache`, at offset `off` of the payload.  `fuel`
counts down to `BMC_MAX_KEY_LENGTH`; `none` is an index past the linear data. -/
def hashResponse (skbLen : Nat) :
    (fuel off : Nat) → List UInt8 → UInt32 → Option UInt32
  | 0, _, _, hash => some hash
  | fuel + 1, off, payload, hash =>
      if udpHeaderLen + off < skbLen then
        match payload with
        | [] => none
        | byte :: rest =>
            if byte ≠ space then
              hashResponse skbLen fuel (off + 1) rest (hashFunc hash byte)
            else
              some hash
      else
        some hash

def differs (payloadLen : Nat) :
    (fuel off : Nat) → (payload data : List UInt8) → Bool
  | fuel + 1, off, byte :: payload, stored :: data =>
      -- the header length is added although `payload` starts after the headers
      if udpHeaderLen + off < payloadLen ∧ (byte ≠ space ∨ stored ≠ space) then
        if stored ≠ byte then
          true
        else
          differs payloadLen fuel (off + 1) payload data
      else
        false
  | _, _, _, _ => false

def copyLoop (skbLen : Nat) : (i count : Nat) → List UInt8 → List UInt8 × Nat
  | _, count, [] => ([], count)
  | i, count, byte :: rest =>
      if skbLen ≤ udpHeaderLen + i ∨ 2 ≤ count then
        ([], count)
      else
        let copied := copyLoop skbLen (i + 1)
          (if byte = newline then count + 1 else count) rest
        (byte :: copied.1, copied.2)

def copyPayload (skbLen : Nat) (payload : List UInt8) : List UInt8 × Nat :=
  copyLoop skbLen 0 0 (payload.take maxCacheDataSize)

theorem length_copyLoop_le (skbLen i count : Nat) (payload : List UInt8) :
    (copyLoop skbLen i count payload).1.length ≤ payload.length := by
  induction payload generalizing i count with
  | nil => rfl
  | cons byte rest induction =>
      rw [copyLoop]
      split
      · exact Nat.zero_le _
      · exact Nat.succ_le_succ (induction _ _)

theorem length_copyPayload_le (skbLen : Nat) (payload : List UInt8) :
    (copyPayload skbLen payload).1.length ≤ maxCacheDataSize :=
  (length_copyLoop_le _ _ _ _).trans
    ((List.length_take_le _ _))

/-- The entry after the payload has been copied into it.  It is marked valid, and
gets the hash, only when two lines were copied. -/
def BmcCacheEntry.refill (entry : BmcCacheEntry) (hash : UInt32) (skbLen : Nat)
    (payload : List UInt8) : BmcCacheEntry where
  len := (copyPayload skbLen payload).1.length
  valid := if (copyPayload skbLen payload).2 = 2 then 1 else entry.valid
  hash := if (copyPayload skbLen payload).2 = 2 then hash else entry.hash
  data := put entry.data 0 (copyPayload skbLen payload).1
  sized := by
    have short := length_copyPayload_le skbLen payload
    rw [length_put, entry.sized]
    rw [entry.sized, Nat.zero_add]
    exact short.trans (by decide)

def BmcCacheEntry.upToDate (entry : BmcCacheEntry) (hash : UInt32)
    (payload : List UInt8) : Bool :=
  entry.valid == 1 && entry.hash == hash &&
    !differs payload.length (maxKeyLength - 6) 6 (payload.drop 6)
      (entry.data.drop 6)

def bmcUpdateCache (skbLen : Nat) (payload : List UInt8) (stats : Fin 1) :
    Program Int32 := do
  let hash ← demand (.panic .slice)
    (hashResponse skbLen (maxKeyLength - 6) 6 (payload.drop 6) fnvOffsetBasis32)
  let slot ← lookupEntry hash tcActOk
  guarded slot do
    let state ← get
    let entry := state.mapKcache slot
    if entry.upToDate hash payload then
      pure tcActOk
    else do
      modify fun state => state.setEntry slot (entry.refill hash skbLen payload)
      if (copyPayload skbLen payload).2 = 2 then
        bump stats fun stats =>
          { stats with updateCount := stats.updateCount + 1 }
        pure tcActOk
      else
        pure tcActOk

/-- `pagedLen` is the number of bytes of the packet outside its linear data. -/
def xdpTxFilter (pagedLen : Nat) : Program Int32 := do
  let state ← get
  let skbLen := state.dataSlice.length + pagedLen
  if skbLen ≤ udpHeaderLen then
    pure tcActOk
  else do
    editHeader Frame.ipStart .ip id
    if state.dataSlice.protocol ≠ ipprotoUdp then
      pure tcActOk
    else do
      editHeader Frame.transportStart .udp id
      if state.dataSlice.sourcePort ≠ memcachedPort ∨
          state.dataSlice.length < udpHeaderLen + 6 ∨
          valueMark.isPrefixOf (state.dataSlice.drop udpHeaderLen) = false then
        pure tcActOk
      else do
        let stats ← lookupStats 0
        bump stats fun stats =>
          { stats with getRespCount := stats.getRespCount + 1 }
        let _ ← bmcUpdateCache skbLen (state.dataSlice.drop udpHeaderLen) stats
        pure tcActOk

end Rex.Bmc
