import Rex.Bmc.Filter
import Rex.Bmc.Tx

namespace Rex.Bmc

open Bytes Effect Program Rex.Frame

/-! What a response of the server does to the cache. -/

/-- A frame that `xdp_tx_filter` takes for a response with a value. -/
def IsResponse (frame : Frame) : Prop :=
  frame.protocol = ipprotoUdp ∧ frame.sourcePort = memcachedPort ∧
    valueMark <+: frame.drop udpHeaderLen

def responseKey (payload : List UInt8) : List UInt8 :=
  ((payload.drop 6).take (maxKeyLength - 6)).takeWhile (· != space)

theorem hashResponse_eq {skbLen fuel off : Nat} {payload : List UInt8}
    {hash result : UInt32}
    (linear : udpHeaderLen + off + payload.length ≤ skbLen)
    (hashed : hashResponse skbLen fuel off payload hash = some result) :
    result = ((payload.take fuel).takeWhile (· != space)).foldl hashFunc hash := by
  induction fuel generalizing off payload hash with
  | zero =>
      obtain rfl := Option.some.inj hashed
      simp
  | succ fuel induction =>
      cases payload with
      | nil =>
          unfold hashResponse at hashed
          split at hashed
          · cases hashed
          · obtain rfl := Option.some.inj hashed
            simp
      | cons byte rest =>
          rw [List.length_cons] at linear
          have inside : udpHeaderLen + off < skbLen := by omega
          simp only [hashResponse, if_pos inside] at hashed
          rw [List.take_succ_cons]
          by_cases same : byte = space
          · rw [if_neg (not_not.mpr same)] at hashed
            obtain rfl := Option.some.inj hashed
            simp [same]
          · rw [if_pos same] at hashed
            rw [List.takeWhile_cons_of_pos (by simpa using same), List.foldl_cons]
            exact induction (by omega) hashed

/-- How far the copying loop gets: to the second newline, or to the end of what
it is given. -/
structure Copies (count : Nat) (payload copied : List UInt8) (total : Nat) :
    Prop where
  start : copied <+: payload
  counted : total = count + copied.count newline
  atMost : total ≤ 2
  done : count = 2 → copied = []
  ended : total = 2 → count = 2 ∨ copied.getLast? = some newline
  whole : total < 2 → copied = payload

theorem copyLoop_copies {skbLen : Nat} (i count : Nat) {payload : List UInt8}
    (linear : udpHeaderLen + i + payload.length ≤ skbLen) (below : count ≤ 2) :
    Copies count payload (copyLoop skbLen i count payload).1
      (copyLoop skbLen i count payload).2 := by
  induction payload generalizing i count with
  | nil =>
      exact ⟨List.nil_prefix, by simp [copyLoop], below, fun _ => rfl,
        fun two => .inl two, fun _ => rfl⟩
  | cons byte rest induction =>
      rw [List.length_cons] at linear
      have inside : ¬ skbLen ≤ udpHeaderLen + i := by omega
      by_cases full : 2 ≤ count
      · rw [copyLoop, if_pos (.inr full)]
        exact ⟨List.nil_prefix, by simp, below, fun _ => rfl,
          fun two => .inl two, fun short => by omega⟩
      · rw [copyLoop, if_neg (not_or.mpr ⟨inside, full⟩)]
        set next := if byte = newline then count + 1 else count with nextEq
        have later := induction (i + 1) next (by omega) (by
          rw [nextEq]
          split <;> omega)
        set copied := copyLoop skbLen (i + 1) next rest
        have counts : next + copied.1.count newline =
            count + (byte :: copied.1).count newline := by
          rw [List.count_cons, nextEq]
          by_cases line : byte = newline
          · simp only [line, if_true, beq_self_eq_true]
            omega
          · simp only [line, if_false, beq_iff_eq]
            omega
        refine ⟨(List.prefix_cons_inj byte).mpr later.start,
          later.counted.trans counts, later.atMost, fun two => by omega, ?_,
          fun short => congrArg (byte :: ·) (later.whole short)⟩
        intro two
        right
        show (byte :: copied.1).getLast? = some newline
        rcases later.ended two with last | last
        · -- this byte is the second newline, and nothing is copied after it
          have line : byte = newline := by
            by_contra other
            rw [nextEq, if_neg other] at last
            omega
          rw [later.done last, line]
          rfl
        · rw [List.getLast?_cons, last]
          rfl

theorem copyPayload_copies {skbLen : Nat} {payload : List UInt8}
    (linear : udpHeaderLen + payload.length ≤ skbLen) :
    Copies 0 (payload.take maxCacheDataSize) (copyPayload skbLen payload).1
      (copyPayload skbLen payload).2 := by
  have shorter := List.length_take_le maxCacheDataSize payload
  apply copyLoop_copies
  · rw [List.length_take]
    omega
  · omega

/-- An entry is refilled by a response unless it is found up to date. -/
structure Refills (cache : MapKcache) (frame : Frame) (pagedLen : Nat)
    (slot : Slot) : Prop where
  response : IsResponse frame
  hashed : hashResponse (frame.length + pagedLen) (maxKeyLength - 6) 6
    ((frame.drop udpHeaderLen).drop 6) fnvOffsetBasis32 =
      some (fnv1a (responseKey (frame.drop udpHeaderLen)))
  slotEq : slot = slotOf (fnv1a (responseKey (frame.drop udpHeaderLen)))
  stale : (cache slot).upToDate (fnv1a (responseKey (frame.drop udpHeaderLen)))
    (frame.drop udpHeaderLen) = false

instance (cache : MapKcache) (frame : Frame) (pagedLen : Nat) (slot : Slot) :
    Decidable (Refills cache frame pagedLen slot) :=
  decidable_of_iff
    ((frame.protocol = ipprotoUdp ∧ frame.sourcePort = memcachedPort ∧
      valueMark <+: frame.drop udpHeaderLen) ∧
      hashResponse (frame.length + pagedLen) (maxKeyLength - 6) 6
        ((frame.drop udpHeaderLen).drop 6) fnvOffsetBasis32 =
          some (fnv1a (responseKey (frame.drop udpHeaderLen))) ∧
      slot = slotOf (fnv1a (responseKey (frame.drop udpHeaderLen))) ∧
      (cache slot).upToDate (fnv1a (responseKey (frame.drop udpHeaderLen)))
        (frame.drop udpHeaderLen) = false)
    ⟨fun parts => ⟨parts.1, parts.2.1, parts.2.2.1, parts.2.2.2⟩,
      fun refills => ⟨refills.response, refills.hashed, refills.slotEq,
        refills.stale⟩⟩

def refilled (cache : MapKcache) (frame : Frame) (pagedLen : Nat) (slot : Slot) :
    BmcCacheEntry :=
  (cache slot).refill (fnv1a (responseKey (frame.drop udpHeaderLen)))
    (frame.length + pagedLen) (frame.drop udpHeaderLen)

theorem IsResponse.length {frame : Frame} (response : IsResponse frame) :
    udpHeaderLen + 6 ≤ frame.length := by
  have shorter := response.2.2.length_le
  rw [List.length_drop] at shorter
  have size : valueMark.length = 6 := rfl
  omega

theorem IsResponse.copies {frame : Frame} (response : IsResponse frame)
    (pagedLen : Nat) :
    Copies 0 ((frame.drop udpHeaderLen).take maxCacheDataSize)
      (copyPayload (frame.length + pagedLen) (frame.drop udpHeaderLen)).1
      (copyPayload (frame.length + pagedLen) (frame.drop udpHeaderLen)).2 := by
  have long := response.length
  exact copyPayload_copies (by rw [List.length_drop]; omega)

theorem fnv1a_responseKey {skbLen : Nat} {payload : List UInt8} {hash : UInt32}
    (long : 6 ≤ payload.length)
    (linear : udpHeaderLen + payload.length ≤ skbLen)
    (hashed : hashResponse skbLen (maxKeyLength - 6) 6 (payload.drop 6)
      fnvOffsetBasis32 = some hash) :
    hash = fnv1a (responseKey payload) :=
  hashResponse_eq (by rw [List.length_drop]; omega) hashed

theorem bmcUpdateCache_panic {skbLen : Nat} {payload : List UInt8} (stats : Fin 1)
    (state : State)
    (hashed : hashResponse skbLen (maxKeyLength - 6) 6 (payload.drop 6)
      fnvOffsetBasis32 = none) :
    (bmcUpdateCache skbLen payload stats).run state =
      (.error (.panic .slice), state) := by
  simp only [bmcUpdateCache, hashed, demand_none, run_halt_bind]

theorem bmcUpdateCache_cache {skbLen : Nat} {payload : List UInt8} {hash : UInt32}
    (stats : Fin 1) (state : State)
    (hashed : hashResponse skbLen (maxKeyLength - 6) 6 (payload.drop 6)
      fnvOffsetBasis32 = some hash) :
    ((bmcUpdateCache skbLen payload stats).run state).2.mapKcache =
      if (state.mapKcache (slotOf hash)).upToDate hash payload then
        state.mapKcache
      else
        Function.update state.mapKcache (slotOf hash)
          ((state.mapKcache (slotOf hash)).refill hash skbLen payload) := by
  simp only [bmcUpdateCache, hashed, demand_some, run_pure_bind, lookupEntry_eq]
  rw [run_bind, run_bind]
  simp only [note, run_modify, run_pure, guarded, run_bracket, run_get_bind,
    State.mapKcache_note]
  by_cases fresh : (state.mapKcache (slotOf hash)).upToDate hash payload = true
  · simp only [fresh, ↓reduceIte]
    rfl
  · simp only [fresh, ↓reduceIte, Bool.false_eq_true, run_modify_bind]
    split
    · rfl
    · rfl

theorem bmcUpdateCache_notes {skbLen : Nat} {payload : List UInt8} {hash : UInt32}
    (stats : Fin 1) (state : State)
    (hashed : hashResponse skbLen (maxKeyLength - 6) 6 (payload.drop 6)
      fnvOffsetBasis32 = some hash) :
    ((bmcUpdateCache skbLen payload stats).run state).2.notes = state.notes ++
      [.lookup (slotOf hash), .lock (slotOf hash), .unlock (slotOf hash)] := by
  simp only [bmcUpdateCache, hashed, demand_some, run_pure_bind, lookupEntry_eq]
  rw [run_bind, run_bind]
  simp only [note, run_modify, run_pure, guarded, run_bracket, run_get_bind,
    State.mapKcache_note, State.notes_note]
  by_cases fresh : (state.mapKcache (slotOf hash)).upToDate hash payload = true
  · simp [fresh]
  · simp only [fresh, ↓reduceIte, Bool.false_eq_true, run_modify_bind]
    split
    · simp [bump]
    · simp

theorem run_xdpTxFilter_response (pagedLen : Nat) {state : State}
    (response : IsResponse state.dataSlice) :
    (xdpTxFilter pagedLen).run state =
      (bmcUpdateCache (state.dataSlice.length + pagedLen)
        (state.dataSlice.drop udpHeaderLen) 0 >>= fun _ => pure tcActOk).run
        (state.bump 0 fun stats =>
          { stats with getRespCount := stats.getRespCount + 1 }) := by
  have long := response.length
  obtain ⟨protocol, port, starts⟩ := response
  have header : udpHeaderLen = 50 := rfl
  have headers : headersLen = 42 := rfl
  have accepted : ¬ (state.dataSlice.sourcePort ≠ memcachedPort ∨
      state.dataSlice.length < udpHeaderLen + 6 ∨
      valueMark.isPrefixOf (state.dataSlice.drop udpHeaderLen) = false) := by
    rw [not_or, not_or, not_not, Bool.not_eq_false, List.isPrefixOf_iff_prefix]
    exact ⟨port, by omega, starts⟩
  unfold xdpTxFilter
  rw [run_get_bind]
  simp only
  rw [if_neg (by omega),
    run_readHeader_bind _ (holds_of_long (by omega) (by decide)),
    if_neg (not_not.mpr protocol),
    run_readHeader_bind _ (holds_of_long (by omega) (by decide)),
    if_neg accepted]
  simp only [lookupStats, bpfMapLookupElem_eq_some Nat.one_pos, demand_some,
    run_pure_bind, Program.bump, run_modify_bind]
  rfl

theorem xdpTxFilter_other (pagedLen : Nat) {state : State}
    (notResponse : ¬ IsResponse state.dataSlice) :
    ((xdpTxFilter pagedLen).run state).2 = state := by
  unfold xdpTxFilter
  rw [run_get_bind]
  simp only
  split
  · rfl
  · by_cases ip : state.dataSlice.Holds ipStart .ip
    · rw [run_readHeader_bind _ ip]
      by_cases protocol : state.dataSlice.protocol = ipprotoUdp
      · rw [if_neg (not_not.mpr protocol)]
        by_cases udp : state.dataSlice.Holds transportStart .udp
        · rw [run_readHeader_bind _ udp, if_pos]
          · rfl
          · by_contra accepted
            rw [not_or, not_or, not_not, Bool.not_eq_false,
              List.isPrefixOf_iff_prefix] at accepted
            exact notResponse ⟨protocol, accepted.1, accepted.2.2⟩
        · rw [run_readHeader_short _ udp]
      · rw [if_pos protocol]
        rfl
    · rw [run_readHeader_short _ ip]

theorem run_bind_pure_snd (first : Program Value) (next : Value → Other)
    (state : State) :
    ((first >>= fun value => pure (next value)).run state).2 =
      (first.run state).2 := by
  rw [run_bind]
  split
  · rename_i ended
    rw [ended]
    rfl
  · rename_i ended
    rw [ended]

theorem xdpTxFilter_cache (pagedLen : Nat) (state : State) (slot : Slot) :
    ((xdpTxFilter pagedLen).run state).2.mapKcache slot =
      if Refills state.mapKcache state.dataSlice pagedLen slot then
        refilled state.mapKcache state.dataSlice pagedLen slot
      else
        state.mapKcache slot := by
  by_cases response : IsResponse state.dataSlice
  · have long := response.length
    rw [run_xdpTxFilter_response pagedLen response, run_bind_pure_snd]
    cases hashed : hashResponse (state.dataSlice.length + pagedLen)
        (maxKeyLength - 6) 6 ((state.dataSlice.drop udpHeaderLen).drop 6)
        fnvOffsetBasis32 with
    | none =>
        rw [bmcUpdateCache_panic _ _ hashed, if_neg]
        · rfl
        · intro refills
          rw [refills.hashed] at hashed
          cases hashed
    | some hash =>
        rw [bmcUpdateCache_cache _ _ hashed]
        obtain rfl := fnv1a_responseKey (by rw [List.length_drop]; omega)
          (by rw [List.length_drop]; omega) hashed
        simp only [State.mapKcache_bump]
        set hash := fnv1a (responseKey (state.dataSlice.drop udpHeaderLen))
        by_cases fresh : (state.mapKcache (slotOf hash)).upToDate hash
            (state.dataSlice.drop udpHeaderLen) = true
        · simp only [fresh, ↓reduceIte]
          rw [if_neg]
          intro refills
          obtain rfl := refills.slotEq
          rw [refills.stale] at fresh
          cases fresh
        · simp only [fresh, ↓reduceIte, Bool.false_eq_true]
          by_cases same : slot = slotOf hash
          · subst same
            rw [Function.update_self, if_pos]
            · rfl
            · exact ⟨response, hashed, rfl, Bool.eq_false_of_not_eq_true fresh⟩
          · rw [Function.update_of_ne same,
              if_neg fun refills => same refills.slotEq]
  · rw [xdpTxFilter_other pagedLen response,
      if_neg fun refills => response refills.response]

end Rex.Bmc
