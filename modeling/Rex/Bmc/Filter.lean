import Mathlib.Data.Finset.Card
import Mathlib.Data.Finset.Dedup
import Rex.Bmc.Get

namespace Rex.Bmc

open Bytes Effect Program Rex.Frame

/-! The three things that a frame can be to `xdp_rx_filter`: a GET, a segment to
the memcached port, or neither. -/

def IsGet (frame : Frame) : Prop :=
  frame.protocol = ipprotoUdp ∧ frame.destPort = memcachedPort ∧
    getCommand <+: frame.drop udpHeaderLen

def IsSegment (frame : Frame) : Prop :=
  frame.protocol = ipprotoTcp ∧ frame.destPort = memcachedPort ∧
    tcpHeaderLen + 4 ≤ frame.length

/-- Where the first key of a GET starts. -/
def keyOffset (frame : Frame) : Nat :=
  firstKeyOffset (frame.drop udpHeaderLen) + udpHeaderLen

theorem skipSpaces_bounds (payload : List UInt8) (fuel off : Nat)
    (inPayload : off ≤ payload.length) :
    off ≤ skipSpaces payload fuel off ∧
      skipSpaces payload fuel off ≤ payload.length := by
  induction fuel generalizing off with
  | zero => exact ⟨le_rfl, inPayload⟩
  | succ fuel induction =>
      rw [skipSpaces]
      split
      · rename_i skips
        obtain ⟨lower, upper⟩ := induction (off + 1) (by omega)
        exact ⟨by omega, upper⟩
      · exact ⟨le_rfl, inPayload⟩

theorem IsGet.length {frame : Frame} (get : IsGet frame) :
    udpHeaderLen + 4 ≤ frame.length := by
  have shorter := get.2.2.length_le
  rw [List.length_drop] at shorter
  have size : getCommand.length = 4 := rfl
  omega

theorem IsGet.keyOffset_bounds {frame : Frame} (get : IsGet frame) :
    udpHeaderLen + 4 ≤ keyOffset frame ∧ keyOffset frame ≤ frame.length := by
  have long := get.length
  obtain ⟨lower, upper⟩ := skipSpaces_bounds (frame.drop udpHeaderLen)
    (maxPacketLength - 4) 4 (by rw [List.length_drop]; omega)
  rw [List.length_drop] at upper
  rw [keyOffset, firstKeyOffset]
  omega

theorem run_readHeader_bind {start : Nat} {header : Header}
    (next : Unit → Program Value) {state : State}
    (holds : state.dataSlice.Holds start header) :
    (editHeader start header id >>= next).run state = (next ()).run state :=
  run_editHeader_bind id next holds

theorem run_xdpRxFilter_get (kernel : Kernel) (fuel : Nat) {state : State}
    (get : IsGet state.dataSlice) :
    (xdpRxFilter kernel fuel).run state =
      (keyLoop kernel (state.dataSlice.drop (keyOffset state.dataSlice))
        (keyOffset state.dataSlice) 0 fuel
        ⟨0, 0, UInt8.ofNat (keyOffset state.dataSlice)⟩).run
        (state.bump 0 fun stats =>
          { stats with getRecvCount := stats.getRecvCount + 1 }) := by
  have long := get.length
  obtain ⟨lower, upper⟩ := get.keyOffset_bounds
  have header : udpHeaderLen = 50 := rfl
  have headers : headersLen = 42 := rfl
  obtain ⟨protocol, port, starts⟩ := get
  have payload : slice state.dataSlice udpHeaderLen state.dataSlice.length =
      some (state.dataSlice.drop udpHeaderLen) :=
    slice_to_end (by omega)
  have fromKey : slice state.dataSlice (keyOffset state.dataSlice)
      state.dataSlice.length =
        some (state.dataSlice.drop (keyOffset state.dataSlice)) :=
    slice_to_end upper
  have accepted : ¬ (state.dataSlice.destPort ≠ memcachedPort ∨
      (state.dataSlice.drop udpHeaderLen).length < 4) := by
    rw [not_or, not_not, List.length_drop]
    exact ⟨port, by omega⟩
  have isGet : ¬ getCommand.isPrefixOf (state.dataSlice.drop udpHeaderLen) =
      false := by
    rw [Bool.not_eq_false, List.isPrefixOf_iff_prefix]
    exact starts
  unfold xdpRxFilter
  rw [run_readHeader_bind _ (holds_of_long (by omega) (by decide)), run_get_bind]
  simp only
  rw [if_neg (by rw [protocol]; decide), if_pos protocol,
    run_readHeader_bind _ (holds_of_long (by omega) (by decide))]
  simp only [sliceOf, payload, demand_some, run_pure_bind, if_neg accepted,
    if_neg isGet, lookupStats, bpfMapLookupElem_eq_some Nat.one_pos]
  simp only [Program.bump, run_modify_bind, hashKey, run_get_bind,
    State.dataSlice_bump, sliceOf]
  rw [← keyOffset, fromKey]
  rfl

/-! Segments. -/

/-- The requests are what follows the occurrences of `set `, however they
overlap. -/
theorem mem_setRequests_iff {payload request : List UInt8} :
    request ∈ setRequests payload ↔
      ∃ before, payload = before ++ setCommand ++ request := by
  constructor
  · intro member
    obtain ⟨found, inside, taken⟩ := List.mem_filterMap.mp member
    split at taken
    · rename_i starts
      obtain ⟨rest, rfl⟩ := List.isPrefixOf_iff_prefix.mp starts
      obtain ⟨before, rfl⟩ := (List.mem_tails _ _).mp inside
      obtain rfl : rest = request := by simpa using taken
      exact ⟨before, (List.append_assoc _ _ _).symm⟩
    · cases taken
  · rintro ⟨before, rfl⟩
    refine List.mem_filterMap.mpr ⟨setCommand ++ request, ?_, ?_⟩
    · rw [List.mem_tails, List.append_assoc]
      exact List.suffix_append ..
    · rw [if_pos (List.isPrefixOf_iff_prefix.mpr (List.prefix_append ..)),
        List.drop_left]

def requestSlot (request : List UInt8) : Slot :=
  slotOf (fnv1a (request.takeWhile (· != space)))

def BmcCacheEntry.invalidate (entry : BmcCacheEntry) : BmcCacheEntry :=
  if entry.valid = 1 then { entry with valid := 0 } else entry

def MapKcache.invalidated (cache : MapKcache) (requests : List (List UInt8)) :
    MapKcache :=
  fun slot =>
    if slot ∈ requests.map requestSlot then (cache slot).invalidate
    else cache slot

theorem BmcCacheEntry.invalidate_invalidate (entry : BmcCacheEntry) :
    entry.invalidate.invalidate = entry.invalidate := by
  unfold invalidate
  split
  · rfl
  · rfl

theorem MapKcache.invalidated_cons (cache : MapKcache) (request : List UInt8)
    (rest : List (List UInt8)) :
    cache.invalidated (request :: rest) =
      MapKcache.invalidated (Function.update cache (requestSlot request)
        (cache (requestSlot request)).invalidate) rest := by
  funext slot
  simp only [invalidated, List.map_cons, List.mem_cons]
  by_cases same : slot = requestSlot request
  · subst same
    simp only [true_or, if_true, Function.update_self]
    split
    · rw [BmcCacheEntry.invalidate_invalidate]
    · rfl
  · simp only [same, false_or, Function.update_of_ne (Ne.intro same)]

def MapKcache.switched (cache : MapKcache) (requests : List (List UInt8)) :
    Finset Slot :=
  (requests.map requestSlot).toFinset.filter fun slot => (cache slot).valid = 1

theorem MapKcache.mem_switched {cache : MapKcache} {requests : List (List UInt8)}
    {slot : Slot} :
    slot ∈ cache.switched requests ↔
      slot ∈ requests.map requestSlot ∧ (cache slot).valid = 1 := by
  rw [switched, Finset.mem_filter, List.mem_toFinset]

theorem BmcCacheEntry.valid_invalidate (entry : BmcCacheEntry) :
    entry.invalidate.valid ≠ 1 := by
  unfold invalidate
  split
  · exact (by decide : (0 : UInt8) ≠ 1)
  · assumption

theorem MapKcache.card_switched_cons (cache : MapKcache) (request : List UInt8)
    (rest : List (List UInt8)) :
    (cache.switched (request :: rest)).card =
      (if (cache (requestSlot request)).valid = 1 then 1 else 0) +
        (MapKcache.switched (Function.update cache (requestSlot request)
          (cache (requestSlot request)).invalidate) rest).card := by
  set after := Function.update cache (requestSlot request)
    (cache (requestSlot request)).invalidate with afterEq
  -- the slot of the first request is not switched once more
  have once : requestSlot request ∉ MapKcache.switched after rest := by
    rw [mem_switched, afterEq, Function.update_self]
    exact fun switched => BmcCacheEntry.valid_invalidate _ switched.2
  have others {slot : Slot} (other : slot ≠ requestSlot request) :
      slot ∈ cache.switched (request :: rest) ↔
        slot ∈ MapKcache.switched after rest := by
    rw [mem_switched, mem_switched, afterEq, Function.update_of_ne other,
      List.map_cons, List.mem_cons, or_iff_right other]
  split
  · rename_i valid
    rw [Nat.add_comm, ← Finset.card_insert_of_notMem once]
    congr 1
    ext slot
    by_cases same : slot = requestSlot request
    · subst same
      simp [mem_switched, valid]
    · rw [others same, Finset.mem_insert, or_iff_right same]
  · rename_i invalid
    rw [Nat.zero_add]
    congr 1
    ext slot
    by_cases same : slot = requestSlot request
    · subst same
      exact iff_of_false (fun switched => invalid (mem_switched.mp switched).2) once
    · exact others same

def State.invalidations (state : State) : UInt32 :=
  (state.cpu.mapStats ⟨0, Nat.one_pos⟩).invalidationCount

theorem run_invalidateOne (request : List UInt8) (state : State) :
    ∃ final, (invalidateOne request).run state = (.ok (), final) ∧
      Idle state final ∧
      final.mapKcache = Function.update state.mapKcache (requestSlot request)
        (state.mapKcache (requestSlot request)).invalidate ∧
      final.invalidations = state.invalidations + .ofNat
        (if (state.mapKcache (requestSlot request)).valid = 1 then 1 else 0) ∧
      ∀ slot, .lookup slot ∈ final.notes ↔
        .lookup slot ∈ state.notes ∨ slot = requestSlot request := by
  have slot : slotOf (fnv1a (request.takeWhile (· != space))) =
      requestSlot request := rfl
  simp only [invalidateOne, lookupStats, bpfMapLookupElem_eq_some Nat.one_pos,
    demand_some, run_pure_bind, Program.bump, run_modify_bind, lookupEntry_eq,
    slot]
  rw [run_bind, run_bind]
  simp only [note, run_modify, run_pure, run_get_bind, State.mapKcache_note,
    State.mapKcache_bump]
  by_cases valid : (state.mapKcache (requestSlot request)).valid = 1
  · simp only [valid, ↓reduceIte, run_modify_bind, guarded, run_bracket,
      run_modify]
    refine ⟨_, rfl, ⟨rfl, [.lookup (requestSlot request),
      .lock (requestSlot request), .unlock (requestSlot request)], ?_, rfl⟩, ?_, ?_,
      ?_⟩
    · simp
    · simp only [BmcCacheEntry.invalidate, if_pos valid]
      rfl
    · rfl
    · simp
  · simp only [valid, ↓reduceIte, run_pure]
    refine ⟨_, rfl, ⟨rfl, [.lookup (requestSlot request)], rfl, rfl⟩, ?_, ?_, ?_⟩
    · rw [BmcCacheEntry.invalidate, if_neg valid, Function.update_eq_self]
      rfl
    · exact (UInt32.add_zero _).symm
    · simp

theorem run_invalidateEach (requests : List (List UInt8)) (state : State) :
    ∃ final, (invalidateEach requests).run state = (.ok (), final) ∧
      Idle state final ∧
      final.mapKcache = state.mapKcache.invalidated requests ∧
      final.invalidations = state.invalidations +
        .ofNat (state.mapKcache.switched requests).card := by
  induction requests generalizing state with
  | nil =>
      refine ⟨state, rfl, ⟨rfl, [], (List.append_nil _).symm, rfl⟩, ?_, ?_⟩
      · funext slot
        simp [MapKcache.invalidated]
      · exact (UInt32.add_zero _).symm
  | cons request rest induction =>
      obtain ⟨middle, ran, idle, cache, count, _⟩ := run_invalidateOne request state
      obtain ⟨final, ran', idle', cache', count'⟩ := induction middle
      refine ⟨final, ?_, idle.trans idle', ?_, ?_⟩
      · rw [invalidateEach, run_bind, ran]
        exact ran'
      · rw [cache', cache, MapKcache.invalidated_cons]
      · rw [count', count, cache, MapKcache.card_switched_cons, UInt32.ofNat_add,
          UInt32.add_assoc]

theorem run_bmcInvalidateCache {state : State}
    (port : state.dataSlice.destPort = memcachedPort)
    (long : tcpHeaderLen + 4 ≤ state.dataSlice.length) :
    ∃ final, bmcInvalidateCache.run state = (.ok xdpPass, final) ∧
      Idle state final ∧
      final.mapKcache = state.mapKcache.invalidated
        (setRequests (state.dataSlice.drop tcpHeaderLen)) ∧
      final.invalidations = state.invalidations +
        .ofNat (state.mapKcache.switched
          (setRequests (state.dataSlice.drop tcpHeaderLen))).card := by
  have payload : slice state.dataSlice tcpHeaderLen state.dataSlice.length =
      some (state.dataSlice.drop tcpHeaderLen) :=
    slice_to_end (by omega)
  have accepted : ¬ (state.dataSlice.destPort ≠ memcachedPort ∨
      (state.dataSlice.drop tcpHeaderLen).length < 4) := by
    rw [not_or, not_not, List.length_drop]
    exact ⟨port, by omega⟩
  have tcp : state.dataSlice.Holds transportStart .tcp :=
    (Nat.le_add_right _ 4).trans long
  obtain ⟨final, ran, effect⟩ := run_invalidateEach
    (setRequests (state.dataSlice.drop tcpHeaderLen)) state
  refine ⟨final, ?_, effect⟩
  rw [bmcInvalidateCache, run_readHeader_bind _ tcp, run_get_bind]
  simp only [sliceOf, payload, demand_some, run_pure_bind, if_neg accepted]
  rw [run_bind, ran]
  rfl

theorem run_xdpRxFilter_segment (kernel : Kernel) (fuel : Nat) {state : State}
    (segment : IsSegment state.dataSlice) :
    ∃ final, (xdpRxFilter kernel fuel).run state = (.ok xdpPass, final) ∧
      Idle state final ∧
      final.mapKcache = state.mapKcache.invalidated
        (setRequests (state.dataSlice.drop tcpHeaderLen)) := by
  obtain ⟨protocol, port, long⟩ := segment
  have header : tcpHeaderLen = 54 := rfl
  have headers : headersLen = 42 := rfl
  obtain ⟨final, ran, idle, cache, _⟩ := run_bmcInvalidateCache port long
  refine ⟨final, ?_, idle, cache⟩
  unfold xdpRxFilter
  rw [run_readHeader_bind _ (holds_of_long (by omega) (by decide)), run_get_bind]
  simp only
  rw [if_pos protocol, ran]

theorem run_readHeader_short {start : Nat} {header : Header}
    (next : Unit → Program Value) {state : State}
    (short : ¬ state.dataSlice.Holds start header) :
    (editHeader start header id >>= next).run state =
      (.error (.panic .slice), state) := by
  rw [run_bind]
  simp only [editHeader, run_get_bind, if_neg short, run_halt]

theorem run_xdpRxFilter_other (kernel : Kernel) (fuel : Nat) {state : State}
    (notGet : ¬ IsGet state.dataSlice)
    (notSegment : ¬ IsSegment state.dataSlice) :
    ∃ result, (xdpRxFilter kernel fuel).run state = (result, state) ∧
      (tcpHeaderLen ≤ state.dataSlice.length → result = .ok xdpPass) := by
  have tcpHeader : tcpHeaderLen = 54 := rfl
  have udpHeader : udpHeaderLen = 50 := rfl
  have headers : headersLen = 42 := rfl
  unfold xdpRxFilter
  by_cases ip : state.dataSlice.Holds ipStart .ip
  · rw [run_readHeader_bind _ ip, run_get_bind]
    simp only
    by_cases tcp : state.dataSlice.protocol = ipprotoTcp
    · rw [if_pos tcp, bmcInvalidateCache]
      by_cases holds : state.dataSlice.Holds transportStart .tcp
      · have long : tcpHeaderLen ≤ state.dataSlice.length := holds
        have ignored : state.dataSlice.destPort ≠ memcachedPort ∨
            (state.dataSlice.drop tcpHeaderLen).length < 4 := by
          by_contra accepted
          rw [not_or, not_not, List.length_drop] at accepted
          exact notSegment ⟨tcp, accepted.1, by omega⟩
        rw [run_readHeader_bind _ holds, run_get_bind]
        simp only [sliceOf, slice_to_end long, demand_some, run_pure_bind,
          if_pos ignored, run_pure]
        exact ⟨_, rfl, fun _ => rfl⟩
      · rw [run_readHeader_short _ holds]
        exact ⟨_, rfl, fun long => absurd long holds⟩
    · rw [if_neg tcp]
      by_cases udp : state.dataSlice.protocol = ipprotoUdp
      · rw [if_pos udp]
        by_cases holds : state.dataSlice.Holds transportStart .udp
        · rw [run_readHeader_bind _ holds]
          by_cases long : udpHeaderLen ≤ state.dataSlice.length
          · simp only [sliceOf, slice_to_end long, demand_some, run_pure_bind]
            by_cases ignored : state.dataSlice.destPort ≠ memcachedPort ∨
                (state.dataSlice.drop udpHeaderLen).length < 4
            · rw [if_pos ignored, run_pure]
              exact ⟨_, rfl, fun _ => rfl⟩
            · rw [if_neg ignored, if_pos, run_pure]
              · exact ⟨_, rfl, fun _ => rfl⟩
              · rw [not_or, not_not] at ignored
                rw [← Bool.not_eq_true, List.isPrefixOf_iff_prefix]
                exact fun starts => notGet ⟨udp, ignored.1, starts⟩
          · have outside : slice state.dataSlice udpHeaderLen
                state.dataSlice.length = none :=
              if_neg fun inside => long inside.1
            simp only [sliceOf, outside, demand_none, run_halt_bind]
            exact ⟨_, rfl, fun whole => absurd whole (by omega)⟩
        · rw [run_readHeader_short _ holds]
          exact ⟨_, rfl, fun whole =>
            absurd (holds_of_long (by omega) (by decide)) holds⟩
      · rw [if_neg udp, run_pure]
        exact ⟨_, rfl, fun _ => rfl⟩
  · rw [run_readHeader_short _ ip]
    exact ⟨_, rfl, fun whole =>
      absurd (holds_of_long (by omega) (by decide)) ip⟩

theorem IsGet.mapKcache {state : State} (get : IsGet state.dataSlice)
    (kernel : Kernel) (fuel : Nat) :
    ((xdpRxFilter kernel fuel).run state).2.mapKcache = state.mapKcache := by
  rw [run_xdpRxFilter_get kernel fuel get]
  exact keeps_keyLoop ..

theorem IsGet.outcome (state : State) (get : IsGet state.dataSlice)
    (kernel : Kernel) (fuel : Nat)
    (fits : ∀ slot, (state.mapKcache slot).len ≤ maxPacketLength) :
    GetOutcome kernel
      (state.bump 0 fun stats =>
        { stats with getRecvCount := stats.getRecvCount + 1 })
      (keyOffset state.dataSlice) ((xdpRxFilter kernel fuel).run state) := by
  have header : udpHeaderLen = 50 := rfl
  have headers : headersLen = 42 := rfl
  have long := get.length
  obtain ⟨lower, _⟩ := get.keyOffset_bounds
  rw [run_xdpRxFilter_get kernel fuel get]
  exact keyLoop_outcome kernel (keyOffset state.dataSlice) 0 (state.bump 0 _)
    (by omega) (show headersLen ≤ state.dataSlice.length by omega) fits fuel _

end Rex.Bmc
