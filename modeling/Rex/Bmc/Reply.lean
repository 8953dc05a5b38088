import Rex.Bmc.Request

namespace Rex.Bmc

open Bytes Effect Program Rex.Frame

/-! What `write_pkt_reply` makes of a request whose key matches the cache by
hash. -/

def BmcCacheEntry.Verifies (entry : BmcCacheEntry) (name : List UInt8) : Prop :=
  name.length < maxKeyLength ∧ field entry.data 6 name.length = name

instance (entry : BmcCacheEntry) (name : List UInt8) :
    Decidable (entry.Verifies name) :=
  inferInstanceAs (Decidable (_ ∧ _))

def BmcCacheEntry.record (entry : BmcCacheEntry) : List UInt8 :=
  entry.data.take entry.len

theorem run_editHeader {start : Nat} {header : Header} (edit : Frame → Frame)
    {state : State} (holds : state.dataSlice.Holds start header) :
    (editHeader start header edit).run state =
      (.ok (), state.withFrame (edit state.dataSlice)) := by
  simp only [editHeader, run_get_bind, if_pos holds, editFrame, run_modify]

def swapped (frame : Frame) : Frame :=
  frame.swapMacs.swapAddrs.swapPorts

theorem headerEdit_swapped {frame : Frame} (long : headersLen ≤ frame.length) :
    HeaderEdit frame (swapped frame) :=
  ((headerEdit_swapMacs long).andThen long headerEdit_swapAddrs).andThen long
    headerEdit_swapPorts

theorem run_editHeader_bind {start : Nat} {header : Header}
    (edit : Frame → Frame) (next : Unit → Program Value) {state : State}
    (holds : state.dataSlice.Holds start header) :
    (editHeader start header edit >>= next).run state =
      (next ()).run (state.withFrame (edit state.dataSlice)) := by
  rw [run_bind, run_editHeader edit holds]

theorem run_swapHeaders {state : State}
    (long : headersLen ≤ state.dataSlice.length) :
    swapHeaders.run state =
      (.ok (), state.withFrame (swapped state.dataSlice)) := by
  have longMacs := (headerEdit_swapMacs long).long long
  have longAddrs := (headerEdit_swapAddrs longMacs).long longMacs
  unfold swapHeaders
  rw [run_editHeader_bind swapMacs _ (holds_of_long long (by decide)),
    run_editHeader_bind swapAddrs _ (holds_of_long longMacs (by decide)),
    run_editHeader swapPorts (holds_of_long longAddrs (by decide))]
  rfl

theorem run_storeEach {off : Nat} {bytes : List UInt8} {state : State}
    (fits : off + bytes.length ≤ state.dataSlice.length) :
    (storeEach off bytes).run state =
      (.ok (), state.withFrame (put state.dataSlice off bytes)) := by
  induction bytes generalizing off state with
  | nil =>
      simp only [storeEach, run_pure, put, List.append_nil, List.length_nil,
        Nat.add_zero, List.take_append_drop]
      rfl
  | cons byte rest induction =>
      rw [List.length_cons] at fits
      have inRange : off < state.dataSlice.length := by omega
      have one : off + [byte].length ≤ state.dataSlice.length := by
        rw [List.length_singleton]
        omega
      simp only [storeEach, run_get_bind, if_pos inRange, editFrame,
        run_modify_bind]
      rw [induction]
      · simp only [State.dataSlice_withFrame]
        rw [show off + 1 = off + [byte].length from rfl, put_put one]
        rfl
      · rw [State.dataSlice_withFrame, length_put one]
        omega

theorem MemcachedKey.data_hold (key : MemcachedKey) (hash : UInt32)
    {name : List UInt8} (short : name.length ≤ maxKeyLength) :
    (key.hold hash name).data.take name.length = name := by
  have whole : field (put key.data 0 name) 0 name.length = name :=
    field_put_self (Nat.zero_le _)
  rw [field, List.drop_zero] at whole
  show (put key.data 0 (name.take maxKeyLength)).take name.length = name
  rwa [List.take_of_length_le short]

section Reply

variable {name : List UInt8} {state : State} {slot : Slot}

theorem run_verifyKey (state : State) (key : MemcachedKey) (stats : Fin 1)
    (short : name.length ≤ maxKeyLength)
    (present : (state.mapKcache slot).valid = 1 ∧
      (state.mapKcache slot).hash = fnv1a name) :
    (verifyKey slot (key.hold (fnv1a name) name) stats).run state =
      if (state.mapKcache slot).Verifies name then
        (.ok true, state)
      else if maxKeyLength ≤ name.length then
        (.ok false, state)
      else
        (.ok false, state.bump stats fun stats =>
          { stats with hitMisprediction := stats.hitMisprediction + 1 }) := by
  set entry := state.mapKcache slot with entryEq
  have found : entry.valid = 1 ∧ entry.hash = (key.hold (fnv1a name) name).hash :=
    present
  simp only [verifyKey, run_get_bind, ← entryEq, if_pos found]
  by_cases long : maxKeyLength ≤ name.length
  · have unverified : ¬ entry.Verifies name := fun verified => by
      have := verified.1
      omega
    have full : maxKeyLength ≤ (key.hold (fnv1a name) name).len := long
    rw [if_pos full, if_neg unverified, if_pos long, run_pure]
  · have notFull : ¬ maxKeyLength ≤ (key.hold (fnv1a name) name).len := long
    have limit : maxKeyLength = 230 := rfl
    have size : maxPacketLength = 1500 := rfl
    have inData : 6 + name.length ≤ entry.data.length := by
      rw [entry.sized]
      omega
    have width : (field entry.data 6 name.length).length = name.length :=
      length_field inData
    have shorter : (field entry.data 6 name.length).length ≤
        (key.hold (fnv1a name) name).data.length := by
      rw [width, (key.hold (fnv1a name) name).sized]
      exact short
    have same := all_zip_eq_iff shorter
    rw [width, key.data_hold _ short] at same
    rw [if_neg notFull, if_neg long]
    have sliced : slice entry.data 6 (6 + (key.hold (fnv1a name) name).len) =
        some (field entry.data 6 name.length) := by
      show slice entry.data 6 (6 + name.length) = _
      rw [slice_eq_some (by omega) inData, Nat.add_sub_cancel_left]
    simp only [sliceOf, sliced, demand_some, run_pure_bind]
    by_cases verified : field entry.data 6 name.length = name
    · rw [if_pos (same.mpr verified.symm), if_pos ⟨by omega, verified⟩, run_pure]
    · have differs := fun zipped => verified (same.mp zipped).symm
      rw [if_neg differs, if_neg fun whole => verified whole.2]
      simp only [bump, run_modify_bind, run_pure]

theorem headerEdit_setLengths {frame : Frame} (long : headersLen ≤ frame.length)
    (totLen : Nat) :
    HeaderEdit frame (frame.setTotLen totLen).setChecksum :=
  (headerEdit_setTotLen totLen long).andThen long headerEdit_setChecksum

theorem headerEdit_setUdp {frame : Frame} (long : headersLen ≤ frame.length)
    (udpLen : Nat) :
    HeaderEdit frame (frame.setUdpLen udpLen).clearUdpCheck :=
  (headerEdit_setUdpLen udpLen long).andThen long headerEdit_clearUdpCheck

def resized (frame : Frame) (padding : Int) : Frame :=
  let withIp :=
    (frame.setTotLen ((frame.totLen + padding) % 2 ^ 16).toNat).setChecksum
  (withIp.setUdpLen ((withIp.udpLen + padding) % 2 ^ 16).toNat).clearUdpCheck

theorem headerEdit_resized {frame : Frame} (long : headersLen ≤ frame.length)
    (padding : Int) : HeaderEdit frame (resized frame padding) :=
  (headerEdit_setLengths long _).andThen long fun long' => headerEdit_setUdp long' _

theorem toNat_emod_lt (value : Int) : (value % 2 ^ 16).toNat < 256 ^ 2 := by
  have nonneg := Int.emod_nonneg value (by decide : (2 ^ 16 : Int) ≠ 0)
  have bound := Int.emod_lt_of_pos value (by decide : (0 : Int) < 2 ^ 16)
  have same : (2 ^ 16 : Int) = (256 ^ 2 : Nat) := by decide
  omega

theorem totLen_resized {frame : Frame} (long : headersLen ≤ frame.length)
    (padding : Int) :
    (resized frame padding).totLen =
      ((frame.totLen + padding) % 2 ^ 16).toNat := by
  have longTotLen :=
    (headerEdit_setTotLen ((frame.totLen + padding) % 2 ^ 16).toNat long).long long
  have longIp := (headerEdit_setChecksum longTotLen).long longTotLen
  rw [resized, clearUdpCheck, totLen_put (by decide) (by decide), setUdpLen,
    totLen_put (by decide) (by decide) longIp, setChecksum,
    totLen_put (by decide) (by decide) longTotLen,
    totLen_setTotLen (toNat_emod_lt _) long]
  exact (headerEdit_setUdpLen _ longIp).long longIp

theorem udpLen_resized {frame : Frame} (long : headersLen ≤ frame.length)
    (padding : Int) :
    (resized frame padding).udpLen =
      ((frame.udpLen + padding) % 2 ^ 16).toNat := by
  set withIp := (frame.setTotLen
    ((frame.totLen + padding) % 2 ^ 16).toNat).setChecksum with withIpEq
  have longTotLen :=
    (headerEdit_setTotLen ((frame.totLen + padding) % 2 ^ 16).toNat long).long long
  have longIp : headersLen ≤ withIp.length :=
    (headerEdit_setChecksum longTotLen).long longTotLen
  have longUdp := (headerEdit_setUdpLen
    ((withIp.udpLen + padding) % 2 ^ 16).toNat longIp).long longIp
  have same : withIp.udpLen = frame.udpLen := by
    rw [withIpEq, setChecksum, udpLen_put _ longTotLen, setTotLen,
      udpLen_put _ long]
    · rw [length_toBigEndian]
      decide
    · rw [LittleEndian.length_encode]
      decide
  rw [resized, ← withIpEq, clearUdpCheck, udpLen,
    field_put_of_before ((by decide : transportStart + 6 ≤ headersLen).trans longUdp)
      (by decide), ← udpLen, udpLen_setUdpLen (toNat_emod_lt _) longIp, same]

theorem BmcCacheEntry.length_record {entry : BmcCacheEntry}
    (fits : entry.len ≤ maxPacketLength) : entry.record.length = entry.len := by
  rw [record, List.length_take, entry.sized]
  omega

theorem run_writeRecord {entry : BmcCacheEntry} {payloadIndex : Nat}
    (fits : entry.len ≤ maxPacketLength)
    (exact : state.dataSlice.length = payloadIndex - 4 + (entry.len + 5)) :
    (writeRecord payloadIndex slot entry).run state =
      (.ok (), (state.note (.copied slot entry.record)).withFrame
        (put state.dataSlice (payloadIndex - 4) (entry.record ++ endOfReply))) := by
  have recordLen := BmcCacheEntry.length_record fits
  have stored : slice entry.data 0 entry.len = some entry.record := by
    rw [slice_eq_some (Nat.zero_le _) (by rw [entry.sized]; exact fits)]
    rfl
  have target : slice state.dataSlice (payloadIndex - 4) state.dataSlice.length =
      some (field state.dataSlice (payloadIndex - 4)
        (state.dataSlice.length - (payloadIndex - 4))) :=
    slice_eq_some (by omega) le_rfl
  have wide : entry.len ≤ (field state.dataSlice (payloadIndex - 4)
      (state.dataSlice.length - (payloadIndex - 4))).length := by
    rw [length_field (by omega)]
    omega
  have placed : payloadIndex - 4 + entry.record.length ≤
      state.dataSlice.length := by
    omega
  simp only [writeRecord, run_get_bind, sliceOf, target, stored,
    slice_eq_some (Nat.zero_le _) wide, demand_some, run_pure_bind, editFrame,
    run_modify_bind, note]
  rw [← recordLen, run_storeEach]
  · simp only [State.dataSlice_note, State.dataSlice_withFrame]
    rw [put_put placed]
    rfl
  · simp only [State.dataSlice_note, State.dataSlice_withFrame]
    rw [length_put placed, exact, recordLen]
    exact Nat.le_of_eq (Nat.add_assoc _ _ 5)

theorem run_copyCacheData (kernel : Kernel) {payloadIndex : Nat}
    (accepted : kernel.refusesTail = false)
    (inPayload : headersLen + 4 ≤ payloadIndex)
    (fits : (state.mapKcache slot).len ≤ maxPacketLength) :
    ∃ final adjusted, (copyCacheData kernel payloadIndex slot).run state =
        (.ok xdpTx, final) ∧
      final.dataSlice.drop (payloadIndex - 4) =
        (state.mapKcache slot).record ++ endOfReply ∧
      final.notes = state.notes ++
        [.copied slot (state.mapKcache slot).record] ∧
      let padding : Int := ((state.mapKcache slot).len : Int) -
        (state.dataSlice.length - payloadIndex) + 1
      state.dataSlice.adjustTail false kernel.fill padding = some adjusted ∧
        final.dataSlice = put (resized adjusted padding) (payloadIndex - 4)
          ((state.mapKcache slot).record ++ endOfReply) := by
  set entry := state.mapKcache slot with entryEq
  have headers : headersLen = 42 := rfl
  set padding : Int :=
    (entry.len : Int) - (state.dataSlice.length - payloadIndex) + 1 with paddingEq
  have room : ((Header.eth.size : Nat) : Int) ≤
      state.dataSlice.length + padding := by
    show (14 : Int) ≤ _
    omega
  obtain ⟨adjusted, done⟩ := exists_adjustTail kernel.fill room
  have grown := length_adjustTail done
  have long : headersLen ≤ adjusted.length := by omega
  have longIp := (headerEdit_setLengths long
    ((adjusted.totLen + padding) % 2 ^ 16).toNat).long long
  have total : (resized adjusted padding).length =
      payloadIndex - 4 + (entry.len + 5) := by
    rw [(headerEdit_resized long padding).length]
    omega
  set counted := state.bump 0 fun stats =>
    { stats with hitCount := stats.hitCount + 1 }
  refine ⟨((counted.withFrame (resized adjusted padding)).note
    (.copied slot entry.record)).withFrame (put (resized adjusted padding)
      (payloadIndex - 4) (entry.record ++ endOfReply)), adjusted, ?_, ?_, rfl, done,
    rfl⟩
  · simp only [copyCacheData, lookupStats, bpfMapLookupElem_eq_some Nat.one_pos,
      demand_some, run_pure_bind, bump, run_modify_bind, run_get_bind,
      State.mapKcache_bump, State.dataSlice_bump, ← entryEq, ← paddingEq, accepted,
      done, editFrame]
    rw [run_editHeader_bind _ _ (holds_of_long long (by decide)),
      run_editHeader_bind _ _ (holds_of_long longIp (by decide)), run_bind,
      run_writeRecord fits total]
    rfl
  · rw [State.dataSlice_withFrame, drop_put_self (by omega),
      List.drop_eq_nil_of_le, List.append_nil]
    rw [List.length_append, BmcCacheEntry.length_record fits, total]
    exact Nat.le_of_eq rfl

theorem idle_copyCacheData_refused (kernel : Kernel) (payloadIndex : Nat)
    (slot : Slot) (state : State) (refused : kernel.refusesTail = true) :
    Idle state ((copyCacheData kernel payloadIndex slot).run state).2 := by
  have none : ∀ offset, state.dataSlice.adjustTail true kernel.fill offset =
      none := fun offset => if_pos (.inl rfl)
  simp only [copyCacheData, lookupStats, bpfMapLookupElem_eq_some Nat.one_pos,
    demand_some, run_pure_bind, bump, run_modify_bind, run_get_bind,
    State.dataSlice_bump, refused, none]
  cases kernel.printk with
  | ok printed => exact ⟨rfl, [], (List.append_nil _).symm, rfl⟩
  | error code => exact ⟨rfl, [], (List.append_nil _).symm, rfl⟩

theorem run_writePktReply (kernel : Kernel) (payloadIndex : Nat)
    {pctx : ParsingContext} (stats : Fin 1) {key : MemcachedKey}
    (first : pctx.currentKey = 0) (short : name.length ≤ maxKeyLength)
    (held : state.cpu.mapKeys ⟨0, by decide⟩ = key.hold (fnv1a name) name)
    (present : state.mapKcache.Matches name) :
    (writePktReply kernel payloadIndex pctx stats).run state =
      let slot := slotOf (fnv1a name)
      let locked := ((state.note .reply).note (.lookup slot)).note (.lock slot)
      let ran :=
        if (state.mapKcache slot).Verifies name then
          (copyCacheData kernel payloadIndex slot).run locked
        else
          (.ok xdpTx,
            (if maxKeyLength ≤ name.length then locked else
              locked.bump stats fun stats =>
                { stats with
                  hitMisprediction := stats.hitMisprediction + 1 }).bump stats
              fun stats => { stats with missCount := stats.missCount + 1 })
      (ran.1, ran.2.note (.unlock slot)) := by
  have lookup : bpfMapLookupElem maxKeyInPacket 0 = some ⟨0, by decide⟩ :=
    bpfMapLookupElem_eq_some _
  have hash : (key.hold (fnv1a name) name).hash = fnv1a name := rfl
  simp only [writePktReply, note, run_modify_bind, lookupKey, first, lookup,
    demand_some, run_pure_bind, run_get_bind, State.mapKeys_note, held, hash,
    lookupEntry_eq]
  rw [run_bind, run_bind]
  simp only [run_modify, run_pure, guarded, run_bracket]
  rw [run_bind, run_verifyKey
    (((state.note .reply).note (.lookup (slotOf (fnv1a name)))).note
      (.lock (slotOf (fnv1a name)))) key stats short present]
  simp only [State.mapKcache_note]
  by_cases verified : (state.mapKcache (slotOf (fnv1a name))).Verifies name
  · simp only [verified, ↓reduceIte]
  · by_cases full : maxKeyLength ≤ name.length
    · simp only [verified, full, ↓reduceIte, Bool.false_eq_true, bump,
        run_modify_bind, run_pure]
    · simp only [verified, full, ↓reduceIte, Bool.false_eq_true, bump,
        run_modify_bind, run_pure]

end Reply

end Rex.Bmc
