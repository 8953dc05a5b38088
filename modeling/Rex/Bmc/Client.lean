import Rex.Bmc.Freshness

namespace Rex.Bmc

open Bytes Effect Program Rex.Frame

/-! The requests of the benchmark client, as `xdp_rx_filter` reads them. -/

def wrapGetCommand (key : List UInt8) (seq : UInt16) : List UInt8 :=
  let bytes := [0, 0, 0, 1, 0, 0]
  let command := [103, 101, 116, 32] ++ key ++ [13, 10]
  let seqBytes := toBigEndian 2 seq.toNat
  seqBytes ++ bytes ++ command

/-- A frame to the memcached port with the client's request as its payload; what
follows the request is padding. -/
structure CarriesGet (key : List UInt8) (seq : UInt16) (frame : Frame) : Prop where
  protocol : frame.protocol = ipprotoUdp
  port : frame.destPort = memcachedPort
  payload : wrapGetCommand key seq <+: frame.drop headersLen

section Client

variable {key : List UInt8} {seq : UInt16} {frame : Frame}

theorem CarriesGet.request (carries : CarriesGet key seq frame) :
    ∃ padding, frame.drop udpHeaderLen =
      getCommand ++ (key ++ carriageReturn :: newline :: padding) := by
  obtain ⟨padding, shape⟩ := carries.payload
  refine ⟨padding, ?_⟩
  have header : (toBigEndian 2 seq.toNat ++ [0, 0, 0, 1, 0, 0]).length = 8 := by
    rw [List.length_append, length_toBigEndian]
    rfl
  rw [show udpHeaderLen = headersLen + 8 from rfl, ← List.drop_drop, ← shape,
    ← header, wrapGetCommand, List.append_assoc, List.drop_left]
  simp [getCommand, carriageReturn, newline]

theorem CarriesGet.isGet (carries : CarriesGet key seq frame) : IsGet frame := by
  obtain ⟨padding, request⟩ := carries.request
  refine ⟨carries.protocol, carries.port, ?_⟩
  rw [request]
  exact List.prefix_append ..

theorem keyOffset_of_request {padding : List UInt8}
    (request : frame.drop udpHeaderLen =
      getCommand ++ (key ++ carriageReturn :: newline :: padding))
    (nonempty : key ≠ []) (isKey : ∀ byte ∈ key, isKeyByte byte = true) :
    keyOffset frame = udpHeaderLen + 4 ∧
      Token isKeyByte (frame.drop (keyOffset frame)) key carriageReturn := by
  have line : frame.drop udpHeaderLen = getCommand ++ List.replicate 0 space ++
      (key ++ carriageReturn :: newline :: padding) := by
    rw [List.replicate_zero, List.append_nil, request]
  exact ⟨keyOffset_of_line line nonempty isKey,
    token_of_line line nonempty isKey (Nat.zero_le _) (by decide)⟩

theorem scan_of_request {padding : List UInt8}
    (request : frame.drop udpHeaderLen =
      getCommand ++ (key ++ carriageReturn :: newline :: padding))
    (nonempty : key ≠ []) (short : key.length ≤ maxKeyLength)
    (isKey : ∀ byte ∈ key, isKeyByte byte = true) :
    scan frame.length (frame.drop (keyOffset frame))
      (UInt8.ofNat (keyOffset frame)) = some (key, carriageReturn) := by
  obtain ⟨offset, token⟩ := keyOffset_of_request request nonempty isKey
  have length := congrArg List.length request
  rw [List.length_drop, List.length_append, List.length_append, List.length_cons,
    List.length_cons, show getCommand.length = 4 from rfl] at length
  have limit : maxKeyLength = 230 := rfl
  have header : udpHeaderLen = 50 := rfl
  have window : windowLen frame.length (UInt8.ofNat (keyOffset frame)) =
      min (maxKeyLength + 1) (frame.length - 54) := by
    rw [windowLen, offset, show (UInt8.ofNat (udpHeaderLen + 4)).toNat = 54 from rfl,
      wrappingSub, if_pos (by omega)]
  refine scan_of_token token ?_ ?_
  · rw [window]
    omega
  · rw [window, List.length_drop, offset]
    omega

theorem CarriesGet.scan_eq (carries : CarriesGet key seq frame)
    (nonempty : key ≠ []) (short : key.length ≤ maxKeyLength)
    (isKey : ∀ byte ∈ key, isKeyByte byte = true) :
    scan frame.length (frame.drop (keyOffset frame))
      (UInt8.ofNat (keyOffset frame)) = some (key, carriageReturn) := by
  obtain ⟨padding, request⟩ := carries.request
  exact scan_of_request request nonempty short isKey

/-! The control flow that is noted, without the record that a hit copies. -/

def Note.isControl : Note → Bool
  | .copied _ _ => false
  | _ => true

def State.control (state : State) :
    List Note × RexArrayMap maxKeyInPacket MemcachedKey :=
  (state.notes.filter Note.isControl, state.cpu.mapKeys)

theorem apart_control : Apart State.control := by
  refine ⟨fun _ _ => rfl, fun _ _ _ => rfl, fun state slot record => ?_⟩
  simp [State.control, State.note, Note.isControl]

theorem control_note (state : State) {entry : Note}
    (isControl : entry.isControl = true) :
    (state.note entry).control =
      (state.control.1 ++ [entry], state.control.2) := by
  simp [State.control, State.note, isControl]

theorem mem_notes_iff {state : State} {entry : Note}
    (isControl : entry.isControl = true) :
    entry ∈ state.notes ↔ entry ∈ state.control.1 := by
  simp [State.control, isControl]

theorem count_notes {state : State} {entry : Note}
    (isControl : entry.isControl = true) :
    state.notes.count entry = state.control.1.count entry :=
  (List.count_filter isControl).symm

theorem control_reply (kernel : Kernel) (payloadIndex : Nat) (stats : Fin 1)
    {state : State} {name : List UInt8} (long : headersLen ≤ state.dataSlice.length)
    (short : name.length ≤ maxKeyLength) (present : state.mapKcache.Matches name)
    (fresh : state.notes = []) (readPktOffset : UInt8) :
    ((do swapHeaders
         writePktReply kernel payloadIndex ⟨1, 0, readPktOffset⟩ stats).run
        (state.parsed name ⟨0, by decide⟩ stats)).2.control =
      ([.iteration, .lookup (slotOf (fnv1a name)), .lock (slotOf (fnv1a name)),
        .unlock (slotOf (fnv1a name)), .reply, .lookup (slotOf (fnv1a name)),
        .lock (slotOf (fnv1a name)), .unlock (slotOf (fnv1a name))],
        (state.parsed name ⟨0, by decide⟩ stats).cpu.mapKeys) := by
  rw [run_reply kernel payloadIndex stats long short present]
  simp only
  set slot := slotOf (fnv1a name)
  have control : (state.locked name stats).control =
      ([.iteration, .lookup slot, .lock slot, .unlock slot, .reply, .lookup slot,
        .lock slot], (state.parsed name ⟨0, by decide⟩ stats).cpu.mapKeys) := by
    rw [State.control, State.notes_locked, fresh]
    rfl
  rw [control_note _ rfl]
  by_cases verified : (state.mapKcache slot).Verifies name
  · rw [if_pos verified, (apart_control.copyCacheData kernel payloadIndex slot).keeps,
      control]
    rfl
  · rw [if_neg verified]
    simp only
    rw [apart_control.stats]
    split
    · rw [control]
      rfl
    · rw [apart_control.stats, control]
      rfl

section Single

variable (world : World) (cpu : Nat) (kernel : Kernel) (fuel : Nat)
  (get : IsGet frame) (nonempty : key ≠ [])
  (scanned : scan frame.length (frame.drop (keyOffset frame))
    (UInt8.ofNat (keyOffset frame)) = some (key, carriageReturn))

include get nonempty scanned

theorem handle_single :
    ∃ counted : State, counted.dataSlice = frame ∧
      counted.mapKcache = world.mapKcache ∧ counted.notes = [] ∧
      world.handle (.rx cpu frame kernel (fuel + 1)) =
        (if world.mapKcache.Matches key then do
            swapHeaders
            writePktReply kernel (keyOffset frame)
              ⟨1, 0, UInt8.ofNat (keyOffset frame)⟩ 0
          else
            pure xdpPass).run (counted.parsed key ⟨0, by decide⟩ 0) := by
  have started : IsGet (world.start cpu frame).dataSlice := get
  have ran := run_xdpRxFilter_get kernel (fuel + 1) started
  set counted := (world.start cpu frame).bump 0 fun stats =>
    { stats with getRecvCount := stats.getRecvCount + 1 }
  refine ⟨counted, rfl, rfl, rfl, ?_⟩
  rw [World.handle, ran]
  have found : scan counted.dataSlice.length (frame.drop (keyOffset frame))
      (UInt8.ofNat (keyOffset frame)) = some (key, carriageReturn) :=
    scanned
  have room : (⟨0, 0, UInt8.ofNat (keyOffset frame)⟩ : ParsingContext).keyCount <
      maxKeyInPacket :=
    show 0 < maxKeyInPacket by decide
  rw [show (world.start cpu frame).dataSlice = frame from rfl,
    run_keyLoop_name _ _ _ _ room found nonempty]
  simp only [if_true]
  by_cases present : world.mapKcache.Matches key
  · have matched : counted.mapKcache.Matches key := present
    simp only [matched, present, ↓reduceIte, Nat.zero_add, Nat.one_pos]
  · have missed : ¬ counted.mapKcache.Matches key := present
    simp only [missed, present, ↓reduceIte, lt_irrefl]

theorem control_hit (present : world.mapKcache.Matches key) :
    ∃ (mapKeys : RexArrayMap maxKeyInPacket MemcachedKey) (stored : MemcachedKey),
      mapKeys ⟨0, by decide⟩ = stored.hold (fnv1a key) key ∧
      (world.handle (.rx cpu frame kernel (fuel + 1))).2.control =
        ([.iteration, .lookup (slotOf (fnv1a key)), .lock (slotOf (fnv1a key)),
          .unlock (slotOf (fnv1a key)), .reply, .lookup (slotOf (fnv1a key)),
          .lock (slotOf (fnv1a key)), .unlock (slotOf (fnv1a key))], mapKeys) := by
  obtain ⟨counted, sameFrame, sameCache, fresh, ran⟩ :=
    handle_single world cpu kernel fuel get nonempty scanned
  have short := (scan_eq_some scanned).2
  have long : headersLen ≤ counted.dataSlice.length := by
    rw [sameFrame]
    exact (show headersLen ≤ udpHeaderLen + 4 by decide).trans get.length
  have matched : counted.mapKcache.Matches key := sameCache ▸ present
  refine ⟨_, _, counted.mapKeys_parsed key ⟨0, by decide⟩ 0 matched, ?_⟩
  rw [ran, if_pos present]
  exact control_reply kernel (keyOffset frame) 0 long short matched fresh _

end Single

/-- A request of the client is read in one iteration, which looks the key up in
its slot and nowhere else.  The reply path is taken for an entry with the hash of
the key, with the key as the first one kept; any other request is passed on. -/
theorem client_request_parsed (world : World) (cpu : Nat) (kernel : Kernel)
    {fuel : Nat} (enough : 1 ≤ fuel) (carries : CarriesGet key seq frame)
    (nonempty : 1 ≤ key.length) (short : key.length ≤ maxKeyLength)
    (isKey : ∀ byte ∈ key, isKeyByte byte = true) :
    ∃ slot : Slot, slot.val = (fnv1a key).toNat % cacheEntryCount ∧
      let result := (world.handle (.rx cpu frame kernel fuel)).1
      let final := (world.handle (.rx cpu frame kernel fuel)).2
      final.notes.count .iteration = 1 ∧
      (∀ other, .lookup other ∈ final.notes ↔ other = slot) ∧
      (.reply ∈ final.notes ↔
        (world.mapKcache slot).valid = 1 ∧
          (world.mapKcache slot).hash = fnv1a key) ∧
      (.reply ∈ final.notes →
        (final.cpu.mapKeys ⟨0, by decide⟩).len = key.length ∧
        (final.cpu.mapKeys ⟨0, by decide⟩).data.take key.length = key) ∧
      (.reply ∉ final.notes → result = .ok xdpPass ∧ final.dataSlice = frame ∧
        final.mapKcache = world.mapKcache) := by
  refine ⟨slotOf (fnv1a key), rfl, ?_⟩
  obtain ⟨fuel, rfl⟩ := Nat.exists_eq_add_of_le' enough
  have proper : key ≠ [] := List.length_pos_iff.mp nonempty
  have scanned := carries.scan_eq proper short isKey
  by_cases present : world.mapKcache.Matches key
  · obtain ⟨mapKeys, stored, held, control⟩ :=
      control_hit world cpu kernel fuel carries.isGet proper scanned present
    generalize world.handle (.rx cpu frame kernel (fuel + 1)) = ran at control
    have replied : .reply ∈ ran.2.notes := by
      rw [mem_notes_iff rfl, control]
      simp
    have keys : ran.2.cpu.mapKeys = mapKeys := congrArg Prod.snd control
    refine ⟨?_, ?_, iff_of_true replied present, ?_, fun none => absurd replied none⟩
    · rw [count_notes rfl, control]
      simp
    · intro other
      rw [mem_notes_iff rfl, control]
      simp
    · intro _
      rw [keys, held]
      exact ⟨rfl, MemcachedKey.data_hold _ _ short⟩
  · obtain ⟨counted, sameFrame, sameCache, fresh, ran⟩ :=
      handle_single world cpu kernel fuel carries.isGet proper scanned
    rw [if_neg present, run_pure] at ran
    rw [ran]
    simp only [State.notes_parsed, fresh, State.dataSlice_parsed,
      State.mapKcache_parsed]
    refine ⟨by simp, by simp, iff_of_false (by simp) present, by simp, ?_⟩
    exact fun _ => ⟨trivial, sameFrame, sameCache⟩

end Client

def clientFrame : Frame :=
  .between 17 headersLen 40000 memcachedPort (wrapGetCommand [107] 513)

theorem client_request_parsed_hit :
    ∃ world, Machine.exec step .zero
        [.tx 0 (responseFrame [107, 32, 48, 32, 49, 13, 10, 120, 13, 10]) 0] =
          some world ∧
      ∃ slot : Slot, slot.val = (fnv1a [107]).toNat % cacheEntryCount ∧
        let result := (world.handle (.rx 1 clientFrame willing 1)).1
        let final := (world.handle (.rx 1 clientFrame willing 1)).2
        final.notes.count .iteration = 1 ∧
        (∀ other, .lookup other ∈ final.notes ↔ other = slot) ∧
        (.reply ∈ final.notes ↔
          (world.mapKcache slot).valid = 1 ∧
            (world.mapKcache slot).hash = fnv1a [107]) ∧
        (.reply ∈ final.notes →
          (final.cpu.mapKeys ⟨0, by decide⟩).len = [107].length ∧
          (final.cpu.mapKeys ⟨0, by decide⟩).data.take [107].length = [107]) ∧
        (.reply ∉ final.notes → result = .ok xdpPass ∧
          final.dataSlice = clientFrame ∧ final.mapKcache = world.mapKcache) := by
  have carries : CarriesGet [107] 513 clientFrame :=
    ⟨by decide +kernel, by decide +kernel, by decide +kernel⟩
  obtain ⟨world, run⟩ : ∃ world, Machine.exec step .zero
      [.tx 0 (responseFrame [107, 32, 48, 32, 49, 13, 10, 120, 13, 10]) 0] =
        some world :=
    ⟨_, rfl⟩
  exact ⟨world, run, client_request_parsed world 1 willing le_rfl carries (by decide)
    (by decide) (List.all_eq_true.mp rfl)⟩

end Rex.Bmc
