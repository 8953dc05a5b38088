import Rex.Bmc.Rx

namespace Rex.Bmc

open Bytes Effect Program

/-! How `xdp_rx_filter` reads a request: what one iteration of the key loop
does, and what follows when the first key ends the request or does not. -/

def MapKcache.Matches (cache : MapKcache) (name : List UInt8) : Prop :=
  (cache (slotOf (fnv1a name))).valid = 1 ∧
    (cache (slotOf (fnv1a name))).hash = fnv1a name

instance (cache : MapKcache) (name : List UInt8) :
    Decidable (cache.Matches name) :=
  inferInstanceAs (Decidable (_ ∧ _))

/-- The key in the window and the byte after it; `none` is a window or a
delimiter out of range. -/
def scan (dataLength : Nat) (payload : List UInt8) (readPktOffset : UInt8) :
    Option (List UInt8 × UInt8) := do
  let window ← slice payload 0 (windowLen dataLength readPktOffset)
  let delimiter ← window[(window.takeWhile isKeyByte).length]?
  some (window.takeWhile isKeyByte, delimiter)

theorem scan_eq_some {dataLength : Nat} {payload name : List UInt8}
    {readPktOffset delimiter : UInt8}
    (scanned : scan dataLength payload readPktOffset = some (name, delimiter)) :
    Token isKeyByte payload name delimiter ∧ name.length ≤ maxKeyLength := by
  simp only [scan, slice, Option.bind_eq_bind, Option.bind_eq_some_iff,
    Option.ite_none_right_eq_some, Option.some.injEq, Prod.mk.injEq] at scanned
  obtain ⟨_, ⟨_, rfl⟩, byte, found, rfl, rfl⟩ := scanned
  rw [field, List.drop_zero] at found ⊢
  constructor
  · have token := (Token.of_takeWhile found).extend
      (payload.drop (windowLen dataLength readPktOffset - 0))
    rwa [List.take_append_drop] at token
  · obtain ⟨inWindow, _⟩ := List.getElem?_eq_some_iff.mp found
    have shorter : windowLen dataLength readPktOffset ≤ maxKeyLength + 1 :=
      min_le_left _ _
    rw [List.length_take] at inWindow
    omega

theorem scan_of_token {dataLength : Nat} {payload name : List UInt8}
    {readPktOffset delimiter : UInt8}
    (token : Token isKeyByte payload name delimiter)
    (reaches : name.length < windowLen dataLength readPktOffset)
    (inRange : windowLen dataLength readPktOffset ≤ payload.length) :
    scan dataLength payload readPktOffset = some (name, delimiter) := by
  have inWindow := token.take reaches
  simp only [scan, slice_eq_some (Nat.zero_le _) inRange, field, List.drop_zero,
    Nat.sub_zero, Option.bind_eq_bind, Option.bind_some, inWindow.takeWhile_eq,
    inWindow.getElem?_eq]

theorem delimiter_cases {payload name : List UInt8} {delimiter : UInt8}
    (token : Token isKeyByte payload name delimiter) :
    delimiter = carriageReturn ∨ delimiter = space := by
  have stops := token.stops
  simp only [isKeyByte, Bool.and_eq_false_iff, bne_eq_false_iff_eq] at stops
  exact stops

/-! One iteration. -/

theorem lookupEntry_eq (hash : UInt32) (code : Int32) :
    lookupEntry hash code =
      (note (.lookup (slotOf hash)) >>= fun _ => pure (slotOf hash)) := by
  unfold lookupEntry
  rw [bpfMapLookupElem_eq_some (Nat.mod_lt _ (by decide))]
  rfl

theorem run_scanKey {payload name : List UInt8} (keyRef : Fin maxKeyInPacket)
    {readPktOffset delimiter : UInt8} (state : State)
    (scanned : scan state.dataSlice.length payload readPktOffset =
      some (name, delimiter)) :
    (scanKey payload keyRef readPktOffset).run state =
      (.ok (name, delimiter), state.setKey keyRef
        { state.cpu.mapKeys keyRef with hash := fnv1a name }) := by
  simp only [scan, Option.bind_eq_bind, Option.bind_eq_some_iff,
    Option.some.injEq, Prod.mk.injEq] at scanned
  obtain ⟨window, sliced, _, found, rfl, rfl⟩ := scanned
  simp only [scanKey, run_get_bind, setKey, run_modify_bind, sliceOf, sliced,
    demand_some, run_pure_bind, found, run_pure,
    State.setKey_setKey]

theorem run_scanKey_panic {payload : List UInt8} (keyRef : Fin maxKeyInPacket)
    {readPktOffset : UInt8} (state : State)
    (scanned : scan state.dataSlice.length payload readPktOffset = none) :
    ∃ key, (scanKey payload keyRef readPktOffset).run state =
      (.error (.panic .slice), state.setKey keyRef key) := by
  simp only [scanKey, run_get_bind, setKey, run_modify_bind, sliceOf]
  cases sliced : slice payload 0 (windowLen state.dataSlice.length readPktOffset) with
  | none => exact ⟨_, rfl⟩
  | some window =>
      simp only [scan, sliced, Option.bind_eq_bind, Option.bind_some,
        Option.bind_eq_none_iff, reduceCtorEq, imp_false] at scanned
      have missing : window[(window.takeWhile isKeyByte).length]? = none :=
        Option.eq_none_iff_forall_not_mem.mpr fun byte => scanned byte
      simp only [demand_some, run_pure_bind, missing, run_modify_bind,
        demand_none, run_halt_bind, State.setKey_setKey]
      exact ⟨_, rfl⟩

def State.probed (state : State) (name : List UInt8)
    (keyRef : Fin maxKeyInPacket) (stats : Fin 1) : State :=
  let slot := slotOf (fnv1a name)
  let looked :=
    ((state.note (.lookup slot)).note (.lock slot)).note (.unlock slot)
  if state.mapKcache.Matches name then
    looked.setKey keyRef ((state.cpu.mapKeys keyRef).hold (fnv1a name) name)
  else
    looked.bump stats fun stats => { stats with missCount := stats.missCount + 1 }

theorem run_probe (name : List UInt8) (keyRef : Fin maxKeyInPacket)
    (stats : Fin 1) (keyCount : Nat) (state : State) :
    (probe name keyRef stats keyCount).run state =
      (.ok (if state.mapKcache.Matches name then keyCount + 1 else keyCount),
        state.probed name keyRef stats) := by
  simp only [probe, lookupEntry_eq, run_bind, note, run_modify, run_pure, run_get,
    guarded, run_bracket]
  by_cases present : state.mapKcache.Matches name
  · have found := present
    simp only [MapKcache.Matches] at found
    simp [present, found, State.probed, State.note, setKey, run_bind]
  · have missing := present
    simp only [MapKcache.Matches] at missing
    simp [present, missing, State.probed, State.note, bump, run_bind]

def State.parsed (state : State) (name : List UInt8)
    (keyRef : Fin maxKeyInPacket) (stats : Fin 1) : State :=
  ((state.note .iteration).setKey keyRef
    { state.cpu.mapKeys keyRef with hash := fnv1a name }).probed name keyRef stats

section Parsed

variable (state : State) (name : List UInt8) (keyRef : Fin maxKeyInPacket)
  (stats : Fin 1)

@[simp] theorem State.dataSlice_parsed :
    (state.parsed name keyRef stats).dataSlice = state.dataSlice := by
  simp only [State.parsed, State.probed]
  split <;> rfl

@[simp] theorem State.mapKcache_parsed :
    (state.parsed name keyRef stats).mapKcache = state.mapKcache := by
  simp only [State.parsed, State.probed]
  split <;> rfl

@[simp] theorem State.notes_parsed :
    (state.parsed name keyRef stats).notes = state.notes ++
      [.iteration, .lookup (slotOf (fnv1a name)), .lock (slotOf (fnv1a name)),
        .unlock (slotOf (fnv1a name))] := by
  simp only [State.parsed, State.probed]
  split <;> simp

theorem State.mapKeys_parsed (present : state.mapKcache.Matches name) :
    (state.parsed name keyRef stats).cpu.mapKeys keyRef =
      (state.cpu.mapKeys keyRef).hold (fnv1a name) name := by
  simp only [State.parsed, State.probed, State.mapKcache_setKey,
    State.mapKcache_note, if_pos present, State.mapKeys_setKey_self]
  rfl

end Parsed

section Iteration

variable (kernel : Kernel) {payload name : List UInt8} (payloadIndex : Nat)
  (stats : Fin 1) (fuel : Nat) {pctx : ParsingContext} {state : State}
  {delimiter : UInt8}

theorem run_keyLoop_full (full : maxKeyInPacket ≤ pctx.keyCount) :
    (keyLoop kernel payload payloadIndex stats (fuel + 1) pctx).run state =
      (.error (.err 0), state.note .iteration) := by
  have absent : bpfMapLookupElem maxKeyInPacket pctx.keyCount = none :=
    dif_neg (by omega)
  simp only [keyLoop, note, run_modify_bind, lookupKey, absent, demand_none,
    run_halt_bind]

theorem run_keyLoop_panic (room : pctx.keyCount < maxKeyInPacket)
    (scanned : scan state.dataSlice.length payload pctx.readPktOffset = none) :
    ∃ key, (keyLoop kernel payload payloadIndex stats (fuel + 1) pctx).run state =
      (.error (.panic .slice),
        (state.note .iteration).setKey ⟨pctx.keyCount, room⟩ key) := by
  obtain ⟨key, ran⟩ := run_scanKey_panic ⟨pctx.keyCount, room⟩
    (state.note .iteration) scanned
  refine ⟨key, ?_⟩
  simp only [keyLoop, note, run_modify_bind, lookupKey,
    bpfMapLookupElem_eq_some room, demand_some, run_pure_bind]
  rw [run_bind, ran]

theorem run_keyLoop_empty (room : pctx.keyCount < maxKeyInPacket)
    (scanned : scan state.dataSlice.length payload pctx.readPktOffset =
      some ([], delimiter)) :
    ∃ key, (keyLoop kernel payload payloadIndex stats (fuel + 1) pctx).run state =
      (.ok xdpPass, (state.note .iteration).setKey ⟨pctx.keyCount, room⟩ key) := by
  have ran := run_scanKey ⟨pctx.keyCount, room⟩ (state.note .iteration) scanned
  refine ⟨{ state.cpu.mapKeys ⟨pctx.keyCount, room⟩ with hash := fnv1a [] }, ?_⟩
  simp only [keyLoop, note, run_modify_bind, lookupKey,
    bpfMapLookupElem_eq_some room, demand_some, run_pure_bind]
  rw [run_bind, ran]
  rfl

theorem run_keyLoop_name (room : pctx.keyCount < maxKeyInPacket)
    (scanned : scan state.dataSlice.length payload pctx.readPktOffset =
      some (name, delimiter)) (nonempty : name ≠ []) :
    (keyLoop kernel payload payloadIndex stats (fuel + 1) pctx).run state =
      (let keyCount :=
          if state.mapKcache.Matches name then pctx.keyCount + 1 else pctx.keyCount
        if delimiter = carriageReturn then
          if 0 < keyCount then do
            swapHeaders
            writePktReply kernel payloadIndex { pctx with keyCount } stats
          else
            pure xdpPass
        else
          keyLoop kernel payload payloadIndex stats fuel
            { pctx with
              keyCount
              readPktOffset :=
                pctx.readPktOffset + (UInt8.ofNat name.length + 1) }).run
        (state.parsed name ⟨pctx.keyCount, room⟩ stats) := by
  have ran := run_scanKey ⟨pctx.keyCount, room⟩ (state.note .iteration) scanned
  have short := (scan_eq_some scanned).2
  have proper : ¬ (name.length = 0 ∨ maxKeyLength < name.length) := by
    rw [not_or, List.length_eq_zero_iff]
    exact ⟨nonempty, by omega⟩
  simp only [keyLoop, note, run_modify_bind, lookupKey,
    bpfMapLookupElem_eq_some room, demand_some, run_pure_bind]
  rw [run_bind, ran]
  simp only [if_neg proper]
  rw [run_bind, run_probe]
  rfl

end Iteration

/-! A request with more than one key never gets past its first key. -/

def Note.quiet : Note → Bool
  | .reply => false
  | .copied _ _ => false
  | _ => true

/-- A run that leaves the frame alone and replies nothing. -/
structure Idle (state : State) (final : State) : Prop where
  frame : final.dataSlice = state.dataSlice
  quiet : ∃ later, final.notes = state.notes ++ later ∧ later.all Note.quiet

theorem Idle.trans {first second third : State} (before : Idle first second)
    (after : Idle second third) : Idle first third := by
  obtain ⟨earlier, noted, quiet⟩ := before.quiet
  obtain ⟨later, noted', quiet'⟩ := after.quiet
  refine ⟨after.frame.trans before.frame, earlier ++ later, ?_, ?_⟩
  · rw [noted', noted, List.append_assoc]
  · rw [List.all_append, quiet, quiet', Bool.and_self]

theorem idle_parsed (state : State) (name : List UInt8)
    (keyRef : Fin maxKeyInPacket) (stats : Fin 1) :
    Idle state (state.parsed name keyRef stats) :=
  ⟨state.dataSlice_parsed .., _, state.notes_parsed .., rfl⟩

theorem keyLoop_spins (kernel : Kernel) {payload name : List UInt8}
    (payloadIndex : Nat) (stats : Fin 1) (fuel : Nat)
    (token : Token isKeyByte payload name space) (nonempty : name ≠ [])
    (pctx : ParsingContext) (state : State) :
    let ran := (keyLoop kernel payload payloadIndex stats fuel pctx).run state
    Idle state ran.2 ∧ (verdict ran.1 = none ∨ ran.1 = .error (.err 0)) ∧
      (¬ state.mapKcache.Matches name → pctx.keyCount < maxKeyInPacket →
        verdict ran.1 = none) := by
  induction fuel generalizing pctx state with
  | zero => exact ⟨⟨rfl, [], by simp [keyLoop], rfl⟩, .inl rfl, fun _ _ => rfl⟩
  | succ fuel induction =>
      by_cases room : pctx.keyCount < maxKeyInPacket
      · cases scanned : scan state.dataSlice.length payload pctx.readPktOffset with
        | none =>
            obtain ⟨key, ran⟩ := run_keyLoop_panic kernel payloadIndex stats fuel
              room scanned
            simp only [ran]
            exact ⟨⟨rfl, _, rfl, rfl⟩, .inl rfl, fun _ _ => rfl⟩
        | some found =>
            obtain ⟨other, stopper⟩ := found
            obtain ⟨rfl, rfl⟩ := token.unique (scan_eq_some scanned).1
            rw [run_keyLoop_name _ _ _ _ room scanned nonempty]
            simp only [if_neg (show space ≠ carriageReturn by decide)]
            obtain ⟨idle, ended, missed⟩ := induction
              { pctx with
                keyCount := if state.mapKcache.Matches other then
                  pctx.keyCount + 1 else pctx.keyCount
                readPktOffset :=
                  pctx.readPktOffset + (UInt8.ofNat other.length + 1) }
              (state.parsed other ⟨pctx.keyCount, room⟩ stats)
            refine ⟨(idle_parsed ..).trans idle, ended, ?_⟩
            intro absent _
            apply missed
            · simpa using absent
            · simpa only [if_neg absent] using room
      · rw [run_keyLoop_full _ _ _ _ (by omega)]
        exact ⟨⟨rfl, _, rfl, rfl⟩, .inr rfl, fun _ below => absurd below room⟩

end Rex.Bmc
