import Rex.Bmc.Locks

namespace Rex.Bmc

open Bytes Effect Program Rex.Frame Machine

/-! What every stage finds in the memory of its CPU, and what a reply makes of
it. -/

/-! What a reply copies. -/

/-- The key that a CPU keeps for its reply. -/
structure Held (cpu : PerCpu) (name : List UInt8) : Prop where
  hash : (cpu.mapKeys ⟨0, by decide⟩).hash = fnv1a name
  len : (cpu.mapKeys ⟨0, by decide⟩).len = name.length
  data : (cpu.mapKeys ⟨0, by decide⟩).data.take name.length = name

theorem Held.of_hold {cpu : PerCpu} {key : MemcachedKey} {name : List UInt8}
    (held : cpu.mapKeys ⟨0, by decide⟩ = key.hold (fnv1a name) name)
    (short : name.length ≤ maxKeyLength) : Held cpu name := by
  refine ⟨?_, ?_, ?_⟩
  · rw [held]
    rfl
  · rw [held]
    rfl
  · rw [held]
    exact key.data_hold _ short

/-- The entry of a slot is valid and holds the key, by hash and byte by byte. -/
def MapKcache.Holds (cache : MapKcache) (name : List UInt8) : Prop :=
  cache.Matches name ∧ (cache (slotOf (fnv1a name))).Verifies name

instance (cache : MapKcache) (name : List UInt8) : Decidable (cache.Holds name) :=
  inferInstanceAs (Decidable (_ ∧ _))

theorem verifyKey_cases {name : List UInt8} {key : MemcachedKey} (hash : key.hash = fnv1a name)
    (len : key.len = name.length) (data : key.data.take name.length = name)
    (stats : Fin 1) (state : State) :
    (state.mapKcache.Holds name ∧
      (verifyKey (slotOf (fnv1a name)) key stats).run state = (.ok true, state)) ∨
    (¬ state.mapKcache.Holds name ∧ ∃ final,
      (verifyKey (slotOf (fnv1a name)) key stats).run state = (.ok false, final) ∧
        final.dataSlice = state.dataSlice) := by
  set entry := state.mapKcache (slotOf (fnv1a name)) with entryEq
  have limit : maxKeyLength = 230 := rfl
  have size : maxPacketLength = 1500 := rfl
  rw [verifyKey, run_get_bind]
  simp only [run_ite, hash, len, ← entryEq]
  split
  · rename_i present
    split
    · refine .inr ⟨fun holds => ?_, state, rfl, rfl⟩
      have := holds.2.1
      omega
    · have inData : 6 + name.length ≤ entry.data.length := by
        rw [entry.sized]
        omega
      have width := length_field inData
      have shorter : (field entry.data 6 name.length).length ≤ key.data.length := by
        rw [width, key.sized]
        omega
      have same := all_zip_eq_iff shorter
      rw [width, data] at same
      rw [sliceOf, slice_eq_some (by omega) inData, Nat.add_sub_cancel_left, demand_some,
        run_pure_bind, run_ite]
      split
      · rename_i equal
        exact .inl ⟨⟨present, by omega, (same.mp equal).symm⟩, rfl⟩
      · rename_i differs
        refine .inr ⟨fun holds => differs (same.mpr holds.2.2.symm), _, rfl, rfl⟩
  · rename_i absent
    exact .inr ⟨fun holds => absent holds.1, state, rfl, rfl⟩

def replyLocked (kernel : Kernel) (payloadIndex : Nat) (slot : Slot)
    (key : MemcachedKey) (stats : Fin 1) : Program Int32 := do
  let cacheHit ← verifyKey slot key stats
  if cacheHit then
    copyCacheData kernel payloadIndex slot
  else do
    bump stats fun stats => { stats with missCount := stats.missCount + 1 }
    pure xdpTx

theorem run_writePktReply_locked (kernel : Kernel) (payloadIndex : Nat)
    {pctx : ParsingContext} (stats : Fin 1) (state : State)
    (first : pctx.currentKey = 0) {key : MemcachedKey}
    (held : state.cpu.mapKeys ⟨0, by decide⟩ = key) :
    (writePktReply kernel payloadIndex pctx stats).run state =
      (guarded (slotOf key.hash)
        (replyLocked kernel payloadIndex (slotOf key.hash) key stats)).run
        ((state.note .reply).note (.lookup (slotOf key.hash))) := by
  have lookup : bpfMapLookupElem maxKeyInPacket 0 = some ⟨0, by decide⟩ :=
    bpfMapLookupElem_eq_some _
  simp only [writePktReply, note, run_modify_bind, lookupKey, first, lookup,
    demand_some, run_pure_bind, run_get_bind, State.mapKeys_note, held, lookupEntry_eq,
    bind_bind]
  rfl

def Kernel.refusal (kernel : Kernel) : Except Stop Int32 :=
  match kernel.printk with
  | .error code => .error (.err code)
  | .ok () => .ok xdpDrop

section Reply

variable {kernel : Kernel} {payloadIndex : Nat} {pctx : ParsingContext} {stats : Fin 1}
  {state : State} {name : List UInt8}

theorem writePktReply_cases (first : pctx.currentKey = 0) (held : Held state.cpu name) :
    let slot := slotOf (fnv1a name)
    let ran := (writePktReply kernel payloadIndex pctx stats).run state
    let locked := ((state.note .reply).note (.lookup slot)).note (.lock slot)
    (state.mapKcache.Holds name ∧
      ran.1 = ((copyCacheData kernel payloadIndex slot).run locked).1 ∧
      ran.2 = ((copyCacheData kernel payloadIndex slot).run locked).2.note
        (.unlock slot)) ∨
    (¬ state.mapKcache.Holds name ∧ ran.1 = .ok xdpTx ∧
      ran.2.dataSlice = state.dataSlice ∧ Silent state ran.2) := by
  intro slot ran locked
  obtain ⟨hash, len, data⟩ := held
  have ranEq : ran = (guarded slot (replyLocked kernel payloadIndex slot
      (state.cpu.mapKeys ⟨0, by decide⟩) stats)).run
        ((state.note .reply).note (.lookup slot)) := by
    have shape := run_writePktReply_locked kernel payloadIndex stats state first rfl
    rwa [hash] at shape
  rw [guarded, run_bracket, replyLocked, run_bind] at ranEq
  rcases verifyKey_cases hash len data stats locked with
    ⟨holds, verified⟩ | ⟨absent, final, missed, frame⟩
  · rw [verified] at ranEq
    refine .inl ⟨holds, ?_, ?_⟩
    · rw [ranEq]
      rfl
    · rw [ranEq]
      rfl
  · have quiet := keepsNotes_verifyKey slot (state.cpu.mapKeys ⟨0, by decide⟩) stats
      locked
    rw [missed] at ranEq quiet
    refine .inr ⟨absent, ?_, ?_, ?_⟩
    · rw [ranEq]
      rfl
    · rw [ranEq]
      exact frame
    · rw [ranEq]
      refine ⟨[.reply, .lookup slot, .lock slot, .unlock slot], ?_, by simp⟩
      show final.notes ++ [.unlock slot] = _
      rw [quiet]
      simp [locked]

theorem writePktReply_copied {slot : Slot} {record : List UInt8}
    (first : pctx.currentKey = 0) (held : Held state.cpu name)
    (before : .copied slot record ∉ state.notes)
    (copied : .copied slot record ∈
      ((writePktReply kernel payloadIndex pctx stats).run state).2.notes) :
    slot = slotOf (fnv1a name) ∧ state.mapKcache.Holds name ∧
      record = (state.mapKcache slot).record := by
  have cases : _ ∨ _ := @writePktReply_cases kernel payloadIndex pctx stats state name
    first held
  rcases cases with ⟨holds, _, final⟩ | ⟨_, _, _, later, noted, none⟩
  · obtain ⟨later, noted, all⟩ := copyCacheData_notes kernel payloadIndex
      (slotOf (fnv1a name)) (((state.note .reply).note
        (.lookup (slotOf (fnv1a name)))).note (.lock (slotOf (fnv1a name))))
    rw [final, State.notes_note, noted] at copied
    simp only [State.notes_note, List.mem_append, List.mem_singleton, reduceCtorEq,
      or_false, before, false_or] at copied
    obtain ⟨rfl, rfl⟩ := Note.copied.inj (all _ copied)
    exact ⟨rfl, holds, rfl⟩
  · rw [noted] at copied
    exact absurd copied fun member =>
      (List.mem_append.mp member).elim before (none slot record)

theorem run_copyCacheData_refused {slot : Slot} (refused : kernel.refusesTail = true) :
    ((copyCacheData kernel payloadIndex slot).run state).1 = kernel.refusal ∧
      ((copyCacheData kernel payloadIndex slot).run state).2.dataSlice =
        state.dataSlice := by
  have none : ∀ offset, state.dataSlice.adjustTail true kernel.fill offset =
      none := fun offset => if_pos (.inl rfl)
  simp only [copyCacheData, lookupStats, bpfMapLookupElem_eq_some Nat.one_pos,
    demand_some, run_pure_bind, bump, run_modify_bind, run_get_bind,
    State.dataSlice_bump, refused, none, Kernel.refusal]
  cases kernel.printk with
  | ok printed => exact ⟨rfl, rfl⟩
  | error code => exact ⟨rfl, rfl⟩

/-- How a reply ends and what it makes of the frame: the whole record, or nothing
when the kernel has no room for it or the entry no longer holds the key. -/
theorem writePktReply_frame (first : pctx.currentKey = 0) (held : Held state.cpu name)
    (inPayload : headersLen + 4 ≤ payloadIndex)
    (fits : (state.mapKcache (slotOf (fnv1a name))).len ≤ maxPacketLength) :
    let ran := (writePktReply kernel payloadIndex pctx stats).run state
    if state.mapKcache.Holds name then
      if kernel.refusesTail then
        ran.1 = kernel.refusal ∧ ran.2.dataSlice = state.dataSlice
      else
        ran.1 = .ok xdpTx ∧ ran.2.dataSlice.drop (payloadIndex - 4) =
          (state.mapKcache (slotOf (fnv1a name))).record ++ endOfReply
    else
      ran.1 = .ok xdpTx ∧ ran.2.dataSlice = state.dataSlice := by
  intro ran
  have cases : _ ∨ _ := @writePktReply_cases kernel payloadIndex pctx stats state name
    first held
  rcases cases with ⟨holds, result, final⟩ | ⟨absent, result, frame, _⟩
  · set locked := ((state.note .reply).note (.lookup (slotOf (fnv1a name)))).note
      (.lock (slotOf (fnv1a name)))
    have fitsLocked : (locked.mapKcache (slotOf (fnv1a name))).len ≤ maxPacketLength :=
      fits
    rw [if_pos holds, result, final]
    split
    · rename_i refused
      exact run_copyCacheData_refused refused
    · rename_i accepted
      obtain ⟨sent, _, ran, carried, _⟩ := run_copyCacheData kernel
        (Bool.eq_false_of_not_eq_true accepted) inPayload fitsLocked
      rw [ran]
      exact ⟨rfl, carried⟩
  · rw [if_neg absent]
    exact ⟨result, frame⟩

end Reply

/-! What a stage finds in the memory of its CPU. -/

/-- The payload of the frame is a GET whose keys start at an offset. -/
structure KeysAt (frame : Frame) (payloadIndex : Nat) : Prop where
  get : getCommand <+: frame.drop udpHeaderLen
  start : payloadIndex = keyOffset frame

theorem KeysAt.of_headerEdit {frame edited : Frame} {payloadIndex : Nat}
    (keys : KeysAt frame payloadIndex) (edit : HeaderEdit frame edited) :
    KeysAt edited payloadIndex := by
  have same := edit.drop (by decide : headersLen ≤ udpHeaderLen)
  refine ⟨same ▸ keys.get, ?_⟩
  rw [keyOffset, same]
  exact keys.start

theorem KeysAt.beyond {frame : Frame} {payloadIndex : Nat}
    (keys : KeysAt frame payloadIndex) : headersLen + 4 ≤ payloadIndex := by
  have header : headersLen + 4 ≤ udpHeaderLen := by decide
  rw [keys.start, keyOffset]
  omega

/-- The frame is the last one that the CPU was given, with exchanged addresses once
it is being replied to. -/
def Stage.Ready (jobs : List Job) : Stage → Core → Prop
  | .check _ _, _ | .clear _ _, _ => True
  | .rx kernel, core => jobs.getLast? = some (.rx core.dataSlice kernel)
  | .tx pagedLen, core => jobs.getLast? = some (.tx core.dataSlice pagedLen)
  | .scan kernel payload payloadIndex _ pctx, core =>
      jobs.getLast? = some (.rx core.dataSlice kernel) ∧
        headersLen ≤ core.dataSlice.length ∧ KeysAt core.dataSlice payloadIndex ∧
        payload = core.dataSlice.drop payloadIndex ∧ pctx.currentKey = 0 ∧
        -- a turn after the first one reads the same key again
        (pctx.keyCount = 0 ∨ ∃ name, Token isKeyByte payload name space)
  | .reply kernel payloadIndex pctx _, core =>
      KeysAt core.dataSlice payloadIndex ∧ pctx.currentKey = 0 ∧
        (∃ request, jobs.getLast? = some (.rx request kernel) ∧
          headersLen ≤ request.length ∧ core.dataSlice = swapped request) ∧
        ∃ name, Token isKeyByte (core.dataSlice.drop payloadIndex) name carriageReturn ∧
          Held core.cpu name
  | .update skbLen payload _, core =>
      IsResponse core.dataSlice ∧ payload = core.dataSlice.drop udpHeaderLen ∧
        ∃ pagedLen, jobs.getLast? = some (.tx core.dataSlice pagedLen) ∧
          skbLen = core.dataSlice.length + pagedLen

section Ready

variable {jobs : List Job}

theorem advance_eq_some {stage next : Stage} {cache between : MapKcache}
    {core held : Core}
    (went : cut.advance stage cache core = (some next, between, held)) :
    ∃ state, stage.run.run (core.state cache) = (.ok (.inl next), state) ∧
      held = .of state none := by
  change Stage.advance stage cache core = _ at went
  rw [Stage.advance] at went
  split at went
  · rename_i onward state ended
    obtain ⟨same, held⟩ := Prod.mk.inj went
    obtain rfl := Option.some.inj same
    exact ⟨state, ended, (Prod.mk.inj held).2.symm⟩
  · cases (Prod.mk.inj went).1
  · cases (Prod.mk.inj went).1

theorem shared_advance (stage : Stage) (cache : MapKcache) (core : Core) :
    (cut.advance stage cache core).2.1 =
      (stage.run.run (core.state cache)).2.mapKcache := by
  show (Stage.advance stage cache core).2.1 = _
  rw [Stage.advance]
  split
  all_goals
    rename_i ended
    rw [ended]

theorem ready_nextRequest {rest : List (List UInt8)} {next : Stage} (core : Core)
    (onward : nextRequest rest = .inl next) : next.Ready jobs core := by
  cases rest with
  | nil => cases onward
  | cons request rest =>
      obtain rfl := Sum.inl.inj onward
      trivial

theorem slice_drop {cells found : List UInt8} {start : Nat}
    (sliced : slice cells start cells.length = some found) :
    found = cells.drop start := by
  rw [slice_some sliced, field, List.take_of_length_le]
  rw [List.length_drop]

theorem runRx_ready {kernel : Kernel} {state middle : State} {next : Stage}
    (ready : (Stage.rx kernel).Ready jobs (.of state none))
    (went : (Stage.runRx kernel).run state = (.ok (.inl next), middle)) :
    next.Ready jobs (.of middle none) := by
  obtain ⟨_, _, viewed, went⟩ := run_bind_eq_ok.mp went
  obtain ⟨_, rfl⟩ := editHeader_eq_ok viewed
  rw [run_get_bind] at went
  simp only [run_ite] at went
  split at went
  · obtain ⟨_, _, _, went⟩ := run_bind_eq_ok.mp went
    rw [run_get_bind] at went
    obtain ⟨_, _, _, went⟩ := run_bind_eq_ok.mp went
    rw [run_ite] at went
    split at went
    · cases (Prod.mk.inj went).1
    · exact ready_nextRequest _ (Except.ok.inj (Prod.mk.inj went).1)
  · split at went
    · obtain ⟨_, _, viewed, went⟩ := run_bind_eq_ok.mp went
      obtain ⟨long, rfl⟩ := editHeader_eq_ok viewed
      obtain ⟨payload, _, sliced, went⟩ := run_bind_eq_ok.mp went
      obtain ⟨found, rfl⟩ := run_demand_eq_ok sliced
      have whole := slice_drop found
      simp only [run_ite] at went
      split at went
      · cases (Prod.mk.inj went).1
      split at went
      · cases (Prod.mk.inj went).1
      rename_i command
      rw [Bool.not_eq_false, List.isPrefixOf_iff_prefix, whole] at command
      simp only [lookupStats, bpfMapLookupElem_eq_some Nat.one_pos, demand_some,
        run_pure_bind, Program.bump, run_modify_bind, run_get_bind] at went
      obtain ⟨keys, _, sliced, went⟩ := run_bind_eq_ok.mp went
      obtain ⟨found, rfl⟩ := run_demand_eq_ok sliced
      obtain ⟨onward, rfl⟩ := Prod.mk.inj went
      obtain rfl := Sum.inl.inj (Except.ok.inj onward)
      refine ⟨ready, long, ⟨command, ?_⟩, slice_drop found, rfl, .inl rfl⟩
      rw [whole]
      rfl
    · cases (Prod.mk.inj went).1

theorem runScan_onward {kernel : Kernel} {payload : List UInt8} {payloadIndex : Nat}
    {stats : Fin 1} {pctx : ParsingContext} {state middle : State} {next : Stage}
    (went : (Stage.runScan kernel payload payloadIndex stats pctx).run state =
      (.ok (.inl next), middle)) :
    ∃ name delimiter keyRef, Token isKeyByte payload name delimiter ∧
      name.length ≤ maxKeyLength ∧ keyRef.val = pctx.keyCount ∧
      (if delimiter = carriageReturn then
        0 < (if state.mapKcache.Matches name then pctx.keyCount + 1
          else pctx.keyCount) ∧
          swapHeaders.run (state.parsed name keyRef stats) = (.ok (), middle) ∧
          ∃ keyCount, next = .reply kernel payloadIndex { pctx with keyCount } stats
      else
        middle = state.parsed name keyRef stats ∧
          ∃ keyCount readPktOffset, next = .scan kernel payload payloadIndex stats
            ⟨keyCount, pctx.currentKey, readPktOffset⟩) := by
  rw [Stage.runScan, note, run_modify_bind] at went
  obtain ⟨keyRef, _, looked, went⟩ := run_bind_eq_ok.mp went
  obtain ⟨found, rfl⟩ := run_demand_eq_ok looked
  obtain ⟨⟨name, delimiter⟩, _, read, went⟩ := run_bind_eq_ok.mp went
  cases scanned : scan (state.note .iteration).dataSlice.length payload
      pctx.readPktOffset with
  | none =>
      obtain ⟨key, ran⟩ := run_scanKey_panic keyRef (state.note .iteration) scanned
      rw [ran] at read
      cases (Prod.mk.inj read).1
  | some pair =>
      obtain ⟨first, second⟩ := pair
      rw [run_scanKey keyRef (state.note .iteration) scanned] at read
      obtain ⟨same, rfl⟩ := Prod.mk.inj read
      obtain ⟨rfl, rfl⟩ := Prod.mk.inj (Except.ok.inj same)
      obtain ⟨token, short⟩ := scan_eq_some scanned
      refine ⟨first, second, keyRef, token, short, ?_, ?_⟩
      · rcases Nat.lt_or_ge pctx.keyCount maxKeyInPacket with room | full
        · rw [bpfMapLookupElem_eq_some room, Option.some.injEq] at found
          exact found ▸ rfl
        · rw [bpfMapLookupElem, dif_neg (by omega)] at found
          cases found
      · simp only [run_ite] at went
        split at went
        · cases (Prod.mk.inj went).1
        obtain ⟨keyCount, _, probed, went⟩ := run_bind_eq_ok.mp went
        rw [run_probe] at probed
        obtain ⟨counted, rfl⟩ := Prod.mk.inj probed
        simp only [run_ite] at went
        split at went
        · rename_i last
          rw [if_pos last]
          split at went
          · rename_i some
            obtain ⟨_, _, swapped, went⟩ := run_bind_eq_ok.mp went
            obtain ⟨onward, rfl⟩ := Prod.mk.inj went
            refine ⟨?_, swapped, _, (Sum.inl.inj (Except.ok.inj onward)).symm⟩
            exact (Except.ok.inj counted).symm ▸ some
          · cases (Prod.mk.inj went).1
        · rename_i more
          rw [if_neg more]
          obtain ⟨onward, rfl⟩ := Prod.mk.inj went
          exact ⟨rfl, _, _, (Sum.inl.inj (Except.ok.inj onward)).symm⟩

theorem runScan_ready {kernel : Kernel} {payload : List UInt8} {payloadIndex : Nat}
    {stats : Fin 1} {pctx : ParsingContext} {state middle : State} {next : Stage}
    (ready : (Stage.scan kernel payload payloadIndex stats pctx).Ready jobs
      (.of state none))
    (went : (Stage.runScan kernel payload payloadIndex stats pctx).run state =
      (.ok (.inl next), middle)) :
    next.Ready jobs (.of middle none) := by
  obtain ⟨given, long, keys, shape, first, earlier⟩ := ready
  change headersLen ≤ state.dataSlice.length at long
  obtain ⟨name, delimiter, keyRef, token, short, idx, onward⟩ := runScan_onward went
  have frame : (state.parsed name keyRef stats).dataSlice = state.dataSlice :=
    state.dataSlice_parsed ..
  split at onward
  · rename_i last
    subst last
    obtain ⟨kept, swapped, keyCount, rfl⟩ := onward
    rw [run_swapHeaders (frame ▸ long)] at swapped
    obtain rfl := (Prod.mk.inj swapped).2
    -- a turn before this one would have found a key with a space behind it
    have only : pctx.keyCount = 0 := by
      refine earlier.resolve_right ?_
      rintro ⟨other, spaced⟩
      exact absurd (spaced.unique token).2 (by decide)
    have present : state.mapKcache.Matches name := by
      by_contra absent
      rw [only, if_neg absent] at kept
      exact absurd kept (lt_irrefl 0)
    obtain rfl : keyRef = ⟨0, by decide⟩ := Fin.ext (idx.trans only)
    have beyond := keys.beyond
    have edit : HeaderEdit state.dataSlice
        (Bmc.swapped (state.parsed name ⟨0, by decide⟩ stats).dataSlice) := by
      rw [frame]
      exact headerEdit_swapped long
    refine ⟨keys.of_headerEdit edit, first,
      ⟨state.dataSlice, given, long, congrArg Bmc.swapped frame⟩, name, ?_, ?_⟩
    · show Token isKeyByte ((Bmc.swapped _).drop payloadIndex) name carriageReturn
      rw [edit.drop (by omega)]
      exact shape ▸ token
    · exact Held.of_hold (state.mapKeys_parsed name _ stats present) short
  · obtain ⟨rfl, keyCount, readPktOffset, rfl⟩ := onward
    rename_i more
    obtain rfl := (delimiter_cases token).resolve_left more
    rw [Stage.Ready, show (Core.of (state.parsed name keyRef stats) none).dataSlice =
      state.dataSlice from frame]
    exact ⟨given, long, keys, shape, first, .inr ⟨name, token⟩⟩

theorem runCheck_ready {request : List UInt8} {rest : List (List UInt8)}
    {state middle : State} {next : Stage}
    (went : (Stage.runCheck request rest).run state = (.ok (.inl next), middle)) :
    next.Ready jobs (.of middle none) := by
  simp only [Stage.runCheck, lookupStats, bpfMapLookupElem_eq_some Nat.one_pos,
    demand_some, lookupEntry_eq, bind_bind, run_pure_bind, bump, note,
    run_modify_bind, run_get_bind, run_ite] at went
  split at went
  · obtain rfl := Sum.inl.inj (Except.ok.inj (Prod.mk.inj went).1)
    trivial
  · exact ready_nextRequest _ (Except.ok.inj (Prod.mk.inj went).1)

theorem advance_ready {stage next : Stage} {cache : MapKcache} {core : Core}
    (ready : stage.Ready jobs core)
    (went : (cut.advance stage cache core).1 = some next) :
    next.Ready jobs (cut.advance stage cache core).2.2 := by
  obtain ⟨middle, ran, held⟩ := advance_eq_some (Prod.ext went rfl)
  rw [held]
  cases stage with
  | rx kernel => exact runRx_ready ready ran
  | scan kernel payload payloadIndex stats pctx => exact runScan_ready ready ran
  | check request rest => exact runCheck_ready ran
  | clear slot rest => exact ready_nextRequest _ (Except.ok.inj (Prod.mk.inj ran).1)
  | tx pagedLen =>
      obtain ⟨response, frame, stats, rfl⟩ := runTx_onward ran
      have given : jobs.getLast? = some (.tx middle.dataSlice pagedLen) := by
        rw [frame]
        exact ready
      rw [← frame] at response
      exact ⟨response, congrArg _ frame.symm, pagedLen, given,
        congrArg (·.length + pagedLen) frame.symm⟩
  | reply kernel payloadIndex pctx stats =>
      obtain ⟨_, _, _, ended⟩ := run_bind_eq_ok.mp ran
      cases (Prod.mk.inj ended).1
  | update skbLen payload stats =>
      obtain ⟨_, _, _, ended⟩ := run_bind_eq_ok.mp ran
      cases (Prod.mk.inj ended).1

end Ready

/-- In every interleaving, every stage finds what the one before it left. -/
theorem reachable_ready {schedule : List Move} {host : Host}
    (run : exec move .zero schedule = some host) {cpu : Nat} {stage : Stage}
    (busy : host.stage cpu = some stage) :
    stage.Ready (Interleaving.jobsOn cpu schedule) (host.memory cpu) := by
  have own := @Interleaving.exec_history _ _ _ _ cut Host.zero host
    (fun jobs stage core => ∀ here, stage = some here → here.Ready jobs core)
    ?_ ?_ (fun _ => []) schedule (fun _ _ idle => nomatch idle) run cpu
  · exact own stage busy
  · intro jobs job core _ here launched
    obtain rfl := Option.some.inj launched
    cases job with
    | rx frame kernel => exact List.getLast?_concat
    | tx frame pagedLen => exact List.getLast?_concat
  · intro jobs stage cache core ready next went
    exact advance_ready (ready stage rfl) went

end Rex.Bmc
