import Rex.Bmc.Reply

namespace Rex.Bmc

open Bytes Effect Program Rex.Frame

/-! Every way in which a run of `xdp_rx_filter` on a GET can end. -/

def Silent (state final : State) : Prop :=
  ∃ later, final.notes = state.notes ++ later ∧
    ∀ slot record, Note.copied slot record ∉ later

theorem Idle.silent {state final : State} (idle : Idle state final) :
    Silent state final := by
  obtain ⟨later, noted, quiet⟩ := idle.quiet
  refine ⟨later, noted, ?_⟩
  intro slot record member
  exact absurd (List.all_eq_true.mp quiet _ member) Bool.false_ne_true

theorem Silent.trans {first second third : State} (before : Silent first second)
    (after : Silent second third) : Silent first third := by
  obtain ⟨earlier, noted, none⟩ := before
  obtain ⟨later, noted', none'⟩ := after
  refine ⟨earlier ++ later, by rw [noted', noted, List.append_assoc], ?_⟩
  intro slot record member
  rcases List.mem_append.mp member with member | member
  · exact none slot record member
  · exact none' slot record member

theorem silent_note {state : State} {entry : Note} (quiet : entry.quiet = true) :
    Silent state (state.note entry) := by
  refine ⟨[entry], rfl, ?_⟩
  intro slot record member
  obtain rfl := List.mem_singleton.mp member
  cases quiet

/-- What is noted when the record of an entry is sent as the reply: the key is
compared and the record copied under one lock of the entry. -/
def hitNotes (slot : Slot) (record : List UInt8) : List Note :=
  [.iteration, .lookup slot, .lock slot, .unlock slot, .reply, .lookup slot,
    .lock slot, .copied slot record, .unlock slot]

inductive GetOutcome (kernel : Kernel) (state : State) (payloadIndex : Nat) :
    Except Stop Int32 × State → Prop
  | stopped {result final} (idle : Idle state final)
      (none : verdict result = none) :
      GetOutcome kernel state payloadIndex (result, final)
  | passed {final} (idle : Idle state final)
      (missed : ∀ name delimiter,
        Token isKeyByte (state.dataSlice.drop payloadIndex) name delimiter →
          name ≠ [] → ¬ state.mapKcache.Matches name) :
      GetOutcome kernel state payloadIndex (.ok xdpPass, final)
  | aborted {name final} (idle : Idle state final)
      (token : Token isKeyByte (state.dataSlice.drop payloadIndex) name space)
      (nonempty : name ≠ []) (present : state.mapKcache.Matches name) :
      GetOutcome kernel state payloadIndex (.error (.err 0), final)
  | echoed {name final} (silent : Silent state final)
      (token : Token isKeyByte (state.dataSlice.drop payloadIndex) name
        carriageReturn)
      (nonempty : name ≠ []) (present : state.mapKcache.Matches name)
      (unverified : ¬ (state.mapKcache (slotOf (fnv1a name))).Verifies name)
      (frame : final.dataSlice = swapped state.dataSlice) :
      GetOutcome kernel state payloadIndex (.ok xdpTx, final)
  | answered {name final}
      (token : Token isKeyByte (state.dataSlice.drop payloadIndex) name
        carriageReturn)
      (nonempty : name ≠ []) (present : state.mapKcache.Matches name)
      (verified : (state.mapKcache (slotOf (fnv1a name))).Verifies name)
      (frame : final.dataSlice.drop (payloadIndex - 4) =
        (state.mapKcache (slotOf (fnv1a name))).record ++ endOfReply)
      (noted : final.notes = state.notes ++ hitNotes (slotOf (fnv1a name))
        (state.mapKcache (slotOf (fnv1a name))).record) :
      GetOutcome kernel state payloadIndex (.ok xdpTx, final)
  | refused {result final} (refuses : kernel.refusesTail = true)
      (silent : Silent state final) :
      GetOutcome kernel state payloadIndex (result, final)

theorem Silent.not_copied {state final : State} (silent : Silent state final)
    (fresh : state.notes = []) (slot : Slot) (record : List UInt8) :
    Note.copied slot record ∉ final.notes := by
  obtain ⟨later, noted, none⟩ := silent
  rw [noted, fresh, List.nil_append]
  exact none slot record

theorem GetOutcome.hit {kernel : Kernel} {state : State} {payloadIndex : Nat}
    {ran : Except Stop Int32 × State} {slot : Slot} {record : List UInt8}
    (outcome : GetOutcome kernel state payloadIndex ran) (fresh : state.notes = [])
    (copied : .copied slot record ∈ ran.2.notes) :
    ∃ name, Token isKeyByte (state.dataSlice.drop payloadIndex) name
        carriageReturn ∧ name ≠ [] ∧ state.mapKcache.Matches name ∧
      slot = slotOf (fnv1a name) ∧ (state.mapKcache slot).Verifies name ∧
      record = (state.mapKcache slot).record := by
  cases outcome with
  | stopped idle none => exact absurd copied (idle.silent.not_copied fresh slot record)
  | passed idle missed => exact absurd copied (idle.silent.not_copied fresh slot record)
  | aborted idle token nonempty present =>
      exact absurd copied (idle.silent.not_copied fresh slot record)
  | echoed silent token nonempty present unverified frame =>
      exact absurd copied (silent.not_copied fresh slot record)
  | refused refuses silent => exact absurd copied (silent.not_copied fresh slot record)
  | answered token nonempty present verified frame noted =>
      rw [noted, fresh] at copied
      simp only [hitNotes, List.nil_append, List.mem_cons, reduceCtorEq,
        Note.copied.injEq, List.not_mem_nil, or_false, false_or] at copied
      obtain ⟨rfl, rfl⟩ := copied
      exact ⟨_, token, nonempty, present, rfl, verified, rfl⟩

section Loop

variable (kernel : Kernel) (payloadIndex : Nat) (stats : Fin 1)
  {state : State} {name : List UInt8}

def State.locked (state : State) (name : List UInt8) (stats : Fin 1) : State :=
  let slot := slotOf (fnv1a name)
  ((((state.parsed name ⟨0, by decide⟩ stats).withFrame
    (swapped state.dataSlice)).note .reply).note (.lookup slot)).note (.lock slot)

@[simp] theorem State.dataSlice_locked :
    (state.locked name stats).dataSlice = swapped state.dataSlice :=
  rfl

@[simp] theorem State.mapKcache_locked :
    (state.locked name stats).mapKcache = state.mapKcache :=
  state.mapKcache_parsed ..

theorem State.notes_locked :
    (state.locked name stats).notes = state.notes ++
      [.iteration, .lookup (slotOf (fnv1a name)), .lock (slotOf (fnv1a name)),
        .unlock (slotOf (fnv1a name)), .reply, .lookup (slotOf (fnv1a name)),
        .lock (slotOf (fnv1a name))] := by
  simp [State.locked]

theorem silent_locked : Silent state (state.locked name stats) :=
  ⟨_, State.notes_locked stats, by simp⟩

theorem run_reply (long : headersLen ≤ state.dataSlice.length)
    (short : name.length ≤ maxKeyLength) (present : state.mapKcache.Matches name)
    (readPktOffset : UInt8) :
    (do swapHeaders
        writePktReply kernel payloadIndex ⟨1, 0, readPktOffset⟩ stats).run
        (state.parsed name ⟨0, by decide⟩ stats) =
      let slot := slotOf (fnv1a name)
      let ran :=
        if (state.mapKcache slot).Verifies name then
          (copyCacheData kernel payloadIndex slot).run (state.locked name stats)
        else
          (.ok xdpTx,
            (if maxKeyLength ≤ name.length then state.locked name stats else
              (state.locked name stats).bump stats fun stats =>
                { stats with
                  hitMisprediction := stats.hitMisprediction + 1 }).bump stats
              fun stats => { stats with missCount := stats.missCount + 1 })
      (ran.1, ran.2.note (.unlock slot)) := by
  set parsed := state.parsed name ⟨0, by decide⟩ stats with parsedEq
  have frame : parsed.dataSlice = state.dataSlice := state.dataSlice_parsed ..
  have swap : swapHeaders.run parsed =
      (.ok (), parsed.withFrame (swapped parsed.dataSlice)) :=
    run_swapHeaders (frame ▸ long)
  rw [run_bind, swap]
  simp only [frame]
  set ready := parsed.withFrame (swapped state.dataSlice) with readyEq
  have cached : ready.mapKcache = state.mapKcache := state.mapKcache_parsed ..
  have held : ready.cpu.mapKeys ⟨0, by decide⟩ =
      (state.cpu.mapKeys ⟨0, by decide⟩).hold (fnv1a name) name :=
    state.mapKeys_parsed name ⟨0, by decide⟩ stats present
  rw [run_writePktReply kernel payloadIndex stats rfl short held
    (cached ▸ present), cached]
  rfl

theorem reply_outcome
    (inPayload : headersLen + 4 ≤ payloadIndex)
    (long : headersLen ≤ state.dataSlice.length)
    (fits : ∀ slot, (state.mapKcache slot).len ≤ maxPacketLength)
    (token : Token isKeyByte (state.dataSlice.drop payloadIndex) name
      carriageReturn)
    (nonempty : name ≠ []) (short : name.length ≤ maxKeyLength)
    (present : state.mapKcache.Matches name) (readPktOffset : UInt8) :
    GetOutcome kernel state payloadIndex
      ((do swapHeaders
           writePktReply kernel payloadIndex ⟨1, 0, readPktOffset⟩ stats).run
        (state.parsed name ⟨0, by decide⟩ stats)) := by
  rw [run_reply kernel payloadIndex stats long short present]
  simp only
  set locked := state.locked name stats with lockedEq
  set slot := slotOf (fnv1a name) with slotEq
  have cachedLocked : locked.mapKcache = state.mapKcache :=
    state.mapKcache_locked ..
  have silentLocked : Silent state locked := silent_locked stats
  by_cases verified : (state.mapKcache slot).Verifies name
  · rw [if_pos verified]
    cases refuses : kernel.refusesTail with
    | true =>
        have idle :=
          idle_copyCacheData_refused kernel payloadIndex slot locked refuses
        exact .refused refuses
          (silentLocked.trans (idle.silent.trans (silent_note rfl)))
    | false =>
        obtain ⟨final, _, ran, carried, noted, _⟩ := run_copyCacheData kernel refuses
          inPayload (cachedLocked ▸ fits slot)
        rw [ran]
        rw [cachedLocked] at carried noted
        refine .answered token nonempty present verified carried ?_
        rw [State.notes_note, noted, lockedEq, State.notes_locked]
        simp [hitNotes, slotEq]
  · rw [if_neg verified]
    refine .echoed (silentLocked.trans ?_) token nonempty present verified ?_
    · split
      · exact silent_note rfl
      · exact silent_note rfl
    · split
      · rfl
      · rfl

theorem keyLoop_cases (state : State) (fuel : Nat) (readPktOffset : UInt8) :
    let ran := (keyLoop kernel (state.dataSlice.drop payloadIndex) payloadIndex stats
      fuel ⟨0, 0, readPktOffset⟩).run state
    (∃ name,
      Token isKeyByte (state.dataSlice.drop payloadIndex) name carriageReturn ∧
      name ≠ [] ∧ name.length ≤ maxKeyLength ∧ state.mapKcache.Matches name ∧
      ran = (do swapHeaders
                writePktReply kernel payloadIndex ⟨1, 0, readPktOffset⟩ stats).run
        (state.parsed name ⟨0, by decide⟩ stats)) ∨
    (Idle state ran.2 ∧
      (verdict ran.1 = none ∨
        (ran.1 = .ok xdpPass ∧ ∀ name delimiter,
          Token isKeyByte (state.dataSlice.drop payloadIndex) name delimiter →
            name ≠ [] → ¬ state.mapKcache.Matches name) ∨
        (ran.1 = .error (.err 0) ∧ ∃ name,
          Token isKeyByte (state.dataSlice.drop payloadIndex) name space ∧
            name ≠ [] ∧ state.mapKcache.Matches name))) := by
  intro ran
  have room : (⟨0, 0, readPktOffset⟩ : ParsingContext).keyCount <
      maxKeyInPacket :=
    show 0 < maxKeyInPacket by decide
  cases fuel with
  | zero => exact .inr ⟨⟨rfl, [], (List.append_nil _).symm, rfl⟩, .inl rfl⟩
  | succ fuel =>
      cases scanned : scan state.dataSlice.length
          (state.dataSlice.drop payloadIndex) readPktOffset with
      | none =>
          obtain ⟨key, ended⟩ :=
            run_keyLoop_panic kernel payloadIndex stats fuel room scanned
          have ranEq : ran = _ := ended
          rw [ranEq]
          exact .inr ⟨⟨rfl, _, rfl, rfl⟩, .inl rfl⟩
      | some found =>
          obtain ⟨name, delimiter⟩ := found
          obtain ⟨token, short⟩ := scan_eq_some scanned
          by_cases nonempty : name = []
          · subst nonempty
            obtain ⟨key, ended⟩ :=
              run_keyLoop_empty kernel payloadIndex stats fuel room scanned
            have ranEq : ran = _ := ended
            rw [ranEq]
            refine .inr ⟨⟨rfl, _, rfl, rfl⟩, .inr (.inl ⟨rfl, ?_⟩)⟩
            intro other stopper found proper
            exact absurd (token.unique found).1 proper
          · rcases delimiter_cases token with rfl | rfl
            · have ranEq : ran = _ :=
                run_keyLoop_name kernel payloadIndex stats fuel room scanned nonempty
              rw [ranEq]
              simp only [if_true]
              by_cases present : state.mapKcache.Matches name
              · simp only [if_pos present, Nat.zero_add, Nat.one_pos, if_true]
                exact .inl ⟨name, token, nonempty, short, present, rfl⟩
              · simp only [if_neg present, lt_irrefl, if_false]
                refine .inr ⟨idle_parsed .., .inr (.inl ⟨rfl, ?_⟩)⟩
                intro other stopper found _
                rwa [(token.unique found).1]
            · obtain ⟨idle, ended, missed⟩ := keyLoop_spins kernel payloadIndex
                stats (fuel + 1) token nonempty ⟨0, 0, readPktOffset⟩ state
              refine .inr ⟨idle, ?_⟩
              by_cases present : state.mapKcache.Matches name
              · rcases ended with none | err
                · exact .inl none
                · exact .inr (.inr ⟨err, name, token, nonempty, present⟩)
              · exact .inl (missed present room)

theorem keyLoop_outcome (state : State) (inPayload : headersLen + 4 ≤ payloadIndex)
    (long : headersLen ≤ state.dataSlice.length)
    (fits : ∀ slot, (state.mapKcache slot).len ≤ maxPacketLength)
    (fuel : Nat) (readPktOffset : UInt8) :
    GetOutcome kernel state payloadIndex
      ((keyLoop kernel (state.dataSlice.drop payloadIndex) payloadIndex stats
        fuel ⟨0, 0, readPktOffset⟩).run state) := by
  have cases := keyLoop_cases kernel payloadIndex stats state fuel readPktOffset
  generalize (keyLoop kernel (state.dataSlice.drop payloadIndex) payloadIndex stats
    fuel ⟨0, 0, readPktOffset⟩).run state = ran at cases
  rcases cases with ⟨name, token, nonempty, short, present, replies⟩ |
    ⟨idle, none | ⟨passed, missed⟩ | ⟨aborted, name, token, nonempty, present⟩⟩
  · rw [replies]
    exact reply_outcome kernel payloadIndex stats inPayload long fits token nonempty
      short present readPktOffset
  · exact .stopped idle none
  · obtain ⟨result, final⟩ := ran
    obtain rfl : result = .ok xdpPass := passed
    exact .passed idle missed
  · obtain ⟨result, final⟩ := ran
    obtain rfl : result = .error (.err 0) := aborted
    exact .aborted idle token nonempty present

end Loop

end Rex.Bmc
