import Rex.Bmc.Ready

namespace Rex.Bmc

open Bytes Effect Program Rex.Frame Machine

/-! Replies and SETs on several CPUs at once. -/

/-! What one stage can do to one slot. -/

def Stage.Refills (cache : MapKcache) (slot : Slot) : Stage → Prop
  | .update skbLen payload _ => ∃ hash,
      hashResponse skbLen (maxKeyLength - 6) 6 (payload.drop 6) fnvOffsetBasis32 =
        some hash ∧ slot = slotOf hash ∧
      (cache slot).upToDate hash payload = false
  | _ => False

theorem keeps_editHeader (start : Nat) (header : Header) (edit : Frame → Frame) :
    Keeps State.mapKcache (editHeader start header edit) :=
  (apart_mapKcache.editHeader start header edit).keeps

theorem keeps_bump (idx : Fin 1) (count : BmcStats → BmcStats) :
    Keeps State.mapKcache (Program.bump idx count) :=
  keeps_modify fun _ => rfl

theorem keeps_runRx (kernel : Kernel) : Keeps State.mapKcache (Stage.runRx kernel) := by
  have ends : Keeps State.mapKcache (pure (.inr xdpPass) : Program Onward) :=
    keeps_pure _
  refine (keeps_editHeader _ _ _).bind fun _ => keeps_get.bind fun state =>
    .ite ?_ (.ite ?_ ends)
  · exact (keeps_editHeader _ _ _).bind fun _ => keeps_get.bind fun _ =>
      (keeps_demand _ _).bind fun _ => ends.ite (keeps_pure _)
  · refine (keeps_editHeader _ _ _).bind fun _ => (keeps_demand _ _).bind fun _ =>
      ends.ite (ends.ite ?_)
    exact (keeps_demand _ _).bind fun _ => (keeps_bump _ _).bind fun _ =>
      keeps_get.bind fun _ => (keeps_demand _ _).bind fun _ => keeps_pure _

theorem keeps_runScan (kernel : Kernel) (payload : List UInt8) (payloadIndex : Nat)
    (stats : Fin 1) (pctx : ParsingContext) :
    Keeps State.mapKcache (Stage.runScan kernel payload payloadIndex stats pctx) := by
  apply (keeps_note _).bind
  intro _
  apply (keeps_demand _ _).bind
  intro keyRef
  apply (keeps_scanKey _ _ _).bind
  rintro ⟨name, delimiter⟩
  apply (keeps_pure _).ite
  apply (keeps_probe _ _ _ _).bind
  intro keyCount
  apply Keeps.ite
  · exact (apart_mapKcache.swapHeaders.keeps.bind fun _ => keeps_pure _).ite
      (keeps_pure _)
  · exact keeps_pure _

theorem keeps_runCheck (request : List UInt8) (rest : List (List UInt8)) :
    Keeps State.mapKcache (Stage.runCheck request rest) :=
  (keeps_demand _ _).bind fun _ => (keeps_bump _ _).bind fun _ =>
    (keeps_lookupEntry _ _).bind fun _ => keeps_get.bind fun _ =>
      ((keeps_bump _ _).bind fun _ => keeps_pure _).ite (keeps_pure _)

theorem keeps_runTx (pagedLen : Nat) : Keeps State.mapKcache (Stage.runTx pagedLen) := by
  have ends : Keeps State.mapKcache (pure (.inr tcActOk) : Program Onward) :=
    keeps_pure _
  refine keeps_get.bind fun state => ends.ite ?_
  refine (keeps_editHeader _ _ _).bind fun _ => ends.ite ?_
  refine (keeps_editHeader _ _ _).bind fun _ => ends.ite ?_
  exact (keeps_demand _ _).bind fun _ => (keeps_bump _ _).bind fun _ => keeps_pure _

theorem run_clear_cache (slot other : Slot) (rest : List (List UInt8))
    (state : State) :
    ((Stage.runClear slot rest).run state).2.mapKcache other =
      if other = slot then { state.mapKcache slot with valid := 0 }
      else state.mapKcache other := by
  show Function.update state.mapKcache slot _ other = _
  by_cases same : other = slot
  · subst same
    rw [Function.update_self, if_pos rfl]
    rfl
  · rw [Function.update_of_ne same, if_neg same]

/-- A stage leaves a slot alone unless it refills it or clears its `valid`. -/
theorem Stage.cache_cases (stage : Stage) (state : State) (slot : Slot) :
    (stage.run.run state).2.mapKcache slot = state.mapKcache slot ∨
      (∃ skbLen payload stats hash, stage = .update skbLen payload stats ∧
        stage.Refills state.mapKcache slot ∧
        (stage.run.run state).2.mapKcache slot =
          (state.mapKcache slot).refill hash skbLen payload) ∨
      (stage.run.run state).2.mapKcache slot =
        { state.mapKcache slot with valid := 0 } := by
  cases stage with
  | rx kernel => exact .inl (congrFun (keeps_runRx kernel state) slot)
  | scan kernel payload payloadIndex stats pctx =>
      exact .inl (congrFun (keeps_runScan _ _ _ _ _ state) slot)
  | check request rest => exact .inl (congrFun (keeps_runCheck _ _ state) slot)
  | tx pagedLen => exact .inl (congrFun (keeps_runTx pagedLen state) slot)
  | reply kernel payloadIndex pctx stats =>
      have kept := (apart_mapKcache.writePktReply (fun _ _ _ => rfl) kernel
        payloadIndex pctx stats).keeps.bind fun code => keeps_pure (.inr code : Onward)
      exact .inl (congrFun (kept state) slot)
  | clear cleared rest =>
      have cache := run_clear_cache cleared slot rest state
      by_cases same : slot = cleared
      · subst same
        rw [if_pos rfl] at cache
        exact .inr (.inr cache)
      · rw [if_neg same] at cache
        exact .inl cache
  | update skbLen payload stats =>
      have ran : ((Stage.update skbLen payload stats).run.run state).2 =
          ((bmcUpdateCache skbLen payload stats).run state).2 :=
        run_bind_pure_snd _ (fun _ => (.inr tcActOk : Onward)) state
      rw [ran]
      cases hashed : hashResponse skbLen (maxKeyLength - 6) 6 (payload.drop 6)
          fnvOffsetBasis32 with
      | none =>
          rw [bmcUpdateCache_panic stats state hashed]
          exact .inl rfl
      | some hash =>
          rw [bmcUpdateCache_cache stats state hashed]
          split
          · exact .inl rfl
          · rename_i stale
            by_cases same : slot = slotOf hash
            · subst same
              rw [Function.update_self]
              exact .inr (.inl ⟨skbLen, payload, stats, hash, rfl,
                ⟨hash, hashed, rfl, Bool.eq_false_of_not_eq_true stale⟩, rfl⟩)
            · rw [Function.update_of_ne same]
              exact .inl rfl

/-! Where a record comes from. -/

/-- The move leaves the entry of the slot as it is. -/
def Spares (slot : Slot) (host : Host) (taken : Move) : Prop :=
  ∀ next, move host taken = some next → next.shared slot = host.shared slot

/-- The record is what one response, in one go, wrote into the slot while the
schedule ran, and the slot has not changed since. -/
def WrittenDuring (start : Host) (schedule : List Move) (slot : Slot)
    (record : List UInt8) : Prop :=
  ∃ before source later middle next response pagedLen stats,
    schedule = before ++ .advance source :: later ∧
    exec move start before = some middle ∧
    middle.stage source = some (.update (response.length + pagedLen)
      (response.drop udpHeaderLen) stats) ∧
    (middle.memory source).dataSlice = response ∧ IsResponse response ∧
    (Stage.update (response.length + pagedLen) (response.drop udpHeaderLen)
      stats).Refills middle.shared slot ∧
    move middle (.advance source) = some next ∧
    record = (copyPayload (response.length + pagedLen)
      (response.drop udpHeaderLen)).1 ∧
    EveryStep move (Spares slot) next later

theorem shared_of_spares {slot : Slot} {start final : Host} {schedule : List Move}
    (run : exec move start schedule = some final)
    (spares : EveryStep move (Spares slot) start schedule) :
    final.shared slot = start.shared slot :=
  exec_invariant_of_everyStep (fun host => host.shared slot = start.shared slot)
    (fun same spares taken => (spares _ taken).trans same) rfl spares run

/-- What a move of a CPU can do to a slot. -/
theorem move_shared_cases {host next : Host} {taken : Move} (slot : Slot)
    (stepped : move host taken = some next) :
    next.shared slot = host.shared slot ∨
      (∃ source skbLen payload stats hash, taken = .advance source ∧
        host.stage source = some (.update skbLen payload stats) ∧
        (Stage.update skbLen payload stats).Refills host.shared slot ∧
        next.shared slot = (host.shared slot).refill hash skbLen payload) ∨
      next.shared slot = { host.shared slot with valid := 0 } := by
  cases taken with
  | launch cpu job =>
      obtain ⟨_, rfl⟩ := Interleaving.step_launch_eq_some.mp stepped
      exact .inl rfl
  | advance cpu =>
      obtain ⟨stage, busy, rfl⟩ := Interleaving.step_advance_eq_some.mp stepped
      rw [Interleaving.World.advanced, Interleaving.World.shared_put, shared_advance]
      rcases stage.cache_cases ((host.memory cpu).state host.shared) slot with
        same | ⟨skbLen, payload, stats, hash, rfl, refills, refilled⟩ | cleared
      · exact .inl same
      · exact .inr (.inl ⟨cpu, skbLen, payload, stats, hash, rfl, busy, refills, refilled⟩)
      · exact .inr (.inr cleared)

theorem writtenDuring_of_valid {earlier schedule : List Move} {start final : Host}
    {slot : Slot} (reached : exec move .zero earlier = some start)
    (run : exec move start schedule = some final)
    (stale : (start.shared slot).valid ≠ 1) (valid : (final.shared slot).valid = 1) :
    WrittenDuring start schedule slot (final.shared slot).record := by
  rcases everyStep_or_last (fun host taken => ¬ Spares slot host taken) run with
    never | ⟨before, taken, later, middle, next, rfl, ran, changes, stepped, ended,
      never⟩
  · have spares := never.mono fun {host taken} spares => not_not.mp spares
    rw [shared_of_spares run spares] at valid
    exact absurd valid stale
  · have spares := never.mono fun {host taken} spares => not_not.mp spares
    have kept := shared_of_spares ended spares
    rw [kept] at valid
    rcases move_shared_cases slot stepped with
      same | ⟨source, skbLen, payload, stats, hash, rfl, busy, refills, refilled⟩ | cleared
    · refine absurd ?_ changes
      intro other steppedToo
      obtain rfl := Option.some.inj (stepped.symm.trans steppedToo)
      exact same
    · have through : exec move .zero (earlier ++ before) = some middle := by
        rw [exec_append, reached, Option.bind_some, ran]
      obtain ⟨response, rfl, pagedLen, -, rfl⟩ := reachable_ready through busy
      refine ⟨before, source, later, middle, next, _, pagedLen, stats, rfl, ran, busy,
        rfl, response, refills, stepped, ?_, spares⟩
      rw [kept, refilled]
      exact BmcCacheEntry.record_refill ..
    · rw [cleared] at valid
      exact absurd valid (by decide : (0 : UInt8) ≠ 1)

/-! Replies in the middle of everything else. -/

theorem admits_uncopied :
    Admits fun notes => ∀ slot record, Note.copied slot record ∉ notes where
  nil := by simp
  append := by
    intro first second before after slot record member
    exact (List.mem_append.mp member).elim (before slot record) (after slot record)
  iteration := by simp
  lookup := by simp
  locked := by simp

theorem memory_of_move {host next : Host} {cpu : Nat} {stage : Stage}
    (busy : host.stage cpu = some stage)
    (taken : move host (.advance cpu) = some next) :
    ∃ ended, next.memory cpu =
      .of (stage.run.run ((host.memory cpu).state host.shared)).2 ended := by
  obtain ⟨other, busyToo, rfl⟩ := Interleaving.step_advance_eq_some.mp taken
  obtain rfl := Option.some.inj (busy.symm.trans busyToo)
  rw [Interleaving.World.advanced, Interleaving.World.memory_put_self]
  show ∃ ended, (Stage.advance stage host.shared (host.memory cpu)).2.2 = _
  rw [Stage.advance]
  split
  all_goals
    rename_i ran
    rw [ran]
    exact ⟨_, rfl⟩

theorem copied_of_move {schedule : List Move} {host next : Host} {cpu : Nat}
    {slot : Slot} {record : List UInt8} (run : exec move .zero schedule = some host)
    (taken : move host (.advance cpu) = some next)
    (before : .copied slot record ∉ (host.memory cpu).notes)
    (copied : .copied slot record ∈ (next.memory cpu).notes) :
    ∃ name, getCommand <+: (host.memory cpu).dataSlice.drop udpHeaderLen ∧
      Token isKeyByte ((host.memory cpu).dataSlice.drop
        (keyOffset (host.memory cpu).dataSlice)) name carriageReturn ∧
      slot = slotOf (fnv1a name) ∧ host.shared.Holds name ∧
      record = (host.shared slot).record := by
  obtain ⟨stage, busy, _⟩ := Interleaving.step_advance_eq_some.mp taken
  have ready := reachable_ready run busy
  obtain ⟨ended, memory⟩ := memory_of_move busy taken
  rw [memory] at copied
  by_cases replies : ∃ kernel payloadIndex pctx stats,
      stage = .reply kernel payloadIndex pctx stats
  · obtain ⟨kernel, payloadIndex, pctx, stats, rfl⟩ := replies
    obtain ⟨keys, first, -, name, token, held⟩ := ready
    have ran : ((Stage.reply kernel payloadIndex pctx stats).run.run
        ((host.memory cpu).state host.shared)).2 =
        ((writePktReply kernel payloadIndex pctx stats).run
          ((host.memory cpu).state host.shared)).2 :=
      run_bind_pure_snd _ (fun code => (.inr code : Onward)) _
    rw [ran] at copied
    obtain ⟨slotEq, holds, same⟩ := writePktReply_copied first held before copied
    exact ⟨name, keys.get, keys.start ▸ token, slotEq, holds, same⟩
  · obtain ⟨later, noted, none⟩ := admits_uncopied.stage stage
      (fun kernel payloadIndex pctx stats reply =>
        absurd ⟨kernel, payloadIndex, pctx, stats, reply⟩ replies)
      ((host.memory cpu).state host.shared)
    have member : .copied slot record ∈ (host.memory cpu).notes ++ later := noted ▸ copied
    exact absurd member fun member =>
      (List.mem_append.mp member).elim before (none slot record)

/-- However the CPUs are interleaved, every record that a reply carries was
copied whole from one response into the slot of the key asked for, and the slot
has not changed between that response and the reply: no reply mixes two
responses, and none has a half-written one. -/
theorem interleaved_replies_whole {schedule : List Move} {host next : Host}
    {cpu : Nat} {slot : Slot} {record : List UInt8}
    (run : exec move .zero schedule = some host)
    (taken : move host (.advance cpu) = some next)
    (before : .copied slot record ∉ (host.memory cpu).notes)
    (copied : .copied slot record ∈ (next.memory cpu).notes) :
    WrittenDuring .zero schedule slot record ∧
      ∃ name, getCommand <+: (host.memory cpu).dataSlice.drop udpHeaderLen ∧
        Token isKeyByte ((host.memory cpu).dataSlice.drop
          (keyOffset (host.memory cpu).dataSlice)) name carriageReturn ∧
        slot = slotOf (fnv1a name) ∧ host.shared.Holds name := by
  obtain ⟨name, get, token, rfl, holds, rfl⟩ := copied_of_move run taken before copied
  refine ⟨?_, name, get, token, rfl, holds⟩
  have start : exec move .zero [] = some .zero := rfl
  have empty : (Host.zero.shared (slotOf (fnv1a name))).valid ≠ 1 :=
    (by decide : (0 : UInt8) ≠ 1)
  exact writtenDuring_of_valid start run empty holds.1.1

/-- The frames of `setAndRefill` on three CPUs: the SET looks at the slot, a
second response comes in between, and only then the slot is cleared; the third
response is the one that a GET gets. -/
def crossed : List Move :=
  [.launch 0 (.tx (responseFrame [107, 32, 48, 32, 49, 13, 10, 120, 13, 10]) 0),
    .advance 0, .advance 0,
    .launch 1 (.rx (setFrame [107, 32, 48, 32, 48, 32, 49, 13, 10, 121, 13, 10])
      willing), .advance 1]

def crossedLater : List Move :=
  [.launch 0 (.tx (responseFrame [107, 32, 48, 32, 49, 13, 10, 121, 13, 10]) 0),
    .advance 0, .advance 1, .advance 0,
    .launch 2 (.rx (getFrame [107, 13, 10]) willing), .advance 2, .advance 2]

theorem interleaved_replies_whole_crossed :
    ∃ host, exec move .zero (crossed ++ .advance 1 :: crossedLater) = some host ∧
      WrittenDuring .zero (crossed ++ .advance 1 :: crossedLater)
        (slotOf (fnv1a [107]))
        (valueMark ++ [107, 32, 48, 32, 49, 13, 10, 121, 13, 10]) := by
  obtain ⟨host, next, run, taken, before, copied⟩ : ∃ host next,
      exec move .zero (crossed ++ .advance 1 :: crossedLater) = some host ∧
      move host (.advance 2) = some next ∧
      .copied (slotOf (fnv1a [107]))
        (valueMark ++ [107, 32, 48, 32, 49, 13, 10, 121, 13, 10]) ∉
          (host.memory 2).notes ∧
      .copied (slotOf (fnv1a [107]))
        (valueMark ++ [107, 32, 48, 32, 49, 13, 10, 121, 13, 10]) ∈
          (next.memory 2).notes :=
    ⟨_, _, rfl, rfl, by decide +kernel, by decide +kernel⟩
  exact ⟨host, run, (interleaved_replies_whole run taken before copied).1⟩

theorem host_len {schedule : List Move} {host : Host}
    (run : exec move .zero schedule = some host) (slot : Slot) :
    (host.shared slot).len ≤ maxCacheDataSize := by
  refine exec_invariant (fun host : Host => (host.shared slot).len ≤ maxCacheDataSize)
    ?_ (Nat.zero_le _) run
  intro earlier next taken before stepped
  rcases move_shared_cases slot stepped with
    same | ⟨_, skbLen, payload, _, hash, _, _, _, refilled⟩ | cleared
  · exact same ▸ before
  · rw [refilled]
    exact length_copyPayload_le _ _
  · rw [cleared]
    exact before

/-- However the CPUs are interleaved, what becomes of a request that is replied to
is decided by the entry found under the lock: the whole record behind the
headers, or the request itself with nothing but its addresses exchanged.  The
latter is sent when the entry no longer holds the key that it held when the
request was parsed, and dropped when the kernel has no room for the record. -/
theorem interleaved_replies_all_or_nothing {schedule : List Move} {host next : Host}
    {cpu : Nat} {kernel : Kernel} {payloadIndex : Nat} {pctx : ParsingContext}
    {stats : Fin 1} (run : exec move .zero schedule = some host)
    (replying : host.stage cpu = some (.reply kernel payloadIndex pctx stats))
    (taken : move host (.advance cpu) = some next) :
    ∃ request name,
      (Interleaving.jobsOn cpu schedule).getLast? = some (.rx request kernel) ∧
      payloadIndex = keyOffset request ∧
      Token isKeyByte (request.drop (keyOffset request)) name carriageReturn ∧
      next.stage cpu = none ∧
      if host.shared.Holds name then
        if kernel.refusesTail then
          (next.memory cpu).ended = some kernel.refusal ∧
            (next.memory cpu).dataSlice = swapped request
        else
          (next.memory cpu).ended = some (.ok xdpTx) ∧
            (next.memory cpu).dataSlice.drop (keyOffset request - 4) =
              (host.shared (slotOf (fnv1a name))).record ++ endOfReply
      else
        (next.memory cpu).ended = some (.ok xdpTx) ∧
          (next.memory cpu).dataSlice = swapped request := by
  obtain ⟨keys, first, ⟨request, given, long, frame⟩, name, token, held⟩ :=
    reachable_ready run replying
  have fits := (host_len run (slotOf (fnv1a name))).trans
    (by decide : maxCacheDataSize ≤ maxPacketLength)
  have beyond := keys.beyond
  have edit := headerEdit_swapped long
  have offset : payloadIndex = keyOffset request := by
    rw [keys.start, frame, keyOffset, keyOffset,
      edit.drop (by decide : headersLen ≤ udpHeaderLen)]
  rw [frame, edit.drop (by omega), offset] at token
  obtain ⟨stage, busy, rfl⟩ := Interleaving.step_advance_eq_some.mp taken
  obtain rfl := Option.some.inj (replying.symm.trans busy)
  refine ⟨request, name, given, offset, token, ?_⟩
  rw [Interleaving.World.advanced, Interleaving.World.stage_put_self,
    Interleaving.World.memory_put_self, advance_last rfl, ← offset, ← frame]
  refine ⟨rfl, ?_⟩
  simp only [Core.of, Option.some.injEq]
  exact @writePktReply_frame kernel payloadIndex pctx stats
    ((host.memory cpu).state host.shared) name first held beyond fits

def overtaken : List Move :=
  [.launch 0 (.tx (responseFrame [107, 32, 48, 32, 49, 13, 10, 120, 13, 10]) 0),
    .advance 0, .advance 0,
    .launch 2 (.rx (getFrame [107, 13, 10]) willing), .advance 2, .advance 2,
    .launch 1 (.rx (setFrame [107, 32, 48, 32, 48, 32, 49, 13, 10, 121, 13, 10])
      willing), .advance 1, .advance 1, .advance 1]

theorem interleaved_replies_all_or_nothing_overtaken :
    ∃ host next, exec move .zero overtaken = some host ∧
      move host (.advance 2) = some next ∧
      (next.memory 2).ended = some (.ok xdpTx) ∧
      (next.memory 2).dataSlice = swapped (getFrame [107, 13, 10]) := by
  obtain ⟨host, next, stats, run, replying, taken, cleared⟩ :
      ∃ host next stats, exec move .zero overtaken = some host ∧
        host.stage 2 = some (.reply willing 54 ⟨1, 0, 54⟩ stats) ∧
        move host (.advance 2) = some next ∧
        (host.shared (slotOf (fnv1a [107]))).valid = 0 :=
    ⟨_, _, _, rfl, rfl, rfl, by decide +kernel⟩
  obtain ⟨request, name, given, offset, token, _, sent⟩ :=
    interleaved_replies_all_or_nothing run replying taken
  cases given
  have asked : Token isKeyByte ((getFrame [107, 13, 10]).drop
      (keyOffset (getFrame [107, 13, 10]))) [107] carriageReturn :=
    ⟨⟨[10], by decide +kernel⟩, List.all_eq_true.mp rfl, rfl⟩
  obtain rfl := (token.unique asked).1
  rw [if_neg fun holds => absurd (holds.1.1.symm.trans cleared) (by decide)] at sent
  exact ⟨host, next, run, taken, sent⟩

end Rex.Bmc
