import Rex.Electrode.Stored

namespace Rex.Electrode

open Bytes Effect Program Rex.Frame Machine

/-! The way of a reply of `prepare_fast_reply` to the leader. -/

/-- An edit that leaves the length and the bytes from the magic to the end of
the type string alone. -/
structure KeepsType (frame edited : Frame) : Prop where
  length : edited.length = frame.length
  bytes : field edited headersLen (prepareStart - headersLen) =
    field frame headersLen (prepareStart - headersLen)

theorem KeepsType.trans {first second third : Frame}
    (before : KeepsType first second) (after : KeepsType second third) :
    KeepsType first third :=
  ⟨after.length.trans before.length, after.bytes.trans before.bytes⟩

theorem keepsType_put {frame : Frame} {off : Nat} {bytes : List UInt8}
    (beyond : prepareStart ≤ off) (inside : off + bytes.length ≤ frame.length) :
    KeepsType frame (put frame off bytes) :=
  ⟨length_put inside, field_put_of_before (by omega) (by
    rw [show prepareStart = 87 from rfl] at beyond ⊢
    rw [show headersLen = 42 from rfl]
    omega)⟩

theorem HeaderEdit.keepsType {frame edited : Frame}
    (edit : HeaderEdit frame edited) : KeepsType frame edited :=
  ⟨edit.length, by rw [field, edit.payload, field]⟩

theorem store_keepsType {off : Nat} {bytes : List UInt8} {state final : State}
    (beyond : prepareStart ≤ off)
    (ran : (store off bytes).run state = (.ok (), final)) :
    KeepsType state.dataSlice final.dataSlice := by
  obtain ⟨inside, rfl⟩ := store_ok ran
  exact keepsType_put beyond inside

theorem storeEach_keepsType {off : Nat} {bytes : List UInt8} {state final : State}
    (beyond : prepareStart ≤ off)
    (ran : (storeEach off bytes).run state = (.ok (), final)) :
    KeepsType state.dataSlice final.dataSlice := by
  induction bytes generalizing off state with
  | nil =>
      obtain ⟨_, rfl⟩ := Prod.mk.inj ran
      exact ⟨rfl, rfl⟩
  | cons byte rest induction =>
      obtain ⟨_, middle, stored, later⟩ := run_bind_eq_ok.mp ran
      exact (store_keepsType beyond stored).trans
        (induction (beyond.trans (Nat.le_succ _)) later)

/-! The lengths in the headers of the reply. -/

section Headers

variable (leaderInfo : PaxosConfigure) (newLen : UInt16) {frame : Frame}

theorem headerEdit_replyUdp (long : headersLen ≤ frame.length) :
    HeaderEdit frame (replyUdp leaderInfo newLen frame) :=
  (headerEdit_copyDestPort long).andThen long fun long =>
    (headerEdit_setDestPort (LittleEndian.length_encode _ _) long).andThen long
      fun long => (headerEdit_clearUdpCheck long).andThen long
        (headerEdit_setUdpLen newLen.toNat)

theorem headerEdit_replyIp (long : headersLen ≤ frame.length) :
    HeaderEdit frame (replyIp leaderInfo newLen frame) :=
  (headerEdit_setTotLen _ long).andThen long fun long =>
    (headerEdit_copyDaddr long).andThen long fun long =>
      (headerEdit_setDaddr (LittleEndian.length_encode _ _) long).andThen long
        headerEdit_setChecksum

theorem udpLen_replyUdp (long : headersLen ≤ frame.length) :
    (replyUdp leaderInfo newLen frame).udpLen = newLen.toNat := by
  have edit : HeaderEdit frame ((frame.copyDestPort.setDestPort
      (LittleEndian.encode 2 leaderInfo.port.toNat)).clearUdpCheck) :=
    (headerEdit_copyDestPort long).andThen long fun long =>
      (headerEdit_setDestPort (LittleEndian.length_encode _ _) long).andThen long
        headerEdit_clearUdpCheck
  exact udpLen_setUdpLen newLen.toNat_lt (edit.long long)

theorem lengths_replyIp (long : headersLen ≤ frame.length) :
    (replyIp leaderInfo newLen frame).udpLen = frame.udpLen ∧
      (replyIp leaderInfo newLen frame).totLen =
        (newLen + UInt16.ofNat Header.ip.size).toNat := by
  set total := frame.setTotLen (newLen + UInt16.ofNat Header.ip.size).toNat with totalEq
  have totalLong : headersLen ≤ total.length :=
    (headerEdit_setTotLen _ long).long long
  have copiedLong : headersLen ≤ total.copyDaddr.length :=
    (headerEdit_copyDaddr totalLong).long totalLong
  set addressed := total.copyDaddr.setDaddr
    (LittleEndian.encode 4 leaderInfo.addr.toNat) with addressedEq
  have addressedLong : headersLen ≤ addressed.length :=
    (headerEdit_setDaddr (LittleEndian.length_encode _ _) copiedLong).long copiedLong
  constructor
  · calc addressed.setChecksum.udpLen
      _ = addressed.udpLen :=
        udpLen_put (by rw [LittleEndian.length_encode]; decide) addressedLong
      _ = total.copyDaddr.udpLen :=
        udpLen_put (by rw [LittleEndian.length_encode]; decide) copiedLong
      _ = total.udpLen :=
        udpLen_put (by rw [length_header_field (by decide) totalLong]; decide)
          totalLong
      _ = frame.udpLen := udpLen_put (by rw [length_toBigEndian]; decide) long
  · calc addressed.setChecksum.totLen
      _ = addressed.totLen := totLen_put (by decide) (by decide) addressedLong
      _ = total.copyDaddr.totLen := totLen_put (by decide) (by decide) copiedLong
      _ = total.totLen := totLen_put (by decide) (by decide) totalLong
      _ = (newLen + UInt16.ofNat Header.ip.size).toNat :=
        totLen_setTotLen (UInt16.toNat_lt _) long

end Headers

structure Reply (request reply : Frame) : Prop where
  length : reply.length = 163
  udpLen : reply.udpLen = 163
  totLen : reply.totLen = 183
  bytes : field reply headersLen (prepareStart - headersLen) =
    field request headersLen (prepareStart - headersLen)

theorem run_replyHeaders (leaderInfo : PaxosConfigure) (newLen : UInt16)
    {state : State} (long : headersLen ≤ state.dataSlice.length) :
    (replyHeaders leaderInfo newLen).run state =
      (.ok (), state.withFrame (replyIp leaderInfo newLen
        (replyUdp leaderInfo newLen state.dataSlice.swapMacs))) := by
  have macsLong := (headerEdit_swapMacs long).long long
  have udpLong := (headerEdit_replyUdp leaderInfo newLen macsLong).long macsLong
  unfold replyHeaders
  rw [run_editHeader_bind, run_editHeader_bind, run_editHeader]
  · simp only [State.dataSlice_withFrame, State.withFrame_withFrame]
  · exact holds_of_long udpLong (by decide)
  · exact holds_of_long macsLong (by decide)
  · exact holds_of_long long (by decide)

theorem headerEdit_replyHeaders (leaderInfo : PaxosConfigure) (newLen : UInt16)
    {frame : Frame} (long : headersLen ≤ frame.length) :
    HeaderEdit frame (replyIp leaderInfo newLen
      (replyUdp leaderInfo newLen frame.swapMacs)) :=
  (headerEdit_swapMacs long).andThen long fun long =>
    (headerEdit_replyUdp leaderInfo newLen long).andThen long
      (headerEdit_replyIp leaderInfo newLen)

theorem replyHeaders_ok {leaderInfo : PaxosConfigure} {newLen : UInt16}
    {state final : State} (long : headersLen ≤ state.dataSlice.length)
    (ran : (replyHeaders leaderInfo newLen).run state = (.ok (), final)) :
    HeaderEdit state.dataSlice final.dataSlice ∧
      final.dataSlice.udpLen = newLen.toNat ∧
      final.dataSlice.totLen = (newLen + UInt16.ofNat Header.ip.size).toNat := by
  have macsLong := (headerEdit_swapMacs long).long long
  have udpLong := (headerEdit_replyUdp leaderInfo newLen macsLong).long macsLong
  obtain ⟨udpLen, totLen⟩ := lengths_replyIp leaderInfo newLen udpLong
  rw [run_replyHeaders leaderInfo newLen long] at ran
  obtain ⟨_, rfl⟩ := Prod.mk.inj ran
  exact ⟨headerEdit_replyHeaders leaderInfo newLen long,
    udpLen.trans (udpLen_replyUdp leaderInfo newLen macsLong), totLen⟩

theorem writeMyPrepareOk_keepsType {ctrState : PaxosCtrState} {state final : State}
    (ran : (writeMyPrepareOk ctrState prepareStart).run state = (.ok (), final)) :
    KeepsType state.dataSlice final.dataSlice := by
  unfold writeMyPrepareOk at ran
  obtain ⟨_, s1, magic, ran1⟩ := run_bind_eq_ok.mp ran
  obtain ⟨_, s2, typeLen, ran2⟩ := run_bind_eq_ok.mp ran1
  obtain ⟨_, s3, name, ran3⟩ := run_bind_eq_ok.mp ran2
  obtain ⟨_, s4, sliced, ran4⟩ := run_bind_eq_ok.mp ran3
  obtain ⟨_, s5, view, ran5⟩ := run_bind_eq_ok.mp ran4
  obtain ⟨_, s6, lastOp, myIdx⟩ := run_bind_eq_ok.mp ran5
  obtain ⟨_, _, rfl⟩ := sliceFrom_ok sliced
  have first := (store_keepsType (by decide) magic).trans
    (store_keepsType (by decide) typeLen)
  have second := first.trans (storeEach_keepsType (by decide) name)
  have third := second.trans (store_keepsType (by decide) view)
  have fourth := third.trans (store_keepsType (by decide) lastOp)
  exact fourth.trans (store_keepsType (by decide) myIdx)

theorem lookupConfigure_ok {key : UInt32} {code : Int32} {state final : State}
    {found : PaxosConfigure}
    (ran : (lookupConfigure key code).run state = (.ok found, final)) :
    final = state := by
  unfold lookupConfigure at ran
  cases looked : bpfMapLookupElem fastReplicaMax key.toNat with
  | none =>
      rw [looked] at ran
      cases ran
  | some idx =>
      rw [looked] at ran
      exact (Prod.mk.inj ran).2.symm

theorem reply_newLen {length : Nat} (long : 163 ≤ length) :
    UInt16.ofNat length - UInt16.ofNat (length - 163) = 163 := by
  rw [← UInt16.ofNat_sub (Nat.sub_le _ _), Nat.sub_sub_self long]
  rfl

theorem prepareFastReply_tx {kernel : Kernel} {state final : State}
    (ran : (prepareFastReply kernel prepareStart).run state = (.ok xdpTx, final)) :
    Reply state.dataSlice final.dataSlice := by
  unfold prepareFastReply at ran
  obtain ⟨payload, _, sliced, ran1⟩ := run_bind_eq_ok.mp ran
  obtain ⟨inside, rfl, rfl⟩ := sliceFrom_ok sliced
  rw [run_ite] at ran1
  split at ran1
  · cases ran1
  · simp only [lookupCtrState, bpfMapLookupElem_eq_some Nat.one_pos, demand_some,
      run_pure_bind, run_get_bind] at ran1
    obtain ⟨leaderInfo, s0, looked, ran2⟩ := run_bind_eq_ok.mp ran1
    obtain ⟨_, s1, written, ran3⟩ := run_bind_eq_ok.mp ran2
    obtain ⟨body, s2, slicedBody, ran4⟩ := run_bind_eq_ok.mp ran3
    rw [run_ite] at ran4
    split at ran4
    · cases ran4
    · obtain ⟨_, s3, stored, ran5⟩ := run_bind_eq_ok.mp ran4
      obtain ⟨useless, s4, slicedUseless, ran6⟩ := run_bind_eq_ok.mp ran5
      rw [run_get_bind] at ran6
      obtain ⟨_, s5, headers, ran7⟩ := run_bind_eq_ok.mp ran6
      rw [run_get_bind] at ran7
      obtain ⟨_, _, rfl⟩ := sliceFrom_ok slicedBody
      obtain ⟨long, rfl, rfl⟩ := sliceFrom_ok slicedUseless
      obtain rfl := lookupConfigure_ok looked
      have kept := (writeMyPrepareOk_keepsType written).trans
        (store_keepsType (by decide) stored)
      have size : 163 ≤ s4.dataSlice.length := long
      have trimmed := reply_newLen size
      rw [List.length_drop, show prepareStart + 12 + myprepareokTypeLen +
        fastPaxosDataLen + (8 * 3 + 4) = 163 from rfl, trimmed] at headers ran7
      obtain ⟨edit, udpLen, totLen⟩ := replyHeaders_ok
        (le_trans (by decide) size) headers
      cases adjusted : s5.dataSlice.adjustTail kernel.refusesTail kernel.fill
          (((163 : UInt16).toNat : Int) - s5.dataSlice.length) with
      | none =>
          rw [adjusted] at ran7
          cases ran7
      | some reply =>
          rw [adjusted] at ran7
          obtain ⟨_, rfl⟩ := Prod.mk.inj ran7
          have same := edit.length
          have shrinks : ((163 : UInt16).toNat : Int) - s5.dataSlice.length ≤ 0 := by
            rw [same]
            show (163 : Int) - s4.dataSlice.length ≤ 0
            omega
          have taken : reply = s5.dataSlice.take 163 := by
            rw [adjustTail_shrink shrinks adjusted, show ((163 : UInt16).toNat : Int) =
              163 from rfl, add_sub_cancel]
            rfl
          rw [State.dataSlice_withFrame, taken]
          refine ⟨?_, ?_, ?_, ?_⟩
          · rw [List.length_take, same]
            omega
          · rw [Frame.udpLen, field_take (by decide)]
            exact udpLen
          · rw [Frame.totLen, field_take (by decide)]
            exact totLen
          · rw [field_take (by decide)]
            exact (kept.trans (HeaderEdit.keepsType edit)).bytes

theorem ok_of_verdict {result : Except Stop Int32} {code : Int32} (other : code ≠ 0)
    (regular : ∀ reason, result = .error reason → Regular reason)
    (given : verdict result = some code) : result = .ok code := by
  cases result with
  | ok value => exact congrArg Except.ok (Option.some.inj given)
  | error reason =>
      rcases regular reason rfl with rfl | rfl
      · cases given
      · exact absurd (Option.some.inj given).symm other

theorem prepare_reply {maps : Maps} {event : Ingress}
    (answered : verdict (maps.prepare event).1 = some xdpTx) :
    Reply event.frame (maps.prepare event).2.dataSlice := by
  have ok : (maps.prepare event).1 = .ok xdpTx :=
    ok_of_verdict (by decide) (handlePrepare_position event.kernel prepareStart
      (maps.start event.frame)).2 answered
  have outcome := prepare_outcome maps event
  generalize maps.prepare event = ran at outcome ok
  cases outcome with
  | passedUp advances short =>
      exact absurd (Except.ok.inj ok : xdpPass = xdpTx) (by decide)
  | lost advances enough full => cases ok
  | stored advances enough room =>
      exact prepareFastReply_tx (Prod.ext ok rfl)
  | resent notAdvances seen => exact prepareFastReply_tx (Prod.ext ok rfl)
  | ended notAdvances other =>
      obtain rfl := ok
      exact absurd other (by decide)

/-! The leader. -/

/-- The length of the type is compared with a length that includes it, so that
the end of the name may be missing. -/
theorem run_testPrepare (frame : Frame) (state : State) :
    (testPrepare frame).run state =
      if typeStart + 26 ≤ frame.length ∧ vrMark <+: field frame (typeStart + 10) 2 then
        if typeStart + 27 ≤ frame.length then
          (.ok (prepareMark.isPrefixOf (field frame (typeStart + 19) 8)), state)
        else
          (.error (.panic .slice), state)
      else
        (.ok false, state) := by
  have start : typeStart = 54 := rfl
  have sized : (frame.drop typeStart).length = frame.length - typeStart :=
    List.length_drop
  have compared : prepareTypeLen < (frame.drop (headersLen + magicLen)).length ↔
      typeStart + 26 ≤ frame.length := by
    rw [List.length_drop, show prepareTypeLen = 33 from rfl,
      show headersLen + magicLen = 46 from rfl]
    omega
  simp only [testPrepare, hasType, compared]
  by_cases enough : typeStart + 26 ≤ frame.length
  · have family : slice (frame.drop typeStart) 10 12 =
        some (field frame (typeStart + 10) 2) := by
      rw [slice_eq_some (by decide) (by omega), field_drop]
    simp only [enough, ↓reduceIte, true_and, sliceOf, family, demand_some,
      run_pure_bind, List.isPrefixOf_iff_prefix, run_ite, run_pure]
    by_cases named : typeStart + 27 ≤ frame.length
    · rw [slice_eq_some (by decide) (by omega), field_drop, demand_some, run_pure_bind,
        run_pure, if_pos named]
    · have none : slice (frame.drop typeStart) 19 27 = none :=
        if_neg fun inside => by omega
      rw [none, demand_none, run_halt_bind, if_neg named]
  · simp only [enough, ↓reduceIte, false_and, run_pure]

theorem TypedPrepare.long {frame : Frame} (typed : TypedPrepare frame) :
    typeStart + 27 ≤ frame.length := by
  have named := typed.2.length_le
  rw [field, List.length_take, List.length_drop,
    show prepareMark.length = 8 from rfl] at named
  omega

theorem run_testPrepare_typed {frame : Frame} (typed : TypedPrepare frame)
    (state : State) : (testPrepare frame).run state = (.ok true, state) := by
  have long := typed.long
  rw [run_testPrepare, if_pos ⟨by omega, typed.1⟩, if_pos long,
    List.isPrefixOf_iff_prefix.mpr typed.2]

theorem votes_handlePrepare (kernel : Kernel) (payloadIndex : Nat) (state : State) :
    ((handlePrepare kernel payloadIndex).run state).2.votes = state.votes := by
  have reply := fun state => congrArg (fun view => view.2.2)
    (besides_prepareFastReply kernel payloadIndex state)
  have outcome := handlePrepare_outcome kernel payloadIndex state
  generalize (handlePrepare kernel payloadIndex).run state = ran at outcome
  cases outcome with
  | passedUp advances short => rfl
  | lost advances enough full => rfl
  | stored advances enough room => exact reply _
  | resent notAdvances seen => exact reply _
  | ended notAdvances other => rfl

theorem Reply.typed {request reply : Frame} (replied : Reply request reply)
    (typed : TypedPrepare request) : TypedPrepare reply := by
  have part : ∀ start size, start + size ≤ prepareStart - headersLen →
      field reply (headersLen + start) size =
        field request (headersLen + start) size := by
    intro start size inside
    rw [← field_field inside, replied.bytes, field_field inside]
  constructor
  · exact (part 22 2 (by decide)).symm ▸ typed.1
  · exact (part 31 8 (by decide)).symm ▸ typed.2

/-- A leader that replies to Prepares itself takes a frame with the type of a
Prepare for one. -/
theorem leader_reads_no_vote {build : Build} (feature : build.fastReply = true)
    (leader : Maps) {event : Ingress} (typed : TypedPrepare event.frame) :
    (leader.ingress build event).2.votes = [] := by
  rcases fastPaxosMain_cases build event.kernel (leader.start event.frame) with
    ⟨_, _, ran⟩ | ended | ⟨untyped, _⟩
  · exact (congrArg (fun ran => ran.2.votes) ran).trans (votes_handlePrepare ..)
  · exact congrArg State.votes ended.same
  · have tested := run_testPrepare_typed typed (leader.start event.frame)
    have none : (testPrepare event.frame).run (leader.start event.frame) =
        (.ok false, leader.start event.frame) := untyped feature
    rw [none] at tested
    cases tested

/-- The reply has the right lengths, and the leader reads the vote in it. -/
structure Survives (build : Build) (maps : Maps) (event : Ingress) (leader : Maps)
    (kernel : Kernel) : Prop where
  totLen : (maps.prepare event).2.dataSlice.totLen =
    (maps.prepare event).2.dataSlice.length - 14
  udpLen : (maps.prepare event).2.dataSlice.udpLen =
    (maps.prepare event).2.dataSlice.length - 34
  read : (maps.prepare event).2.dataSlice.destPort = paxosPort →
    (leader.ingress build ⟨(maps.prepare event).2.dataSlice, kernel⟩).2.votes =
      [⟨maps.ctrState.view.toUInt32, u32At (event.frame.drop prepareStart) 4,
        maps.ctrState.myIdx⟩]

/-- No reply survives: its lengths count the headers before them, and what the
leader sees where the type string of the message is expected still is that of
the Prepare. -/
theorem prepareok_never_survives {build : Build} (feature : build.fastReply = true)
    (maps : Maps) (event : Ingress) (prepare : IsPrepare event.frame)
    (answered : verdict (maps.prepare event).1 = some xdpTx) (leader : Maps)
    (kernel : Kernel) :
    (maps.prepare event).2.dataSlice.length = 163 ∧
      (maps.prepare event).2.dataSlice.udpLen = 163 ∧
      (maps.prepare event).2.dataSlice.totLen = 183 ∧
      (leader.ingress build ⟨(maps.prepare event).2.dataSlice, kernel⟩).2.votes =
        [] ∧
      (Survives build maps event leader kernel ↔ False) := by
  have replied := prepare_reply answered
  set reply : Ingress := ⟨(maps.prepare event).2.dataSlice, kernel⟩ with replyEq
  have typed : TypedPrepare reply.frame := replied.typed prepare.typed
  refine ⟨replied.length, replied.udpLen, replied.totLen,
    leader_reads_no_vote feature leader typed, ?_⟩
  rw [iff_false]
  intro survives
  have totLen := survives.totLen
  rw [replied.totLen, replied.length] at totLen
  exact absurd totLen (by decide)

def fullBuild : Build :=
  ⟨true, true, 3⟩

theorem isPrepare_prepareFrame : IsPrepare (prepareFrame 0 2 1) :=
  ⟨by decide +kernel, by decide +kernel, by decide +kernel, by decide +kernel,
    by decide +kernel⟩

theorem prepareok_never_survives_first :
    (firstMaps.prepare ⟨prepareFrame 0 2 1, roomy⟩).2.dataSlice.length = 163 ∧
      ¬ Survives fullBuild firstMaps ⟨prepareFrame 0 2 1, roomy⟩ firstMaps roomy := by
  obtain ⟨length, _, _, _, never⟩ := prepareok_never_survives
    (rfl : fullBuild.fastReply = true) firstMaps ⟨prepareFrame 0 2 1, roomy⟩
    isPrepare_prepareFrame (by decide +kernel) firstMaps roomy
  exact ⟨length, never.mp⟩

theorem prepareok_is_lost :
    ¬ ∀ (build : Build) (maps : Maps) (event : Ingress) (leader : Maps)
      (kernel : Kernel),
      build.fastReply = true → build.fastQuorumPrune = true →
      maps.ctrState.view < 0x80000000 →
      maps.ctrState.myIdx < build.clusterSize.toUInt32 →
      IsPrepare event.frame → verdict (maps.prepare event).1 = some xdpTx →
      Survives build maps event leader kernel := by
  intro always
  have survives := always fullBuild firstMaps ⟨prepareFrame 0 2 1, roomy⟩ firstMaps
    roomy rfl rfl (by decide) (by decide) isPrepare_prepareFrame (by decide +kernel)
  exact absurd survives.udpLen (by decide +kernel)

end Rex.Electrode
