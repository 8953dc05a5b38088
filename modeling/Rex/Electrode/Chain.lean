import Rex.Electrode.Broadcast

namespace Rex.Electrode

open Bytes Effect Program Rex.Frame

/-! The copies of a broadcast message, from the leader to the followers. -/

/-- The verdicts and frames of a message and of all copies that it leads to.
`bpf_clone_redirect` sends a copy through the program again; a run touches the
maps before its copy is sent and only reads them after, so the copies can be
taken when it has ended. -/
def deliver (build : Build) (kernel : Kernel) :
    Nat → Maps → Frame → Option (Maps × List (Int32 × Frame))
  | 0, _, _ => none
  | fuel + 1, maps, frame => do
      let ran := (fastBroadCastMain build kernel).run (maps.start frame)
      let code ← verdict ran.1
      ran.2.clones.foldlM (fun done clone => do
        let more ← deliver build kernel fuel done.1 clone
        pure (more.1, done.2 ++ more.2)) (ran.2.maps, [(code, ran.2.dataSlice)])

structure IsBroadcast (frame : Frame) : Prop extends IsMessage frame where
  named : spMark.length ≤ messageTypeLen frame
  bit : u32At (messageBody frame) 0 &&& broadcastSignBit ≠ 0

theorem IsBroadcast.renumber {frame : Frame} (message : IsBroadcast frame)
    {start : List UInt8} (size : start.length = spMark.length) :
    IsBroadcast (put frame typeStart start) := by
  have inside := message.typeStart_le
  have two : start.length = 2 := size
  rw [show fastPaxosDataLen = 12 from rfl] at inside
  have earlier {off width : Nat} (before : off + width ≤ typeStart) :
      field (put frame typeStart start) off width = field frame off width :=
    field_put_of_before (by omega) before
  have typeLen : messageTypeLen (put frame typeStart start) =
      messageTypeLen frame := by
    rw [messageTypeLen, messageTypeLen, earlier (by decide)]
  have body : messageBody (put frame typeStart start) = messageBody frame := by
    rw [messageBody, typeLen, messageBody,
      drop_put (by omega) (size ▸ Nat.add_le_add_left message.named _)]
  refine ⟨⟨?_, ?_, ?_, typeLen ▸ message.typeLen, ?_⟩, typeLen ▸ message.named,
    body ▸ message.bit⟩
  · rw [Frame.protocol, earlier (by decide)]
    exact message.protocol
  · rw [destPort, earlier (by decide)]
    exact message.port
  · have magic := List.prefix_iff_eq_take.mp message.magic
    rw [List.prefix_iff_eq_take]
    exact magic.trans (earlier (by decide)).symm
  · rw [typeLen, length_put (by omega)]
    exact message.long

/-! One run. -/

def firstId (leaderIdx : UInt32) : UInt8 :=
  if leaderIdx = 0 then 1 else 0

/-- The frame is for the replica `id`: it comes from the leader, or it is a copy
with that number. -/
def IsFor (leaderIdx : UInt32) (frame : Frame) (id : UInt8) : Prop :=
  (spMark <+: frame.drop typeStart ∧ id = firstId leaderIdx) ∨
    [id, 77] <+: frame.drop typeStart

def State.sendOn (state : State) (build : Build) (nxt : UInt8) : State :=
  let numbered := state.withFrame (put state.dataSlice typeStart [nxt, 77])
  if nxt < build.clusterSize then numbered.redirect else numbered

section SendOn

variable (state : State) (build : Build) (nxt : UInt8)

theorem State.sendOn_frame :
    (state.sendOn build nxt).dataSlice = put state.dataSlice typeStart [nxt, 77] := by
  unfold State.sendOn
  split <;> rfl

theorem State.sendOn_maps : (state.sendOn build nxt).maps = state.maps := by
  unfold State.sendOn
  split <;> rfl

theorem State.sendOn_clones : (state.sendOn build nxt).clones =
    if nxt < build.clusterSize then
      state.clones ++ [put state.dataSlice typeStart [nxt, 77]]
    else
      state.clones := by
  unfold State.sendOn
  split <;> rfl

end SendOn

theorem run_store_bind {Value : Type} {off : Nat} {bytes : List UInt8}
    (next : Unit → Program Value) {state : State}
    (inside : off + bytes.length ≤ state.dataSlice.length) :
    (store off bytes >>= next).run state =
      (next ()).run (state.withFrame (put state.dataSlice off bytes)) := by
  rw [run_bind]
  simp only [store, run_get_bind, if_pos inside, editFrame, run_modify]

theorem run_store_pair {Value : Type} {off : Nat} (first second : UInt8)
    (next : Unit → Program Value) {state : State}
    (inside : off + 2 ≤ state.dataSlice.length) :
    (store off [first] >>= fun _ => store (off + 1) [second] >>= next).run state =
      (next ()).run (state.withFrame (put state.dataSlice off [first, second])) := by
  have one : off + [first].length ≤ state.dataSlice.length := Nat.le_of_succ_le inside
  rw [run_store_bind _ one, run_store_bind _ (by
      rw [State.dataSlice_withFrame, length_put one]
      exact inside),
    State.dataSlice_withFrame, State.withFrame_withFrame]
  rw [show off + 1 = off + [first].length from rfl, put_put one]
  rfl

theorem run_cloneRedirect (build : Build) {kernel : Kernel}
    (redirects : kernel.redirects = true) (nxt : UInt8) (state : State) :
    (cloneRedirect build kernel nxt).run state =
      (.ok (), if nxt < build.clusterSize then state.redirect else state) := by
  rw [cloneRedirect, redirects]
  split
  · rw [if_pos rfl, run_modify]
  · rw [run_pure]

theorem run_passOn (build : Build) {kernel : Kernel}
    (redirects : kernel.redirects = true) {leaderIdx : UInt32} {state : State}
    {id : UInt8} (isFor : IsFor leaderIdx state.dataSlice id)
    (inside : typeStart + 2 ≤ state.dataSlice.length) :
    (passOn build kernel leaderIdx).run state =
      (.ok id, state.sendOn build (nextId leaderIdx id)) := by
  rw [passOn, run_sliceFrom_bind _ (Nat.le_of_add_right_le inside)]
  rcases isFor with ⟨named, rfl⟩ | numbered
  · rw [if_pos (List.isPrefixOf_iff_prefix.mpr named), run_store_pair _ _ _ inside,
      run_bind, run_cloneRedirect build redirects]
    rfl
  · obtain ⟨rest, split⟩ := numbered
    -- the second byte of a copy is `M`, so it is not taken for the leader's frame
    have copied : spMark.isPrefixOf (state.dataSlice.drop typeStart) = false := by
      rw [← split]
      simp [spMark, List.isPrefixOf]
    have head : (state.dataSlice.drop typeStart)[0]? = some id := by
      rw [← split]
      rfl
    have second : [77] <+: state.dataSlice.drop (typeStart + 1) := by
      rw [← List.drop_drop, ← split]
      exact ⟨rest, rfl⟩
    have one : typeStart + [nextId leaderIdx id].length ≤ state.dataSlice.length :=
      Nat.le_of_succ_le inside
    have kept : [77] <+:
        (put state.dataSlice typeStart [nextId leaderIdx id]).drop (typeStart + 1) := by
      rw [drop_put one (Nat.le_refl (typeStart + 1))]
      exact second
    have marked : put state.dataSlice typeStart [nextId leaderIdx id] =
        put state.dataSlice typeStart [nextId leaderIdx id, 77] :=
      (put_isPrefix kept).symm.trans (put_put one)
    rw [copied, if_neg Bool.false_ne_true, head, demand_some, run_pure_bind,
      run_store_bind _ one, marked, run_bind, run_cloneRedirect build redirects]
    rfl

def Maps.replicaInfo (maps : Maps) (id : Nat) : Option PaxosConfigure :=
  (bpfMapLookupElem fastReplicaMax id).map maps.mapConfigure

theorem Maps.exists_replicaInfo (maps : Maps) {id : Nat}
    (configured : id < fastReplicaMax) :
    ∃ replicaInfo, maps.replicaInfo id = some replicaInfo :=
  ⟨_, by rw [Maps.replicaInfo, bpfMapLookupElem_eq_some configured, Option.map_some]⟩

theorem run_lookupConfigure_bind {Value : Type} {key : UInt32} {code : Int32}
    {state : State} {replicaInfo : PaxosConfigure}
    (next : PaxosConfigure → Program Value)
    (found : state.maps.replicaInfo key.toNat = some replicaInfo) :
    (lookupConfigure key code >>= next).run state = (next replicaInfo).run state := by
  obtain ⟨idx, looked, rfl⟩ := Option.map_eq_some_iff.mp found
  rw [run_bind]
  simp only [lookupConfigure, looked, demand_some, run_pure_bind, run_get_bind,
    run_pure]

def addressed (replicaInfo : PaxosConfigure) (frame : Frame) : Frame :=
  addressEth replicaInfo (addressIp replicaInfo (addressUdp replicaInfo frame))

section Headers

variable (replicaInfo : PaxosConfigure) {frame : Frame}

theorem headerEdit_addressUdp (long : headersLen ≤ frame.length) :
    HeaderEdit frame (addressUdp replicaInfo frame) :=
  (headerEdit_setDestPort (LittleEndian.length_encode _ _) long).andThen long
    headerEdit_clearUdpCheck

theorem headerEdit_addressIp (long : headersLen ≤ frame.length) :
    HeaderEdit frame (addressIp replicaInfo frame) :=
  (headerEdit_setDaddr (LittleEndian.length_encode _ _) long).andThen long
    headerEdit_setChecksum

theorem headerEdit_addressEth (long : headersLen ≤ frame.length) :
    HeaderEdit frame (addressEth replicaInfo frame) :=
  headerEdit_put (by rw [replicaInfo.sized]; decide) long

theorem headerEdit_addressed (long : headersLen ≤ frame.length) :
    HeaderEdit frame (addressed replicaInfo frame) :=
  (headerEdit_addressUdp replicaInfo long).andThen long fun long =>
    (headerEdit_addressIp replicaInfo long).andThen long
      (headerEdit_addressEth replicaInfo)

end Headers

/-- What the replica should receive of a message. -/
structure Delivered (replicaInfo : PaxosConfigure) (message out : Frame) : Prop where
  mac : field out 0 6 = replicaInfo.eth
  addr : field out (ipStart + 16) 4 = LittleEndian.encode 4 replicaInfo.addr.toNat
  port : field out (transportStart + 2) 2 =
    LittleEndian.encode 2 replicaInfo.port.toNat
  named : spMark <+: out.drop typeStart
  payload : out.drop headersLen = message.drop headersLen

theorem delivered_addressed (replicaInfo : PaxosConfigure) {message : Frame}
    (long : headersLen ≤ message.length) (named : spMark <+: message.drop typeStart) :
    Delivered replicaInfo message (addressed replicaInfo message) := by
  have edit := headerEdit_addressed replicaInfo long
  set ported := message.setDestPort (LittleEndian.encode 2 replicaInfo.port.toNat)
  have portedLong : headersLen ≤ ported.length :=
    (headerEdit_setDestPort (LittleEndian.length_encode _ _) long).long long
  set udp := addressUdp replicaInfo message with udpEq
  have udpLong : headersLen ≤ udp.length :=
    (headerEdit_addressUdp replicaInfo long).long long
  set daddr := udp.setDaddr (LittleEndian.encode 4 replicaInfo.addr.toNat)
  have daddrLong : headersLen ≤ daddr.length :=
    (headerEdit_setDaddr (LittleEndian.length_encode _ _) udpLong).long udpLong
  have ipLong : headersLen ≤ (addressIp replicaInfo udp).length :=
    (headerEdit_addressIp replicaInfo udpLong).long udpLong
  have ethBefore : 0 + replicaInfo.eth.length ≤ ipStart + 10 := by
    rw [replicaInfo.sized]
    decide
  refine ⟨field_put_value replicaInfo.sized (by decide) ipLong, ?_, ?_, ?_,
    edit.payload⟩
  · calc field (addressed replicaInfo message) (ipStart + 16) 4
      _ = field daddr.setChecksum (ipStart + 16) 4 :=
        field_put_of_beyond (ethBefore.trans (le_trans (by decide) ipLong))
          (ethBefore.trans (by decide))
      _ = field daddr (ipStart + 16) 4 :=
        field_put_of_beyond (le_trans (by rw [LittleEndian.length_encode]; decide)
          daddrLong) (by rw [LittleEndian.length_encode]; decide)
      _ = LittleEndian.encode 4 replicaInfo.addr.toNat :=
        field_put_value (LittleEndian.length_encode _ _) (by decide) udpLong
  · calc field (addressed replicaInfo message) (transportStart + 2) 2
      _ = field daddr.setChecksum (transportStart + 2) 2 :=
        field_put_of_beyond (ethBefore.trans (le_trans (by decide) ipLong))
          (ethBefore.trans (by decide))
      _ = field daddr (transportStart + 2) 2 :=
        field_put_of_beyond (le_trans (by rw [LittleEndian.length_encode]; decide)
          daddrLong) (by rw [LittleEndian.length_encode]; decide)
      _ = field udp (transportStart + 2) 2 :=
        field_put_of_beyond (le_trans (by rw [LittleEndian.length_encode]; decide)
          udpLong) (by rw [LittleEndian.length_encode]; decide)
      _ = field ported (transportStart + 2) 2 :=
        field_put_of_before (le_trans (by decide) portedLong) (by decide)
      _ = LittleEndian.encode 2 replicaInfo.port.toNat :=
        field_put_value (LittleEndian.length_encode _ _) (by decide) long
  · rw [edit.drop (by decide)]
    exact named

theorem run_addressHeaders (replicaInfo : PaxosConfigure) {state : State}
    (long : headersLen ≤ state.dataSlice.length) :
    (addressHeaders replicaInfo).run state =
      (.ok tcActOk, state.withFrame (addressed replicaInfo state.dataSlice)) := by
  have udpLong := (headerEdit_addressUdp replicaInfo long).long long
  have ipLong := (headerEdit_addressIp replicaInfo udpLong).long udpLong
  have udp : state.dataSlice.Holds transportStart .udp := holds_of_long long (by decide)
  have ip : (addressUdp replicaInfo state.dataSlice).Holds ipStart .ip :=
    holds_of_long udpLong (by decide)
  have eth : (addressIp replicaInfo
      (addressUdp replicaInfo state.dataSlice)).Holds 0 .eth :=
    holds_of_long ipLong (by decide)
  rw [addressHeaders, run_editHeader_bind _ _ udp, run_editHeader_bind,
    run_editHeader_bind, run_pure]
  · simp only [State.dataSlice_withFrame, State.withFrame_withFrame]
    rfl
  · simp only [State.dataSlice_withFrame, State.withFrame_withFrame]
    exact eth
  · rw [State.dataSlice_withFrame]
    exact ip

theorem run_address {id : UInt8} {state : State} {replicaInfo : PaxosConfigure}
    (found : state.maps.replicaInfo id.toNat = some replicaInfo)
    (inside : typeStart + 2 ≤ state.dataSlice.length) :
    (address id).run state = (.ok tcActOk, state.withFrame
      (addressed replicaInfo (put state.dataSlice typeStart spMark))) := by
  have long : headersLen ≤ (put state.dataSlice typeStart spMark).length := by
    rw [length_put inside]
    exact le_trans (by decide) inside
  have key : (state.withFrame (put state.dataSlice typeStart [115, 112])).maps.replicaInfo
      id.toUInt32.toNat = some replicaInfo := by
    rw [UInt8.toNat_toUInt32]
    exact found
  rw [address, run_store_pair _ _ _ inside, run_lookupConfigure_bind _ key,
    run_addressHeaders replicaInfo long]
  rfl

/-! The whole chain. -/

structure KeepsRoute (state other : State) : Prop where
  frame : other.dataSlice = state.dataSlice
  clones : other.clones = state.clones
  configure : other.maps.mapConfigure = state.maps.mapConfigure
  ctrState : other.maps.mapCtrState = state.maps.mapCtrState

theorem recorded_keeps (state : State) (payload : List UInt8) :
    KeepsRoute state (state.recorded payload) := by
  unfold State.recorded
  split
  · exact ⟨rfl, rfl, rfl, rfl⟩
  · exact ⟨rfl, rfl, rfl, rfl⟩

/-- What a run for the replica `id` leaves behind. -/
structure Passed (build : Build) (maps : Maps) (frame : Frame) (id : UInt8)
    (replicaInfo : PaxosConfigure) (final : State) : Prop where
  sent : final.dataSlice = addressed replicaInfo (put frame typeStart spMark)
  clones : final.clones =
    if nextId maps.ctrState.leaderIdx id < build.clusterSize then
      [put frame typeStart [nextId maps.ctrState.leaderIdx id, 77]]
    else
      []
  configure : final.maps.replicaInfo = maps.replicaInfo
  ctrState : final.maps.ctrState = maps.ctrState

theorem run_broadcast (build : Build) {kernel : Kernel}
    (redirects : kernel.redirects = true) {maps : Maps} {frame : Frame} {id : UInt8}
    {replicaInfo : PaxosConfigure} (message : IsBroadcast frame)
    (isFor : IsFor maps.ctrState.leaderIdx frame id)
    (found : maps.replicaInfo id.toNat = some replicaInfo) :
    ∃ final, (fastBroadCastMain build kernel).run (maps.start frame) =
        (.ok tcActOk, final) ∧
      Passed build maps frame id replicaInfo final := by
  have inside : typeStart + 2 ≤ frame.length :=
    le_trans (by decide) message.typeStart_le
  have noted := recorded_keeps (maps.start frame) (messageBody frame)
  set recorded := (maps.start frame).recorded (messageBody frame)
  have frameEq : recorded.dataSlice = frame := noted.frame
  have leader : recorded.ctrState = maps.ctrState := congrArg (· 0) noted.ctrState
  set nxt := nextId maps.ctrState.leaderIdx id
  have route : (passOn build kernel recorded.ctrState.leaderIdx).run recorded =
      (.ok id, recorded.sendOn build nxt) := by
    rw [leader]
    exact run_passOn build redirects (frameEq.symm ▸ isFor) (frameEq.symm ▸ inside)
  have sentFrame : (recorded.sendOn build nxt).dataSlice =
      put frame typeStart [nxt, 77] := by
    rw [State.sendOn_frame, frameEq]
  have configure : (recorded.sendOn build nxt).maps.replicaInfo =
      maps.replicaInfo := by
    funext number
    rw [State.sendOn_maps, Maps.replicaInfo, noted.configure]
    rfl
  have sentInside : typeStart + 2 ≤ (recorded.sendOn build nxt).dataSlice.length := by
    rw [sentFrame, length_put inside]
    exact inside
  have restored : put (recorded.sendOn build nxt).dataSlice typeStart spMark =
      put frame typeStart spMark := by
    rw [sentFrame]
    exact put_overwrite inside rfl
  have last := run_address (configure ▸ found) sentInside
  rw [restored] at last
  refine ⟨(recorded.sendOn build nxt).withFrame
    (addressed replicaInfo (put frame typeStart spMark)), ?_, rfl, ?_, configure, ?_⟩
  · rw [run_fastBroadCastMain build kernel message.toIsMessage, run_broadcastMessage]
    change (if u32At (messageBody frame) 0 &&& broadcastSignBit = 0 then _
      else _) = _
    rw [if_neg message.bit]
    exact run_bind_eq_ok.mpr ⟨id, _, route, last⟩
  · change (recorded.sendOn build nxt).clones = _
    rw [State.sendOn_clones, noted.clones, frameEq]
    rfl
  · change (recorded.sendOn build nxt).maps.ctrState = maps.ctrState
    rw [State.sendOn_maps]
    exact leader

def followersFrom (clusterSize leaderIdx first : Nat) : List Nat :=
  (List.range' first (clusterSize - first)).filter (· ≠ leaderIdx)

theorem followersFrom_end {clusterSize leaderIdx first : Nat}
    (beyond : clusterSize ≤ first) : followersFrom clusterSize leaderIdx first = [] := by
  rw [followersFrom, Nat.sub_eq_zero_of_le beyond, List.range'_zero, List.filter_nil]

theorem followersFrom_succ {clusterSize leaderIdx first : Nat}
    (inside : first < clusterSize) :
    followersFrom clusterSize leaderIdx first =
      if first = leaderIdx then followersFrom clusterSize leaderIdx (first + 1)
      else first :: followersFrom clusterSize leaderIdx (first + 1) := by
  obtain ⟨more, rfl⟩ := Nat.exists_eq_add_of_lt inside
  have rest : first + more + 1 - first = more + 1 := by omega
  have fewer : first + more + 1 - (first + 1) = more := by omega
  rw [followersFrom, rest, List.range'_succ, List.filter_cons, followersFrom, fewer]
  split <;> simp_all

theorem toNat_nextId {leaderIdx : UInt32} {id : UInt8} (small : id.toNat < 100) :
    (nextId leaderIdx id).toNat =
      if leaderIdx.toNat = id.toNat + 1 then id.toNat + 2 else id.toNat + 1 := by
  have one : (id + 1).toNat = id.toNat + 1 := by
    rw [UInt8.toNat_add]
    exact Nat.mod_eq_of_lt (by change id.toNat + 1 < 256; omega)
  have two : (id + 1 + 1).toNat = id.toNat + 2 := by
    rw [UInt8.toNat_add, one]
    exact Nat.mod_eq_of_lt (by change id.toNat + 1 + 1 < 256; omega)
  have isLeader : leaderIdx = (id + 1).toUInt32 ↔ leaderIdx.toNat = id.toNat + 1 := by
    rw [← UInt32.toNat_inj, UInt8.toNat_toUInt32, one]
  unfold nextId
  split
  · rename_i leads
    rw [if_pos (isLeader.mp leads), two]
  · rename_i leads
    rw [if_neg (mt isLeader.mpr leads), one]

theorem followersFrom_next {clusterSize : Nat} {leaderIdx : UInt32} {id : UInt8}
    (inside : id.toNat < clusterSize) (small : clusterSize ≤ 100)
    (follower : id.toNat ≠ leaderIdx.toNat) :
    followersFrom clusterSize leaderIdx.toNat id.toNat =
      id.toNat :: followersFrom clusterSize leaderIdx.toNat
        (nextId leaderIdx id).toNat := by
  rw [followersFrom_succ inside, if_neg follower, toNat_nextId (by omega)]
  split
  · rename_i leads
    rcases le_or_gt clusterSize (id.toNat + 1) with last | more
    · rw [followersFrom_end last, followersFrom_end (by omega)]
    · rw [followersFrom_succ more, if_pos leads.symm]
  · rfl

theorem nextId_ne_leader {leaderIdx : UInt32} {id : UInt8} (small : id.toNat < 100) :
    (nextId leaderIdx id).toNat ≠ leaderIdx.toNat := by
  rw [toNat_nextId small]
  split
  · omega
  · omega

def Reaches (maps : Maps) (message : Frame) (followers : List Nat)
    (sent : List (Int32 × Frame)) : Prop :=
  List.Forall₂ (fun id out => out.1 = tcActOk ∧
    ∃ replicaInfo, maps.replicaInfo id = some replicaInfo ∧
      Delivered replicaInfo message out.2) followers sent

theorem Passed.reaches {build : Build} {maps : Maps} {frame message : Frame}
    {id : UInt8} {replicaInfo : PaxosConfigure} {final : State}
    (passed : Passed build maps frame id replicaInfo final) {followers : List Nat}
    {sent : List (Int32 × Frame)} (reaches : Reaches final.maps message followers sent) :
    Reaches maps message followers sent := by
  rw [Reaches, passed.configure] at reaches
  exact reaches

section Chain

variable (build : Build) {kernel : Kernel} {original : Frame}

theorem deliver_from (redirects : kernel.redirects = true)
    (small : build.clusterSize.toNat ≤ fastReplicaMax)
    (long : headersLen ≤ original.length) (named : spMark <+: original.drop typeStart)
    {fuel : Nat} {maps : Maps} {frame : Frame} {id : UInt8}
    (message : IsBroadcast frame) (copy : put frame typeStart spMark = original)
    (isFor : IsFor maps.ctrState.leaderIdx frame id)
    (inside : id.toNat < build.clusterSize.toNat)
    (follower : id.toNat ≠ maps.ctrState.leaderIdx.toNat)
    (enough : build.clusterSize.toNat ≤ id.toNat + fuel) :
    ∃ final sent, deliver build kernel fuel maps frame = some (final, sent) ∧
      Reaches maps original (followersFrom build.clusterSize.toNat
        maps.ctrState.leaderIdx.toNat id.toNat) sent := by
  -- each copy has a higher number than the frame that it was made from
  induction fuel generalizing maps frame id with
  | zero => omega
  | succ fuel induction =>
      rw [show fastReplicaMax = 100 from rfl] at small
      obtain ⟨replicaInfo, found⟩ := maps.exists_replicaInfo
        (show id.toNat < fastReplicaMax from inside.trans_le small)
      obtain ⟨state, ran, passed⟩ := run_broadcast build redirects message isFor found
      have reached := delivered_addressed replicaInfo long named
      rw [followersFrom_next inside small follower]
      have clones := passed.clones
      have higher : id.toNat < (nextId maps.ctrState.leaderIdx id).toNat := by
        rw [toNat_nextId (by omega)]
        split
        · omega
        · omega
      have skipped : (nextId maps.ctrState.leaderIdx id).toNat ≠
          state.maps.ctrState.leaderIdx.toNat := by
        rw [passed.ctrState]
        exact nextId_ne_leader (by omega)
      generalize nextId maps.ctrState.leaderIdx id = nxt at clones higher skipped ⊢
      simp only [deliver, ran, verdict, clones, passed.sent, copy]
      split
      · rename_i more
        have size : [nxt, 77].length = spMark.length := rfl
        have inFrame : typeStart + [nxt, 77].length ≤ frame.length :=
          le_trans (show typeStart + 2 ≤ typeStart + fastPaxosDataLen by decide)
            message.typeStart_le
        have copied : [nxt, 77] <+: (put frame typeStart [nxt, 77]).drop typeStart := by
          rw [drop_put_self (Nat.le_of_add_right_le inFrame)]
          exact List.prefix_append _ _
        have restored : put (put frame typeStart [nxt, 77]) typeStart spMark =
            original := (put_overwrite inFrame size).trans copy
        obtain ⟨final, sent, delivered, reaches⟩ := induction
          (message.renumber size) restored (.inr copied)
          (UInt8.lt_iff_toNat_lt.mp more) skipped (by omega)
        rw [passed.ctrState] at reaches
        simp only [List.foldlM_cons, List.foldlM_nil, delivered]
        exact ⟨_, _, rfl,
          .cons ⟨rfl, replicaInfo, found, reached⟩ (passed.reaches reaches)⟩
      · rename_i last
        rw [UInt8.lt_iff_toNat_lt, not_lt] at last
        rw [followersFrom_end last]
        exact ⟨_, _, rfl, .cons ⟨rfl, replicaInfo, found, reached⟩ .nil⟩

end Chain

theorem followersFrom_firstId {clusterSize : Nat} (leaderIdx : UInt32)
    (many : 2 ≤ clusterSize) :
    followersFrom clusterSize leaderIdx.toNat (firstId leaderIdx).toNat =
      (List.range clusterSize).filter (· ≠ leaderIdx.toNat) := by
  have all : followersFrom clusterSize leaderIdx.toNat 0 =
      (List.range clusterSize).filter (· ≠ leaderIdx.toNat) := by
    rw [followersFrom, Nat.sub_zero, List.range_eq_range']
  rw [← all, firstId]
  split
  · rename_i isZero
    rw [isZero, followersFrom_succ (show 0 < clusterSize by omega)]
    rfl
  · rfl

theorem broadcast_reaches_followers (build : Build) {kernel : Kernel} {maps : Maps}
    {message : Frame} {fuel : Nat} (redirects : kernel.redirects = true)
    (many : 2 ≤ build.clusterSize.toNat)
    (small : build.clusterSize.toNat ≤ fastReplicaMax)
    (leads : maps.ctrState.leaderIdx.toNat < build.clusterSize.toNat)
    (broadcast : IsBroadcast message) (named : spMark <+: message.drop typeStart)
    (enough : build.clusterSize.toNat ≤ fuel) :
    ∃ final sent, deliver build kernel fuel maps message = some (final, sent) ∧
      Reaches maps message ((List.range build.clusterSize.toNat).filter
        (· ≠ maps.ctrState.leaderIdx.toNat)) sent := by
  have first : (firstId maps.ctrState.leaderIdx).toNat < build.clusterSize.toNat ∧
      (firstId maps.ctrState.leaderIdx).toNat ≠ maps.ctrState.leaderIdx.toNat := by
    unfold firstId
    split
    · rename_i isZero
      rw [isZero]
      exact ⟨many, by decide⟩
    · rename_i notZero
      refine ⟨Nat.zero_lt_of_lt leads, fun same => notZero ?_⟩
      exact UInt32.toNat_inj.mp same.symm
  rw [← followersFrom_firstId _ many]
  exact deliver_from build redirects small
    (le_trans (by decide) broadcast.typeStart_le) named broadcast (put_isPrefix named)
    (.inl ⟨named, rfl⟩) first.1 first.2 (by omega)

def spreadMaps : Maps :=
  { firstMaps with
    mapConfigure := fun idx => ⟨UInt32.ofNat idx, UInt16.ofNat (paxosPort + idx),
      List.replicate 6 (UInt8.ofNat idx), rfl⟩ }

theorem broadcast_reaches_followers_three :
    ∃ final sent, deliver Build.default roomy 3 spreadMaps
        (prepareFrame (2 ^ 31) 1 1) = some (final, sent) ∧
      Reaches spreadMaps (prepareFrame (2 ^ 31) 1 1) [1, 2] sent := by
  exact broadcast_reaches_followers Build.default rfl (by decide) (by decide) (by decide)
    ⟨⟨by decide +kernel, by decide +kernel, by decide +kernel, by decide +kernel,
      by decide +kernel⟩, by decide +kernel, by decide +kernel⟩ (by decide +kernel) le_rfl

end Rex.Electrode
