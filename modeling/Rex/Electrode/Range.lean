import Rex.Electrode.Chain
import Rex.Electrode.Trip

namespace Rex.Electrode

open Bytes Effect Program Rex.Frame

/-! Which frames `fast_paxos_main` reads and writes within their bounds. -/

def Panics (result : Except Stop Int32) : Prop :=
  ∃ reason, result = .error (.panic reason)

theorem not_panics_ok (code : Int32) : ¬ Panics (.ok code) := by
  rintro ⟨_, stopped⟩
  cases stopped

theorem not_panics_err (code : Int32) : ¬ Panics (.error (.err code)) := by
  rintro ⟨_, stopped⟩
  cases stopped

/-! The operations on the frame, by its length. -/

section OfLength

variable {length off : Nat} {bytes : List UInt8}

def OfLength (length : Nat) (state : State) : Prop :=
  state.dataSlice.length = length

theorem not_panics_of_completes {program : Program Int32} {after : State → Prop}
    {state : State} (completes : Completes (OfLength length) program after)
    (sized : state.dataSlice.length = length) : ¬ Panics (program.run state).1 := by
  obtain ⟨code, final, ended, _⟩ := completes state sized
  rw [ended]
  exact not_panics_ok code

theorem panics_of_halts {program : Program Int32} {state : State}
    (halts : Halts (OfLength length) (.panic .slice) program)
    (sized : state.dataSlice.length = length) : Panics (program.run state).1 :=
  ⟨.slice, halts state sized⟩

theorem completes_sliceFrom (inside : off ≤ length) :
    Completes (OfLength length) (sliceFrom off) (OfLength length) := by
  rintro state rfl
  exact ⟨state.dataSlice.drop off, state, run_sliceFrom inside, rfl⟩

theorem completes_sliceFrom_bind {Value : Type} {next : List UInt8 → Program Value}
    {after : State → Prop} (inside : off ≤ length)
    (rest : ∀ found, found.length = length - off →
      Completes (OfLength length) (next found) after) :
    Completes (OfLength length) (sliceFrom off >>= next) after := by
  rintro state rfl
  rw [run_sliceFrom_bind next inside]
  exact rest _ List.length_drop state rfl

theorem completes_store (inside : off + bytes.length ≤ length) :
    Completes (OfLength length) (store off bytes) (OfLength length) := by
  rintro state rfl
  refine ⟨(), state.withFrame (put state.dataSlice off bytes), ?_, length_put inside⟩
  simp only [store, run_get_bind, if_pos inside, editFrame, run_modify]

theorem halts_store (outside : length < off + bytes.length) :
    Halts (OfLength length) (.panic .slice) (store off bytes) := by
  rintro state rfl
  simp only [store, run_get_bind, if_neg (not_le.mpr outside), run_halt]

theorem completes_store_encode {width value : Nat} (inside : off + width ≤ length) :
    Completes (OfLength length) (store off (LittleEndian.encode width value))
      (OfLength length) :=
  completes_store (by rwa [LittleEndian.length_encode])

theorem halts_store_encode {width value : Nat} (outside : length < off + width) :
    Halts (OfLength length) (.panic .slice)
      (store off (LittleEndian.encode width value)) :=
  halts_store (by rwa [LittleEndian.length_encode])

theorem completes_storeEach (inside : off + bytes.length ≤ length) :
    Completes (OfLength length) (storeEach off bytes) (OfLength length) := by
  induction bytes generalizing off with
  | nil => exact completes_pure ()
  | cons byte rest induction =>
      rw [List.length_cons] at inside
      have first : off + [byte].length ≤ length := by
        rw [List.length_singleton]
        omega
      exact (completes_store first).bind fun _ => induction (by omega)

theorem halts_storeEach (nonempty : bytes ≠ [])
    (outside : length < off + bytes.length) :
    Halts (OfLength length) (.panic .slice) (storeEach off bytes) := by
  induction bytes generalizing off with
  | nil => exact absurd rfl nonempty
  | cons byte rest induction =>
      rw [List.length_cons] at outside
      by_cases first : off + [byte].length ≤ length
      · have more : rest ≠ [] := by
          rintro rfl
          rw [List.length_singleton] at first
          rw [List.length_nil] at outside
          omega
        exact (completes_store first).bind_halts fun _ => induction more (by omega)
      · exact (halts_store (not_le.mp first)).bind _

theorem completes_replyHeaders (leaderInfo : PaxosConfigure) (newLen : UInt16)
    (long : headersLen ≤ length) :
    Completes (OfLength length) (replyHeaders leaderInfo newLen)
      (OfLength length) := by
  rintro state rfl
  exact ⟨(), _, run_replyHeaders leaderInfo newLen long,
    (headerEdit_replyHeaders leaderInfo newLen long).length⟩

end OfLength

/-! The reply to a Prepare. -/

section Reply

variable {length payloadIndex : Nat}

def replyBodyStart (payloadIndex : Nat) : Nat :=
  payloadIndex + 12 + myprepareokTypeLen + fastPaxosDataLen

theorem completes_writeMyPrepareOk (ctrState : PaxosCtrState)
    (long : replyBodyStart payloadIndex ≤ length) :
    Completes (OfLength length) (writeMyPrepareOk ctrState payloadIndex)
      (OfLength length) := by
  have bodyStart : replyBodyStart payloadIndex = payloadIndex + 48 := rfl
  have typeLen : myprepareokTypeLen = 24 := rfl
  apply (completes_store_encode (by omega)).bind
  intro _
  apply (completes_store_encode (by omega)).bind
  intro _
  apply (completes_storeEach (by
    rw [show myprepareokName.length = 11 from rfl]
    omega)).bind
  intro _
  apply (completes_sliceFrom (by omega)).bind
  intro _
  apply (completes_store_encode (by omega)).bind
  intro _
  apply (completes_store_encode (by omega)).bind
  intro _
  exact completes_store_encode (by omega)

/-- The first check asks for 21 bytes, and the message takes 48. -/
theorem halts_writeMyPrepareOk (ctrState : PaxosCtrState)
    (enough : payloadIndex + fastPaxosDataLen + 8 < length)
    (short : length < replyBodyStart payloadIndex) :
    Halts (OfLength length) (.panic .slice)
      (writeMyPrepareOk ctrState payloadIndex) := by
  have bodyStart : replyBodyStart payloadIndex = payloadIndex + 48 := rfl
  have typeLen : myprepareokTypeLen = 24 := rfl
  have dataLen : fastPaxosDataLen = 12 := rfl
  have nameLen : myprepareokName.length = 11 := rfl
  apply (completes_store_encode (by omega)).bind_halts
  intro _
  apply (completes_store_encode (by omega)).bind_halts
  intro _
  by_cases named : payloadIndex + 12 + 13 + myprepareokName.length ≤ length
  · apply (completes_storeEach named).bind_halts
    intro _
    apply (completes_sliceFrom (by omega)).bind_halts
    intro _
    by_cases viewed : payloadIndex + 12 + myprepareokTypeLen + 4 ≤ length
    · apply (completes_store_encode viewed).bind_halts
      intro _
      by_cases operated : payloadIndex + 12 + myprepareokTypeLen + 4 + 4 ≤ length
      · apply (completes_store_encode operated).bind_halts
        intro _
        exact halts_store_encode (by omega)
      · exact (halts_store_encode (not_le.mp operated)).bind _
    · exact (halts_store_encode (not_le.mp viewed)).bind _
  · exact (halts_storeEach (by decide) (not_le.mp named)).bind _

def replyToLeader (kernel : Kernel) (payloadIndex : Nat) (ctrState : PaxosCtrState)
    (leaderInfo : PaxosConfigure) : Program Int32 := do
  writeMyPrepareOk ctrState payloadIndex
  let bodyStart := replyBodyStart payloadIndex
  let body ← sliceFrom bodyStart
  if body.length < 8 * 3 + 4 then
    pure xdpPass
  else do
    store bodyStart (prepareOkBody ctrState payloadIndex)
    let useless ← sliceFrom (bodyStart + (8 * 3 + 4))
    let state ← get
    let uselessLen := UInt16.ofNat useless.length
    let newLen := UInt16.ofNat state.dataSlice.length - uselessLen
    replyHeaders leaderInfo newLen
    let state ← get
    match state.dataSlice.adjustTail kernel.refusesTail kernel.fill
        ((newLen.toNat : Int) - state.dataSlice.length) with
    | none => pure xdpDrop
    | some adjusted => do
        editFrame fun _ => adjusted
        pure xdpTx

theorem run_prepareFastReply (kernel : Kernel) {state : State}
    (inside : payloadIndex ≤ state.dataSlice.length) :
    (prepareFastReply kernel payloadIndex).run state =
      if (state.dataSlice.drop payloadIndex).length ≤ fastPaxosDataLen + 8 then
        (.ok xdpPass, state)
      else
        (lookupConfigure state.ctrState.leaderIdx 0 >>=
          replyToLeader kernel payloadIndex state.ctrState).run state := by
  unfold prepareFastReply
  rw [run_sliceFrom_bind _ inside, run_ite]
  simp only [lookupCtrState, bpfMapLookupElem_eq_some Nat.one_pos, demand_some,
    run_pure_bind, run_get_bind, run_pure]
  rfl

theorem length_prepareOkBody (ctrState : PaxosCtrState) (payloadIndex : Nat) :
    (prepareOkBody ctrState payloadIndex).length = 8 * 3 + 4 := by
  simp only [prepareOkBody, List.length_append, LittleEndian.length_encode]

theorem completes_replyToLeader (kernel : Kernel) (ctrState : PaxosCtrState)
    (leaderInfo : PaxosConfigure) (start : headersLen ≤ payloadIndex)
    (long : replyBodyStart payloadIndex ≤ length) :
    Completes (OfLength length)
      (replyToLeader kernel payloadIndex ctrState leaderInfo) fun _ => True := by
  have bodyStart : replyBodyStart payloadIndex = payloadIndex + 48 := rfl
  apply (completes_writeMyPrepareOk ctrState long).bind
  intro _
  apply completes_sliceFrom_bind long
  intro body bodyLen
  by_cases short : body.length < 8 * 3 + 4
  · rw [if_pos short]
    exact (completes_pure _).weaken fun _ _ => trivial
  · rw [if_neg short]
    have inside : replyBodyStart payloadIndex + (8 * 3 + 4) ≤ length := by
      omega
    apply (completes_store (by rwa [length_prepareOkBody])).bind
    intro _
    apply (completes_sliceFrom inside).bind
    intro useless
    apply completes_get.bind
    intro written
    apply (completes_replyHeaders _ _ (by omega)).bind
    intro _
    apply completes_get.bind
    intro turned
    split
    · exact (completes_pure _).weaken fun _ _ => trivial
    · rename_i adjusted _
      have edited : Completes (OfLength length) (editFrame fun _ => adjusted)
          fun _ => True := completes_modify fun _ _ => trivial
      exact edited.bind fun _ => completes_pure _

theorem halts_replyToLeader (kernel : Kernel) (ctrState : PaxosCtrState)
    (leaderInfo : PaxosConfigure)
    (enough : payloadIndex + fastPaxosDataLen + 8 < length)
    (short : length < replyBodyStart payloadIndex) :
    Halts (OfLength length) (.panic .slice)
      (replyToLeader kernel payloadIndex ctrState leaderInfo) :=
  (halts_writeMyPrepareOk ctrState enough short).bind _

/-- Long enough for the first check of `prepare_fast_reply`, and too short for
what it then writes. -/
def CutReply (payloadIndex length : Nat) : Prop :=
  payloadIndex + fastPaxosDataLen + 8 < length ∧ length < replyBodyStart payloadIndex

theorem run_lookupConfigure_absent {Value : Type} {key : UInt32} {code : Int32}
    (next : PaxosConfigure → Program Value) (state : State)
    (absent : ¬ key.toNat < fastReplicaMax) :
    (lookupConfigure key code >>= next).run state = (.error (.err code), state) := by
  have none : bpfMapLookupElem fastReplicaMax key.toNat = none := dif_neg absent
  rw [run_bind]
  simp only [lookupConfigure, none, demand_none, run_halt_bind]

theorem panics_prepareFastReply_iff (kernel : Kernel) {state : State}
    (start : headersLen ≤ payloadIndex)
    (inside : payloadIndex ≤ state.dataSlice.length) :
    Panics ((prepareFastReply kernel payloadIndex).run state).1 ↔
      state.ctrState.leaderIdx.toNat < fastReplicaMax ∧
        CutReply payloadIndex state.dataSlice.length := by
  rw [run_prepareFastReply kernel inside, List.length_drop]
  have dataLen : fastPaxosDataLen = 12 := rfl
  by_cases small : state.dataSlice.length - payloadIndex ≤ fastPaxosDataLen + 8
  · rw [if_pos small]
    refine iff_of_false (not_panics_ok xdpPass) ?_
    rintro ⟨_, enough, _⟩
    omega
  · rw [if_neg small]
    by_cases configured : state.ctrState.leaderIdx.toNat < fastReplicaMax
    · obtain ⟨leaderInfo, found⟩ := state.maps.exists_replicaInfo configured
      rw [run_lookupConfigure_bind _ found]
      by_cases long : replyBodyStart payloadIndex ≤ state.dataSlice.length
      · refine iff_of_false (not_panics_of_completes
          (completes_replyToLeader kernel _ leaderInfo start long) rfl) ?_
        rintro ⟨_, _, short⟩
        omega
      · have enough : payloadIndex + fastPaxosDataLen + 8 < state.dataSlice.length := by
          omega
        exact iff_of_true (panics_of_halts (halts_replyToLeader kernel _ leaderInfo
          enough (not_le.mp long)) rfl) ⟨configured, enough, not_le.mp long⟩
    · rw [run_lookupConfigure_absent _ _ configured]
      exact iff_of_false (not_panics_err 0) fun cut => configured cut.1

end Reply

/-! A Prepare. -/

structure Resends (ctrState : PaxosCtrState) (payload : List UInt8) : Prop where
  normal : ctrState.state = .statusNormal
  sameView : prepareView payload = ctrState.view
  seen : prepareLastOp payload ≤ ctrState.lastOp
  configured : ctrState.leaderIdx.toNat < fastReplicaMax

theorem Resends.seenBefore {ctrState : PaxosCtrState} {payload : List UInt8}
    (resends : Resends ctrState payload) : SeenBefore ctrState payload :=
  ⟨resends.normal, resends.sameView, resends.seen⟩

theorem not_panics_writeBuffer (kernel : Kernel) {payloadIndex : Nat} {state : State}
    (start : headersLen ≤ payloadIndex)
    (long : fastPaxosDataLen ≤ (state.dataSlice.drop payloadIndex).length) :
    ¬ Panics ((writeBuffer kernel payloadIndex).run state).1 := by
  rw [run_writeBuffer kernel long]
  split
  · exact not_panics_ok xdpPass
  · rename_i enough
    split
    · exact not_panics_err 0
    · have dataLen : fastPaxosDataLen = 12 := rfl
      have maxLen : maxDataLen = 64 := rfl
      have bodyStart : replyBodyStart payloadIndex = payloadIndex + 48 := rfl
      rw [List.length_drop] at enough long
      rw [panics_prepareFastReply_iff kernel start (by
        change payloadIndex ≤ state.dataSlice.length
        omega)]
      rintro ⟨_, _, short⟩
      change state.dataSlice.length < _ at short
      omega

theorem panics_handlePrepare_iff (kernel : Kernel) {payloadIndex : Nat}
    {state : State} (start : headersLen ≤ payloadIndex)
    (inside : payloadIndex ≤ state.dataSlice.length) :
    Panics ((handlePrepare kernel payloadIndex).run state).1 ↔
      Resends state.ctrState (state.dataSlice.drop payloadIndex) ∧
        CutReply payloadIndex state.dataSlice.length := by
  by_cases long : fastPaxosDataLen ≤ (state.dataSlice.drop payloadIndex).length
  · rcases handlePrepare_cases kernel rfl long with
      ⟨advances, ran⟩ | ⟨seen, ran⟩ | ⟨_, notSeen, ended⟩
    · rw [ran]
      exact iff_of_false (not_panics_writeBuffer kernel start long)
        fun cut => cut.1.seenBefore.not_advances advances
    · rw [ran, panics_prepareFastReply_iff kernel start inside]
      exact and_congr_left fun _ =>
        ⟨fun configured => ⟨seen.1, seen.2.1, seen.2.2, configured⟩,
          Resends.configured⟩
    · refine iff_of_false ?_ fun cut => notSeen cut.1.seenBefore
      rcases ended with passed | dropped
      · rw [passed]
        exact not_panics_ok xdpPass
      · rw [dropped]
        exact not_panics_ok xdpDrop
  · rw [run_handlePrepare_short kernel inside long]
    refine iff_of_false (not_panics_ok xdpPass) ?_
    rintro ⟨_, enough, _⟩
    rw [List.length_drop] at long
    omega

/-! The messages of the other feature. -/

section Prune

variable {length : Nat}

theorem completes_handlePrepareOk (build : Build) (kernel : Kernel)
    {payloadIndex : Nat} (inside : payloadIndex ≤ length) :
    Completes (OfLength length) (handlePrepareOk build kernel payloadIndex)
      fun _ => True := by
  have ended : ∀ code, Completes (fun _ => True)
      (pure code : Program Int32) fun _ => True := fun code => completes_pure code
  have changed : ∀ change : State → State, Completes (fun _ => True)
      (modify change : Program Unit) fun _ => True :=
    fun change => completes_modify fun _ _ => trivial
  apply ((completes_sliceFrom inside).weaken fun _ _ => trivial).bind
  intro payload
  apply (ended _).ite
  apply (changed _).bind
  intro _
  rw [lookupQuorum_quorumIdx]
  apply (completes_pure _).bind
  intro idx
  apply completes_get.bind
  intro state
  apply (ended _).ite
  apply (changed _).bind
  intro _
  apply (ended _).ite
  split
  · exact ended _
  · exact (changed _).bind fun _ => ended _

theorem completes_sliceOf {before : State → Prop} {bytes : List UInt8}
    {start finish : Nat} (ordered : start ≤ finish) (inside : finish ≤ bytes.length) :
    Completes before (sliceOf bytes start finish) before := by
  rw [sliceOf, slice_eq_some ordered inside, demand_some]
  exact completes_pure _

theorem completes_hasType {before : State → Prop} {len typeLen : Nat}
    {payload : List UInt8} {start finish : Nat} (mark : List UInt8)
    (ordered : start ≤ finish) (beyond : 12 ≤ finish)
    (inside : typeLen < len → finish ≤ payload.length) :
    Completes before (hasType len typeLen payload start finish mark) before := by
  unfold hasType
  split
  · rename_i long
    apply (completes_sliceOf (by decide) (beyond.trans (inside long))).bind
    intro protocol
    refine Completes.ite ?_ (completes_pure _)
    apply (completes_sliceOf ordered (inside long)).bind
    intro name
    exact completes_pure _
  · exact completes_pure _

theorem completes_pruneQuorum (build : Build) (kernel : Kernel)
    {payload : List UInt8} (inside : typeStart ≤ length)
    (sized : payload.length = length - typeStart) :
    Completes (OfLength length) (pruneQuorum build kernel
      (length - (headersLen + magicLen)) payload typeStart) fun _ => True := by
  have start : typeStart = 54 := rfl
  have magicEnd : headersLen + magicLen = 46 := rfl
  have handled := completes_handlePrepareOk build kernel inside
  have passed : Completes (OfLength length) (pure xdpPass : Program Int32)
      fun _ => True := (completes_pure _).weaken fun _ _ => trivial
  refine Completes.ite ?_ passed
  apply (completes_hasType _ (by decide) (by decide) (by
    rw [show prepareokTypeLen = 35 from rfl]
    omega)).bind
  intro isPrepareok
  apply handled.ite
  apply (completes_hasType _ (by decide) (by decide) (by
    rw [show myprepareokTypeLen = 24 from rfl]
    omega)).bind
  intro isMyprepareok
  exact handled.ite passed

end Prune

/-! The test for a Prepare, which comes first. -/

/-- The frame is looked at for a type string. -/
structure ReachesType (frame : Frame) : Prop where
  protocol : frame.protocol = ipprotoUdp
  port : frame.destPort = paxosPort
  magic : magicBits <+: frame.drop headersLen
  long : typeStart ≤ frame.length
  typeLen : messageTypeLen frame < mtu
  fits : headersLen + magicLen + messageTypeLen frame ≤ frame.length

def dispatch (build : Build) (kernel : Kernel) (frame : Frame) : Program Int32 := do
  let isPrepare ← testPrepare frame
  if isPrepare then
    handlePrepare kernel prepareStart
  else
    pruneQuorum build kernel (frame.length - (headersLen + magicLen))
      (frame.drop typeStart) typeStart

theorem run_handleUdpFastPaxos {build : Build} (feature : build.fastReply = true)
    (kernel : Kernel) {state : State} (long : typeStart ≤ state.dataSlice.length) :
    (handleUdpFastPaxos build kernel).run state =
      if mtu ≤ messageTypeLen state.dataSlice ∨
          state.dataSlice.length - (headersLen + magicLen) <
            messageTypeLen state.dataSlice then
        (.ok xdpPass, state)
      else
        (dispatch build kernel state.dataSlice).run state := by
  have start : typeStart = 54 := rfl
  have magicEnd : headersLen + magicLen = 46 := rfl
  have typeSlice : slice (state.dataSlice.drop (headersLen + magicLen)) 0 8 =
      some (field state.dataSlice (headersLen + magicLen) 8) := by
    rw [slice_eq_some (Nat.zero_le _) (by rw [List.length_drop]; omega), field_drop]
    rfl
  unfold handleUdpFastPaxos
  rw [run_sliceFrom_bind _ (by omega)]
  simp only [sliceOf, typeSlice, demand_some, run_pure_bind, run_ite, List.length_drop,
    run_pure]
  rw [run_sliceFrom_bind _ long, if_pos feature]
  simp only [dispatch, testPrepare, List.length_drop]
  rfl

theorem run_fastPaxosMain (build : Build) (kernel : Kernel) {state : State}
    (headers : headersLen ≤ state.dataSlice.length) :
    (fastPaxosMain build kernel).run state =
      if state.dataSlice.protocol = ipprotoUdp then
        if state.dataSlice.destPort ≠ paxosPort ∨
            (state.dataSlice.drop headersLen).length < magicLen + 8 ∨
            magicBits.isPrefixOf (state.dataSlice.drop headersLen) = false then
          (.ok xdpPass, state)
        else
          (handleUdpFastPaxos build kernel).run state
      else
        (.ok xdpPass, state) := by
  have ip : ipStart + 9 + 1 = 24 := rfl
  have transport : transportStart + 2 + 2 = 38 := rfl
  have headersEnd : headersLen = 42 := rfl
  rw [fastPaxosMain, run_readField_bind _ (by omega), run_ite,
    run_readField_bind _ (by omega), run_sliceFrom_bind _ headers, run_ite]
  rfl

theorem run_fastPaxosMain_type {build : Build} (feature : build.fastReply = true)
    (kernel : Kernel) {state : State} (reaches : ReachesType state.dataSlice) :
    (fastPaxosMain build kernel).run state =
      (dispatch build kernel state.dataSlice).run state := by
  obtain ⟨protocol, port, magic, long, typeLen, fits⟩ := reaches
  have start : typeStart = headersLen + (magicLen + 8) := rfl
  rw [run_fastPaxosMain build kernel (by omega), if_pos protocol, if_neg,
    run_handleUdpFastPaxos feature kernel long, if_neg (by omega)]
  rw [not_or, not_or, not_not, Bool.not_eq_false, List.isPrefixOf_iff_prefix,
    List.length_drop]
  exact ⟨port, by omega, magic⟩

theorem run_fastPaxosMain_pass {build : Build} (feature : build.fastReply = true)
    (kernel : Kernel) {state : State} (headers : headersLen ≤ state.dataSlice.length)
    (other : ¬ ReachesType state.dataSlice) :
    (fastPaxosMain build kernel).run state = (.ok xdpPass, state) := by
  have start : typeStart = headersLen + (magicLen + 8) := rfl
  rw [run_fastPaxosMain build kernel headers]
  split
  · rename_i udp
    split
    · rfl
    · rename_i accepted
      rw [not_or, not_or, not_not, Bool.not_eq_false, List.isPrefixOf_iff_prefix,
        List.length_drop] at accepted
      obtain ⟨port, enough, magic⟩ := accepted
      have long : typeStart ≤ state.dataSlice.length := by
        omega
      rw [run_handleUdpFastPaxos feature kernel long]
      refine if_pos ?_
      by_contra typed
      rw [not_or, not_le, not_lt] at typed
      exact other ⟨udp, port, magic, long, typed.1, by omega⟩
  · rfl

/-- The lengths at which what was compared and what is read agree. -/
structure InRange (ctrState : PaxosCtrState) (frame : Frame) : Prop where
  /-- The length of the type is compared with a length that includes it. -/
  tested : vrMark <+: field frame (typeStart + 10) 2 → frame.length ≠ typeStart + 26
  prepare : TypedPrepare frame → prepareStart ≤ frame.length ∧
    (Resends ctrState (frame.drop prepareStart) →
      ¬ CutReply prepareStart frame.length)

theorem panics_dispatch_iff (build : Build) (kernel : Kernel) {state : State}
    (long : typeStart ≤ state.dataSlice.length) :
    Panics ((dispatch build kernel state.dataSlice).run state).1 ↔
      ¬ InRange state.ctrState state.dataSlice := by
  have pruned : ¬ Panics ((pruneQuorum build kernel
      (state.dataSlice.length - (headersLen + magicLen))
      (state.dataSlice.drop typeStart) typeStart).run state).1 :=
    not_panics_of_completes
      (completes_pruneQuorum build kernel long List.length_drop) rfl
  rw [dispatch, run_bind, run_testPrepare]
  by_cases family : typeStart + 26 ≤ state.dataSlice.length ∧
      vrMark <+: field state.dataSlice (typeStart + 10) 2
  · rw [if_pos family]
    by_cases named : typeStart + 27 ≤ state.dataSlice.length
    · rw [if_pos named]
      by_cases isPrepare : prepareMark <+: field state.dataSlice (typeStart + 19) 8
      · rw [List.isPrefixOf_iff_prefix.mpr isPrepare]
        have typed : TypedPrepare state.dataSlice := ⟨family.2, isPrepare⟩
        by_cases inside : prepareStart ≤ state.dataSlice.length
        · refine (panics_handlePrepare_iff kernel (by decide) inside).trans ?_
          constructor
          · rintro ⟨resends, cut⟩ inRange
            exact (inRange.prepare typed).2 resends cut
          · intro outside
            by_contra uncut
            exact outside ⟨fun _ => by omega,
              fun _ => ⟨inside, fun resends cut => uncut ⟨resends, cut⟩⟩⟩
        · have outside := run_handlePrepare_outside kernel inside
          exact iff_of_true ⟨.slice, congrArg Prod.fst outside⟩
            fun inRange => inside (inRange.prepare typed).1
      · have notPrepare : prepareMark.isPrefixOf
            (field state.dataSlice (typeStart + 19) 8) = false := by
          rw [← Bool.not_eq_true, List.isPrefixOf_iff_prefix]
          exact isPrepare
        rw [notPrepare]
        exact iff_of_false pruned (not_not.mpr
          ⟨fun _ => by omega, fun typed => absurd typed.2 isPrepare⟩)
    · rw [if_neg named]
      exact iff_of_true ⟨.slice, rfl⟩
        fun inRange => inRange.tested family.2 (by omega)
  · rw [if_neg family]
    refine iff_of_false pruned (not_not.mpr ⟨fun vr cut => ?_, fun typed => ?_⟩)
    · exact family ⟨cut.ge, vr⟩
    · have named := typed.long
      exact absurd ⟨by omega, typed.1⟩ family

/-- The ingress program panics on exactly the frames whose length was compared
with less than what is read or written. -/
theorem ingress_in_range_iff {build : Build} (feature : build.fastReply = true)
    (maps : Maps) (event : Ingress) (headers : headersLen ≤ event.frame.length) :
    ¬ Panics (maps.ingress build event).1 ↔
      (ReachesType event.frame → InRange maps.ctrState event.frame) := by
  by_cases reaches : ReachesType event.frame
  · have ran : maps.ingress build event =
        (dispatch build event.kernel event.frame).run (maps.start event.frame) :=
      run_fastPaxosMain_type feature event.kernel reaches
    have panics : Panics (maps.ingress build event).1 ↔
        ¬ InRange maps.ctrState event.frame := by
      have long : typeStart ≤ (maps.start event.frame).dataSlice.length :=
        reaches.long
      rw [ran]
      exact panics_dispatch_iff build event.kernel long
    rw [panics, not_not]
    exact ⟨fun inRange _ => inRange, fun inRange => inRange reaches⟩
  · have ran : maps.ingress build event = (.ok xdpPass, maps.start event.frame) :=
      run_fastPaxosMain_pass feature event.kernel headers reaches
    rw [ran]
    exact iff_of_true (not_panics_ok xdpPass) fun reached => absurd reached reaches

theorem ingress_in_range_iff_first :
    headersLen ≤ (prepareFrame 0 2 1).length ∧
      ¬ Panics (firstMaps.ingress fullBuild ⟨prepareFrame 0 2 1, roomy⟩).1 := by
  have length : (prepareFrame 0 2 1).length = 163 := by decide +kernel
  have headers : headersLen ≤ (prepareFrame 0 2 1).length := by
    rw [length]
    decide
  refine ⟨headers, (ingress_in_range_iff (rfl : fullBuild.fastReply = true) firstMaps
    ⟨prepareFrame 0 2 1, roomy⟩ headers).mpr fun _ => ⟨fun _ => ?_, fun _ => ?_⟩⟩
  · rw [length]
    decide
  · rw [length]
    refine ⟨by decide, fun _ cut => ?_⟩
    exact absurd cut.2 (by decide)

/-- A Prepare that the replica has seen, with 21 bytes after its type string. -/
def shortPrepare : Frame :=
  (prepareFrame 0 0 1).take (prepareStart + 21)

theorem short_prepare_panics :
    ¬ ∀ (build : Build) (maps : Maps) (event : Ingress),
      build.fastReply = true → build.fastQuorumPrune = true →
      headersLen ≤ event.frame.length →
      ¬ Panics (maps.ingress build event).1 := by
  intro always
  refine always fullBuild firstMaps ⟨shortPrepare, roomy⟩ rfl rfl
    (by decide +kernel) ⟨.slice, ?_⟩
  decide +kernel

end Rex.Electrode
