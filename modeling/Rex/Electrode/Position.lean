import Rex.Data.Machine
import Rex.Electrode.Prepare

namespace Rex.Electrode

open Bytes Effect Program Rex.Frame Machine

/-! The position of the replica in the log, along every run of
`fast_paxos_main`. -/

def prepareStart : Nat := typeStart + prepareTypeLen

def TypedPrepare (frame : Frame) : Prop :=
  vrMark <+: field frame (typeStart + 10) 2 ∧
    prepareMark <+: field frame (typeStart + 19) 8

/-- A frame that `fast_paxos_main` takes for a Prepare. -/
structure IsPrepare (frame : Frame) : Prop where
  protocol : frame.protocol = ipprotoUdp
  port : frame.destPort = paxosPort
  magic : magicBits <+: frame.drop headersLen
  typed : TypedPrepare frame

def State.replica (state : State) : PaxosCtrState × List (List UInt8) :=
  (state.ctrState, state.maps.mapPrepareBuffer)

abbrev Steady {Value : Type} (program : Program Value) : Prop :=
  Contained Regular State.replica program

theorem OnFrame.steady {Value : Type} {program : Program Value}
    (onFrame : OnFrame program) : Steady program :=
  onFrame.view fun view => (view.1.mapCtrState 0, view.1.mapPrepareBuffer)

theorem steady_handlePrepareOk (build : Build) (kernel : Kernel)
    (payloadIndex : Nat) : Steady (handlePrepareOk build kernel payloadIndex) := by
  apply (onFrame_sliceFrom _).steady.bind
  intro payload
  apply (contained_pure _).ite
  refine Contained.bind (contained_modify (by intro state; rfl)) ?_
  intro _
  apply (contained_demand regular_err _).bind
  intro idx
  apply contained_get.bind
  intro state
  apply (contained_pure _).ite
  refine Contained.bind (contained_modify (by intro state; rfl)) ?_
  intro _
  apply (contained_pure _).ite
  split
  · exact contained_pure _
  · exact (onFrame_editFrame _).steady.bind fun _ => contained_pure _

theorem run_hasType (len typeLen : Nat) (payload : List UInt8)
    (start finish : Nat) (mark : List UInt8) (state : State) :
    ∃ result, (hasType len typeLen payload start finish mark).run state =
        (result, state) ∧
      (result = .ok true → vrMark <+: field payload 10 2 ∧
        mark <+: field payload start (finish - start)) ∧
      (∀ reason, result = .error reason → reason = .panic .slice) := by
  unfold hasType
  split
  · cases protocol : slice payload 10 12 with
    | none =>
        refine ⟨.error (.panic .slice), ?_, by simp, by simp⟩
        simp only [sliceOf, protocol, demand_none, run_halt_bind]
    | some family =>
        simp only [sliceOf, protocol, demand_some, run_pure_bind]
        split
        · rename_i isVr
          cases name : slice payload start finish with
          | none =>
              refine ⟨.error (.panic .slice), ?_, by simp, by simp⟩
              simp only [demand_none, run_halt_bind]
          | some found =>
              refine ⟨.ok (mark.isPrefixOf found), rfl, ?_, by simp⟩
              intro matched
              rw [← slice_some name]
              rw [List.isPrefixOf_iff_prefix, slice_some protocol] at isVr
              exact ⟨isVr, List.isPrefixOf_iff_prefix.mp (Except.ok.inj matched)⟩
        · exact ⟨.ok false, rfl, by simp, by simp⟩
  · exact ⟨.ok false, rfl, by simp, by simp⟩

theorem steady_pruneQuorum (build : Build) (kernel : Kernel) (len : Nat)
    (payload : List UInt8) (payloadIndex : Nat) :
    Steady (pruneQuorum build kernel len payload payloadIndex) := by
  refine Contained.ite ?_ (contained_pure _)
  refine (onFrame_hasType _ _ _ _ _ _).steady.bind fun isPrepareok => ?_
  refine (steady_handlePrepareOk _ _ _).ite ?_
  refine (onFrame_hasType _ _ _ _ _ _).steady.bind fun isMyprepareok => ?_
  exact (steady_handlePrepareOk _ _ _).ite (contained_pure _)

structure Ended (state : State) (ran : Except Stop Int32 × State) : Prop where
  same : ran.2 = state
  regular : ∀ reason, ran.1 = .error reason → Regular reason

theorem ended_slice (state : State) : Ended state (.error (.panic .slice), state) :=
  ⟨rfl, fun _ stopped => Except.error.inj stopped ▸ regular_slice⟩

theorem ended_ok (code : Int32) (state : State) : Ended state (.ok code, state) :=
  ⟨rfl, fun _ stopped => by cases stopped⟩

def testPrepare (frame : Frame) : Program Bool :=
  hasType (frame.drop (headersLen + magicLen)).length prepareTypeLen
    (frame.drop typeStart) 19 27 prepareMark

/-- Everything that `handle_udp_fast_paxos` can do: handle a Prepare, end early,
or go on to the messages of the other feature. -/
theorem handleUdpFastPaxos_cases (build : Build) (kernel : Kernel) (state : State) :
    let ran := (handleUdpFastPaxos build kernel).run state
    (build.fastReply = true ∧ TypedPrepare state.dataSlice ∧
      ran = (handlePrepare kernel prepareStart).run state) ∨
    Ended state ran ∨
    ((build.fastReply = true →
        (testPrepare state.dataSlice).run state = (.ok false, state)) ∧
      ran = (pruneQuorum build kernel
        (state.dataSlice.drop (headersLen + magicLen)).length
        (state.dataSlice.drop typeStart) typeStart).run state) := by
  unfold handleUdpFastPaxos
  by_cases inside : headersLen + magicLen ≤ state.dataSlice.length
  · rw [run_sliceFrom_bind _ inside]
    set message := state.dataSlice.drop (headersLen + magicLen)
    cases typeLen : slice message 0 8 with
    | none =>
        simp only [sliceOf, typeLen, demand_none, run_halt_bind]
        exact .inr (.inl (ended_slice state))
    | some bytes =>
        simp only [sliceOf, typeLen, demand_some, run_pure_bind, run_ite]
        split
        · exact .inr (.inl (ended_ok xdpPass state))
        · by_cases reaches : typeStart ≤ state.dataSlice.length
          · rw [run_sliceFrom_bind _ reaches]
            cases feature : build.fastReply with
            | false =>
                simp only [Bool.false_eq_true, ↓reduceIte, run_pure_bind]
                exact .inr (.inr ⟨False.elim, trivial⟩)
            | true =>
                obtain ⟨result, ran, found, stops⟩ := run_hasType message.length
                  prepareTypeLen (state.dataSlice.drop typeStart) 19 27 prepareMark
                  state
                simp only [↓reduceIte]
                rw [run_bind, ran]
                cases result with
                | error reason =>
                    rw [stops reason rfl]
                    exact .inr (.inl (ended_slice state))
                | ok isPrepare =>
                    cases isPrepare with
                    | false =>
                        simp only [Bool.false_eq_true, ↓reduceIte]
                        exact .inr (.inr ⟨fun _ => ran, trivial⟩)
                    | true =>
                        obtain ⟨family, name⟩ := found rfl
                        rw [field_drop] at family name
                        exact .inl ⟨trivial, ⟨family, name⟩, rfl⟩
          · rw [run_sliceFrom_short _ reaches]
            exact .inr (.inl (ended_slice state))
  · rw [run_sliceFrom_short _ inside]
    exact .inr (.inl (ended_slice state))

theorem fastPaxosMain_cases (build : Build) (kernel : Kernel) (state : State) :
    let ran := (fastPaxosMain build kernel).run state
    (build.fastReply = true ∧ IsPrepare state.dataSlice ∧
      ran = (handlePrepare kernel prepareStart).run state) ∨
    Ended state ran ∨
    ((build.fastReply = true →
        (testPrepare state.dataSlice).run state = (.ok false, state)) ∧
      ran = (pruneQuorum build kernel
        (state.dataSlice.drop (headersLen + magicLen)).length
        (state.dataSlice.drop typeStart) typeStart).run state) := by
  unfold fastPaxosMain
  by_cases ip : ipStart + 9 + 1 ≤ state.dataSlice.length
  · rw [run_readField_bind _ ip]
    by_cases udp : bigEndian (field state.dataSlice (ipStart + 9) 1) = ipprotoUdp
    · rw [if_pos udp]
      by_cases transport : transportStart + 2 + 2 ≤ state.dataSlice.length
      · rw [run_readField_bind _ transport]
        by_cases inside : headersLen ≤ state.dataSlice.length
        · rw [run_sliceFrom_bind _ inside]
          simp only [run_ite]
          split
          · exact .inr (.inl (ended_ok xdpPass state))
          · rename_i accepted
            rw [not_or, not_or, not_not, Bool.not_eq_false,
              List.isPrefixOf_iff_prefix] at accepted
            rcases handleUdpFastPaxos_cases build kernel state with
              ⟨feature, typed, ran⟩ | others
            · exact .inl ⟨feature, ⟨udp, accepted.1, accepted.2.2, typed⟩, ran⟩
            · exact .inr others
        · rw [run_sliceFrom_short _ inside]
          exact .inr (.inl (ended_slice state))
      · rw [run_readField_short _ transport]
        exact .inr (.inl (ended_slice state))
    · rw [if_neg udp]
      exact .inr (.inl (ended_ok xdpPass state))
  · rw [run_readField_short _ ip]
    exact .inr (.inl (ended_slice state))

/-! Runs of the ingress program. -/

structure Ingress where
  frame : Frame
  kernel : Kernel

def Maps.ingress (build : Build) (maps : Maps) (event : Ingress) :
    Except Stop Int32 × State :=
  (fastPaxosMain build event.kernel).run (maps.start event.frame)

def ingressStep (build : Build) (maps : Maps) (event : Ingress) : Option Maps :=
  some (maps.ingress build event).2.maps

structure SameReplica (before after : PaxosCtrState) : Prop where
  state : after.state = before.state
  myIdx : after.myIdx = before.myIdx
  leaderIdx : after.leaderIdx = before.leaderIdx
  view : after.view = before.view

theorem SameReplica.refl (ctrState : PaxosCtrState) : SameReplica ctrState ctrState :=
  ⟨rfl, rfl, rfl, rfl⟩

theorem SameReplica.trans {first second third : PaxosCtrState}
    (before : SameReplica first second) (after : SameReplica second third) :
    SameReplica first third :=
  ⟨after.state.trans before.state, after.myIdx.trans before.myIdx,
    after.leaderIdx.trans before.leaderIdx, after.view.trans before.view⟩

theorem handlePrepare_position (kernel : Kernel) (payloadIndex : Nat)
    (state : State) :
    let ran := (handlePrepare kernel payloadIndex).run state
    let payload := state.dataSlice.drop payloadIndex
    (ran.2.ctrState = state.ctrState ∨
      Advances state.ctrState payload ∧
        SameReplica state.ctrState ran.2.ctrState ∧
        ran.2.ctrState.lastOp = prepareLastOp payload) ∧
      ∀ reason, ran.1 = .error reason → Regular reason := by
  have onFrame := onFrame_prepareFastReply kernel payloadIndex
  have outcome := handlePrepare_outcome kernel payloadIndex state
  generalize (handlePrepare kernel payloadIndex).run state = ran at outcome
  cases outcome with
  | passedUp advances short =>
      exact ⟨.inr ⟨advances, ⟨rfl, rfl, rfl, rfl⟩, rfl⟩, nofun⟩
  | lost advances enough full =>
      exact ⟨.inr ⟨advances, ⟨rfl, rfl, rfl, rfl⟩, rfl⟩,
        fun _ stopped => Except.error.inj stopped ▸ regular_err⟩
  | stored advances enough room =>
      refine ⟨.inr ⟨advances, ?_⟩, onFrame.stops _⟩
      rw [ctrState_prepareFastReply]
      exact ⟨⟨rfl, rfl, rfl, rfl⟩, rfl⟩
  | resent notAdvances seen =>
      exact ⟨.inl (ctrState_prepareFastReply ..), onFrame.stops _⟩
  | ended notAdvances other =>
      refine ⟨.inl rfl, fun reason stopped => ?_⟩
      rcases other with rfl | rfl | rfl
      · cases stopped
      · cases stopped
      · exact Except.error.inj stopped ▸ regular_slice

/-- What changes the position is a Prepare that continues the log. -/
structure Moves (frame : Frame) (before after : PaxosCtrState) : Prop where
  prepare : IsPrepare frame
  normal : before.state = .statusNormal
  sameView : prepareView (frame.drop prepareStart) = before.view
  lastOp : after.lastOp = prepareLastOp (frame.drop prepareStart)
  later : before.lastOp < after.lastOp
  joins : (prepareBatchStart (frame.drop prepareStart)).toNat ≤
    before.lastOp.toNat + 1

theorem ingress_position (build : Build) (maps : Maps) (event : Ingress) :
    let ran := maps.ingress build event
    SameReplica maps.ctrState ran.2.maps.ctrState ∧
      (ran.2.maps.ctrState.lastOp = maps.ctrState.lastOp ∨
        Moves event.frame maps.ctrState ran.2.maps.ctrState) ∧
      ran.1 ≠ .error (.panic .overflow) := by
  intro ran
  rcases fastPaxosMain_cases build event.kernel (maps.start event.frame) with
    ⟨_, prepare, handled⟩ | ended | ⟨_, pruned⟩
  · have ranEq : ran =
        (handlePrepare event.kernel prepareStart).run (maps.start event.frame) :=
      handled
    obtain ⟨position, regular⟩ := handlePrepare_position event.kernel prepareStart
      (maps.start event.frame)
    rw [← ranEq] at position regular
    rcases position with kept | ⟨advances, same, lastOp⟩
    · change ran.2.maps.ctrState = maps.ctrState at kept
      rw [kept]
      exact ⟨.refl _, .inl rfl, fun ended => (regular _ ended).ne_overflow rfl⟩
    · change ran.2.maps.ctrState.lastOp =
        prepareLastOp (event.frame.drop prepareStart) at lastOp
      refine ⟨same, .inr ⟨prepare, advances.normal, advances.sameView, lastOp, ?_,
        advances.joins⟩, fun ended => (regular _ ended).ne_overflow rfl⟩
      rw [lastOp, UInt64.lt_iff_toNat_lt]
      exact advances.later
  · have kept : ran.2.maps.ctrState = maps.ctrState :=
      congrArg State.ctrState ended.same
    rw [kept]
    exact ⟨.refl _, .inl rfl, fun stopped =>
      (ended.regular _ stopped).ne_overflow rfl⟩
  · have steady := steady_pruneQuorum build event.kernel
      (event.frame.drop (headersLen + magicLen)).length (event.frame.drop typeStart)
      typeStart
    have ranEq : ran = _ := pruned
    have kept : ran.2.maps.ctrState = maps.ctrState := by
      rw [ranEq]
      exact congrArg Prod.fst (steady.keeps (maps.start event.frame))
    rw [kept]
    refine ⟨.refl _, .inl rfl, fun stopped => ?_⟩
    rw [ranEq] at stopped
    exact (steady.stops _ _ stopped).ne_overflow rfl

/-- Along every run, the position never goes back, each change of it continues
the log without a gap, and the rest of the replica's state stays as it was. -/
theorem position_follows_log (build : Build) (maps : Maps) (frames : List Ingress) :
    ∃ final, exec (ingressStep build) maps frames = some final ∧
      maps.ctrState.lastOp ≤ final.ctrState.lastOp ∧
      SameReplica maps.ctrState final.ctrState ∧
      EveryStep (ingressStep build) (fun before event =>
        let ran := before.ingress build event
        ran.1 ≠ .error (.panic .overflow) ∧
          (ran.2.maps.ctrState.lastOp ≠ before.ctrState.lastOp →
            Moves event.frame before.ctrState ran.2.maps.ctrState))
        maps frames := by
  induction frames generalizing maps with
  | nil => exact ⟨maps, rfl, UInt64.le_refl _, .refl _, trivial⟩
  | cons event rest induction =>
      obtain ⟨same, moves, noOverflow⟩ := ingress_position build maps event
      obtain ⟨final, ran, later, sameLater, steps⟩ :=
        induction (maps.ingress build event).2.maps
      refine ⟨final, ran, ?_, same.trans sameLater, ⟨noOverflow, ?_⟩, steps⟩
      · rcases moves with kept | moved
        · exact kept ▸ later
        · exact UInt64.le_trans (UInt64.le_of_lt moved.later) later
      · exact fun changed => moves.resolve_left changed

end Rex.Electrode
