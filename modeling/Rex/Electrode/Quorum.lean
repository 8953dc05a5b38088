import Rex.Data.Bitset
import Rex.Data.Machine
import Rex.Electrode.Broadcast
import Rex.Electrode.Prepare

namespace Rex.Electrode

open Bytes Effect Program Rex.Frame Machine Bitset

/-! What the table of quorums is for: the Prepare that each slot stands for, with
the replicas that have acknowledged it. -/

structure Installed where
  view : UInt32
  opnum : UInt32
  acks : Finset Nat

def Installed.Is (installed : Installed) (view opnum : UInt32) : Prop :=
  installed.view = view ∧ installed.opnum = opnum

instance (installed : Installed) (view opnum : UInt32) :
    Decidable (installed.Is view opnum) :=
  inferInstanceAs (Decidable (_ ∧ _))

/-- A Prepare takes its slot, unless the slot is its own already. -/
def prepared (view opnum : UInt32) : Option Installed → Installed
  | none => ⟨view, opnum, ∅⟩
  | some installed =>
      if installed.Is view opnum then installed else ⟨view, opnum, ∅⟩

def Installed.acknowledged (clusterSize : Nat) (vote : Vote) (installed : Installed) :
    Installed :=
  if installed.Is vote.msgView vote.msgOpnum ∧
      vote.msgReplicaIdx.toNat < clusterSize then
    { installed with acks := insert vote.msgReplicaIdx.toNat installed.acks }
  else
    installed

def PaxosQuorum.Records (entry : PaxosQuorum) : Option Installed → Prop
  | none => entry = ⟨0, 0, 0⟩
  | some installed =>
      entry.view = installed.view ∧ entry.opnum = installed.opnum ∧
        Marks entry.bitset.toNat installed.acks

/-! One slot. -/

section Slot

variable {entry : PaxosQuorum} {slot : Option Installed} {view opnum : UInt32}

def PaxosQuorum.Is (entry : PaxosQuorum) (view opnum : UInt32) : Prop :=
  entry.view = view ∧ entry.opnum = opnum

instance (entry : PaxosQuorum) (view opnum : UInt32) :
    Decidable (entry.Is view opnum) :=
  inferInstanceAs (Decidable (_ ∧ _))

theorem prepared_is (view opnum : UInt32) (slot : Option Installed) :
    (prepared view opnum slot).Is view opnum := by
  unfold prepared
  split
  · exact ⟨rfl, rfl⟩
  · split
    · assumption
    · exact ⟨rfl, rfl⟩

theorem install_is (entry : PaxosQuorum) (view opnum : UInt32) :
    (entry.install view opnum).Is view opnum := by
  unfold PaxosQuorum.install
  split
  · exact ⟨rfl, rfl⟩
  · rename_i same
    rw [not_or, not_not, not_not] at same
    exact same

theorem records_prepared_iff (records : entry.Records slot) :
    entry.Records (prepared view opnum slot) ↔ entry.Is view opnum := by
  obtain ⟨sameView, sameOpnum⟩ := prepared_is view opnum slot
  constructor
  · rintro ⟨viewEq, opnumEq, -⟩
    exact ⟨viewEq.trans sameView, opnumEq.trans sameOpnum⟩
  · intro holds
    refine ⟨holds.1.trans sameView.symm, holds.2.trans sameOpnum.symm, ?_⟩
    cases slot with
    | none =>
        obtain rfl := records
        exact marks_zero
    | some installed =>
        have same : installed.Is view opnum :=
          ⟨records.1.symm.trans holds.1, records.2.1.symm.trans holds.2⟩
        simp only [prepared, if_pos same]
        exact records.2.2

theorem records_install (records : entry.Records slot) :
    (entry.install view opnum).Records (prepared view opnum slot) := by
  unfold PaxosQuorum.install
  split
  · rename_i other
    obtain ⟨sameView, sameOpnum⟩ := prepared_is view opnum slot
    refine ⟨sameView.symm, sameOpnum.symm, ?_⟩
    cases slot with
    | none => exact marks_zero
    | some installed =>
        have moved : ¬ installed.Is view opnum := by
          rintro ⟨rfl, rfl⟩
          exact other.elim (absurd records.1) (absurd records.2.1)
        simp only [prepared, if_neg moved]
        exact marks_zero
  · rename_i same
    rw [not_or, not_not, not_not] at same
    exact (records_prepared_iff records).mpr same

theorem records_install_iff {stored : UInt32} (records : entry.Records slot) :
    (entry.install stored opnum).Records (prepared view opnum slot) ↔
      stored = view := by
  constructor
  · intro after
    exact (install_is entry stored opnum).1.symm.trans
      (after.1.trans (prepared_is view opnum slot).1)
  · rintro rfl
    exact records_install records

def PaxosQuorum.acknowledge (entry : PaxosQuorum) (msgReplicaIdx : UInt32) :
    PaxosQuorum :=
  { entry with bitset := entry.bitset ||| 1 <<< (msgReplicaIdx % 32) }

theorem toNat_acknowledge (entry : PaxosQuorum) (msgReplicaIdx : UInt32) :
    (entry.acknowledge msgReplicaIdx).bitset.toNat =
      entry.bitset.toNat ||| 1 <<< (msgReplicaIdx.toNat % 32) := by
  have small : msgReplicaIdx.toNat % 32 < 32 := Nat.mod_lt _ (by decide)
  have fits : 1 <<< (msgReplicaIdx.toNat % 32) < 2 ^ 32 := by
    rw [Nat.one_shiftLeft]
    exact Nat.pow_lt_pow_right (by decide) small
  rw [PaxosQuorum.acknowledge, UInt32.toNat_or, UInt32.toNat_shiftLeft,
    UInt32.toNat_mod]
  change _ ||| 1 <<< (msgReplicaIdx.toNat % 32 % 32) % 2 ^ 32 = _
  rw [Nat.mod_mod, Nat.mod_eq_of_lt fits]

variable {vote : Vote} {clusterSize : Nat}

theorem records_of_other_vote (records : entry.Records slot)
    (other : ¬ entry.Is vote.msgView vote.msgOpnum) :
    entry.Records (slot.map (Installed.acknowledged clusterSize vote)) := by
  cases slot with
  | none => exact records
  | some installed =>
      have missed : ¬ (installed.Is vote.msgView vote.msgOpnum ∧
          vote.msgReplicaIdx.toNat < clusterSize) := by
        rintro ⟨same, -⟩
        exact other ⟨records.1.trans same.1, records.2.1.trans same.2⟩
      rw [Option.map_some, Installed.acknowledged, if_neg missed]
      exact records

theorem marks_acknowledge {acks : Finset Nat} (marks : Marks entry.bitset.toNat acks)
    (idx : UInt32) :
    Marks (entry.acknowledge idx).bitset.toNat (insert (idx.toNat % 32) acks) := by
  rw [toNat_acknowledge]
  exact marks.insert _

/-- The shift distance is taken modulo the width of the word. -/
theorem marks_insert_iff {acks : Finset Nat} (marks : Marks entry.bitset.toNat acks)
    (idx : UInt32) :
    Marks (entry.acknowledge idx).bitset.toNat (insert idx.toNat acks) ↔
      idx.toNat < 32 := by
  constructor
  · intro after
    exact after.lt_of_mem (UInt32.toNat_lt _) (Finset.mem_insert_self _ _)
  · intro small
    have added := marks_acknowledge marks idx
    rwa [Nat.mod_eq_of_lt small] at added

theorem marks_unchanged_iff {acks : Finset Nat} (marks : Marks entry.bitset.toNat acks)
    (idx : UInt32) :
    Marks (entry.acknowledge idx).bitset.toNat acks ↔
      entry.bitset.toNat.testBit (idx.toNat % 32) = true := by
  have added := marks_acknowledge marks idx
  constructor
  · intro after
    rw [marks, after.unique added]
    exact Finset.mem_insert_self _ _
  · intro set
    rwa [Finset.insert_eq_of_mem ((marks _).mp set)] at added

theorem records_acknowledge_iff (records : entry.Records slot)
    (holds : entry.Is vote.msgView vote.msgOpnum) :
    (entry.acknowledge vote.msgReplicaIdx).Records
        (slot.map (Installed.acknowledged clusterSize vote)) ↔
      slot.isSome = true ∧
        if vote.msgReplicaIdx.toNat < clusterSize then
          vote.msgReplicaIdx.toNat < 32
        else
          entry.bitset.toNat.testBit (vote.msgReplicaIdx.toNat % 32) = true := by
  cases slot with
  | none =>
      obtain rfl := records
      refine ⟨fun after => ?_, fun installed => by cases installed.1⟩
      have zero : Marks (⟨0, 0, 0⟩ : PaxosQuorum).bitset.toNat ∅ := marks_zero
      have added := marks_acknowledge zero vote.msgReplicaIdx
      rw [show PaxosQuorum.acknowledge _ _ = _ from after] at added
      exact absurd (zero.unique added).symm (Finset.insert_ne_empty _ _)
  | some installed =>
      have same : installed.Is vote.msgView vote.msgOpnum :=
        ⟨records.1.symm.trans holds.1, records.2.1.symm.trans holds.2⟩
      simp only [Option.map_some, Installed.acknowledged, same, true_and,
        Option.isSome_some]
      split
      · rw [← marks_insert_iff records.2.2]
        exact ⟨fun after => after.2.2, fun marks => ⟨records.1, records.2.1, marks⟩⟩
      · rw [← marks_unchanged_iff records.2.2]
        exact ⟨fun after => after.2.2, fun marks => ⟨records.1, records.2.1, marks⟩⟩

end Slot

/-! The program that writes the table. -/

def NamesPrepare (payload : List UInt8) : Prop :=
  prepareTypeLen < payload.length ∧ vrMark <+: field payload 10 2 ∧
    prepareMark <+: field payload 19 8

instance (payload : List UInt8) : Decidable (NamesPrepare payload) :=
  inferInstanceAs (Decidable (_ ∧ _ ∧ _))

theorem computeMessageType_eq_handlePrepare (payload : List UInt8) :
    computeMessageType payload = .handlePrepare ↔ NamesPrepare payload := by
  simp only [computeMessageType, NamesPrepare, ← List.isPrefixOf_iff_prefix]
  constructor
  · intro handled
    split at handled
    · cases handled
    · rename_i valid
      rw [not_or, Bool.not_eq_false] at valid
      split at handled
      · rename_i named
        exact ⟨named.1, valid.2, named.2⟩
      · repeat' split at handled
        all_goals cases handled
  · rintro ⟨long, family, named⟩
    have valid : ¬ (payload.length < 13 ∨
        vrMark.isPrefixOf (field payload 10 2) = false) := by
      rw [show prepareTypeLen = 33 from rfl] at long
      rw [family, not_or]
      exact ⟨by omega, Bool.noConfusion⟩
    rw [if_neg valid, if_pos ⟨long, named⟩]

/-- A Prepare in the layout of the leader.  The first two bytes of the type
string are free, for the number of a copy. -/
structure IsPrepareMessage (frame : Frame) : Prop extends IsMessage frame where
  typeLenEq : messageTypeLen frame = prepareTypeLen
  named : prepareTypeName.drop 2 <+: frame.drop (typeStart + 2)

structure Prepare where
  frame : Frame
  kernel : Kernel
  laidOut : IsPrepareMessage frame

namespace Prepare

def body (sent : Prepare) : List UInt8 :=
  messageBody sent.frame

def view (sent : Prepare) : UInt32 :=
  u32At sent.body 0 &&& ~~~ broadcastSignBit

def opnum (sent : Prepare) : UInt32 :=
  u32At sent.body 4

def slot (sent : Prepare) : Fin quorumBitsetEntry :=
  quorumSlot sent.opnum

end Prepare

theorem xor_broadcastSignBit_eq_iff (msgView : UInt32) :
    msgView ^^^ broadcastSignBit = msgView &&& ~~~ broadcastSignBit ↔
      msgView &&& broadcastSignBit ≠ 0 := by
  have bit : broadcastSignBit.toBitVec = BitVec.twoPow 32 31 := by decide
  have isSet : msgView &&& broadcastSignBit ≠ 0 ↔
      msgView.toBitVec.getLsbD 31 = true := by
    rw [ne_eq, ← UInt32.toBitVec_inj, UInt32.toBitVec_and, bit, BitVec.and_twoPow]
    split
    · rename_i set
      exact iff_of_true (by decide) set
    · rename_i clear
      exact iff_of_false (not_not.mpr rfl) clear
  rw [isSet, ← UInt32.toBitVec_inj, UInt32.toBitVec_xor, UInt32.toBitVec_and,
    UInt32.toBitVec_not, bit]
  constructor
  · intro same
    have top := congrArg (fun word => word.getLsbD 31) same
    simpa [BitVec.getLsbD_twoPow] using top
  · intro set
    apply BitVec.eq_of_getLsbD_eq
    intro idx inside
    rw [BitVec.getLsbD_xor, BitVec.getLsbD_and, BitVec.getLsbD_not, BitVec.getLsbD_twoPow]
    by_cases top : 31 = idx
    · subst top
      simp [set]
    · simp [top, inside]

def State.table (state : State) : RexArrayMap quorumBitsetEntry PaxosQuorum :=
  state.maps.mapQuorum

theorem OnFrame.table {Value : Type} {program : Program Value}
    (onFrame : OnFrame program) : Keeps State.table program :=
  (onFrame.view fun view => view.1.mapQuorum).keeps

theorem keeps_cloneRedirect (build : Build) (kernel : Kernel) (nxt : UInt8) :
    Keeps State.table (cloneRedirect build kernel nxt) := by
  refine Keeps.ite (Keeps.ite ?_ (keeps_halt _)) (keeps_pure _)
  exact keeps_modify (by intro state; rfl)

theorem keeps_passOn (build : Build) (kernel : Kernel) (leaderIdx : UInt32) :
    Keeps State.table (passOn build kernel leaderIdx) := by
  refine (onFrame_sliceFrom _).table.bind fun typeStr => Keeps.ite ?_ ?_
  · refine (onFrame_store _ _).table.bind fun _ => ?_
    refine (onFrame_store _ _).table.bind fun _ => ?_
    exact (keeps_cloneRedirect _ _ _).bind fun _ => keeps_pure _
  · refine (keeps_demand _ _).bind fun id => ?_
    refine (onFrame_store _ _).table.bind fun _ => ?_
    exact (keeps_cloneRedirect _ _ _).bind fun _ => keeps_pure _

theorem keeps_address (id : UInt8) : Keeps State.table (address id) := by
  refine (onFrame_store _ _).table.bind fun _ => ?_
  refine (onFrame_store _ _).table.bind fun _ => ?_
  refine ((keeps_demand _ _).bind fun _ => keeps_get.bind fun _ =>
    keeps_pure _).bind fun replicaInfo => ?_
  refine (onFrame_editHeader _ _ _).table.bind fun _ => ?_
  refine (onFrame_editHeader _ _ _).table.bind fun _ => ?_
  exact (onFrame_editHeader _ _ _).table.bind fun _ => keeps_pure _

def Maps.broadcast (build : Build) (maps : Maps) (sent : Prepare) :
    Except Stop Int32 × State :=
  (fastBroadCastMain build sent.kernel).run (maps.start sent.frame)

theorem table_broadcastMessage (build : Build) (kernel : Kernel)
    (payload : List UInt8) (state : State) :
    ((broadcastMessage build kernel payload).run state).2.table =
      (state.recorded payload).table := by
  rw [run_broadcastMessage]
  split
  · rfl
  · exact ((keeps_passOn build kernel _).bind keeps_address) (state.recorded payload)

theorem table_broadcast (build : Build) (maps : Maps) (sent : Prepare) :
    (maps.broadcast build sent).2.maps.mapQuorum =
      Function.update maps.mapQuorum sent.slot
        (if NamesPrepare sent.body then
          (maps.mapQuorum sent.slot).install
            (u32At sent.body 0 ^^^ broadcastSignBit) sent.opnum
        else
          maps.mapQuorum sent.slot) := by
  have noted : ((maps.start sent.frame).recorded sent.body).maps.mapQuorum =
      Function.update maps.mapQuorum sent.slot
        (if NamesPrepare sent.body then
          (maps.mapQuorum sent.slot).install
            (u32At sent.body 0 ^^^ broadcastSignBit) sent.opnum
        else
          maps.mapQuorum sent.slot) := by
    simp only [State.recorded, computeMessageType_eq_handlePrepare]
    split
    · rfl
    · exact (Function.update_eq_self _ _).symm
  have body : messageBody (maps.start sent.frame).dataSlice = sent.body := rfl
  rw [Maps.broadcast, run_fastBroadCastMain _ _ sent.laidOut.toIsMessage, body,
    ← noted]
  exact table_broadcastMessage build sent.kernel sent.body (maps.start sent.frame)

/-! The program that reads it. -/

/-- A PrepareOK that has reached `handle_prepare_ok`.  The checks before it leave
more bytes than the three fields take. -/
structure PrepareOk where
  frame : Frame
  payloadIndex : Nat
  kernel : Kernel
  long : payloadIndex + fastPaxosDataLen < frame.length

namespace PrepareOk

def vote (received : PrepareOk) : Vote :=
  let payload := received.frame.drop received.payloadIndex
  ⟨u32At payload 0, u32At payload 4, u32At payload 8⟩

def slot (received : PrepareOk) : Fin quorumBitsetEntry :=
  quorumSlot received.vote.msgOpnum

end PrepareOk

def Maps.prepareOk (build : Build) (maps : Maps) (received : PrepareOk) :
    Except Stop Int32 × State :=
  (handlePrepareOk build received.kernel received.payloadIndex).run
    (maps.start received.frame)

def Maps.Matches (maps : Maps) (received : PrepareOk) : Prop :=
  (maps.mapQuorum received.slot).Is received.vote.msgView received.vote.msgOpnum

instance (maps : Maps) (received : PrepareOk) : Decidable (maps.Matches received) :=
  inferInstanceAs (Decidable (PaxosQuorum.Is _ _ _))

theorem run_prepareOk (build : Build) (maps : Maps) (received : PrepareOk) :
    let entry := (maps.mapQuorum received.slot).acknowledge
      received.vote.msgReplicaIdx
    let voted := (maps.start received.frame).vote received.vote
    maps.prepareOk build received =
      if maps.Matches received then
        if countOnes entry.bitset ≠ (build.quorumSize - 1).toNat then
          (.ok xdpDrop, voted.setQuorum received.slot entry)
        else
          match received.frame.adjustTail received.kernel.refusesTail
              received.kernel.fill (-(received.payloadIndex : Int)) with
          | none => (.ok xdpDrop, voted.setQuorum received.slot entry)
          | some adjusted =>
              (.ok xdpPass, (voted.setQuorum received.slot entry).withFrame adjusted)
      else
        (.ok xdpPass, voted) := by
  intro entry voted
  have long := received.long
  have read : ¬ (received.frame.drop received.payloadIndex).length ≤
      fastPaxosDataLen := by
    rw [List.length_drop]
    omega
  have inside : received.payloadIndex ≤
      (maps.start received.frame).dataSlice.length := by
    change received.payloadIndex ≤ received.frame.length
    omega
  rw [Maps.prepareOk, handlePrepareOk, run_sliceFrom_bind _ inside]
  change (if (received.frame.drop received.payloadIndex).length ≤ fastPaxosDataLen
    then _ else _ : Program Int32).run _ = _
  rw [if_neg read, run_modify_bind, lookupQuorum_quorumIdx, run_pure_bind,
    run_get_bind, run_ite]
  by_cases found : maps.Matches received
  · have same : ¬ (_ ∨ _) := not_or.mpr ⟨not_not.mpr found.1, not_not.mpr found.2⟩
    rw [if_pos found]
    refine (if_neg same).trans ?_
    rw [run_modify_bind, run_ite]
    refine if_congr Iff.rfl rfl ?_
    change Effect.run (match received.frame.adjustTail received.kernel.refusesTail
        received.kernel.fill (-(received.payloadIndex : Int)) with
      | none => pure xdpDrop
      | some adjusted => do
          editFrame fun _ => adjusted
          pure xdpPass) _ = _
    cases received.frame.adjustTail received.kernel.refusesTail received.kernel.fill
        (-(received.payloadIndex : Int)) with
    | none => rfl
    | some adjusted => rfl
  · rw [if_neg found]
    exact if_pos (not_and_or.mp found)

theorem table_prepareOk (build : Build) (maps : Maps) (received : PrepareOk) :
    (maps.prepareOk build received).2.maps.mapQuorum =
      Function.update maps.mapQuorum received.slot
        (if maps.Matches received then
          (maps.mapQuorum received.slot).acknowledge received.vote.msgReplicaIdx
        else
          maps.mapQuorum received.slot) := by
  rw [run_prepareOk]
  split
  · split
    · rfl
    · split
      · rfl
      · rfl
  · exact (Function.update_eq_self _ _).symm

theorem countOnes_of_pass {build : Build} {maps : Maps} {received : PrepareOk}
    (found : maps.Matches received)
    (passed : (maps.prepareOk build received).1 = .ok xdpPass) :
    countOnes ((maps.mapQuorum received.slot).acknowledge
      received.vote.msgReplicaIdx).bitset = (build.quorumSize - 1).toNat := by
  rw [run_prepareOk, if_pos found] at passed
  by_contra differs
  rw [if_pos differs] at passed
  exact absurd (Except.ok.inj passed : xdpDrop = xdpPass) (by decide)

/-! Both programs, in any order. -/

structure World where
  maps : Maps
  /-- What each slot should stand for. -/
  slots : Fin quorumBitsetEntry → Option Installed

def World.start (maps : Maps) : World :=
  ⟨{ maps with mapQuorum := fun _ => ⟨0, 0, 0⟩ }, fun _ => none⟩

inductive Message
  | prepare (sent : Prepare)
  | prepareOk (received : PrepareOk)

def World.after (build : Build) (world : World) : Message → World
  | .prepare sent =>
      ⟨(world.maps.broadcast build sent).2.maps,
        Function.update world.slots sent.slot
          (some (prepared sent.view sent.opnum (world.slots sent.slot)))⟩
  | .prepareOk received =>
      ⟨(world.maps.prepareOk build received).2.maps,
        Function.update world.slots received.slot
          ((world.slots received.slot).map
            (Installed.acknowledged build.clusterSize.toNat received.vote))⟩

def worldStep (build : Build) (world : World) (message : Message) : Option World :=
  some (world.after build message)

/-- Every slot of the table says what it should. -/
def World.Tracks (world : World) : Prop :=
  ∀ idx, (world.maps.mapQuorum idx).Records (world.slots idx)

theorem tracks_start (maps : Maps) : (World.start maps).Tracks :=
  fun _ => rfl

theorem World.Tracks.update_iff {world next : World} (tracks : world.Tracks)
    {idx : Fin quorumBitsetEntry} {entry : PaxosQuorum} {slot : Option Installed}
    (table : next.maps.mapQuorum = Function.update world.maps.mapQuorum idx entry)
    (slots : next.slots = Function.update world.slots idx slot) :
    next.Tracks ↔ entry.Records slot := by
  constructor
  · intro after
    have here := after idx
    rwa [table, slots, Function.update_self, Function.update_self] at here
  · intro records other
    rw [table, slots]
    rcases eq_or_ne other idx with rfl | apart
    · rwa [Function.update_self, Function.update_self]
    · rw [Function.update_of_ne apart, Function.update_of_ne apart]
      exact tracks other

/-- What a message must be for the table to stay right. -/
def Message.Counted (build : Build) (world : World) : Message → Prop
  | .prepare sent =>
      if NamesPrepare sent.body then
        u32At sent.body 0 &&& broadcastSignBit ≠ 0
      else
        (world.maps.mapQuorum sent.slot).Is sent.view sent.opnum
  | .prepareOk received =>
      world.maps.Matches received →
        (world.slots received.slot).isSome = true ∧
          if received.vote.msgReplicaIdx.toNat < build.clusterSize.toNat then
            received.vote.msgReplicaIdx.toNat < 32
          else
            (world.maps.mapQuorum received.slot).bitset.toNat.testBit
              (received.vote.msgReplicaIdx.toNat % 32) = true

theorem tracks_prepare_iff (build : Build) {world : World} (tracks : world.Tracks)
    (sent : Prepare) :
    (world.after build (.prepare sent)).Tracks ↔
      (Message.prepare sent).Counted build world := by
  rw [tracks.update_iff (table_broadcast build world.maps sent) rfl, Message.Counted]
  have records := tracks sent.slot
  split
  · exact (records_install_iff records).trans (xor_broadcastSignBit_eq_iff _)
  · exact records_prepared_iff records

theorem tracks_prepareOk_iff (build : Build) {world : World} (tracks : world.Tracks)
    (received : PrepareOk) :
    (world.after build (.prepareOk received)).Tracks ↔
      (Message.prepareOk received).Counted build world := by
  rw [tracks.update_iff (table_prepareOk build world.maps received) rfl,
    Message.Counted]
  have records := tracks received.slot
  split
  · rename_i found
    rw [records_acknowledge_iff records found]
    exact ⟨fun right _ => right, fun right => right found⟩
  · rename_i other
    exact iff_of_true (records_of_other_vote records other) fun found =>
      absurd found other

/-- When a PrepareOK comes through the quorum branch, it completes a quorum. -/
def Message.Completes (build : Build) (world : World) : Message → Prop
  | .prepare _ => True
  | .prepareOk received =>
      world.maps.Matches received →
        (world.maps.prepareOk build received).1 = .ok xdpPass →
          ∃ installed,
            (world.after build (.prepareOk received)).slots received.slot =
                some installed ∧
              installed.Is received.vote.msgView received.vote.msgOpnum ∧
              installed.acks.card = (build.quorumSize - 1).toNat

theorem completes_of_tracks (build : Build) {world : World} (tracks : world.Tracks)
    {message : Message} (counted : message.Counted build world) :
    message.Completes build world := by
  cases message with
  | prepare sent => trivial
  | prepareOk received =>
      intro found passed
      have ones := countOnes_of_pass found passed
      obtain ⟨installed, slot⟩ := Option.isSome_iff_exists.mp (counted found).1
      have after : (world.after build (.prepareOk received)).slots received.slot =
          some (installed.acknowledged build.clusterSize.toNat received.vote) := by
        simp only [World.after, Function.update_self, slot, Option.map_some]
      have records := (tracks_prepareOk_iff build tracks received).mpr counted
        received.slot
      rw [after] at records
      simp only [World.after, table_prepareOk, Function.update_self,
        if_pos found] at records
      obtain ⟨viewEq, opnumEq, marks⟩ := records
      refine ⟨_, after, ⟨viewEq.symm.trans found.1, opnumEq.symm.trans found.2⟩, ?_⟩
      rw [← marks.countP_eq (UInt32.toNat_lt _)]
      exact ones

def Message.Faithful (build : Build) (world : World) (message : Message) : Prop :=
  (world.after build message).Tracks ∧ message.Completes build world

theorem quorum_counts_replicas_iff (build : Build) (maps : Maps)
    (messages : List Message) :
    EveryStep (worldStep build) (fun world message => message.Faithful build world)
        (.start maps) messages ↔
      EveryStep (worldStep build) (fun world message => message.Counted build world)
        (.start maps) messages := by
  apply everyStep_congr_of_invariant World.Tracks ?_ ?_ (tracks_start maps)
  · intro world message tracks
    have right : (world.after build message).Tracks ↔ message.Counted build world := by
      cases message with
      | prepare sent => exact tracks_prepare_iff build tracks sent
      | prepareOk received => exact tracks_prepareOk_iff build tracks received
    constructor
    · exact fun faithful => right.mp faithful.1
    · exact fun counted => ⟨right.mpr counted, completes_of_tracks build tracks counted⟩
  · intro world next message _ faithful taken
    obtain rfl := Option.some.inj taken
    exact faithful.1

/-- A Prepare with the marks that `compute_message_type` looks for in its data:
`vr` in the last field and `PrepareM` behind it. -/
def markedFrame : Frame :=
  .between 17 headersLen 50000 paxosPort
    (magicBits ++ LittleEndian.encode 8 prepareTypeLen ++ prepareTypeName ++
      LittleEndian.encode 4 (2 ^ 31) ++ LittleEndian.encode 4 1 ++ [1, 0] ++ vrMark ++
      List.replicate 7 0 ++ prepareMark ++ List.replicate 7 0)

def voteFrame (view opnum replicaIdx : Nat) : Frame :=
  List.replicate typeStart 0 ++ LittleEndian.encode 4 view ++
    LittleEndian.encode 4 opnum ++ LittleEndian.encode 4 replicaIdx ++ [0]

def markedPrepare : Prepare :=
  ⟨markedFrame, roomy, ⟨⟨by decide +kernel, by decide +kernel, by decide +kernel,
    by decide +kernel, by decide +kernel⟩, by decide +kernel, by decide +kernel⟩⟩

def followerVote : PrepareOk :=
  ⟨voteFrame 0 1 2, typeStart, roomy, by decide⟩

theorem quorum_counts_replicas_marked :
    EveryStep (worldStep .default) (fun world message => message.Faithful .default world)
      (.start firstMaps) [.prepare markedPrepare, .prepareOk followerVote] := by
  refine (quorum_counts_replicas_iff .default firstMaps _).mpr ⟨?_, ?_, trivial⟩
  · have marked : NamesPrepare markedPrepare.body := by decide +kernel
    simp only [Message.Counted, if_pos marked]
    decide +kernel
  · intro _
    exact ⟨by decide +kernel, by decide +kernel⟩

def plainPrepare : Prepare :=
  ⟨prepareFrame (2 ^ 31) 1 1, roomy, ⟨⟨by decide +kernel, by decide +kernel,
    by decide +kernel, by decide +kernel, by decide +kernel⟩, by decide +kernel,
    by decide +kernel⟩⟩

theorem plain_prepare_not_installed :
    ¬ ∀ (build : Build) (maps : Maps) (messages : List Message),
      EveryStep (worldStep build) (fun world message => message.Faithful build world)
        (.start maps) messages := by
  intro always
  obtain ⟨⟨tracks, -⟩, -⟩ := always .default firstMaps [.prepare plainPrepare]
  have unmoved := (tracks plainPrepare.slot).2.1
  exact absurd unmoved (by decide +kernel)

end Rex.Electrode
