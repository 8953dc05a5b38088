import Rex.Data.Interleaving
import Rex.Electrode.Quorum

namespace Rex.Electrode.Racing

open Bytes Effect Rex.Frame Machine Bitset

/-! The two programs on several CPUs at once.  They share `map_quorum` and take
no lock, so that every read and every write of a field of an entry is a step of
its own. -/

abbrev Table : Type := RexArrayMap quorumBitsetEntry PaxosQuorum

inductive Access
  | checkView (received : PrepareOk)
  | checkOpnum (received : PrepareOk)
  | load (received : PrepareOk)
  | store (received : PrepareOk) (loaded : UInt32)
  | count (received : PrepareOk) (stored : UInt32)
  | inspect (sent : Prepare)
  | compareView (sent : Prepare)
  | compareOpnum (sent : Prepare)
  | writeView (sent : Prepare)
  | writeOpnum (sent : Prepare)
  | clear (sent : Prepare)

def Access.slot : Access → Fin quorumBitsetEntry
  | .checkView received | .checkOpnum received | .load received | .store received _
  | .count received _ => received.slot
  | .inspect sent | .compareView sent | .compareOpnum sent | .writeView sent
  | .writeOpnum sent | .clear sent => sent.slot

/-- What a CPU has of its last PrepareOK: the verdict, and the bitset that was
found to complete a quorum. -/
structure Registers where
  verdict : Option Int32
  completed : Option (Vote × UInt32)

inductive Job
  | prepareOk (received : PrepareOk)
  | prepare (sent : Prepare)

def storedView (sent : Prepare) : UInt32 :=
  u32At sent.body 0 ^^^ broadcastSignBit

def edit (table : Table) (idx : Fin quorumBitsetEntry)
    (change : PaxosQuorum → PaxosQuorum) : Table :=
  Function.update table idx (change (table idx))

section Steps

/-! A build also fixes whether `count_ones` reads the bitset again or takes the
value that was just stored. -/

variable (build : Build) (reloads : Bool)

def finish (received : PrepareOk) (bitset : UInt32) : Registers :=
  if countOnes bitset ≠ (build.quorumSize - 1).toNat then
    ⟨some xdpDrop, none⟩
  else
    match received.frame.adjustTail received.kernel.refusesTail received.kernel.fill
        (-(received.payloadIndex : Int)) with
    | none => ⟨some xdpDrop, some (received.vote, bitset)⟩
    | some _ => ⟨some xdpPass, some (received.vote, bitset)⟩

def Access.advance (table : Table) (registers : Registers) :
    Access → Option Access × Table × Registers
  | .checkView received =>
      if (table received.slot).view ≠ received.vote.msgView then
        (none, table, ⟨some xdpPass, none⟩)
      else
        (some (.checkOpnum received), table, registers)
  | .checkOpnum received =>
      if (table received.slot).opnum ≠ received.vote.msgOpnum then
        (none, table, ⟨some xdpPass, none⟩)
      else
        (some (.load received), table, registers)
  | .load received =>
      (some (.store received (table received.slot).bitset), table, registers)
  | .store received loaded =>
      let bitset := loaded ||| 1 <<< (received.vote.msgReplicaIdx % 32)
      (some (.count received bitset),
        edit table received.slot fun entry => { entry with bitset }, registers)
  | .count received stored =>
      (none, table,
        finish build received (if reloads then (table received.slot).bitset else stored))
  | .inspect sent =>
      if NamesPrepare sent.body then
        (some (.compareView sent), table, registers)
      else
        (none, table, registers)
  | .compareView sent =>
      if (table sent.slot).view ≠ storedView sent then
        (some (.writeView sent), table, registers)
      else
        (some (.compareOpnum sent), table, registers)
  | .compareOpnum sent =>
      if (table sent.slot).opnum ≠ sent.opnum then
        (some (.writeView sent), table, registers)
      else
        (none, table, registers)
  | .writeView sent =>
      (some (.writeOpnum sent),
        edit table sent.slot fun entry => { entry with view := storedView sent },
        registers)
  | .writeOpnum sent =>
      (some (.clear sent),
        edit table sent.slot fun entry => { entry with opnum := sent.opnum },
        registers)
  | .clear sent =>
      (none, edit table sent.slot fun entry => { entry with bitset := 0 }, registers)

def Job.launch (registers : Registers) : Job → Access × Registers
  | .prepareOk received => (.checkView received, ⟨none, none⟩)
  | .prepare sent => (.inspect sent, registers)

def cut : Interleaving.Cut Table Registers Access Job where
  launch job registers := job.launch registers
  advance access table registers := access.advance build reloads table registers

end Steps

abbrev Host : Type := Interleaving.World Table Registers Access

abbrev Move : Type := Interleaving.Move Job

def Host.idle (table : Table) : Host :=
  ⟨table, fun _ => ⟨none, none⟩, fun _ => none⟩

/-- No program is at work on the entry. -/
def Host.Settled (host : Host) (idx : Fin quorumBitsetEntry) : Prop :=
  ∀ cpu access, host.stage cpu = some access → access.slot ≠ idx

abbrev move (build : Build) (reloads : Bool) : Host → Move → Option Host :=
  Interleaving.step (cut build reloads)

/-! Without interruption the steps do what the programs do. -/

section Alone

variable {build : Build} {reloads : Bool}

theorem verdict_finish {maps : Maps} {received : PrepareOk}
    (found : maps.Matches received) :
    (finish build received ((maps.mapQuorum received.slot).acknowledge
        received.vote.msgReplicaIdx).bitset).verdict.map Except.ok =
      some (maps.prepareOk build received).1 := by
  rw [run_prepareOk, if_pos found, finish]
  split
  · rfl
  · cases received.frame.adjustTail received.kernel.refusesTail received.kernel.fill
        (-(received.payloadIndex : Int)) with
    | none => rfl
    | some adjusted => rfl

theorem alone_prepareOk (maps : Maps) (received : PrepareOk) (registers : Registers) :
    ∃ last, Interleaving.Finishes (cut build reloads)
        (maps.prepareOk build received).2.maps.mapQuorum last (.checkView received)
        maps.mapQuorum registers ∧
      last.verdict.map Except.ok = some (maps.prepareOk build received).1 := by
  by_cases found : maps.Matches received
  · refine ⟨_, .more (if_neg (not_not.mpr found.1)) (.more (if_neg (not_not.mpr found.2))
      (.more rfl (.more rfl (.last ?_)))), verdict_finish found⟩
    rw [table_prepareOk, if_pos found]
    show (none, _, finish build received _) = _
    cases reloads with
    | false => rfl
    | true =>
        rw [if_pos rfl, edit, Function.update_self]
        rfl
  · have ended : (maps.prepareOk build received).1 = .ok xdpPass := by
      rw [run_prepareOk, if_neg found]
    have same : (maps.prepareOk build received).2.maps.mapQuorum = maps.mapQuorum := by
      rw [table_prepareOk, if_neg found, Function.update_eq_self]
    rw [same, ended]
    by_cases view : (maps.mapQuorum received.slot).view = received.vote.msgView
    · have opnum : (maps.mapQuorum received.slot).opnum ≠ received.vote.msgOpnum :=
        fun opnum => found ⟨view, opnum⟩
      exact ⟨_, .more (if_neg (not_not.mpr view)) (.last (if_pos opnum)), rfl⟩
    · exact ⟨_, .last (if_pos view), rfl⟩

theorem alone_write (table : Table) (sent : Prepare) (registers : Registers) :
    Interleaving.Finishes (cut build reloads)
      (Function.update table sent.slot ⟨storedView sent, sent.opnum, 0⟩) registers
      (.writeView sent) table registers := by
  refine .more rfl (.more rfl (.last ?_))
  show (none, _, registers) = _
  simp only [edit, Function.update_self, Function.update_idem]

theorem alone_prepare (maps : Maps) (sent : Prepare) (registers : Registers) :
    Interleaving.Finishes (cut build reloads)
      (maps.broadcast build sent).2.maps.mapQuorum registers (.inspect sent)
      maps.mapQuorum registers := by
  have table : (maps.broadcast build sent).2.maps.mapQuorum =
      Function.update maps.mapQuorum sent.slot
        (if NamesPrepare sent.body then
          (maps.mapQuorum sent.slot).install (storedView sent) sent.opnum
        else
          maps.mapQuorum sent.slot) :=
    table_broadcast build maps sent
  rw [table]
  by_cases named : NamesPrepare sent.body
  · rw [if_pos named, PaxosQuorum.install]
    refine .more (if_pos named) ?_
    by_cases view : (maps.mapQuorum sent.slot).view = storedView sent
    · refine .more (if_neg (not_not.mpr view)) ?_
      by_cases opnum : (maps.mapQuorum sent.slot).opnum = sent.opnum
      · rw [if_neg (not_or.mpr ⟨not_not.mpr view, not_not.mpr opnum⟩),
          Function.update_eq_self]
        exact .last (if_neg (not_not.mpr opnum))
      · rw [if_pos (.inr opnum)]
        exact .more (if_pos opnum) (alone_write _ _ _)
    · rw [if_pos (.inl view)]
      exact .more (if_pos view) (alone_write _ _ _)
  · rw [if_neg named, Function.update_eq_self]
    exact .last (if_neg named)

end Alone

def Message.job : Message → Job
  | .prepare sent => .prepare sent
  | .prepareOk received => .prepareOk received

/-- Handling the messages one at a time is one of the interleavings of their
accesses. -/
theorem sequential_messages_interleave (build : Build) (reloads : Bool)
    {messages : List (Nat × Message)} {world last : World}
    (run : exec (fun world message => worldStep build world message.2) world messages =
      some last) :
    ∃ schedule host,
      exec (move build reloads) (.idle world.maps.mapQuorum) schedule = some host ∧
        host.shared = last.maps.mapQuorum ∧ (∀ cpu, host.stage cpu = none) ∧
        Interleaving.launches schedule =
          messages.map fun message => (message.1, Message.job message.2) := by
  have idle : ∀ cpu, (Host.idle world.maps.mapQuorum).stage cpu = none := fun _ => rfl
  refine Interleaving.exec_sequence
    (fun world host => Interleaving.World.shared host = world.maps.mapQuorum) ?_ rfl
    idle run (everyStep_of_forall (fun _ _ => trivial) _ _)
  intro world next message host agrees _ served
  obtain rfl := Option.some.inj served
  obtain ⟨cpu, message⟩ := message
  cases message with
  | prepare sent =>
      refine ⟨_, host.memory cpu, rfl, ?_⟩
      rw [agrees]
      exact alone_prepare world.maps sent (host.memory cpu)
  | prepareOk received =>
      obtain ⟨last, finishes, _⟩ := alone_prepareOk world.maps received ⟨none, none⟩
      refine ⟨_, last, rfl, ?_⟩
      rw [agrees]
      exact finishes

theorem sequential_messages_interleave_marked :
    ∃ last, exec (fun world message => worldStep .default world message.2)
        (World.start firstMaps) [(0, .prepare markedPrepare), (1, .prepareOk followerVote)] =
          some last ∧
      ∃ schedule host,
        exec (move .default true) (.idle (World.start firstMaps).maps.mapQuorum) schedule =
          some host ∧
        host.shared = last.maps.mapQuorum ∧ (∀ cpu, host.stage cpu = none) ∧
        Interleaving.launches schedule =
          [(0, .prepare markedPrepare), (1, .prepareOk followerVote)] := by
  obtain ⟨last, run⟩ : ∃ last,
      exec (fun world message => worldStep .default world message.2)
        (World.start firstMaps)
        [(0, .prepare markedPrepare), (1, .prepareOk followerVote)] = some last :=
    ⟨_, rfl⟩
  exact ⟨last, run, sequential_messages_interleave .default true run⟩

/-! A slot that no other Prepare takes. -/

section Backed

variable (votes : List Vote) (view opnum : UInt32)

/-- Every bit is the bit of a vote for the operation. -/
def Backed (bitset : UInt32) : Prop :=
  ∀ idx, bitset.toNat.testBit idx = true → ∃ vote ∈ votes,
    vote.msgView = view ∧ vote.msgOpnum = opnum ∧ vote.msgReplicaIdx.toNat % 32 = idx

variable {votes view opnum}

theorem backed_zero : Backed votes view opnum 0 := by
  intro idx set
  rw [show (0 : UInt32).toNat = 0 from rfl, Nat.zero_testBit] at set
  cases set

theorem Backed.or {bitset : UInt32} (backed : Backed votes view opnum bitset)
    {vote : Vote} (member : vote ∈ votes) (sameView : vote.msgView = view)
    (sameOpnum : vote.msgOpnum = opnum) :
    Backed votes view opnum (bitset ||| 1 <<< (vote.msgReplicaIdx % 32)) := by
  have word := toNat_acknowledge ⟨view, opnum, bitset⟩ vote.msgReplicaIdx
  change (bitset ||| 1 <<< (vote.msgReplicaIdx % 32)).toNat =
    bitset.toNat ||| 1 <<< (vote.msgReplicaIdx.toNat % 32) at word
  intro idx set
  rw [word, testBit_or_shiftLeft, Bool.or_eq_true, decide_eq_true_iff] at set
  rcases set with set | same
  · exact backed idx set
  · exact ⟨vote, member, sameView, sameOpnum, same⟩

variable (votes view opnum)

/-- What is true of an access to the entry of the operation. -/
def Access.Fair : Access → Prop
  | .checkView received => received.vote ∈ votes
  | .checkOpnum received => received.vote ∈ votes ∧ received.vote.msgView = view
  | .load received => received.vote ∈ votes ∧ received.vote.msgView = view ∧
      received.vote.msgOpnum = opnum
  | .store received bitset | .count received bitset => received.vote ∈ votes ∧
      received.vote.msgView = view ∧ received.vote.msgOpnum = opnum ∧
        Backed votes view opnum bitset
  | .inspect sent => NamesPrepare sent.body → storedView sent = view ∧ sent.opnum = opnum
  | .compareView sent | .compareOpnum sent => storedView sent = view ∧ sent.opnum = opnum
  | .writeView _ | .writeOpnum _ | .clear _ => False

def Going (stage : Option Access) : Prop :=
  ∀ access, stage = some access → access.slot = quorumSlot opnum →
    access.Fair votes view opnum

def Kept (table : Table) : Prop :=
  (table (quorumSlot opnum)).view = view ∧ (table (quorumSlot opnum)).opnum = opnum ∧
    Backed votes view opnum (table (quorumSlot opnum)).bitset

def Job.Fair : Job → Prop
  | .prepareOk received => received.vote ∈ votes
  | .prepare sent => sent.slot = quorumSlot opnum → NamesPrepare sent.body →
      storedView sent = view ∧ sent.opnum = opnum

variable {votes view opnum} {build : Build} {reloads : Bool}

theorem going_none : Going votes view opnum none := by
  intro access idle
  cases idle

theorem going_some {access : Access} (fair : access.Fair votes view opnum) :
    Going votes view opnum (some access) := by
  intro other same _
  exact Option.some.inj same ▸ fair

theorem slot_advance {access next : Access} {table : Table} {registers : Registers}
    (went : (access.advance build reloads table registers).1 = some next) :
    next.slot = access.slot := by
  cases access with
  | checkView received | checkOpnum received | inspect sent | compareView sent
  | compareOpnum sent =>
      rw [Access.advance] at went
      split at went <;> cases went <;> rfl
  | load received | store received loaded | writeView sent | writeOpnum sent =>
      cases went
      rfl
  | count received stored | clear sent => cases went

theorem table_advance {access : Access} {table : Table} {registers : Registers}
    {idx : Fin quorumBitsetEntry} (other : idx ≠ access.slot) :
    (access.advance build reloads table registers).2.1 idx = table idx := by
  cases access with
  | checkView received | checkOpnum received | inspect sent | compareView sent
  | compareOpnum sent =>
      rw [Access.advance]
      split <;> rfl
  | load received | count received stored => rfl
  | store received loaded | writeView sent | writeOpnum sent | clear sent =>
      exact Function.update_of_ne other ..

theorem kept_store {table : Table} (kept : Kept votes view opnum table) {bitset : UInt32}
    (backed : Backed votes view opnum bitset) :
    Kept votes view opnum
      (edit table (quorumSlot opnum) fun entry => { entry with bitset }) := by
  rw [Kept, edit, Function.update_self]
  exact ⟨kept.1, kept.2.1, backed⟩

theorem advance_at_slot {access : Access} {table : Table} {registers : Registers}
    (kept : Kept votes view opnum table) (here : access.slot = quorumSlot opnum)
    (fair : access.Fair votes view opnum) :
    Kept votes view opnum (access.advance build reloads table registers).2.1 ∧
      Going votes view opnum (access.advance build reloads table registers).1 := by
  cases access with
  | checkView received =>
      rw [Access.advance]
      split
      · exact ⟨kept, going_none⟩
      · rename_i same
        refine ⟨kept, going_some ⟨fair, ?_⟩⟩
        rw [← not_not.mp same, show received.slot = quorumSlot opnum from here, kept.1]
  | checkOpnum received =>
      rw [Access.advance]
      split
      · exact ⟨kept, going_none⟩
      · rename_i same
        refine ⟨kept, going_some ⟨fair.1, fair.2, ?_⟩⟩
        rw [← not_not.mp same, show received.slot = quorumSlot opnum from here, kept.2.1]
  | load received =>
      refine ⟨kept, going_some ⟨fair.1, fair.2.1, fair.2.2, ?_⟩⟩
      rw [show received.slot = quorumSlot opnum from here]
      exact kept.2.2
  | store received loaded =>
      obtain ⟨cast, sameView, sameOpnum, before⟩ := fair
      have added := before.or cast sameView sameOpnum
      refine ⟨?_, going_some ⟨cast, sameView, sameOpnum, added⟩⟩
      have stored := kept_store kept added
      rwa [← show received.slot = quorumSlot opnum from here] at stored
  | count received stored => exact ⟨kept, going_none⟩
  | inspect sent =>
      rw [Access.advance]
      split
      · rename_i named
        exact ⟨kept, going_some (fair named)⟩
      · exact ⟨kept, going_none⟩
  | compareView sent =>
      rw [Access.advance]
      split
      · rename_i differs
        refine absurd ?_ differs
        rw [show sent.slot = quorumSlot opnum from here, kept.1, fair.1]
      · exact ⟨kept, going_some fair⟩
  | compareOpnum sent =>
      rw [Access.advance]
      split
      · rename_i differs
        refine absurd ?_ differs
        rw [show sent.slot = quorumSlot opnum from here, kept.2.1, fair.2]
      · exact ⟨kept, going_none⟩
  | writeView sent | writeOpnum sent | clear sent => exact fair.elim

theorem advance_fair {access : Access} {table : Table} {registers : Registers}
    (kept : Kept votes view opnum table) (going : Going votes view opnum (some access)) :
    Kept votes view opnum (access.advance build reloads table registers).2.1 ∧
      Going votes view opnum (access.advance build reloads table registers).1 := by
  by_cases here : access.slot = quorumSlot opnum
  · exact advance_at_slot kept here (going access rfl here)
  · constructor
    · rw [Kept, table_advance (Ne.symm here)]
      exact kept
    · intro next went there
      exact absurd ((slot_advance went).symm.trans there) here

theorem racing_fair {start host : Host} {schedule : List Move}
    (installed : start.shared (quorumSlot opnum) = ⟨view, opnum, 0⟩)
    (settled : start.Settled (quorumSlot opnum))
    (fair : ∀ entry ∈ Interleaving.launches schedule, entry.2.Fair votes view opnum)
    (run : exec (move build reloads) start schedule = some host) :
    Kept votes view opnum host.shared ∧ ∀ cpu, Going votes view opnum (host.stage cpu) := by
  have kept : Kept votes view opnum start.shared := by
    rw [Kept, installed]
    exact ⟨rfl, rfl, backed_zero⟩
  have own : ∀ cpu, Going votes view opnum (start.stage cpu) :=
    fun cpu access busy here => absurd here (settled cpu access busy)
  refine Interleaving.exec_local (Kept votes view opnum)
    (fun access _ => Going votes view opnum access) (Job.Fair votes view opnum) ?_ ?_ fair
    kept own run
  · intro job registers fair _ access launched here
    obtain rfl := Option.some.inj launched
    cases job with
    | prepareOk received => exact fair
    | prepare sent => exact fair here
  · intro access table registers kept own
    exact advance_fair kept own

end Backed

theorem card_of_backed {votes : List Vote} {view opnum bitset : UInt32}
    (backed : Backed votes view opnum bitset) :
    ∃ replicas : Finset Nat, replicas.card = countOnes bitset ∧
      ∀ replica ∈ replicas, ∃ vote ∈ votes, vote.msgView = view ∧
        vote.msgOpnum = opnum ∧ vote.msgReplicaIdx.toNat % 32 = replica := by
  have marks : Marks bitset.toNat
      ((Finset.range 32).filter fun idx => bitset.toNat.testBit idx = true) := by
    intro idx
    rw [Finset.mem_filter, Finset.mem_range]
    refine ⟨fun set => ⟨?_, set⟩, And.right⟩
    by_contra beyond
    have clear : bitset.toNat.testBit idx = false :=
      Nat.testBit_lt_two_pow ((UInt32.toNat_lt _).trans_le
        (Nat.pow_le_pow_right (by decide) (by omega)))
    exact Bool.false_ne_true (clear.symm.trans set)
  refine ⟨_, (marks.countP_eq (UInt32.toNat_lt _)).symm, ?_⟩
  intro replica member
  exact backed replica ((marks replica).mpr member)

theorem completed_finish {build : Build} {received : PrepareOk} {bitset : UInt32}
    (completes : (finish build received bitset).completed.isSome) :
    countOnes bitset = (build.quorumSize - 1).toNat := by
  rw [finish] at completes
  split at completes
  · cases completes
  · rename_i ones
    exact not_not.mp ones

/-- However the accesses of the CPUs are interleaved, and whatever votes are lost
that way, from the moment on at which a Prepare has taken its slot and no program
is at work there: when a PrepareOK is found to complete the quorum of the
operation, and no other Prepare takes the slot meanwhile, as many replicas as a
quorum needs besides the leader have voted for that very operation. -/
theorem racing_quorum_is_real {build : Build} {reloads : Bool} {start host next : Host}
    {schedule : List Move} {view opnum : UInt32}
    (installed : start.shared (quorumSlot opnum) = ⟨view, opnum, 0⟩)
    (settled : start.Settled (quorumSlot opnum))
    (kept : ∀ cpu sent, .launch cpu (.prepare sent) ∈ schedule →
      sent.slot = quorumSlot opnum → NamesPrepare sent.body →
        storedView sent = view ∧ sent.opnum = opnum)
    (run : exec (move build reloads) start schedule = some host)
    {cpu : Nat} {received : PrepareOk} {stored : UInt32}
    (counting : host.stage cpu = some (.count received stored))
    (sameOpnum : received.vote.msgOpnum = opnum)
    (taken : move build reloads host (.advance cpu) = some next)
    (completes : (next.memory cpu).completed.isSome) :
    ∃ replicas : Finset Nat, replicas.card = (build.quorumSize - 1).toNat ∧
      ∀ replica ∈ replicas, ∃ source received,
        .launch source (.prepareOk received) ∈ schedule ∧
          received.vote.msgView = view ∧ received.vote.msgOpnum = opnum ∧
          received.vote.msgReplicaIdx.toNat % 32 = replica := by
  -- the votes are those of the PrepareOKs that the schedule hands to the CPUs
  set votes : List Vote := (Interleaving.launches schedule).filterMap fun
    | (_, .prepareOk received) => some received.vote
    | (_, .prepare _) => none
  have fair : ∀ entry ∈ Interleaving.launches schedule,
      entry.2.Fair votes view opnum := by
    rintro ⟨source, job⟩ member
    cases job with
    | prepareOk received => exact List.mem_filterMap.mpr ⟨_, member, rfl⟩
    | prepare sent => exact kept source sent (Interleaving.mem_launches.mp member)
  obtain ⟨⟨_, _, inTable⟩, own⟩ := racing_fair installed settled fair run
  have here : received.slot = quorumSlot opnum := by rw [PrepareOk.slot, sameOpnum]
  obtain ⟨_, _, _, inRegister⟩ := own cpu _ counting here
  obtain ⟨access, busy, rfl⟩ := Interleaving.step_advance_eq_some.mp taken
  obtain rfl := Option.some.inj (counting.symm.trans busy)
  rw [Interleaving.World.advanced, Interleaving.World.memory_put_self] at completes
  have ones := completed_finish completes
  have backed : Backed votes view opnum
      (if reloads then (host.shared received.slot).bitset else stored) := by
    split
    · rw [here]
      exact inTable
    · exact inRegister
  obtain ⟨replicas, card, voted⟩ := card_of_backed backed
  refine ⟨replicas, card.trans ones, ?_⟩
  intro replica member
  obtain ⟨vote, cast, viewEq, opnumEq, idx⟩ := voted replica member
  obtain ⟨⟨source, job⟩, launched, same⟩ := List.mem_filterMap.mp cast
  cases job with
  | prepare sent => cases same
  | prepareOk received =>
      obtain rfl := Option.some.inj same
      exact ⟨source, received, Interleaving.mem_launches.mp launched, viewEq, opnumEq,
        idx⟩

/-- Two replicas of five vote at the same time, on two CPUs, after the Prepare has
been handled on one of them. -/
def secondVote : PrepareOk :=
  ⟨voteFrame 0 1 1, typeStart, roomy, by decide⟩

def installing : List Move :=
  .launch 0 (.prepare markedPrepare) :: List.replicate 6 (.advance 0)

def raced : List Move :=
  [.launch 0 (.prepareOk followerVote), .launch 1 (.prepareOk secondVote), .advance 0,
    .advance 1, .advance 0, .advance 1, .advance 0, .advance 0, .advance 1, .advance 1,
    .advance 0]

theorem racing_quorum_is_real_raced :
    ∃ start host next,
      exec (move ⟨true, true, 5⟩ true) (.idle fun _ => ⟨0, 0, 0⟩) installing = some start ∧
      exec (move ⟨true, true, 5⟩ true) start raced = some host ∧
      move ⟨true, true, 5⟩ true host (.advance 1) = some next ∧
      (next.memory 1).completed = some (⟨0, 1, 1⟩, 6) ∧
      ∃ replicas : Finset Nat, replicas.card = 2 ∧
        ∀ replica ∈ replicas, ∃ source received,
          .launch source (.prepareOk received) ∈ raced ∧
            received.vote.msgView = 0 ∧ received.vote.msgOpnum = 1 ∧
            received.vote.msgReplicaIdx.toNat % 32 = replica := by
  obtain ⟨start, host, next, stored, reached, installed, settled, run, counting, taken,
    completed⟩ : ∃ start host next stored,
      exec (move ⟨true, true, 5⟩ true) (.idle fun _ => ⟨0, 0, 0⟩) installing = some start ∧
      start.shared (quorumSlot 1) = ⟨0, 1, 0⟩ ∧ (∀ cpu, start.stage cpu = none) ∧
      exec (move ⟨true, true, 5⟩ true) start raced = some host ∧
      host.stage 1 = some (.count secondVote stored) ∧
      move ⟨true, true, 5⟩ true host (.advance 1) = some next ∧
      (next.memory 1).completed = some (⟨0, 1, 1⟩, 6) := by
    refine ⟨_, _, _, _, rfl, by decide +kernel, ?_, rfl, rfl, rfl, by decide +kernel⟩
    intro cpu
    by_cases own : cpu = 0
    · subst own
      rfl
    · simp only [Interleaving.World.advanced, Interleaving.World.launched,
        Interleaving.World.stage_put_of_ne _ _ _ own]
      rfl
  refine ⟨start, host, next, reached, run, taken, completed, ?_⟩
  refine racing_quorum_is_real installed ?_ ?_ run counting rfl taken
    (Option.isSome_of_eq_some completed)
  · intro cpu access busy
    cases (settled cpu).symm.trans busy
  · intro cpu sent launched
    simp [raced] at launched

-- An entry that was taken while a PrepareOK for the operation before it, in the same
-- slot, was between its load and its store: one vote completes the quorum of three.
example : (exec (move ⟨true, true, 5⟩ true)
    ⟨fun _ => ⟨0, 1025, 0⟩, fun _ => ⟨none, none⟩,
      fun cpu => if cpu = 0 then some (.store followerVote 0) else none⟩
    (.advance 0 :: .launch 1 (.prepareOk ⟨voteFrame 0 1025 1, typeStart, roomy, by decide⟩) ::
      List.replicate 5 (.advance 1))).map (fun host => (host.memory 1).completed) =
      some (some (⟨0, 1025, 1⟩, 6)) := by
  decide +kernel

end Rex.Electrode.Racing
