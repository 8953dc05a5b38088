import Rex.Bmc.Ready

namespace Rex.Bmc

open Bytes Effect Program Rex.Frame Machine

/-! `map_stats` after any interleaving of the programs: how the counters of a CPU
follow from the frames that it was given. -/

inductive Counter
  | getRecv
  | setRecv
  | getResp
  | hit
  | update
  | invalidation
deriving DecidableEq

def BmcStats.read (stats : BmcStats) : Counter → UInt32
  | .getRecv => stats.getRecvCount
  | .setRecv => stats.setRecvCount
  | .getResp => stats.getRespCount
  | .hit => stats.hitCount
  | .update => stats.updateCount
  | .invalidation => stats.invalidationCount

def BmcStats.raise (stats : BmcStats) : Counter → BmcStats
  | .getRecv => { stats with getRecvCount := stats.getRecvCount + 1 }
  | .setRecv => { stats with setRecvCount := stats.setRecvCount + 1 }
  | .getResp => { stats with getRespCount := stats.getRespCount + 1 }
  | .hit => { stats with hitCount := stats.hitCount + 1 }
  | .update => { stats with updateCount := stats.updateCount + 1 }
  | .invalidation => { stats with invalidationCount := stats.invalidationCount + 1 }

def PerCpu.read (cpu : PerCpu) (counter : Counter) : UInt32 :=
  (cpu.mapStats ⟨0, Nat.one_pos⟩).read counter

def State.read (state : State) (counter : Counter) : UInt32 :=
  state.cpu.read counter

def one (raised counter : Counter) : Nat :=
  if counter = raised then 1 else 0

theorem read_raise (stats : BmcStats) (raised counter : Counter) :
    (stats.raise raised).read counter =
      stats.read counter + .ofNat (one raised counter) := by
  by_cases same : counter = raised
  · subst same
    rw [one, if_pos rfl]
    cases counter <;> rfl
  · rw [one, if_neg same]
    refine Eq.trans ?_ (UInt32.add_zero _).symm
    cases raised <;> cases counter <;> first | rfl | exact absurd rfl same

/-! What a frame is worth to each counter. -/

instance (frame : Frame) : Decidable (IsGet frame) :=
  inferInstanceAs (Decidable (_ ∧ _ ∧ _))

instance (frame : Frame) : Decidable (IsSegment frame) :=
  inferInstanceAs (Decidable (_ ∧ _ ∧ _))

instance (frame : Frame) : Decidable (IsResponse frame) :=
  inferInstanceAs (Decidable (_ ∧ _ ∧ _))

def gets (frame : Frame) : Nat :=
  if IsGet frame then 1 else 0

def sets (frame : Frame) : Nat :=
  if IsSegment frame then (setRequests (frame.drop tcpHeaderLen)).length else 0

def responses (frame : Frame) : Nat :=
  if IsResponse frame then 1 else 0

/-- How far each counter may still be raised by what is left of a program. -/
def Stage.owes (frame : Frame) : Stage → Counter → Nat
  | .rx _, .getRecv | .rx _, .hit => gets frame
  | .rx _, .setRecv | .rx _, .invalidation => sets frame
  | .scan .., .hit | .reply .., .hit => 1
  | .check _ rest, .setRecv | .check _ rest, .invalidation => rest.length + 1
  | .clear _ rest, .setRecv | .clear _ rest, .invalidation => rest.length
  | .tx _, .getResp | .tx _, .update => responses frame
  | .update .., .update => 1
  | _, _ => 0

def Job.counts : Job → Counter → Nat
  | .rx frame kernel => (Stage.rx kernel).owes frame
  | .tx frame pagedLen => (Stage.tx pagedLen).owes frame

/-- The counters that do not depend on the cache. -/
def Counter.Exact : Counter → Prop
  | .getRecv | .setRecv | .getResp => True
  | .hit | .update | .invalidation => False

/-- Of what is owed, so much is spent and so much is left. -/
def Covers (spent left owed : Counter → Nat) : Prop :=
  ∀ counter, spent counter + left counter ≤ owed counter ∧
    (counter.Exact → spent counter + left counter = owed counter)

def nothing (_ : Counter) : Nat := 0

def owesNext (frame : Frame) : Option Stage → Counter → Nat
  | none => nothing
  | some stage => stage.owes frame

theorem Covers.all (owed : Counter → Nat) : Covers nothing owed owed := by
  intro counter
  have same : nothing counter + owed counter = owed counter := Nat.zero_add _
  exact ⟨same.le, fun _ => same⟩

theorem Covers.trans {spent left owed later total : Counter → Nat}
    (first : Covers spent owed total) (second : Covers later left owed) :
    Covers (fun counter => spent counter + later counter) left total := by
  intro counter
  obtain ⟨bound, exact⟩ := first counter
  obtain ⟨within, equal⟩ := second counter
  refine ⟨?_, fun isExact => ?_⟩
  · show spent counter + later counter + left counter ≤ total counter
    omega
  · have before := exact isExact
    have after := equal isExact
    show spent counter + later counter + left counter = total counter
    omega

/-! What the parts of the programs do to the counters. -/

section Keeps

variable {Value Other : Type}

theorem keepsRead_bump (idx : Fin 1) {count : BmcStats → BmcStats}
    (same : ∀ stats, (count stats).read = stats.read) :
    Keeps State.read (Program.bump idx count) := by
  apply keeps_modify
  intro state
  obtain rfl : idx = ⟨0, Nat.one_pos⟩ := Subsingleton.elim _ _
  funext counter
  show (Function.update state.cpu.mapStats _ _ _).read counter = _
  rw [Function.update_self, same]
  rfl

theorem keepsRead_miss (idx : Fin 1) : Keeps State.read
    (Program.bump idx fun stats => { stats with missCount := stats.missCount + 1 }) :=
  keepsRead_bump idx fun _ => rfl

theorem read_bump (state : State) (idx : Fin 1) (raised counter : Counter) :
    (state.bump idx fun stats => stats.raise raised).read counter =
      state.read counter + .ofNat (one raised counter) := by
  obtain rfl : idx = ⟨0, Nat.one_pos⟩ := Subsingleton.elim _ _
  show (Function.update state.cpu.mapStats _ _ _).read counter = _
  rw [Function.update_self, read_raise]
  rfl

theorem keepsRead_editFrame (edit : Frame → Frame) :
    Keeps State.read (editFrame edit) :=
  keeps_modify fun _ => rfl

theorem keepsRead_editHeader (start : Nat) (header : Header) (edit : Frame → Frame) :
    Keeps State.read (editHeader start header edit) :=
  keeps_get.bind fun _ => (keepsRead_editFrame edit).ite (keeps_halt _)

theorem keepsRead_note (entry : Note) : Keeps State.read (note entry) :=
  keeps_modify fun _ => rfl

theorem keepsRead_setKey (keyRef : Fin maxKeyInPacket) (key : MemcachedKey) :
    Keeps State.read (setKey keyRef key) :=
  keeps_modify fun _ => rfl

theorem keepsRead_lookupEntry (hash : UInt32) (code : Int32) :
    Keeps State.read (lookupEntry hash code) :=
  (keeps_demand _ _).bind fun _ => (keepsRead_note _).bind fun _ => keeps_pure _

theorem keepsRead_guarded {slot : Slot} {body : Program Value}
    (inside : Keeps State.read body) : Keeps State.read (guarded slot body) :=
  inside.bracket (fun _ => rfl) (fun _ => rfl)

theorem keepsRead_storeEach (off : Nat) (bytes : List UInt8) :
    Keeps State.read (storeEach off bytes) := by
  induction bytes generalizing off with
  | nil => exact keeps_pure ()
  | cons byte rest induction =>
      apply keeps_get.bind
      intro state
      apply Keeps.ite
      · exact (keepsRead_editFrame _).bind fun _ => induction (off + 1)
      · exact keeps_halt _

theorem keepsRead_scanKey (payload : List UInt8) (keyRef : Fin maxKeyInPacket)
    (readPktOffset : UInt8) :
    Keeps State.read (scanKey payload keyRef readPktOffset) := by
  apply keeps_get.bind
  intro state
  apply (keepsRead_setKey _ _).bind
  intro _
  apply (keeps_demand _ _).bind
  intro window
  apply (keepsRead_setKey _ _).bind
  intro _
  exact (keeps_demand _ _).bind fun _ => keeps_pure _

theorem keepsRead_probe (name : List UInt8) (keyRef : Fin maxKeyInPacket)
    (stats : Fin 1) (keyCount : Nat) :
    Keeps State.read (probe name keyRef stats keyCount) := by
  apply (keepsRead_lookupEntry _ _).bind
  intro slot
  apply keeps_get.bind
  intro state
  apply (keepsRead_guarded (keeps_pure _)).bind
  intro entryValid
  exact ((keepsRead_setKey _ _).bind fun _ => keeps_pure _).ite
    ((keepsRead_miss _).bind fun _ => keeps_pure _)

theorem keepsRead_swapHeaders : Keeps State.read swapHeaders :=
  (keepsRead_editHeader _ _ _).bind fun _ =>
    (keepsRead_editHeader _ _ _).bind fun _ => keepsRead_editHeader _ _ _

theorem keepsRead_runScan (kernel : Kernel) (payload : List UInt8) (payloadIndex : Nat)
    (stats : Fin 1) (pctx : ParsingContext) :
    Keeps State.read (Stage.runScan kernel payload payloadIndex stats pctx) := by
  apply (keepsRead_note _).bind
  intro _
  apply (keeps_demand _ _).bind
  intro keyRef
  apply (keepsRead_scanKey _ _ _).bind
  rintro ⟨name, delimiter⟩
  apply (keeps_pure _).ite
  apply (keepsRead_probe _ _ _ _).bind
  intro keyCount
  exact ((keepsRead_swapHeaders.bind fun _ => keeps_pure _).ite (keeps_pure _)).ite
    (keeps_pure _)

theorem keepsRead_verifyKey (slot : Slot) (key : MemcachedKey) (stats : Fin 1) :
    Keeps State.read (verifyKey slot key stats) := by
  apply keeps_get.bind
  intro state
  apply Keeps.ite
  · apply (keeps_pure _).ite
    apply (keeps_demand _ _).bind
    intro entryDataKey
    refine (keeps_pure _).ite (Keeps.bind ?_ fun _ => keeps_pure _)
    exact keepsRead_bump _ fun _ => rfl
  · exact keeps_pure _

theorem keepsRead_writeRecord (payloadIndex : Nat) (slot : Slot)
    (entry : BmcCacheEntry) : Keeps State.read (writeRecord payloadIndex slot entry) := by
  apply keeps_get.bind
  intro state
  apply (keeps_demand _ _).bind
  intro payload
  apply (keeps_demand _ _).bind
  intro record
  apply (keeps_demand _ _).bind
  intro _
  apply (keepsRead_editFrame _).bind
  intro _
  apply (keepsRead_note _).bind
  intro _
  exact keepsRead_storeEach _ _

end Keeps

def Raises (raised : Counter) (state final : State) : Prop :=
  final.read = state.read ∨
    ∀ counter, final.read counter = state.read counter + .ofNat (one raised counter)

section Raises

variable {Value Other : Type} {raised : Counter}

theorem raises_of_keeps {program : Program Value} (keeps : Keeps State.read program) :
    Relates (Raises raised) program :=
  fun state => .inl (keeps state)

theorem raises_after {first : Program Value} {next : Value → Program Other}
    (keeps : Keeps State.read first)
    (rest : ∀ value, Relates (Raises raised) (next value)) :
    Relates (Raises raised) (first >>= next) := by
  intro state
  have same := keeps state
  rw [run_bind]
  split
  · rename_i value middle ended
    rw [ended] at same
    have raises := rest value middle
    rwa [Raises, same] at raises
  · rename_i stop middle ended
    rw [ended] at same
    exact .inl same

theorem raises_before {first : Program Value} {next : Value → Program Other}
    (raises : Relates (Raises raised) first)
    (keeps : ∀ value, Keeps State.read (next value)) :
    Relates (Raises raised) (first >>= next) := by
  intro state
  have before := raises state
  rw [run_bind]
  split
  · rename_i value middle ended
    rw [ended] at before
    rw [Raises, keeps value middle]
    exact before
  · rename_i stop middle ended
    rw [ended] at before
    exact before

theorem raises_guarded {slot : Slot} {body : Program Value}
    (raises : Relates (Raises raised) body) :
    Relates (Raises raised) (guarded slot body) :=
  fun state => raises (state.note (.lock slot))

theorem raises_copyCacheData (kernel : Kernel) (payloadIndex : Nat) (slot : Slot) :
    Relates (Raises .hit) (copyCacheData kernel payloadIndex slot) := by
  apply raises_after (keeps_demand _ _)
  intro stats
  refine raises_before (fun state => .inr (read_bump state stats .hit)) fun _ => ?_
  apply keeps_get.bind
  intro state
  dsimp only
  split
  · split
    · exact keeps_halt _
    · exact keeps_pure _
  · apply (keepsRead_editFrame _).bind
    intro _
    apply (keepsRead_editHeader _ _ _).bind
    intro _
    apply (keepsRead_editHeader _ _ _).bind
    intro _
    exact (keepsRead_writeRecord _ _ _).bind fun _ => keeps_pure _

theorem raises_writePktReply (kernel : Kernel) (payloadIndex : Nat)
    (pctx : ParsingContext) (stats : Fin 1) :
    Relates (Raises .hit) (writePktReply kernel payloadIndex pctx stats) := by
  apply raises_after (keepsRead_note _)
  intro _
  apply raises_after (keeps_demand _ _)
  intro keyRef
  apply raises_after keeps_get
  intro state
  apply raises_after (keepsRead_lookupEntry _ _)
  intro slot
  apply raises_guarded
  apply raises_after (keepsRead_verifyKey _ _ _)
  intro cacheHit
  refine (raises_copyCacheData _ _ _).ite (raises_of_keeps ?_)
  exact (keepsRead_miss _).bind fun _ => keeps_pure _

theorem raises_bmcUpdateCache (skbLen : Nat) (payload : List UInt8) (stats : Fin 1) :
    Relates (Raises .update) (bmcUpdateCache skbLen payload stats) := by
  apply raises_after (keeps_demand _ _)
  intro hash
  apply raises_after (keepsRead_lookupEntry _ _)
  intro slot
  apply raises_guarded
  apply raises_after keeps_get
  intro state
  refine Relates.ite (raises_of_keeps (keeps_pure _)) ?_
  refine raises_after (keeps_modify fun _ => rfl) fun _ => ?_
  refine Relates.ite ?_ (raises_of_keeps (keeps_pure _))
  exact raises_before (fun state => .inr (read_bump state stats .update)) fun _ =>
    keeps_pure _

end Raises

/-! The first stages, for the kinds of frames. -/

theorem runRx_get (kernel : Kernel) {state : State} (get : IsGet state.dataSlice) :
    ∃ payload pctx, (Stage.runRx kernel).run state =
      (.ok (.inl (.scan kernel payload (keyOffset state.dataSlice) ⟨0, Nat.one_pos⟩ pctx)),
        state.bump ⟨0, Nat.one_pos⟩ fun stats => stats.raise .getRecv) := by
  have long := get.length
  have upper := get.keyOffset_bounds.2
  have header : udpHeaderLen = 50 := rfl
  have headers : headersLen = 42 := rfl
  obtain ⟨protocol, port, starts⟩ := get
  have accepted : ¬ (state.dataSlice.destPort ≠ memcachedPort ∨
      (state.dataSlice.drop udpHeaderLen).length < 4) := by
    rw [not_or, not_not, List.length_drop]
    exact ⟨port, by omega⟩
  have isGet : ¬ getCommand.isPrefixOf (state.dataSlice.drop udpHeaderLen) = false := by
    rw [Bool.not_eq_false, List.isPrefixOf_iff_prefix]
    exact starts
  unfold Stage.runRx
  rw [run_readHeader_bind _ (holds_of_long (by omega) (by decide)), run_get_bind]
  simp only
  rw [if_neg (by rw [protocol]; decide), if_pos protocol,
    run_readHeader_bind _ (holds_of_long (by omega) (by decide))]
  have whole : udpHeaderLen ≤ state.dataSlice.length := by omega
  simp only [sliceOf, slice_to_end whole, demand_some, run_pure_bind, if_neg accepted,
    if_neg isGet, lookupStats, bpfMapLookupElem_eq_some Nat.one_pos, Program.bump,
    run_modify_bind, run_get_bind, State.dataSlice_bump]
  rw [← keyOffset, slice_to_end upper]
  exact ⟨_, _, rfl⟩

theorem runRx_segment (kernel : Kernel) {state : State}
    (segment : IsSegment state.dataSlice) :
    (Stage.runRx kernel).run state =
      (.ok (nextRequest (setRequests (state.dataSlice.drop tcpHeaderLen))), state) := by
  obtain ⟨protocol, port, long⟩ := segment
  have header : tcpHeaderLen = 54 := rfl
  have headers : headersLen = 42 := rfl
  have accepted : ¬ (state.dataSlice.destPort ≠ memcachedPort ∨
      (state.dataSlice.drop tcpHeaderLen).length < 4) := by
    rw [not_or, not_not, List.length_drop]
    exact ⟨port, by omega⟩
  have tcp : state.dataSlice.Holds transportStart .tcp :=
    (Nat.le_add_right _ 4).trans long
  unfold Stage.runRx
  rw [run_readHeader_bind _ (holds_of_long (by omega) (by decide)), run_get_bind]
  simp only
  rw [if_pos protocol, run_readHeader_bind _ tcp, run_get_bind]
  have whole : tcpHeaderLen ≤ state.dataSlice.length := by omega
  simp only [sliceOf, slice_to_end whole, demand_some, run_pure_bind, if_neg accepted,
    run_pure]

theorem runRx_onward {kernel : Kernel} {state middle : State} {next : Stage}
    (went : (Stage.runRx kernel).run state = (.ok (.inl next), middle)) :
    IsGet state.dataSlice ∨ IsSegment state.dataSlice := by
  obtain ⟨_, _, viewed, went⟩ := run_bind_eq_ok.mp went
  obtain ⟨_, rfl⟩ := editHeader_eq_ok viewed
  rw [run_get_bind] at went
  simp only [run_ite] at went
  split at went
  · rename_i protocol
    obtain ⟨_, _, viewed, went⟩ := run_bind_eq_ok.mp went
    obtain ⟨_, rfl⟩ := editHeader_eq_ok viewed
    rw [run_get_bind] at went
    obtain ⟨payload, _, sliced, went⟩ := run_bind_eq_ok.mp went
    obtain ⟨found, rfl⟩ := run_demand_eq_ok sliced
    rw [run_ite] at went
    split at went
    · cases (Prod.mk.inj went).1
    rename_i accepted
    rw [not_or, not_not, slice_drop found, List.length_drop] at accepted
    refine .inr ⟨protocol, accepted.1, ?_⟩
    have size := accepted.2
    simp only [State.dataSlice_withFrame, id_eq] at size
    omega
  · split at went
    · rename_i protocol
      obtain ⟨_, _, viewed, went⟩ := run_bind_eq_ok.mp went
      obtain ⟨_, rfl⟩ := editHeader_eq_ok viewed
      obtain ⟨payload, _, sliced, went⟩ := run_bind_eq_ok.mp went
      obtain ⟨found, rfl⟩ := run_demand_eq_ok sliced
      simp only [run_ite] at went
      split at went
      · cases (Prod.mk.inj went).1
      rename_i accepted
      split at went
      · cases (Prod.mk.inj went).1
      rename_i command
      rw [Bool.not_eq_false, List.isPrefixOf_iff_prefix, slice_drop found] at command
      rw [not_or, not_not] at accepted
      exact .inl ⟨protocol, accepted.1, command⟩
    · cases (Prod.mk.inj went).1

theorem run_of_ended {first : Program Onward} {rest : Onward → Program Int32}
    {state : State} (last : ∀ code, rest (.inr code) = pure code)
    (ends : ∀ next middle, first.run state ≠ (.ok (.inl next), middle))
    (same : ((first >>= rest).run state).2 = state) : (first.run state).2 = state := by
  rw [run_bind] at same
  cases ended : first.run state with
  | mk result middle =>
      rw [ended] at same
      cases result with
      | error stop => exact same
      | ok onward =>
          cases onward with
          | inl next => exact absurd ended (ends next middle)
          | inr code =>
              change ((rest (.inr code)).run middle).2 = state at same
              rwa [last] at same

theorem runRx_other (kernel : Kernel) {state : State} (notGet : ¬ IsGet state.dataSlice)
    (notSegment : ¬ IsSegment state.dataSlice) :
    ((Stage.runRx kernel).run state).2 = state ∧
      ∀ next, ((Stage.runRx kernel).run state).1 ≠ .ok (.inl next) := by
  have ends : ∀ next middle, (Stage.runRx kernel).run state ≠ (.ok (.inl next), middle) :=
    fun next middle went => (runRx_onward went).elim notGet notSegment
  have last : ∀ code, afterRx 0 (.inr code) = pure code := fun _ => rfl
  refine ⟨run_of_ended last ends ?_, fun next went => ?_⟩
  · obtain ⟨result, ran, _⟩ := run_xdpRxFilter_other kernel 0 notGet notSegment
    rw [← xdpRxFilter_eq, ran]
  · exact ends next _ (Prod.ext went rfl)

theorem runTx_response (pagedLen : Nat) {state : State}
    (response : IsResponse state.dataSlice) :
    ∃ payload, (Stage.runTx pagedLen).run state =
      (.ok (.inl (.update (state.dataSlice.length + pagedLen) payload ⟨0, Nat.one_pos⟩)),
        state.bump ⟨0, Nat.one_pos⟩ fun stats => stats.raise .getResp) := by
  have long := response.length
  obtain ⟨protocol, port, starts⟩ := response
  have header : udpHeaderLen = 50 := rfl
  have headers : headersLen = 42 := rfl
  have accepted : ¬ (state.dataSlice.sourcePort ≠ memcachedPort ∨
      state.dataSlice.length < udpHeaderLen + 6 ∨
      valueMark.isPrefixOf (state.dataSlice.drop udpHeaderLen) = false) := by
    rw [not_or, not_or, not_not, Bool.not_eq_false, List.isPrefixOf_iff_prefix]
    exact ⟨port, by omega, starts⟩
  unfold Stage.runTx
  rw [run_get_bind]
  simp only
  rw [if_neg (by omega),
    run_readHeader_bind _ (holds_of_long (by omega) (by decide)),
    if_neg (not_not.mpr protocol),
    run_readHeader_bind _ (holds_of_long (by omega) (by decide)),
    if_neg accepted]
  simp only [lookupStats, bpfMapLookupElem_eq_some Nat.one_pos, demand_some,
    run_pure_bind, Program.bump, run_modify_bind]
  exact ⟨_, rfl⟩

theorem runTx_other (pagedLen : Nat) {state : State}
    (notResponse : ¬ IsResponse state.dataSlice) :
    ((Stage.runTx pagedLen).run state).2 = state ∧
      ∀ next, ((Stage.runTx pagedLen).run state).1 ≠ .ok (.inl next) := by
  have ends : ∀ next middle, (Stage.runTx pagedLen).run state ≠ (.ok (.inl next), middle) :=
    fun next middle went => notResponse (runTx_onward went).1
  have last : ∀ code, afterTx (.inr code) = pure code := fun _ => rfl
  refine ⟨run_of_ended last ends ?_, fun next went => ?_⟩
  · rw [← xdpTxFilter_eq]
    exact xdpTxFilter_other pagedLen notResponse
  · exact ends next _ (Prod.ext went rfl)

/-! A stage spends of what it owes, and hands on the rest. -/

def owesAfter (frame : Frame) : Except Stop Onward → Counter → Nat
  | .ok (.inl next) => next.owes frame
  | .ok (.inr _) | .error _ => nothing

def requested (count : Nat) : Counter → Nat
  | .setRecv | .invalidation => count
  | .getRecv | .getResp | .hit | .update => 0

def Pays (stage : Stage) (state : State) : Prop :=
  ∃ spent, (∀ counter, (stage.run.run state).2.read counter =
      state.read counter + .ofNat (spent counter)) ∧
    Covers spent (owesAfter (stage.run.run state).2.dataSlice (stage.run.run state).1)
      (stage.owes state.dataSlice)

section Pays

variable {stage : Stage} {state : State}

theorem read_same {final : State} (same : final.read = state.read) (counter : Counter) :
    final.read counter = state.read counter + .ofNat (nothing counter) := by
  rw [same]
  exact (UInt32.add_zero _).symm

theorem owesAfter_nextRequest (frame : Frame) (rest : List (List UInt8)) :
    owesAfter frame (.ok (nextRequest rest)) = requested rest.length := by
  funext counter
  cases rest with
  | nil => cases counter <;> rfl
  | cons request rest => cases counter <;> rfl

/-- A counter that depends on the cache may be left as it is. -/
theorem covers_one {raised : Counter} (inexact : ¬ raised.Exact) {spent : Counter → Nat}
    (within : ∀ counter, spent counter ≤ one raised counter) :
    Covers spent nothing (one raised) := by
  intro counter
  refine ⟨within counter, fun exact => ?_⟩
  have other : counter ≠ raised := fun same => inexact (same ▸ exact)
  have none : one raised counter = 0 := if_neg other
  have bound := within counter
  show spent counter = one raised counter
  omega

theorem owesAfter_of_ended {result : Except Stop Onward}
    (ends : ∀ next, result ≠ .ok (.inl next)) (frame : Frame) :
    owesAfter frame result = nothing := by
  cases result with
  | error stop => rfl
  | ok onward =>
      cases onward with
      | inl next => exact absurd rfl (ends next)
      | inr code => rfl

theorem pays_of_raises {raised : Counter} (inexact : ¬ raised.Exact)
    (owes : stage.owes state.dataSlice = one raised)
    (raises : Raises raised state (stage.run.run state).2)
    (ends : ∀ next, (stage.run.run state).1 ≠ .ok (.inl next)) : Pays stage state := by
  rcases raises with same | more
  · refine ⟨nothing, read_same same, ?_⟩
    rw [owesAfter_of_ended ends, owes]
    exact covers_one inexact fun _ => Nat.zero_le _
  · refine ⟨one raised, more, ?_⟩
    rw [owesAfter_of_ended ends, owes]
    exact covers_one inexact fun _ => Nat.le_refl _

theorem ends_of_last {Value : Type} {program : Program Value} {code : Value → Int32}
    (state : State) (next : Stage) :
    ((program >>= fun value => pure (.inr (code value)) : Program Onward).run state).1 ≠
      .ok (.inl next) := by
  rw [run_bind]
  split
  · exact fun same => nomatch same
  · exact fun same => nomatch same

theorem pays_reply (kernel : Kernel) (payloadIndex : Nat) (pctx : ParsingContext)
    (stats : Fin 1) (state : State) :
    Pays (.reply kernel payloadIndex pctx stats) state := by
  refine @pays_of_raises _ state .hit id ?_ ?_ ?_
  · funext counter
    cases counter <;> rfl
  · exact raises_before (raises_writePktReply _ _ _ _) (fun _ => keeps_pure _) state
  · exact ends_of_last state

theorem pays_update (skbLen : Nat) (payload : List UInt8) (stats : Fin 1)
    (state : State) : Pays (.update skbLen payload stats) state := by
  refine @pays_of_raises _ state .update id ?_ ?_ ?_
  · funext counter
    cases counter <;> rfl
  · exact raises_before (raises_bmcUpdateCache _ _ _) (fun _ => keeps_pure _) state
  · exact ends_of_last state

def Onward.FromScan : Onward → Prop
  | .inl (.scan ..) | .inl (.reply ..) | .inr _ => True
  | .inl _ => False

theorem yields_runScan (kernel : Kernel) (payload : List UInt8) (payloadIndex : Nat)
    (stats : Fin 1) (pctx : ParsingContext) :
    Yields Onward.FromScan (Stage.runScan kernel payload payloadIndex stats pctx) := by
  refine .after _ fun _ => .after _ fun _ => .after _ fun found => ?_
  refine .ite (yields_pure trivial) (.after _ fun _ => .ite (.ite ?_ ?_) ?_)
  · exact .after _ fun _ => yields_pure trivial
  · exact yields_pure trivial
  · exact yields_pure trivial

theorem pays_scan (kernel : Kernel) (payload : List UInt8) (payloadIndex : Nat)
    (stats : Fin 1) (pctx : ParsingContext) (state : State) :
    Pays (.scan kernel payload payloadIndex stats pctx) state := by
  have owes : (Stage.scan kernel payload payloadIndex stats pctx).owes state.dataSlice =
      one .hit := by
    funext counter
    cases counter <;> rfl
  have shape := yields_runScan kernel payload payloadIndex stats pctx state
  refine ⟨nothing, read_same (keepsRead_runScan kernel payload payloadIndex stats pctx
    state), ?_⟩
  rw [owes]
  change Covers nothing (owesAfter _
    ((Stage.runScan kernel payload payloadIndex stats pctx).run state).1) _
  cases ended : ((Stage.runScan kernel payload payloadIndex stats pctx).run state).1 with
  | error stop => exact covers_one id fun _ => Nat.zero_le _
  | ok onward =>
      have kind := shape onward ended
      cases onward with
      | inr code => exact covers_one id fun _ => Nat.zero_le _
      | inl next =>
          have hands : ∀ frame, next.owes frame = one .hit := by
            intro frame
            funext counter
            cases next with
            | scan kernel payload payloadIndex stats pctx => cases counter <;> rfl
            | reply kernel payloadIndex pctx stats => cases counter <;> rfl
            | rx kernel => exact kind.elim
            | check request rest => exact kind.elim
            | clear slot rest => exact kind.elim
            | tx pagedLen => exact kind.elim
            | update skbLen payload stats => exact kind.elim
          show Covers nothing (next.owes _) _
          rw [hands]
          exact .all _

theorem pays_clear (slot : Slot) (rest : List (List UInt8)) (state : State) :
    Pays (.clear slot rest) state := by
  refine ⟨nothing, read_same rfl, ?_⟩
  show Covers nothing (owesAfter _ (.ok (nextRequest rest))) _
  rw [owesAfter_nextRequest]
  have owes : (Stage.clear slot rest).owes state.dataSlice = requested rest.length := by
    funext counter
    cases counter <;> rfl
  rw [owes]
  exact .all _

theorem covers_requested {spent : Counter → Nat} (count : Nat)
    (received : spent .setRecv = 1) (cleared : spent .invalidation ≤ 1)
    (others : ∀ counter, counter ≠ .setRecv → counter ≠ .invalidation →
      spent counter = 0) :
    Covers spent (requested count) (requested (count + 1)) := by
  intro counter
  cases counter with
  | setRecv =>
      have same : spent .setRecv + count = count + 1 := by omega
      exact ⟨same.le, fun _ => same⟩
  | invalidation =>
      refine ⟨?_, False.elim⟩
      show spent .invalidation + count ≤ count + 1
      omega
  | getRecv => simp [requested, others]
  | getResp => simp [requested, others]
  | hit => simp [requested, others]
  | update => simp [requested, others]

theorem pays_check (request : List UInt8) (rest : List (List UInt8)) (state : State) :
    Pays (.check request rest) state := by
  have owes : (Stage.check request rest).owes state.dataSlice =
      requested (rest.length + 1) := by
    funext counter
    cases counter <;> rfl
  have counted := read_bump state ⟨0, Nat.one_pos⟩ .setRecv
  rw [Pays, owes]
  show ∃ spent, (∀ counter, ((Stage.runCheck request rest).run state).2.read counter = _) ∧
    Covers spent (owesAfter _ ((Stage.runCheck request rest).run state).1) _
  simp only [Stage.runCheck, lookupStats, bpfMapLookupElem_eq_some Nat.one_pos,
    demand_some, lookupEntry_eq, bind_bind, run_pure_bind, bump, note,
    run_modify_bind, run_get_bind, run_ite]
  split
  · refine ⟨fun counter => one .setRecv counter + one .invalidation counter, ?_, ?_⟩
    · intro counter
      refine (read_bump _ ⟨0, Nat.one_pos⟩ .invalidation counter).trans ?_
      refine (congrArg (· + UInt32.ofNat _) (counted counter)).trans ?_
      rw [UInt32.ofNat_add, UInt32.add_assoc]
    · have left : ∀ frame slot, owesAfter frame (.ok (.inl (.clear slot rest))) =
          requested rest.length := by
        intro frame slot
        funext counter
        cases counter <;> rfl
      show Covers _ (owesAfter _ (.ok (.inl (.clear _ rest)))) _
      rw [left]
      refine covers_requested _ rfl (Nat.le_refl 1) ?_
      intro counter notSet notCleared
      simp only [one, if_neg notSet, if_neg notCleared]
  · refine ⟨one .setRecv, counted, ?_⟩
    show Covers _ (owesAfter _ (.ok (nextRequest rest))) _
    rw [owesAfter_nextRequest]
    refine covers_requested _ rfl (Nat.zero_le 1) ?_
    intro counter notSet _
    exact if_neg notSet

theorem pays_nothing (owes : stage.owes state.dataSlice = nothing)
    (same : (stage.run.run state).2 = state)
    (ends : ∀ next, (stage.run.run state).1 ≠ .ok (.inl next)) : Pays stage state := by
  refine ⟨nothing, read_same (congrArg State.read same), ?_⟩
  rw [owesAfter_of_ended ends, owes]
  exact .all _

theorem pays_rx (kernel : Kernel) (state : State) : Pays (.rx kernel) state := by
  by_cases get : IsGet state.dataSlice
  · have notSegment : ¬ IsSegment state.dataSlice := by
      intro segment
      have udp := get.1
      rw [segment.1] at udp
      exact absurd udp (by decide)
    obtain ⟨payload, pctx, ran⟩ := runRx_get kernel get
    have went : (Stage.rx kernel).run.run state = _ := ran
    refine ⟨one .getRecv, ?_, ?_⟩
    · rw [went]
      exact read_bump state _ _
    · rw [went]
      intro counter
      cases counter <;>
        simp [owesAfter, Stage.owes, one, Counter.Exact, gets, sets, get, notSegment]
  by_cases segment : IsSegment state.dataSlice
  · have went : (Stage.rx kernel).run.run state = _ := runRx_segment kernel segment
    refine ⟨nothing, ?_, ?_⟩
    · rw [went]
      exact read_same rfl
    · rw [went, owesAfter_nextRequest]
      have owes : (Stage.rx kernel).owes state.dataSlice =
          requested (setRequests (state.dataSlice.drop tcpHeaderLen)).length := by
        funext counter
        cases counter <;> simp [Stage.owes, gets, sets, get, segment, requested]
      rw [owes]
      exact .all _
  · obtain ⟨same, ends⟩ := runRx_other kernel get segment
    refine pays_nothing ?_ same ends
    funext counter
    cases counter <;> simp [Stage.owes, gets, sets, get, segment, nothing]

theorem pays_tx (pagedLen : Nat) (state : State) : Pays (.tx pagedLen) state := by
  by_cases response : IsResponse state.dataSlice
  · obtain ⟨payload, ran⟩ := runTx_response pagedLen response
    have went : (Stage.tx pagedLen).run.run state = _ := ran
    refine ⟨one .getResp, ?_, ?_⟩
    · rw [went]
      exact read_bump state _ _
    · rw [went]
      intro counter
      cases counter <;>
        simp [owesAfter, Stage.owes, one, Counter.Exact, responses, response]
  · obtain ⟨same, ends⟩ := runTx_other pagedLen response
    refine pays_nothing ?_ same ends
    funext counter
    cases counter <;> simp [Stage.owes, responses, response, nothing]

theorem pays (stage : Stage) (state : State) : Pays stage state := by
  cases stage with
  | rx kernel => exact pays_rx kernel state
  | scan kernel payload payloadIndex stats pctx => exact pays_scan ..
  | reply kernel payloadIndex pctx stats => exact pays_reply ..
  | check request rest => exact pays_check request rest state
  | clear slot rest => exact pays_clear slot rest state
  | tx pagedLen => exact pays_tx pagedLen state
  | update skbLen payload stats => exact pays_update ..

end Pays

/-! Whole runs: what a CPU has counted, and what its program may still count, make
up what its frames are worth. -/

/-- What frames are worth to a counter. -/
def worth (jobs : List Job) (counter : Counter) : Nat :=
  jobs.foldr (fun job rest => job.counts counter + rest) 0

theorem worth_concat (jobs : List Job) (job : Job) (counter : Counter) :
    worth (jobs ++ [job]) counter = worth jobs counter + job.counts counter := by
  induction jobs with
  | nil => exact Nat.add_comm _ _
  | cons first rest induction =>
      show first.counts counter + worth (rest ++ [job]) counter = _
      rw [induction, ← Nat.add_assoc]
      rfl

def Accounted (jobs : List Job) (stage : Option Stage) (core : Core) : Prop :=
  ∃ counted, (∀ counter, core.cpu.read counter = .ofNat (counted counter)) ∧
    Covers counted (owesNext core.dataSlice stage) (worth jobs)

theorem owesNext_launch (core : Core) (job : Job) :
    owesNext (job.launch core).2.dataSlice (some (job.launch core).1) = job.counts := by
  cases job with
  | rx frame kernel => rfl
  | tx frame pagedLen => rfl

theorem read_launch (core : Core) (job : Job) (counter : Counter) :
    (job.launch core).2.cpu.read counter = core.cpu.read counter := by
  cases job with
  | rx frame kernel => rfl
  | tx frame pagedLen => rfl

theorem accounted_launch {jobs : List Job} {job : Job} {core : Core}
    (accounted : Accounted jobs none core) :
    Accounted (jobs ++ [job]) (some (job.launch core).1) (job.launch core).2 := by
  obtain ⟨counted, read, covers⟩ := accounted
  refine ⟨counted, fun counter => (read_launch core job counter).trans (read counter), ?_⟩
  rw [owesNext_launch]
  intro counter
  obtain ⟨bound, exact⟩ := covers counter
  have idle : owesNext core.dataSlice none counter = 0 := rfl
  have longer := worth_concat jobs job counter
  refine ⟨by omega, fun isExact => ?_⟩
  have equal := exact isExact
  omega

theorem accounted_advance {jobs : List Job} {stage : Stage} {cache : MapKcache}
    {core : Core} (accounted : Accounted jobs (some stage) core) :
    Accounted jobs (stage.advance cache core).1 (stage.advance cache core).2.2 := by
  obtain ⟨counted, read, covers⟩ := accounted
  obtain ⟨spent, more, rest⟩ := pays stage (core.state cache)
  have after : owesNext (stage.advance cache core).2.2.dataSlice
          (stage.advance cache core).1 =
        owesAfter (stage.run.run (core.state cache)).2.dataSlice
          (stage.run.run (core.state cache)).1 ∧
      (stage.advance cache core).2.2.cpu = (stage.run.run (core.state cache)).2.cpu := by
    rw [Stage.advance]
    split <;> rename_i ended <;> rw [ended] <;> exact ⟨rfl, rfl⟩
  refine ⟨fun counter => counted counter + spent counter, fun counter => ?_, ?_⟩
  · rw [after.2]
    refine (more counter).trans ?_
    rw [UInt32.ofNat_add]
    exact congrArg (· + UInt32.ofNat _) (read counter)
  · rw [after.1]
    exact covers.trans rest

theorem accounted_run {schedule : List Move} {host : Host}
    (run : exec move .zero schedule = some host) (cpu : Nat) :
    Accounted (Interleaving.jobsOn cpu schedule) (host.stage cpu) (host.memory cpu) := by
  have initial : Accounted [] none .zero := by
    refine ⟨nothing, fun counter => ?_, .all _⟩
    cases counter <;> rfl
  exact Interleaving.exec_history Accounted accounted_launch accounted_advance
    (fun _ => initial) run cpu

/-- At any moment of any interleaving a CPU has counted at most what its frames are
worth: hits by its GETs, invalidations by the `set `s of its segments, updates by
its responses.  Between two programs the GETs, the `set `s and the responses are
counted exactly, up to the width of the counters. -/
theorem statistics_of_frames {schedule : List Move} {host : Host}
    (run : exec move .zero schedule = some host) (cpu : Nat) (counter : Counter) :
    ∃ counted ≤ worth (Interleaving.jobsOn cpu schedule) counter,
      (host.memory cpu).cpu.read counter = .ofNat counted ∧
      (counter.Exact → host.stage cpu = none →
        counted = worth (Interleaving.jobsOn cpu schedule) counter) := by
  obtain ⟨counted, read, covers⟩ := accounted_run run cpu
  obtain ⟨bound, exact⟩ := covers counter
  refine ⟨counted counter, (Nat.le_add_right _ _).trans bound, read counter, ?_⟩
  intro isExact idle
  have equal := exact isExact
  rw [idle] at equal
  exact equal

def refilledAndCleared : List Move :=
  [.launch 0 (.tx (responseFrame [107, 32, 48, 32, 49, 13, 10, 120, 13, 10]) 0),
    .advance 0, .advance 0,
    .launch 1 (.rx (setFrame [107, 32, 48, 32, 48, 32, 49, 13, 10, 121, 13, 10])
      willing), .advance 1, .advance 1,
    .launch 0 (.rx (getFrame [107, 13, 10]) willing), .advance 0, .advance 1,
    .advance 0]

theorem statistics_of_frames_refilled :
    ∃ host, exec move .zero refilledAndCleared = some host ∧
      (host.memory 0).cpu.read .getRecv = 1 ∧ (host.memory 0).cpu.read .getResp = 1 := by
  obtain ⟨host, run, idle⟩ : ∃ host, exec move .zero refilledAndCleared = some host ∧
      host.stage 0 = none := ⟨_, rfl, rfl⟩
  obtain ⟨received, _, readReceived, exactReceived⟩ := statistics_of_frames run 0 .getRecv
  obtain ⟨responded, _, readResponded, exactResponded⟩ :=
    statistics_of_frames run 0 .getResp
  refine ⟨host, run, ?_, ?_⟩
  · rw [readReceived, exactReceived trivial idle]
    decide +kernel
  · rw [readResponded, exactResponded trivial idle]
    decide +kernel

end Rex.Bmc
