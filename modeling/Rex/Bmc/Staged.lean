import Rex.Bmc.Freshness
import Rex.Data.Interleaving

namespace Rex.Bmc

open Bytes Effect Program Rex.Frame Machine

/-! The two programs cut where they touch `map_kcache`, the one map that the CPUs
share.  A stage makes at most one access to it: a section under the lock of a
slot, or the look at `valid` that `bmc_invalidate_cache` takes without the lock.
Everything else a stage does is in the frame and in the maps of its own CPU. -/

inductive Stage
  | rx (kernel : Kernel)
  | scan (kernel : Kernel) (payload : List UInt8) (payloadIndex : Nat)
      (stats : Fin 1) (pctx : ParsingContext)
  | reply (kernel : Kernel) (payloadIndex : Nat) (pctx : ParsingContext)
      (stats : Fin 1)
  | check (request : List UInt8) (rest : List (List UInt8))
  | clear (slot : Slot) (rest : List (List UInt8))
  | tx (pagedLen : Nat)
  | update (skbLen : Nat) (payload : List UInt8) (stats : Fin 1)

/-- What a stage leads to: another one, or the end of the program. -/
abbrev Onward : Type := Stage ⊕ Int32

def nextRequest : List (List UInt8) → Onward
  | [] => .inr xdpPass
  | request :: rest => .inl (.check request rest)

namespace Stage

def runRx (kernel : Kernel) : Program Onward := do
  editHeader Frame.ipStart .ip id
  let state ← get
  let protocol := state.dataSlice.protocol
  if protocol = ipprotoTcp then do
    editHeader Frame.transportStart .tcp id
    let state ← get
    let port := state.dataSlice.destPort
    let payload ← sliceOf state.dataSlice tcpHeaderLen state.dataSlice.length
    if port ≠ memcachedPort ∨ payload.length < 4 then
      pure (.inr xdpPass)
    else
      pure (nextRequest (setRequests payload))
  else if protocol = ipprotoUdp then do
    editHeader Frame.transportStart .udp id
    let port := state.dataSlice.destPort
    let payload ← sliceOf state.dataSlice udpHeaderLen state.dataSlice.length
    if port ≠ memcachedPort ∨ payload.length < 4 then
      pure (.inr xdpPass)
    else if getCommand.isPrefixOf payload = false then
      pure (.inr xdpPass)
    else do
      let stats ← lookupStats xdpPass
      bump stats fun stats =>
        { stats with getRecvCount := stats.getRecvCount + 1 }
      let off := firstKeyOffset payload + udpHeaderLen
      let state ← get
      let payload ← sliceOf state.dataSlice off state.dataSlice.length
      pure (.inl (.scan kernel payload off stats ⟨0, 0, UInt8.ofNat off⟩))
  else
    pure (.inr xdpPass)

def runScan (kernel : Kernel) (payload : List UInt8) (payloadIndex : Nat)
    (stats : Fin 1) (pctx : ParsingContext) : Program Onward := do
  note .iteration
  let keyRef ← lookupKey pctx.keyCount 0
  let (name, delimiter) ← scanKey payload keyRef pctx.readPktOffset
  if name.length = 0 ∨ maxKeyLength < name.length then
    pure (.inr xdpPass)
  else do
    let keyCount ← probe name keyRef stats pctx.keyCount
    if delimiter = carriageReturn then
      if 0 < keyCount then do
        swapHeaders
        pure (.inl (.reply kernel payloadIndex { pctx with keyCount } stats))
      else
        pure (.inr xdpPass)
    else
      pure (.inl (.scan kernel payload payloadIndex stats
        { pctx with
          keyCount
          readPktOffset :=
            pctx.readPktOffset + (UInt8.ofNat name.length + 1) }))

def runCheck (request : List UInt8) (rest : List (List UInt8)) :
    Program Onward := do
  let stats ← lookupStats 0
  bump stats fun stats => { stats with setRecvCount := stats.setRecvCount + 1 }
  let hash := fnv1a (request.takeWhile (· != space))
  let slot ← lookupEntry hash 0
  let state ← get
  if (state.mapKcache slot).valid = 1 then do
    bump stats fun stats =>
      { stats with invalidationCount := stats.invalidationCount + 1 }
    pure (.inl (.clear slot rest))
  else
    pure (nextRequest rest)

/-- By the time the lock is held the entry may be another one than the one that
was looked at; only its `valid` is written. -/
def runClear (slot : Slot) (rest : List (List UInt8)) : Program Onward := do
  guarded slot (modify fun state =>
    state.setEntry slot { state.mapKcache slot with valid := 0 })
  pure (nextRequest rest)

def runTx (pagedLen : Nat) : Program Onward := do
  let state ← get
  let skbLen := state.dataSlice.length + pagedLen
  if skbLen ≤ udpHeaderLen then
    pure (.inr tcActOk)
  else do
    editHeader Frame.ipStart .ip id
    if state.dataSlice.protocol ≠ ipprotoUdp then
      pure (.inr tcActOk)
    else do
      editHeader Frame.transportStart .udp id
      if state.dataSlice.sourcePort ≠ memcachedPort ∨
          state.dataSlice.length < udpHeaderLen + 6 ∨
          valueMark.isPrefixOf (state.dataSlice.drop udpHeaderLen) = false then
        pure (.inr tcActOk)
      else do
        let stats ← lookupStats 0
        bump stats fun stats =>
          { stats with getRespCount := stats.getRespCount + 1 }
        pure (.inl (.update skbLen (state.dataSlice.drop udpHeaderLen) stats))

def run : Stage → Program Onward
  | .rx kernel => runRx kernel
  | .scan kernel payload payloadIndex stats pctx =>
      runScan kernel payload payloadIndex stats pctx
  | .reply kernel payloadIndex pctx stats => do
      let code ← writePktReply kernel payloadIndex pctx stats
      pure (.inr code)
  | .check request rest => runCheck request rest
  | .clear slot rest => runClear slot rest
  | .tx pagedLen => runTx pagedLen
  | .update skbLen payload stats => do
      let _ ← bmcUpdateCache skbLen payload stats
      pure (.inr tcActOk)

end Stage

/-- What a CPU has to itself: the frame it handles, its maps, and how its last
program ended. -/
structure Core where
  dataSlice : Frame
  cpu : PerCpu
  notes : List Note
  ended : Option (Except Stop Int32)

def Core.zero : Core :=
  ⟨[], .zero, [], none⟩

def Core.state (core : Core) (cache : MapKcache) : State :=
  ⟨core.dataSlice, cache, core.cpu, core.notes⟩

def Core.of (state : State) (ended : Option (Except Stop Int32)) : Core :=
  ⟨state.dataSlice, state.cpu, state.notes, ended⟩

inductive Job
  | rx (frame : Frame) (kernel : Kernel)
  | tx (frame : Frame) (pagedLen : Nat)

def Job.launch (core : Core) : Job → Stage × Core
  | .rx frame kernel => (.rx kernel, ⟨frame, core.cpu, [], none⟩)
  | .tx frame pagedLen => (.tx pagedLen, ⟨frame, core.cpu, [], none⟩)

/-- A panic or an error ends the program like a verdict does. -/
def Stage.advance (stage : Stage) (cache : MapKcache) (core : Core) :
    Option Stage × MapKcache × Core :=
  match stage.run.run (core.state cache) with
  | (.ok (.inl next), state) => (some next, state.mapKcache, .of state none)
  | (.ok (.inr code), state) => (none, state.mapKcache, .of state (some (.ok code)))
  | (.error stop, state) => (none, state.mapKcache, .of state (some (.error stop)))

def cut : Interleaving.Cut MapKcache Core Stage Job where
  launch job core := job.launch core
  advance := Stage.advance

/-- The whole host: the cache, and every CPU with what it is at. -/
abbrev Host : Type := Interleaving.World MapKcache Core Stage

abbrev Move : Type := Interleaving.Move Job

def Host.zero : Host :=
  ⟨fun _ => .zero, fun _ => .zero, fun _ => none⟩

abbrev move : Host → Move → Option Host :=
  Interleaving.step cut

/-! Without interruption the stages do what the programs do. -/

/-- From this stage on, undisturbed, the program ends like this. -/
def Alone (stage : Stage) (state : State) (ran : Except Stop Int32 × State) : Prop :=
  Interleaving.Finishes cut ran.2.mapKcache (.of ran.2 (some ran.1)) stage
    state.mapKcache (.of state none)

theorem advance_of (stage : Stage) (state : State) :
    cut.advance stage state.mapKcache (.of state none) =
      match stage.run.run state with
      | (.ok (.inl next), state) => (some next, state.mapKcache, .of state none)
      | (.ok (.inr code), state) =>
          (none, state.mapKcache, .of state (some (.ok code)))
      | (.error stop, state) =>
          (none, state.mapKcache, .of state (some (.error stop))) :=
  rfl

theorem alone_bind {stage : Stage} {rest : Onward → Program Int32} {state : State}
    (last : ∀ code, rest (.inr code) = pure code)
    (more : ∀ next middle, stage.run.run state = (.ok (.inl next), middle) →
      Alone next middle ((rest (.inl next)).run middle)) :
    Alone stage state ((stage.run >>= rest).run state) := by
  rw [run_bind]
  cases ended : stage.run.run state with
  | mk result middle =>
      cases result with
      | error stop =>
          apply Interleaving.Finishes.last
          rw [advance_of, ended]
      | ok onward =>
          cases onward with
          | inr code =>
              apply Interleaving.Finishes.last
              simp only [advance_of, ended, last, run_pure]
          | inl next =>
              refine .more ?_ (more next middle ended)
              rw [advance_of, ended]

theorem advance_last {stage : Stage} {program : Program Int32}
    (same : stage.run = program >>= fun code => pure (.inr code)) (cache : MapKcache)
    (core : Core) :
    cut.advance stage cache core =
      (none, (program.run (core.state cache)).2.mapKcache,
        .of (program.run (core.state cache)).2
          (some (program.run (core.state cache)).1)) := by
  show Stage.advance stage cache core = _
  rw [Stage.advance, same, run_bind]
  cases program.run (core.state cache) with
  | mk result final =>
      cases result with
      | ok code => rfl
      | error stop => rfl

theorem alone_final {stage : Stage} {program : Program Int32} (state : State)
    (same : stage.run = program >>= fun code => pure (.inr code)) :
    Alone stage state (program.run state) :=
  .last (advance_last same state.mapKcache (.of state none))

theorem alone_reply (kernel : Kernel) (payloadIndex : Nat) (pctx : ParsingContext)
    (stats : Fin 1) (state : State) :
    Alone (.reply kernel payloadIndex pctx stats) state
      ((writePktReply kernel payloadIndex pctx stats).run state) :=
  alone_final state rfl

def afterScan (fuel : Nat) : Onward → Program Int32
  | .inl (.scan kernel payload payloadIndex stats pctx) =>
      keyLoop kernel payload payloadIndex stats fuel pctx
  | .inl (.reply kernel payloadIndex pctx stats) =>
      writePktReply kernel payloadIndex pctx stats
  | .inl _ => halt .unfinished
  | .inr code => pure code

theorem keyLoop_succ (kernel : Kernel) (payload : List UInt8) (payloadIndex : Nat)
    (stats : Fin 1) (fuel : Nat) (pctx : ParsingContext) :
    keyLoop kernel payload payloadIndex stats (fuel + 1) pctx =
      Stage.runScan kernel payload payloadIndex stats pctx >>= afterScan fuel := by
  simp only [keyLoop, Stage.runScan, bind_bind, ite_bind]
  rfl

theorem alone_scan {kernel : Kernel} {payload : List UInt8} {payloadIndex : Nat}
    {stats : Fin 1} {fuel : Nat} {pctx : ParsingContext} {state : State}
    (ends : ((keyLoop kernel payload payloadIndex stats fuel pctx).run state).1 ≠
      .error .unfinished) :
    Alone (.scan kernel payload payloadIndex stats pctx) state
      ((keyLoop kernel payload payloadIndex stats fuel pctx).run state) := by
  induction fuel generalizing kernel payload payloadIndex stats pctx state with
  | zero => exact absurd rfl ends
  | succ fuel induction =>
      rw [keyLoop_succ] at ends ⊢
      refine alone_bind (fun _ => rfl) ?_
      intro next middle went
      rw [run_bind, show Stage.runScan kernel payload payloadIndex stats pctx =
        (Stage.scan kernel payload payloadIndex stats pctx).run from rfl, went] at ends
      cases next with
      | scan kernel payload payloadIndex stats pctx => exact induction ends
      | reply kernel payloadIndex pctx stats => exact alone_reply ..
      | rx kernel => exact absurd rfl ends
      | check request rest => exact absurd rfl ends
      | clear slot rest => exact absurd rfl ends
      | tx pagedLen => exact absurd rfl ends
      | update skbLen payload stats => exact absurd rfl ends

def invalidateFrom (requests : List (List UInt8)) : Program Int32 := do
  invalidateEach requests
  pure xdpPass

def afterCheck : Onward → Program Int32
  | .inl (.check request rest) => invalidateFrom (request :: rest)
  | .inl (.clear slot rest) => do
      guarded slot (modify fun state =>
        state.setEntry slot { state.mapKcache slot with valid := 0 })
      invalidateFrom rest
  | .inl _ => halt .unfinished
  | .inr code => pure code

theorem afterCheck_nextRequest (rest : List (List UInt8)) :
    afterCheck (nextRequest rest) = invalidateFrom rest := by
  cases rest with
  | nil => rfl
  | cons request rest => rfl

/-- Nothing happens between the look at the entry and the lock. -/
theorem run_invalidateFrom_cons (request : List UInt8) (rest : List (List UInt8))
    (state : State) :
    (invalidateFrom (request :: rest)).run state =
      (Stage.runCheck request rest >>= afterCheck).run state := by
  simp only [invalidateFrom, invalidateEach, invalidateOne, Stage.runCheck,
    lookupStats, bpfMapLookupElem_eq_some Nat.one_pos, demand_some, lookupEntry_eq,
    bind_bind, ite_bind, run_pure_bind, bump, note, run_modify_bind, run_get_bind,
    run_ite]
  split
  · rfl
  · simp only [afterCheck_nextRequest]
    rfl

def LaterAlone (rest : List (List UInt8)) : Prop :=
  ∀ next state, nextRequest rest = .inl next →
    Alone next state ((invalidateFrom rest).run state)

theorem LaterAlone.onward {rest : List (List UInt8)} (later : LaterAlone rest)
    {next : Stage} (state : State) (onward : nextRequest rest = .inl next) :
    Alone next state ((afterCheck (.inl next)).run state) := by
  rw [← onward, afterCheck_nextRequest]
  exact later next state onward

theorem alone_clear {rest : List (List UInt8)} (later : LaterAlone rest)
    (slot : Slot) (state : State) :
    Alone (.clear slot rest) state
      ((afterCheck (.inl (.clear slot rest))).run state) := by
  have split : afterCheck (.inl (.clear slot rest)) =
      (Stage.clear slot rest).run >>= afterCheck := by
    show (_ >>= fun _ => invalidateFrom rest) = Stage.runClear slot rest >>= afterCheck
    rw [Stage.runClear, bind_bind, ← afterCheck_nextRequest]
    rfl
  rw [split]
  refine alone_bind (fun _ => rfl) ?_
  intro next middle went
  exact later.onward middle (Except.ok.inj (Prod.mk.inj went).1)

theorem laterAlone (requests : List (List UInt8)) : LaterAlone requests := by
  induction requests with
  | nil =>
      intro next state onward
      cases onward
  | cons request rest later =>
      intro next state onward
      obtain rfl := Sum.inl.inj onward
      rw [run_invalidateFrom_cons]
      refine alone_bind (fun _ => rfl) ?_
      intro next middle went
      change (Stage.runCheck request rest).run state = _ at went
      simp only [Stage.runCheck, lookupStats, bpfMapLookupElem_eq_some Nat.one_pos,
        demand_some, lookupEntry_eq, bind_bind, run_pure_bind, bump, note,
        run_modify_bind, run_get_bind, run_ite] at went
      split at went
      · obtain rfl := Sum.inl.inj (Except.ok.inj (Prod.mk.inj went).1)
        exact alone_clear later _ middle
      · exact later.onward middle (Except.ok.inj (Prod.mk.inj went).1)

/-! Whole programs. -/

def afterRx (fuel : Nat) : Onward → Program Int32
  | .inl (.scan kernel payload payloadIndex stats pctx) =>
      keyLoop kernel payload payloadIndex stats fuel pctx
  | onward => afterCheck onward

theorem xdpRxFilter_eq (kernel : Kernel) (fuel : Nat) :
    xdpRxFilter kernel fuel = Stage.runRx kernel >>= afterRx fuel := by
  have requests : ∀ requests, afterRx fuel (nextRequest requests) =
      invalidateFrom requests := by
    intro requests
    cases requests with
    | nil => rfl
    | cons request rest => rfl
  simp only [xdpRxFilter, bmcInvalidateCache, hashKey, Stage.runRx, bind_bind,
    ite_bind, pure_bind_eq, requests]
  rfl

def Onward.FromRx : Onward → Prop
  | .inl (.scan _ _ _ _ _) | .inl (.check _ _) | .inr _ => True
  | .inl _ => False

theorem yields_runRx (kernel : Kernel) :
    Yields Onward.FromRx (Stage.runRx kernel) := by
  have ends : Yields Onward.FromRx (pure (.inr xdpPass) : Program Onward) :=
    yields_pure trivial
  refine .after _ fun _ => .after _ fun state => .ite ?_ (.ite ?_ ends)
  · refine .after _ fun _ => .after _ fun _ => .after _ fun payload => ends.ite ?_
    apply yields_pure
    cases setRequests payload with
    | nil => trivial
    | cons request rest => trivial
  · refine .after _ fun _ => .after _ fun payload => ends.ite (ends.ite ?_)
    exact .after _ fun _ => .after _ fun _ => .after _ fun _ => .after _ fun _ =>
      yields_pure trivial

theorem alone_rx {kernel : Kernel} {fuel : Nat} {state : State}
    (ends : ((xdpRxFilter kernel fuel).run state).1 ≠ .error .unfinished) :
    Alone (.rx kernel) state ((xdpRxFilter kernel fuel).run state) := by
  rw [xdpRxFilter_eq] at ends ⊢
  refine alone_bind (fun _ => rfl) ?_
  intro next middle went
  change (Stage.runRx kernel).run state = _ at went
  rw [run_bind, went] at ends
  have shape := yields_runRx kernel state (.inl next) (by rw [went])
  cases next with
  | scan kernel payload payloadIndex stats pctx => exact alone_scan ends
  | check request rest => exact laterAlone (request :: rest) _ middle rfl
  | rx kernel => exact shape.elim
  | reply kernel payloadIndex pctx stats => exact shape.elim
  | clear slot rest => exact shape.elim
  | tx pagedLen => exact shape.elim
  | update skbLen payload stats => exact shape.elim

def afterTx : Onward → Program Int32
  | .inl (.update skbLen payload stats) => do
      let _ ← bmcUpdateCache skbLen payload stats
      pure tcActOk
  | .inl _ => halt .unfinished
  | .inr code => pure code

theorem xdpTxFilter_eq (pagedLen : Nat) :
    xdpTxFilter pagedLen = Stage.runTx pagedLen >>= afterTx := by
  simp only [xdpTxFilter, Stage.runTx, bind_bind, ite_bind, pure_bind_eq]
  rfl

theorem editHeader_eq_ok {start : Nat} {header : Header} {edit : Frame → Frame}
    {state middle : State}
    (ran : (editHeader start header edit).run state = (.ok (), middle)) :
    state.dataSlice.Holds start header ∧
      middle = state.withFrame (edit state.dataSlice) := by
  rw [editHeader, run_get_bind, run_ite] at ran
  split at ran
  · rename_i holds
    exact ⟨holds, (Prod.mk.inj ran).2.symm⟩
  · cases (Prod.mk.inj ran).1

/-- Only a response gets from the first stage of `xdp_tx_filter` to the cache. -/
theorem runTx_onward {pagedLen : Nat} {state middle : State} {next : Stage}
    (went : (Stage.runTx pagedLen).run state = (.ok (.inl next), middle)) :
    IsResponse state.dataSlice ∧ middle.dataSlice = state.dataSlice ∧
      ∃ stats, next = .update (state.dataSlice.length + pagedLen)
        (state.dataSlice.drop udpHeaderLen) stats := by
  rw [Stage.runTx, run_get_bind] at went
  simp only [run_ite] at went
  split at went
  · cases (Prod.mk.inj went).1
  obtain ⟨_, _, viewed, went⟩ := run_bind_eq_ok.mp went
  obtain ⟨_, rfl⟩ := editHeader_eq_ok viewed
  rw [run_ite] at went
  split at went
  · cases (Prod.mk.inj went).1
  rename_i protocol
  obtain ⟨_, _, viewed, went⟩ := run_bind_eq_ok.mp went
  obtain ⟨_, rfl⟩ := editHeader_eq_ok viewed
  rw [run_ite] at went
  split at went
  · cases (Prod.mk.inj went).1
  rename_i accepted
  rw [not_or, not_or, not_not, Bool.not_eq_false, List.isPrefixOf_iff_prefix]
    at accepted
  simp only [lookupStats, bpfMapLookupElem_eq_some Nat.one_pos, demand_some,
    run_pure_bind, Program.bump, run_modify_bind, run_pure] at went
  obtain ⟨onward, rfl⟩ := Prod.mk.inj went
  obtain rfl := Sum.inl.inj (Except.ok.inj onward)
  exact ⟨⟨not_not.mp protocol, accepted.1, accepted.2.2⟩, rfl, _, rfl⟩

theorem alone_tx (pagedLen : Nat) (state : State) :
    Alone (.tx pagedLen) state ((xdpTxFilter pagedLen).run state) := by
  rw [xdpTxFilter_eq]
  refine alone_bind (fun _ => rfl) ?_
  intro next middle went
  obtain ⟨_, _, stats, rfl⟩ := runTx_onward went
  apply alone_final
  simp only [afterTx, bind_bind]
  rfl

/-! Frames that are handled one at a time. -/

def Event.job : Event → Job
  | .rx _ frame kernel _ => .rx frame kernel
  | .tx _ frame pagedLen => .tx frame pagedLen

def Host.rest (host : Host) : World :=
  ⟨host.shared, fun cpu => (host.memory cpu).cpu⟩

/-- The watchdog does not have to stop the program that handles the frame. -/
def EndsByItself (world : World) (event : Event) : Prop :=
  (world.handle event).1 ≠ .error .unfinished

instance (world : World) (event : Event) : Decidable (EndsByItself world event) :=
  inferInstanceAs (Decidable (_ ≠ _))

theorem Host.rest_put (host : Host) (event : Event)
    (ended : Option (Except Stop Int32)) :
    Host.rest (host.put event.cpu none (host.rest.handle event).2.mapKcache
      (.of (host.rest.handle event).2 ended)) = host.rest.after event := by
  refine congrArg (World.mk _) ?_
  funext cpu
  show (Function.update host.memory event.cpu _ cpu).cpu =
    Function.update host.rest.cpus event.cpu _ cpu
  by_cases same : cpu = event.cpu
  · subst same
    rw [Function.update_self, Function.update_self]
    rfl
  · rw [Function.update_of_ne same, Function.update_of_ne same]
    rfl

/-- Handling the frames one at a time is one of the interleavings: whatever
sequence of frames takes the maps from zero to a state, there is a schedule of
the CPUs that is given the same frames and takes the host there, with every
program ended. -/
theorem sequential_is_interleaving {history : List Event} {world : World}
    (run : exec step .zero history = some world)
    (ends : EveryStep step EndsByItself .zero history) :
    ∃ schedule host, exec move .zero schedule = some host ∧
      host.rest = world ∧ (∀ cpu, host.stage cpu = none) ∧
      Interleaving.launches schedule =
        history.map fun event => (event.cpu, event.job) := by
  have agrees : Host.rest Host.zero = World.zero := rfl
  have idle : ∀ cpu, Host.zero.stage cpu = none := fun _ => rfl
  refine Interleaving.exec_sequence (fun world host => Host.rest host = world) ?_
    agrees idle run ends
  intro world next event host agrees ends served
  obtain rfl := Option.some.inj served
  subst agrees
  refine ⟨_, _, Host.rest_put host event (some ((Host.rest host).handle event).1), ?_⟩
  cases event with
  | rx cpu frame kernel fuel => exact alone_rx ends
  | tx cpu frame pagedLen => exact alone_tx _ _

theorem sequential_is_interleaving_refilled :
    ∃ world, exec step .zero setAndRefill = some world ∧
      ∃ schedule host, exec move .zero schedule = some host ∧
        host.rest = world ∧ (∀ cpu, host.stage cpu = none) ∧
        Interleaving.launches schedule =
          setAndRefill.map fun event => (event.cpu, event.job) :=
  ⟨_, rfl, sequential_is_interleaving rfl
    ⟨by decide +kernel, by decide +kernel, by decide +kernel, trivial⟩⟩

end Rex.Bmc
