import Rex.Runtime.Termination

namespace Rex

/-! Ownership of kernel resources along a run.  A reference obtained from the
kernel is held by a Rust object, by the crate code that is creating or
releasing that object, or by nobody; the registry knows the first two kinds
through handles. -/

inductive Resource
  | lock (lock : Ptr)
  | task (task : Ptr)
  | record (data : Ptr)
deriving DecidableEq

def KernelCall.effect : KernelCall → Option (Ledger.Event Resource)
  | .bpfSpinLock lock => some (.acquire (.lock lock))
  | .bpfSpinUnlock lock => some (.release (.lock lock))
  | .bpfTaskFromPid _ task =>
      if task = 0 then none else some (.acquire (.task task))
  | .bpfTaskRelease task => some (.release (.task task))
  | .bpfRingbufReserve _ _ data =>
      if data = 0 then none else some (.acquire (.record data))
  | .bpfRingbufSubmit data _ => some (.release (.record data))
  | .bpfRingbufDiscard data _ => some (.release (.record data))
  | .other => none

namespace Object

def resource : Object → Resource
  | .spinlockGuard lock _ => .lock lock
  | .ownedTaskStruct kptr _ => .task kptr
  | .ringBufEntry data _ => .record data

def handle : Object → Option (Handle CleanupFn)
  | .spinlockGuard lock cleanupIdx =>
      some { idx := cleanupIdx, cleanupFn := .spinlockGuard, cleanupArg := lock }
  | .ownedTaskStruct kptr cleanupIdx =>
      some { idx := cleanupIdx, cleanupFn := .ownedTaskStruct, cleanupArg := kptr }
  | .ringBufEntry _ _ => none

def reservation : Object → Option Ptr
  | .ringBufEntry data _ => some data
  | _ => none

end Object

def Handle.resource (handle : Handle CleanupFn) : Resource :=
  match handle.cleanupFn with
  | .spinlockGuard => .lock handle.cleanupArg
  | .ownedTaskStruct => .task handle.cleanupArg

theorem Handle.effect_panicCleanup (handle : Handle CleanupFn) :
    handle.call.panicCleanup.effect = some (.release handle.resource) := by
  cases handle with
  | mk idx cleanupFn cleanupArg => cases cleanupFn <;> rfl

namespace Pc

def holding : Pc → List Resource
  | .enter (.drop object) => [object.resource]
  | .enter (.submit data _ _) | .enter (.discard data _ _) => [.record data]
  | .body _ (.guardDeregister lock _) | .body _ (.guardUnlock lock) =>
      [.lock lock]
  | .body _ (.taskRegister task) => [.task task]
  | .body _ (.taskDeregister kptr _) | .body _ (.taskRelease kptr) =>
      [.task kptr]
  | .body _ (.ringbufSubmit data _) | .body _ (.ringbufDiscard data _) =>
      [.record data]
  | .check _ value | .reset _ value => value.toList.map Object.resource
  | _ => []

/-- Registry slots owned by the crate code at a control point.  A new guard has
its slot before it has its lock, and a guard that is dropped gives up its slot
before its lock. -/
def handles : Pc → List (Handle CleanupFn)
  | .enter (.drop object) => object.handle.toList
  | .body _ (.guardLock lock cleanupIdx)
  | .body _ (.guardDeregister lock cleanupIdx) =>
      [{ idx := cleanupIdx, cleanupFn := .spinlockGuard, cleanupArg := lock }]
  | .body _ (.taskDeregister kptr cleanupIdx) =>
      [{ idx := cleanupIdx, cleanupFn := .ownedTaskStruct, cleanupArg := kptr }]
  | .check _ value | .reset _ value => value.toList.filterMap Object.handle
  | _ => []

def reservations : Pc → List Ptr
  | .enter (.drop object) => object.reservation.toList
  | .enter (.submit data _ _) | .enter (.discard data _ _) => [data]
  | .body _ (.ringbufSubmit data _) | .body _ (.ringbufDiscard data _) => [data]
  | .check _ value | .reset _ value => value.toList.filterMap Object.reservation
  | _ => []

end Pc

namespace Cpu

def holding (cpu : Cpu) : Multiset Resource :=
  ↑cpu.pc.holding + ↑(cpu.objects.map Object.resource)

def handles (cpu : Cpu) : List (Handle CleanupFn) :=
  cpu.pc.handles ++ cpu.objects.filterMap Object.handle

def openReservations (cpu : Cpu) : List Ptr :=
  cpu.pc.reservations ++ cpu.objects.filterMap Object.reservation

def TableFull (cpu : Cpu) : Prop :=
  cpu.entries.Full

instance (cpu : Cpu) : Decidable cpu.TableFull :=
  inferInstanceAs (Decidable cpu.entries.Full)

/-- The actions that end normal execution: a panic of program code, a timer
that diverts it, a wrapper that finds the timer's mark, and a constructor that
finds the registry full. -/
def RaisesPanic (cpu : Cpu) : Action → Prop
  | .panic => cpu.pc = .program
  | .timer =>
      cpu.terminationState = 0 ∧
        match cpu.pc with
        | .program | .enter _ | .forget _ => True
        | _ => False
  | .step _ =>
      match cpu.pc with
      | .check _ _ => cpu.terminationState = 2
      | .body _ (.guardRegister _) | .body _ (.taskRegister _) => cpu.TableFull
      | _ => False
  | .call _ | .ret => False

def unregisteredTask (cpu : Cpu) : Multiset Resource :=
  match cpu.pc with
  | .body _ (.taskRegister task) => {.task task}
  | _ => 0

open Classical in
/-- The references that nobody will release once an action has been taken. -/
noncomputable def leaks (cpu : Cpu) (action : Action) : Multiset Resource :=
  if cpu.RaisesPanic action then
    ↑(cpu.openReservations.map Resource.record) + cpu.unregisteredTask
  else
    0

/-! What the registry and the log say about a CPU that is running, and about
one that is on its way to the landing pad. -/

structure Running (cpu : Cpu) (leaked : Multiset Resource) : Prop where
  tracks : cpu.entries.Tracks cpu.handles
  balance : Ledger.replay KernelCall.effect cpu.log =
    some (cpu.holding + leaked)

def Unwinding (cpu : Cpu) (leaked : Multiset Resource) (first : Nat) : Prop :=
  ∃ live, cpu.entries.Tracks live ∧ (∀ handle ∈ live, first ≤ handle.idx) ∧
    Ledger.replay KernelCall.effect cpu.log =
      some (↑(live.map Handle.resource) + leaked)

def Accounts (cpu : Cpu) (leaked : Multiset Resource) : Prop :=
  match cpu.pc with
  | .handleTimeout | .panic => cpu.Unwinding leaked 0
  | .cleanup idx => cpu.Unwinding leaked idx
  | .invalidate idx =>
      -- the destructor has run, but its slot is still valid
      ∃ live, cpu.entries.Tracks live ∧
        (∀ handle ∈ live, (idx : Nat) ≤ handle.idx) ∧
        Ledger.replay KernelCall.effect cpu.log =
          some (↑((live.filter fun handle => handle.idx ≠ (idx : Nat)).map
            Handle.resource) + leaked)
  | .format | .landingpad => cpu.Unwinding leaked entriesSize
  | .returned =>
      Ledger.replay KernelCall.effect cpu.log = some leaked
  | .program | .enter _ | .body _ _ | .check _ _ | .reset _ _ | .forget _ =>
      cpu.Running leaked

theorem coe_map_resource (objects : List Object) :
    (↑(objects.map Object.resource) : Multiset Resource) =
      ↑((objects.filterMap Object.handle).map Handle.resource) +
        ↑((objects.filterMap Object.reservation).map Resource.record) := by
  induction objects with
  | nil => rfl
  | cons object rest induction =>
      cases object with
      | spinlockGuard | ownedTaskStruct =>
          simp only [List.map_cons, List.filterMap_cons, Object.resource,
            Object.handle, Object.reservation, Handle.resource,
            ← Multiset.cons_coe, induction, Multiset.cons_add]
      | ringBufEntry =>
          simp only [List.map_cons, List.filterMap_cons, Object.resource,
            Object.handle, Object.reservation, ← Multiset.cons_coe, induction,
            Multiset.add_cons]

/-- Where a panic can be raised, the references held by the crate code are
registered, are open reservations, or are the one task not yet registered. -/
theorem pc_holding_of_raisesPanic {cpu : Cpu} {action : Action}
    (raises : cpu.RaisesPanic action) :
    (↑cpu.pc.holding : Multiset Resource) =
      ↑(cpu.pc.handles.map Handle.resource) +
        (↑(cpu.pc.reservations.map Resource.record) + cpu.unregisteredTask) := by
  unfold unregisteredTask
  cases pcEq : cpu.pc with
  | program | forget => rfl
  | enter call =>
      cases call with
      | drop object =>
          cases object with
          | spinlockGuard | ownedTaskStruct | ringBufEntry => rfl
      | guardNew | fromPid | reserve | submit | discard | helper => rfl
  | check call value =>
      simp only [Pc.holding, Pc.handles, Pc.reservations, add_zero]
      exact coe_map_resource value.toList
  | body call stage =>
      cases stage with
      | guardRegister | taskRegister => rfl
      | _ => cases action <;> simp [RaisesPanic, pcEq] at raises
  | _ => cases action <;> simp [RaisesPanic, pcEq] at raises

theorem holding_of_raisesPanic {cpu : Cpu} {action : Action}
    (raises : cpu.RaisesPanic action) :
    cpu.holding =
      ↑(cpu.handles.map Handle.resource) + cpu.leaks action := by
  simp only [leaks, raises, if_true, holding, handles, openReservations,
    List.map_append, ← Multiset.coe_add, pc_holding_of_raisesPanic raises,
    coe_map_resource cpu.objects]
  ac_rfl

theorem leaks_eq_zero {cpu : Cpu} {action : Action}
    (calm : ¬ cpu.RaisesPanic action) : cpu.leaks action = 0 :=
  if_neg calm

theorem Running.unwinding {cpu : Cpu} {leaked : Multiset Resource}
    (running : cpu.Running leaked) (action : Action)
    (raises : cpu.RaisesPanic action) (pc : Pc) :
    Unwinding { cpu with pc } (leaked + cpu.leaks action) 0 := by
  refine ⟨cpu.handles, running.tracks, fun _ _ => Nat.zero_le _, ?_⟩
  rw [running.balance, holding_of_raisesPanic raises]
  congr 1
  ac_rfl

theorem Unwinding.weaken {cpu : Cpu} {leaked : Multiset Resource} {first : Nat}
    (unwinding : cpu.Unwinding leaked first) (pc : Pc) :
    Unwinding { cpu with pc } leaked 0 := by
  obtain ⟨live, tracks, _, balance⟩ := unwinding
  exact ⟨live, tracks, fun _ _ => Nat.zero_le _, balance⟩

theorem Running.consume {cpu next : Cpu} {leaked : Multiset Resource}
    {object : Object} {call : Call} (running : cpu.Running leaked)
    (inProgram : cpu.pc = .program)
    (holdingEq : (Pc.enter call).holding = [object.resource])
    (handlesEq : (Pc.enter call).handles = [object].filterMap Object.handle)
    (taken : cpu.consume object call = some next) : next.Running leaked := by
  cases cpu with
  | mk terminationState entries log objects pc marked =>
      obtain rfl : pc = .program := inProgram
      simp only [Cpu.consume, Option.ite_none_right_eq_some] at taken
      obtain ⟨member, moved⟩ := taken
      obtain rfl := Option.some.inj moved
      have reordered := List.perm_cons_erase member
      constructor
      · refine running.tracks.perm ?_
        simp only [handles, handlesEq, ← List.filterMap_append]
        exact reordered.filterMap Object.handle
      · rw [running.balance]
        have moved := Multiset.coe_eq_coe.mpr (reordered.map Object.resource)
        simp only [holding, holdingEq, moved]
        rfl

theorem invoke_running {cpu next : Cpu} {leaked : Multiset Resource}
    {call : Call} (running : cpu.Running leaked)
    (inProgram : cpu.pc = .program) (taken : cpu.invoke call = some next) :
    next.Running leaked := by
  cases call with
  | submit data len flags => exact running.consume inProgram rfl rfl taken
  | discard data len flags => exact running.consume inProgram rfl rfl taken
  | drop object =>
      refine running.consume inProgram rfl ?_ taken
      cases object <;> rfl
  | guardNew | fromPid | reserve | helper =>
      -- nothing is moved: only the control point changes
      cases cpu with
      | mk terminationState entries log objects pc marked =>
          obtain rfl : pc = .program := inProgram
          simp only [invoke] at taken
          repeat' split at taken
          all_goals first
            | contradiction
            | (obtain rfl := Option.some.inj taken
               exact ⟨running.tracks, running.balance⟩)

/-! One lemma for each primitive of the crate code, stated through the control
points before and after it. -/

namespace Running

variable {cpu : Cpu} {leaked : Multiset Resource} {call : KernelCall} {pc : Pc}
  {resource : Resource}

theorem acquire (running : cpu.Running leaked)
    (acquires : call.effect = some (.acquire resource))
    (holdingEq : pc.holding = resource :: cpu.pc.holding)
    (handlesEq : pc.handles = cpu.pc.handles) :
    (cpu.kernel call pc).Running leaked := by
  constructor
  · simpa only [kernel, handles, handlesEq] using running.tracks
  · have acquired := (Ledger.posts_acquire acquires _).replay running.balance
    simpa only [kernel, holding, holdingEq, ← Multiset.cons_coe,
      Multiset.cons_add] using acquired

theorem release (running : cpu.Running leaked)
    (releases : call.effect = some (.release resource))
    (holdingEq : cpu.pc.holding = resource :: pc.holding)
    (handlesEq : pc.handles = cpu.pc.handles) :
    (cpu.kernel call pc).Running leaked := by
  constructor
  · simpa only [kernel, handles, handlesEq] using running.tracks
  · have outstanding := running.balance
    simp only [holding, holdingEq, ← Multiset.cons_coe, Multiset.cons_add]
      at outstanding
    exact (Ledger.posts_release releases _).replay outstanding

theorem silent (running : cpu.Running leaked) (noEffect : call.effect = none)
    (holdingEq : pc.holding = cpu.pc.holding)
    (handlesEq : pc.handles = cpu.pc.handles) :
    (cpu.kernel call pc).Running leaked := by
  constructor
  · simpa only [kernel, handles, handlesEq] using running.tracks
  · have unchanged := (Ledger.posts_silent noEffect _).replay running.balance
    simpa only [kernel, holding, holdingEq] using unchanged

theorem register (running : cpu.Running leaked) {cleanupFn : CleanupFn}
    {cleanupArg : Ptr} {idx : Nat} {entries : CleanupEntries CleanupFn}
    (registered : cpu.entries.registerCleanup cleanupFn cleanupArg =
      (.ok idx, entries))
    (holdingEq : pc.holding = cpu.pc.holding)
    (handlesEq : pc.handles =
      { idx, cleanupFn, cleanupArg } :: cpu.pc.handles) :
    Running { cpu with entries, pc } leaked := by
  constructor
  · simpa only [handles, handlesEq, List.cons_append] using
      running.tracks.register registered
  · simpa only [holding, holdingEq] using running.balance

theorem deregister (running : cpu.Running leaked) (pc : Pc)
    {handle : Handle CleanupFn}
    (holdingEq : pc.holding = cpu.pc.holding)
    (handlesEq : cpu.pc.handles = handle :: pc.handles) :
    (cpu.deregister handle.idx pc).pc = pc ∧
      (cpu.deregister handle.idx pc).Running leaked := by
  have tracks := running.tracks
  simp only [handles, handlesEq, List.cons_append] at tracks
  obtain ⟨entries, deregistered, remaining⟩ := tracks.deregister
  simp only [Cpu.deregister, deregistered]
  refine ⟨trivial, remaining, ?_⟩
  simpa only [holding, holdingEq] using running.balance

end Running

theorem register_accounts {cpu : Cpu} {leaked : Multiset Resource} {ret : Ptr}
    {cleanupFn : CleanupFn} {cleanupArg : Ptr} {registered : Nat → Pc}
    (running : cpu.Running leaked)
    (raises : cpu.RaisesPanic (.step ret) ↔ cpu.TableFull)
    (holdingEq : ∀ idx, (registered idx).holding = cpu.pc.holding)
    (handlesEq : ∀ idx, (registered idx).handles =
      { idx, cleanupFn, cleanupArg } :: cpu.pc.handles)
    (accounts : ∀ idx entries,
      Running { cpu with entries, pc := registered idx } leaked →
        Accounts { cpu with entries, pc := registered idx } leaked) :
    (cpu.register cleanupFn cleanupArg registered).Accounts
      (leaked + cpu.leaks (.step ret)) := by
  rcases cpu.register_cases cleanupFn cleanupArg registered with
    ⟨idx, entries, found, result⟩ | ⟨full, result⟩
  · have vacant : ¬ cpu.TableFull := by
      intro full
      obtain ⟨message, failed⟩ :=
        (CleanupEntries.registerCleanup_error_iff cleanupFn cleanupArg).mpr full
      simp [found] at failed
    rw [leaks_eq_zero (mt raises.mp vacant), add_zero, result]
    exact accounts idx entries
      (running.register found (holdingEq idx) (handlesEq idx))
  · rw [result]
    exact running.unwinding _ (raises.mpr full) .panic

/-- A constructor or drop handler of a registered object moves its slot and its
reference one at a time; every intermediate point is accounted for. -/
theorem runBody_accounts {cpu : Cpu} {leaked : Multiset Resource} {call : Call}
    {stage : Body} (running : cpu.Running leaked)
    (inBody : cpu.pc = .body call stage) (ret : Ptr) :
    (cpu.runBody call ret stage).Accounts (leaked + cpu.leaks (.step ret)) := by
  cases cpu with
  | mk terminationState entries log objects pc marked =>
      obtain rfl : pc = .body call stage := inBody
      cases stage with
      | guardRegister lock =>
          exact register_accounts running Iff.rfl (fun _ => rfl) (fun _ => rfl)
            fun _ _ running => running
      | taskRegister task =>
          exact register_accounts running Iff.rfl (fun _ => rfl) (fun _ => rfl)
            fun _ _ running => running
      | guardLock lock cleanupIdx =>
          rw [leaks_eq_zero (by simp [RaisesPanic]), add_zero]
          exact running.acquire rfl rfl rfl
      | guardUnlock lock =>
          rw [leaks_eq_zero (by simp [RaisesPanic]), add_zero]
          exact running.release rfl rfl rfl
      | taskRelease kptr =>
          rw [leaks_eq_zero (by simp [RaisesPanic]), add_zero]
          exact running.release rfl rfl rfl
      | ringbufSubmit data flags =>
          rw [leaks_eq_zero (by simp [RaisesPanic]), add_zero]
          exact running.release rfl rfl rfl
      | ringbufDiscard data flags =>
          rw [leaks_eq_zero (by simp [RaisesPanic]), add_zero]
          exact running.release rfl rfl rfl
      | helper =>
          rw [leaks_eq_zero (by simp [RaisesPanic]), add_zero]
          exact running.silent rfl rfl rfl
      | guardDeregister lock cleanupIdx =>
          rw [leaks_eq_zero (by simp [RaisesPanic]), add_zero]
          obtain ⟨next, result⟩ :=
            running.deregister (.body call (.guardUnlock lock)) rfl rfl
          simpa only [Accounts, runBody, next] using result
      | taskDeregister kptr cleanupIdx =>
          rw [leaks_eq_zero (by simp [RaisesPanic]), add_zero]
          obtain ⟨next, result⟩ :=
            running.deregister (.body call (.taskRelease kptr)) rfl rfl
          simpa only [Accounts, runBody, next] using result
      | taskFromPid pid =>
          rw [leaks_eq_zero (by simp [RaisesPanic]), add_zero, runBody]
          by_cases null : ret = 0
          · rw [if_pos null]
            exact running.silent (if_pos null) rfl rfl
          · rw [if_neg null]
            exact running.acquire (if_neg null) rfl rfl
      | ringbufReserve kptr size =>
          rw [leaks_eq_zero (by simp [RaisesPanic]), add_zero, runBody]
          by_cases null : ret = 0
          · rw [if_pos null]
            exact running.silent (if_pos null) rfl rfl
          · rw [if_neg null]
            exact running.acquire (if_neg null) rfl rfl

theorem replay_destructors {log : List KernelCall}
    {rest : Multiset Resource} (destroyed : List (Handle CleanupFn))
    (balance : Ledger.replay KernelCall.effect log =
      some (↑(destroyed.map Handle.resource) + rest)) :
    Ledger.replay KernelCall.effect
        (log ++ (destroyed.map Handle.call).map CleanupCall.panicCleanup) =
      some rest := by
  rw [List.map_map]
  exact (Ledger.posts_releaseAll Handle.effect_panicCleanup destroyed rest).replay
    balance

theorem cleanup_accounts {cpu : Cpu} {leaked : Multiset Resource}
    {idx : Nat} (inRange : idx < entriesSize)
    (unwinding : cpu.Unwinding leaked idx) :
    Accounts { cpu with
      log := cpu.log ++ cpu.entries[idx].cleanup.map CleanupCall.panicCleanup
      pc := .invalidate ⟨idx, inRange⟩ } leaked := by
  obtain ⟨live, tracks, later, balance⟩ := unwinding
  refine ⟨live, tracks, later, ?_⟩
  have parts := Multiset.coe_eq_coe.mpr
    ((List.filter_append_perm (fun handle : Handle CleanupFn =>
      decide (handle.idx = idx)) live).map Handle.resource)
  rw [← parts, List.map_append, ← Multiset.coe_add, add_assoc] at balance
  have calls := tracks.cleanup_eq ⟨idx, inRange⟩
  simp only [Fin.getElem_fin] at calls
  rw [calls]
  simpa using replay_destructors _ balance

theorem invalidate_accounts {cpu : Cpu} {leaked : Multiset Resource}
    {idx : Fin entriesSize} (inHandler : cpu.pc = .invalidate idx)
    (accounts : cpu.Accounts leaked) :
    Accounts { cpu with
      entries := cpu.entries.invalidate idx
      pc := .cleanup (idx + 1) } leaked := by
  simp only [Accounts, inHandler] at accounts
  obtain ⟨live, tracks, later, balance⟩ := accounts
  refine ⟨_, tracks.invalidate idx, ?_, balance⟩
  intro handle member
  obtain ⟨older, ne⟩ := List.mem_filter.mp member
  have atLeast := later handle older
  have ne : handle.idx ≠ idx := by simpa using ne
  omega

theorem reset_running {cpu : Cpu} {leaked : Multiset Resource} {call : Call}
    {value : Option Object} (running : cpu.Running leaked)
    (inWrapper : cpu.pc = .reset call value) :
    Running { cpu with
      terminationState := 0
      objects := value.toList ++ cpu.objects
      pc := call.after } leaked := by
  have afterHandles : call.after.handles = [] := by cases call <;> rfl
  have afterHolding : call.after.holding = [] := by cases call <;> rfl
  cases cpu with
  | mk terminationState entries log objects pc marked =>
      obtain rfl : pc = .reset call value := inWrapper
      constructor
      · simp only [handles, afterHandles, List.filterMap_append]
        exact running.tracks
      · rw [running.balance]
        simp only [holding, afterHolding, List.map_append]
        rfl

theorem enter_running {cpu : Cpu} {leaked : Multiset Resource} {call : Call}
    (running : cpu.Running leaked) (entering : cpu.pc = .enter call) :
    Running { cpu with terminationState := 1, pc := .body call call.body }
      leaked := by
  cases cpu with
  | mk terminationState entries log objects pc marked =>
      obtain rfl : pc = .enter call := entering
      cases call with
      | drop object =>
          cases object with
          | spinlockGuard | ownedTaskStruct | ringBufEntry =>
              exact ⟨running.tracks, running.balance⟩
      | guardNew | fromPid | reserve | submit | discard | helper =>
          exact ⟨running.tracks, running.balance⟩

theorem advance_accounts {cpu next : Cpu} {leaked : Multiset Resource}
    {ret : Ptr} (accounts : cpu.Accounts leaked)
    (taken : cpu.advance ret = some next) :
    next.Accounts (leaked + cpu.leaks (.step ret)) := by
  cases cpu with
  | mk terminationState entries log objects pc marked =>
      cases pc with
      | program | landingpad | returned => contradiction
      | body call stage =>
          obtain rfl := Option.some.inj taken
          exact runBody_accounts accounts rfl ret
      | check call value =>
          simp only [advance] at taken
          split at taken
          · rename_i two
            obtain rfl := Option.some.inj taken
            exact Running.unwinding accounts (.step ret) two .handleTimeout
          · rename_i unmarked
            obtain rfl := Option.some.inj taken
            rw [leaks_eq_zero (by simpa [RaisesPanic] using unmarked), add_zero]
            exact ⟨accounts.tracks, accounts.balance⟩
      | reset call value =>
          obtain rfl := Option.some.inj taken
          rw [leaks_eq_zero (by simp [RaisesPanic]), add_zero]
          have running := reset_running accounts rfl
          rcases after_cases call with after | after <;>
            simpa only [Accounts, after] using running
      | enter call =>
          obtain rfl := Option.some.inj taken
          rw [leaks_eq_zero (by simp [RaisesPanic]), add_zero]
          exact enter_running accounts rfl
      | forget call =>
          obtain rfl := Option.some.inj taken
          rw [leaks_eq_zero (by simp [RaisesPanic]), add_zero]
          exact ⟨accounts.tracks, accounts.balance⟩
      | handleTimeout =>
          obtain rfl := Option.some.inj taken
          rw [leaks_eq_zero (by simp [RaisesPanic]), add_zero]
          exact accounts
      | panic =>
          obtain rfl := Option.some.inj taken
          rw [leaks_eq_zero (by simp [RaisesPanic]), add_zero]
          exact accounts
      | cleanup idx =>
          rw [leaks_eq_zero (by simp [RaisesPanic]), add_zero]
          simp only [advance] at taken
          split at taken
          · rename_i inRange
            obtain rfl := Option.some.inj taken
            exact cleanup_accounts inRange accounts
          · rename_i done
            obtain rfl := Option.some.inj taken
            obtain ⟨live, tracks, later, balance⟩ := accounts
            refine ⟨live, tracks, ?_, balance⟩
            intro handle member
            have atLeast := later handle member
            omega
      | invalidate idx =>
          obtain rfl := Option.some.inj taken
          rw [leaks_eq_zero (by simp [RaisesPanic]), add_zero]
          exact invalidate_accounts rfl accounts
      | format =>
          obtain rfl := Option.some.inj taken
          rw [leaks_eq_zero (by simp [RaisesPanic]), add_zero]
          exact accounts

theorem Accounts.mark {cpu : Cpu} {leaked : Multiset Resource}
    (accounts : cpu.Accounts leaked) :
    Accounts { cpu with terminationState := 2, marked := true } leaked := by
  cases cpu with
  | mk terminationState entries log objects pc marked =>
      cases pc with
      | program | enter | body | check | reset | forget =>
          exact ⟨accounts.tracks, accounts.balance⟩
      | handleTimeout | panic | cleanup | invalidate | format | landingpad
      | returned => exact accounts

theorem timer_accounts {cpu next : Cpu} {leaked : Multiset Resource}
    (ok : cpu.FlagOk False) (accounts : cpu.Accounts leaked)
    (taken : cpu.timer = some next) :
    next.Accounts (leaked + cpu.leaks .timer) := by
  obtain ⟨noPad, notDone, ⟨zero, rfl⟩ | ⟨one, rfl⟩ | ⟨nonzero, _, rfl⟩⟩ :=
    timer_cases taken
  · cases cpu with
    | mk terminationState entries log objects pc marked =>
        cases pc with
        | program | enter | forget =>
            exact Running.unwinding accounts .timer ⟨zero, trivial⟩
              .handleTimeout
        | handleTimeout | panic =>
            rw [leaks_eq_zero (by simp [RaisesPanic]), add_zero]
            exact accounts
        | landingpad => exact absurd rfl noPad
        | returned => exact absurd rfl notDone
        | body | check | reset | cleanup | invalidate | format =>
            -- the crate's own code never runs at state 0
            simp_all [FlagOk, Guarded]
  · rw [leaks_eq_zero (by simp [RaisesPanic, one]), add_zero]
    exact accounts.mark
  · rw [leaks_eq_zero (by simp [RaisesPanic, nonzero]), add_zero]
    exact accounts

theorem step_accounts {cpu next : Cpu} {leaked : Multiset Resource}
    {action : Action} (ok : cpu.FlagOk False) (accounts : cpu.Accounts leaked)
    (taken : cpu.step action = some next) :
    next.Accounts (leaked + cpu.leaks action) := by
  cases action with
  | call call =>
      simp only [step, Option.ite_none_right_eq_some] at taken
      obtain ⟨inProgram, invoked⟩ := taken
      simp only [Accounts, inProgram] at accounts
      rw [leaks_eq_zero (by simp [RaisesPanic]), add_zero]
      have running := invoke_running accounts inProgram invoked
      obtain ⟨_, _, rfl | entered⟩ := invoke_cases invoked
      · simpa only [Accounts, inProgram] using running
      · simpa only [Accounts, entered] using running
  | step ret => exact advance_accounts accounts taken
  | panic =>
      simp only [step, Option.ite_none_right_eq_some] at taken
      obtain ⟨raised, result⟩ := taken
      obtain rfl := Option.some.inj result
      rcases raised with inProgram | inHandler
      · simp only [Accounts, inProgram] at accounts
        exact accounts.unwinding .panic inProgram .panic
      · simp only [Accounts, inHandler] at accounts
        rw [leaks_eq_zero (by simp [RaisesPanic, inHandler]), add_zero]
        exact accounts.weaken .panic
  | ret =>
      simp only [step, Option.ite_none_right_eq_some] at taken
      obtain ⟨⟨inProgram, dropped⟩, result⟩ := taken
      obtain rfl := Option.some.inj result
      simp only [Accounts, inProgram] at accounts
      rw [leaks_eq_zero (by simp [RaisesPanic]), add_zero]
      simpa [Accounts, holding, inProgram, dropped, Pc.holding] using
        accounts.balance
  | timer => exact timer_accounts ok accounts taken

/-- Whatever a run has not released when it is over, it has leaked. -/
theorem run_balance {entries : CleanupEntries CleanupFn}
    {schedule : List Action} {final : Cpu}
    (invalid : entries.AllInvalid)
    (run : Machine.exec step (start entries) schedule = some final) :
    final.Accounts (Machine.total step leaks (start entries) schedule) := by
  have initial : (start entries).Accounts 0 :=
    ⟨CleanupEntries.Tracks.empty invalid, rfl⟩
  have accounted := Machine.exec_accounting
    (fun cpu leaked => cpu.FlagOk False ∧ cpu.Accounts leaked)
    (fun ok taken => ⟨step_flagOk ok.1 False.elim taken,
      step_accounts ok.1 ok.2 taken⟩)
    ⟨start_flagOk False entries, initial⟩ run
  simpa using accounted.2

end Cpu

end Rex
