import Rex.Runtime.Resources

namespace Rex

namespace Cpu

/-! The end of a run: the program has returned, or the panic handler has reached
the landing pad. -/

def Over (cpu : Cpu) : Prop :=
  cpu.pc = .returned ∨ cpu.pc = .landingpad

theorem Accounts.ended {cpu : Cpu} {leaked : Multiset Resource}
    (accounts : cpu.Accounts leaked) (ended : cpu.Over) :
    Ledger.replay KernelCall.effect cpu.log = some leaked := by
  rcases ended with pcEq | pcEq <;> simp only [Accounts, pcEq] at accounts
  · exact accounts
  · obtain ⟨live, tracks, later, balance⟩ := accounts
    have empty : live = [] := by
      apply List.eq_nil_iff_forall_not_mem.mpr
      intro handle member
      have inRange := tracks.idx_lt member
      have beyond := later handle member
      omega
    subst empty
    simpa using balance

theorem Accounts.replayed {cpu : Cpu} {leaked : Multiset Resource}
    (accounts : cpu.Accounts leaked) :
    ∃ held, Ledger.replay KernelCall.effect cpu.log = some held := by
  cases pcEq : cpu.pc <;> simp only [Accounts, pcEq] at accounts
  case returned => exact ⟨_, accounts⟩
  case program | enter | body | check | reset | forget =>
    exact ⟨_, accounts.balance⟩
  all_goals
    obtain ⟨live, _, _, balance⟩ := accounts
    exact ⟨_, balance⟩

/-! What a single action can leak. -/

theorem mem_leaks {cpu : Cpu} {action : Action} {resource : Resource} :
    resource ∈ cpu.leaks action ↔ cpu.RaisesPanic action ∧
      ((∃ data ∈ cpu.openReservations, resource = .record data) ∨
        ∃ call task, cpu.pc = .body call (.taskRegister task) ∧
          resource = .task task) := by
  unfold leaks
  split
  · rename_i raises
    simp only [raises, true_and, Multiset.mem_add, Multiset.mem_coe, List.mem_map]
    refine or_congr ?_ ?_
    · exact exists_congr fun data => and_congr Iff.rfl eq_comm
    · unfold unregisteredTask
      split
      · rename_i call task pcEq
        simp only [pcEq, Multiset.mem_singleton]
        constructor
        · exact fun same => ⟨call, task, rfl, same⟩
        · rintro ⟨_, _, same, rfl⟩
          cases same
          rfl
      · rename_i elsewhere
        simp only [Multiset.notMem_zero, false_iff]
        rintro ⟨call, task, pcEq, _⟩
        exact elsewhere call task pcEq
  · rename_i calm
    simp [calm]

def RegistersWithRoom (cpu : Cpu) (action : Action) : Prop :=
  ∀ call task ret, cpu.pc = .body call (.taskRegister task) →
    action = .step ret → ¬ cpu.TableFull

def PanicsClosed (cpu : Cpu) (action : Action) : Prop :=
  cpu.RaisesPanic action → cpu.openReservations = []

theorem leaks_task_iff (cpu : Cpu) (action : Action) :
    (∀ resource ∈ cpu.leaks action, ¬ ∃ task, resource = .task task) ↔
      cpu.RegistersWithRoom action := by
  constructor
  · intro safe call task ret pcEq stepped full
    subst stepped
    have raises : cpu.RaisesPanic (.step ret) := by
      simpa only [RaisesPanic, pcEq] using full
    exact safe (.task task)
      (mem_leaks.mpr ⟨raises, .inr ⟨call, task, pcEq, rfl⟩⟩) ⟨task, rfl⟩
  · rintro safe resource member ⟨task, rfl⟩
    obtain ⟨raises, ⟨_, _, mismatch⟩ | ⟨call, _, pcEq, same⟩⟩ :=
      mem_leaks.mp member
    · cases mismatch
    · cases same
      cases action with
      | step ret =>
          exact safe call task ret pcEq rfl
            (by simpa only [RaisesPanic, pcEq] using raises)
      | call | panic | ret | timer => simp [RaisesPanic, pcEq] at raises

theorem leaks_record_iff (cpu : Cpu) (action : Action) :
    (∀ resource ∈ cpu.leaks action, ¬ ∃ data, resource = .record data) ↔
      cpu.PanicsClosed action := by
  constructor
  · intro safe raises
    apply List.eq_nil_iff_forall_not_mem.mpr
    intro data member
    exact safe (.record data)
      (mem_leaks.mpr ⟨raises, .inl ⟨data, member, rfl⟩⟩) ⟨data, rfl⟩
  · rintro safe resource member ⟨data, rfl⟩
    obtain ⟨raises, ⟨_, openData, same⟩ | ⟨_, _, _, mismatch⟩⟩ :=
      mem_leaks.mp member
    · rw [safe raises] at openData
      cases openData
    · cases mismatch

theorem lock_notMem_total (cpu : Cpu) (schedule : List Action) (lock : Ptr) :
    Resource.lock lock ∉ Machine.total step leaks cpu schedule := by
  have safe : ∀ resource ∈ Machine.total step leaks cpu schedule,
      ¬ ∃ lock, resource = .lock lock := by
    rw [Machine.total_forall_iff]
    apply Machine.everyStep_of_forall
    rintro cpu action resource member ⟨lock, rfl⟩
    obtain ⟨_, ⟨_, _, mismatch⟩ | ⟨_, _, _, mismatch⟩⟩ := mem_leaks.mp member <;>
      cases mismatch
  exact fun member => safe _ member ⟨lock, rfl⟩

theorem notMem_total_iff {kind : Ptr → Resource} {Good : Cpu → Action → Prop}
    (leaksIff : ∀ cpu action,
      (∀ resource ∈ cpu.leaks action, ¬ ∃ key, resource = kind key) ↔
        Good cpu action)
    (cpu : Cpu) (schedule : List Action) :
    (∀ key, kind key ∉ Machine.total step leaks cpu schedule) ↔
      Machine.EveryStep step Good cpu schedule := by
  rw [← Machine.everyStep_congr leaksIff, ← Machine.total_forall_iff]
  constructor
  · rintro safe resource member ⟨key, rfl⟩
    exact safe key member
  · exact fun safe key member => safe _ member ⟨key, rfl⟩

/-! The guarantees.  `Ledger.acquired` and `Ledger.released` count the kernel
calls of the log that obtain and give back a resource. -/

section Guarantees

open KernelCall (effect)

variable {entries : CleanupEntries CleanupFn} {schedule : List Action}
  {final : Cpu}

/-- A spinlock guard registers before it locks and deregisters before it
unlocks, both under the termination state, so that a panic, a full table or the
timer can cut neither sequence at a point where the registry is wrong. -/
theorem spinlocks_released_once
    (invalid : entries.AllInvalid)
    (run : Machine.exec step (start entries) schedule = some final) :
    (∀ earlier, earlier <+: final.log → ∀ lock,
      Ledger.released effect (.lock lock) earlier ≤
        Ledger.acquired effect (.lock lock) earlier) ∧
    (final.Over → ∀ lock,
      Ledger.acquired effect (.lock lock) final.log =
        Ledger.released effect (.lock lock) final.log) := by
  have accounts := run_balance invalid run
  constructor
  · intro earlier before lock
    obtain ⟨_, replayed⟩ := accounts.replayed
    exact Ledger.released_le_acquired replayed before (.lock lock)
  · intro ended lock
    rw [Ledger.acquired_eq_released_iff (accounts.ended ended)]
    exact lock_notMem_total _ _ _

def guardSchedule : List Action :=
  [.call (.guardNew 16), .step 0, .step 0, .step 0, .step 0, .step 0,
    .call (.drop (.spinlockGuard 16 0)), .step 0, .step 0, .step 0, .timer,
    .step 0, .step 0, .step 0] ++
    List.replicate 130 (.step 0)

/-- A guard is created and dropped; the timer marks the drop, whose wrapper
panics with the guard's slot already invalid. -/
theorem spinlocks_released_once_on_timeout :
    ∃ final,
      Machine.exec step (start (Vector.replicate _ .default)) guardSchedule =
          some final ∧ final.pc = .landingpad ∧
        Ledger.acquired effect (.lock 16) final.log =
          Ledger.released effect (.lock 16) final.log := by
  obtain ⟨final, run, pad⟩ : ∃ final,
      Machine.exec step (start (Vector.replicate _ .default)) guardSchedule =
          some final ∧ final.pc = .landingpad :=
    ⟨_, rfl, rfl⟩
  have released :=
    (spinlocks_released_once CleanupEntries.allInvalid_default run).2
  exact ⟨final, run, pad, released (.inr pad) 16⟩

/-- `from_pid` takes its reference before it asks for a slot.  Every task
reference is released exactly once if and only if no `from_pid` holding a task
finds the table full. -/
theorem tasks_released_once_iff
    (invalid : entries.AllInvalid)
    (run : Machine.exec step (start entries) schedule = some final) :
    (∀ earlier, earlier <+: final.log → ∀ task,
      Ledger.released effect (.task task) earlier ≤
        Ledger.acquired effect (.task task) earlier) ∧
    (final.Over →
      ((∀ task, Ledger.acquired effect (.task task) final.log =
          Ledger.released effect (.task task) final.log) ↔
        Machine.EveryStep step RegistersWithRoom (start entries) schedule)) := by
  have accounts := run_balance invalid run
  constructor
  · intro earlier before task
    obtain ⟨_, replayed⟩ := accounts.replayed
    exact Ledger.released_le_acquired replayed before (.task task)
  · intro ended
    rw [← notMem_total_iff leaks_task_iff]
    exact forall_congr' fun task =>
      Ledger.acquired_eq_released_iff (accounts.ended ended) (.task task)

def fromPidSchedule (pid : Int32) (task : Ptr) : List Action :=
  [.call (.fromPid pid), .step 0, .step task, .step 0, .step 0, .step 0]

def panicSchedule : List Action :=
  List.replicate (2 * entriesSize + 3) (.step 0)

def fullTableSchedule : List Action :=
  (List.replicate entriesSize (fromPidSchedule 1 16)).flatten ++
    [.call (.fromPid 2), .step 0, .step 32, .step 0] ++ panicSchedule

theorem task_leaked_by_full_table :
    ((Machine.exec step (start (Vector.replicate _ .default))
        fullTableSchedule).map fun final =>
      (final.pc, Ledger.acquired effect (.task 32) final.log,
        Ledger.released effect (.task 32) final.log)) =
      some (.landingpad, 1, 0) := by
  decide +kernel

theorem tasks_released_once_on_panic :
    ∃ final,
      Machine.exec step (start (Vector.replicate _ .default))
          (fromPidSchedule 1 16 ++ .panic :: panicSchedule) = some final ∧
        final.pc = .landingpad ∧
        ((∀ task, Ledger.acquired effect (.task task) final.log =
            Ledger.released effect (.task task) final.log) ↔
          Machine.EveryStep step RegistersWithRoom
            (start (Vector.replicate _ .default))
            (fromPidSchedule 1 16 ++ .panic :: panicSchedule)) := by
  obtain ⟨final, run, pad⟩ : ∃ final,
      Machine.exec step (start (Vector.replicate _ .default))
          (fromPidSchedule 1 16 ++ .panic :: panicSchedule) = some final ∧
        final.pc = .landingpad :=
    ⟨_, rfl, rfl⟩
  have released :=
    (tasks_released_once_iff CleanupEntries.allInvalid_default run).2
  exact ⟨final, run, pad, released (.inr pad)⟩

/-- A ring-buffer entry is never registered.  Every reservation is closed
exactly once if and only if no panic is raised while one is open. -/
theorem reservations_closed_once_iff
    (invalid : entries.AllInvalid)
    (run : Machine.exec step (start entries) schedule = some final) :
    (∀ earlier, earlier <+: final.log → ∀ data,
      Ledger.released effect (.record data) earlier ≤
        Ledger.acquired effect (.record data) earlier) ∧
    (final.Over →
      ((∀ data, Ledger.acquired effect (.record data) final.log =
          Ledger.released effect (.record data) final.log) ↔
        Machine.EveryStep step PanicsClosed (start entries) schedule)) := by
  have accounts := run_balance invalid run
  constructor
  · intro earlier before data
    obtain ⟨_, replayed⟩ := accounts.replayed
    exact Ledger.released_le_acquired replayed before (.record data)
  · intro ended
    rw [← notMem_total_iff leaks_record_iff]
    exact forall_congr' fun data =>
      Ledger.acquired_eq_released_iff (accounts.ended ended) (.record data)

def reserveSchedule (data : Ptr) : List Action :=
  [.call (.reserve 8 32), .step 0, .step data, .step 0, .step 0]

theorem reservation_leaked_by_panic :
    ∃ final,
      Machine.exec step (start (Vector.replicate _ .default))
          (reserveSchedule 64 ++ .panic :: panicSchedule) = some final ∧
        final.pc = .landingpad ∧
        Ledger.acquired effect (.record 64) final.log = 1 ∧
        Ledger.released effect (.record 64) final.log = 0 :=
  ⟨_, rfl, rfl, rfl, rfl⟩

theorem reservations_closed_once_on_submit :
    ∃ final,
      Machine.exec step (start (Vector.replicate _ .default))
          (reserveSchedule 64 ++ .call (.submit 64 32 0) ::
            (List.replicate 5 (.step 0) ++ [.ret])) = some final ∧
        final.pc = .returned ∧
        ((∀ data, Ledger.acquired effect (.record data) final.log =
            Ledger.released effect (.record data) final.log) ↔
          Machine.EveryStep step PanicsClosed
            (start (Vector.replicate _ .default))
            (reserveSchedule 64 ++ .call (.submit 64 32 0) ::
              (List.replicate 5 (.step 0) ++ [.ret]))) := by
  obtain ⟨final, run, returned⟩ : ∃ final,
      Machine.exec step (start (Vector.replicate _ .default))
          (reserveSchedule 64 ++ .call (.submit 64 32 0) ::
            (List.replicate 5 (.step 0) ++ [.ret])) = some final ∧
        final.pc = .returned :=
    ⟨_, rfl, rfl⟩
  have closed :=
    (reservations_closed_once_iff CleanupEntries.allInvalid_default run).2
  exact ⟨final, run, returned, closed (.inl returned)⟩

end Guarantees

end Cpu

end Rex
