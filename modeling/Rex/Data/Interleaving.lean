import Rex.Data.Machine

namespace Interleaving

open Machine

/-! Processors that share a state.  The work of a processor is cut into stages:
a stage runs without interruption, and between two stages of one processor the
others may run any number of theirs.  A schedule says which processor moves, so
every interleaving is a run of one machine. -/

variable {Shared Memory Stage Job : Type}

/-- `launch` turns a job into the first stage of its work, in the memory of the
processor that takes it; a stage that has no successor ends the job. -/
structure Cut (Shared Memory Stage Job : Type) where
  launch : Job → Memory → Stage × Memory
  advance : Stage → Shared → Memory → Option Stage × Shared × Memory

structure World (Shared Memory Stage : Type) where
  shared : Shared
  memory : Nat → Memory
  stage : Nat → Option Stage

inductive Move (Job : Type)
  | launch (cpu : Nat) (job : Job)
  | advance (cpu : Nat)
deriving DecidableEq

namespace World

variable (cut : Cut Shared Memory Stage Job) (world : World Shared Memory Stage)

def put (cpu : Nat) (stage : Option Stage) (shared : Shared) (memory : Memory) :
    World Shared Memory Stage where
  shared := shared
  memory := Function.update world.memory cpu memory
  stage := Function.update world.stage cpu stage

def launched (cpu : Nat) (job : Job) : World Shared Memory Stage :=
  world.put cpu (some (cut.launch job (world.memory cpu)).1) world.shared
    (cut.launch job (world.memory cpu)).2

def advanced (cpu : Nat) (stage : Stage) : World Shared Memory Stage :=
  world.put cpu (cut.advance stage world.shared (world.memory cpu)).1
    (cut.advance stage world.shared (world.memory cpu)).2.1
    (cut.advance stage world.shared (world.memory cpu)).2.2

/-- A processor takes a job only when it has none. -/
def step : Move Job → Option (World Shared Memory Stage)
  | .launch cpu job =>
      match world.stage cpu with
      | none => some (world.launched cut cpu job)
      | some _ => none
  | .advance cpu =>
      match world.stage cpu with
      | none => none
      | some stage => some (world.advanced cut cpu stage)

section Put

variable {world} {cpu other : Nat} (stage : Option Stage) (shared : Shared)
  (memory : Memory)

@[simp] theorem shared_put : (world.put cpu stage shared memory).shared = shared :=
  rfl

@[simp] theorem stage_put_self :
    (world.put cpu stage shared memory).stage cpu = stage :=
  Function.update_self ..

@[simp] theorem memory_put_self :
    (world.put cpu stage shared memory).memory cpu = memory :=
  Function.update_self ..

theorem stage_put_of_ne (elsewhere : other ≠ cpu) :
    (world.put cpu stage shared memory).stage other = world.stage other :=
  Function.update_of_ne elsewhere ..

theorem memory_put_of_ne (elsewhere : other ≠ cpu) :
    (world.put cpu stage shared memory).memory other = world.memory other :=
  Function.update_of_ne elsewhere ..

@[simp] theorem put_put (last : Option Stage) (lastShared : Shared)
    (lastMemory : Memory) :
    (world.put cpu stage shared memory).put cpu last lastShared lastMemory =
      world.put cpu last lastShared lastMemory := by
  simp only [put, Function.update_idem]

end Put

end World

variable {cut : Cut Shared Memory Stage Job}
  {world next final : World Shared Memory Stage}

/-- The machine of all the interleavings. -/
def step (cut : Cut Shared Memory Stage Job) (world : World Shared Memory Stage)
    (move : Move Job) : Option (World Shared Memory Stage) :=
  world.step cut move

theorem step_launch_eq_some {cpu : Nat} {job : Job} :
    step cut world (.launch cpu job) = some next ↔
      world.stage cpu = none ∧ next = world.launched cut cpu job := by
  simp only [step, World.step]
  cases world.stage cpu with
  | none => simp [eq_comm]
  | some stage => simp

theorem step_advance_eq_some {cpu : Nat} :
    step cut world (.advance cpu) = some next ↔
      ∃ stage, world.stage cpu = some stage ∧
        next = world.advanced cut cpu stage := by
  simp only [step, World.step]
  cases world.stage cpu with
  | none => simp
  | some stage => simp [eq_comm]

def launches (schedule : List (Move Job)) : List (Nat × Job) :=
  schedule.filterMap fun
    | .launch cpu job => some (cpu, job)
    | .advance _ => none

/-- A property of every interleaving of jobs of a kind: it has to survive the
launch of such a job and each stage of the work. -/
theorem exec_keeps (Inv : World Shared Memory Stage → Prop) (Fine : Job → Prop)
    (launch : ∀ {world cpu job}, Fine job → Inv world → world.stage cpu = none →
      Inv (world.launched cut cpu job))
    (advance : ∀ {world cpu stage}, Inv world → world.stage cpu = some stage →
      Inv (world.advanced cut cpu stage))
    {schedule : List (Move Job)} (fine : ∀ entry ∈ launches schedule, Fine entry.2)
    (initial : Inv world) (run : exec (step cut) world schedule = some final) :
    Inv final := by
  induction schedule generalizing world with
  | nil => exact Option.some.inj run ▸ initial
  | cons move rest induction =>
      obtain ⟨next, taken, remaining⟩ := exec_cons_eq_some.mp run
      cases move with
      | launch cpu job =>
          obtain ⟨idle, rfl⟩ := step_launch_eq_some.mp taken
          obtain ⟨now, later⟩ := List.forall_mem_cons.mp fine
          exact induction later (launch now initial idle) remaining
      | advance cpu =>
          obtain ⟨stage, busy, rfl⟩ := step_advance_eq_some.mp taken
          exact induction fine (advance initial busy) remaining

/-- Processors that only share a state on which they all rely: what is true of
the shared state, and of each processor by itself, stays true when each stage
sees to both. -/
theorem exec_local (Common : Shared → Prop) (Own : Option Stage → Memory → Prop)
    (Fine : Job → Prop)
    (launch : ∀ {job memory}, Fine job → Own none memory →
      Own (some (cut.launch job memory).1) (cut.launch job memory).2)
    (advance : ∀ {stage shared memory}, Common shared → Own (some stage) memory →
      Common (cut.advance stage shared memory).2.1 ∧
        Own (cut.advance stage shared memory).1 (cut.advance stage shared memory).2.2)
    {schedule : List (Move Job)} (fine : ∀ entry ∈ launches schedule, Fine entry.2)
    (common : Common world.shared)
    (own : ∀ cpu, Own (world.stage cpu) (world.memory cpu))
    (run : exec (step cut) world schedule = some final) :
    Common final.shared ∧ ∀ cpu, Own (final.stage cpu) (final.memory cpu) := by
  have put : ∀ {world : World Shared Memory Stage} {cpu stage shared memory},
      (∀ other, Own (world.stage other) (world.memory other)) → Own stage memory →
        ∀ other, Own ((world.put cpu stage shared memory).stage other)
          ((world.put cpu stage shared memory).memory other) := by
    intro world cpu stage shared memory own moved other
    by_cases same : other = cpu
    · subst same
      rwa [World.stage_put_self, World.memory_put_self]
    · rw [World.stage_put_of_ne _ _ _ same, World.memory_put_of_ne _ _ _ same]
      exact own other
  refine exec_keeps (fun world => Common world.shared ∧
    ∀ cpu, Own (world.stage cpu) (world.memory cpu)) Fine ?_ ?_ fine ⟨common, own⟩ run
  · intro world cpu job now holds idle
    refine ⟨holds.1, put holds.2 (launch now ?_)⟩
    exact idle ▸ holds.2 cpu
  · intro world cpu stage holds busy
    have before : Own (some stage) (world.memory cpu) := busy ▸ holds.2 cpu
    exact ⟨(advance holds.1 before).1, put holds.2 (advance holds.1 before).2⟩

/-- The rest of a job, from one of its stages to its end. -/
inductive Finishes (cut : Cut Shared Memory Stage Job) (lastShared : Shared)
    (lastMemory : Memory) : Stage → Shared → Memory → Prop
  | last {stage : Stage} {shared : Shared} {memory : Memory}
      (ended : cut.advance stage shared memory = (none, lastShared, lastMemory)) :
      Finishes cut lastShared lastMemory stage shared memory
  | more {stage next : Stage} {shared between : Shared} {memory held : Memory}
      (went : cut.advance stage shared memory = (some next, between, held))
      (rest : Finishes cut lastShared lastMemory next between held) :
      Finishes cut lastShared lastMemory stage shared memory

theorem Finishes.exec {cpu : Nat} {stage : Stage} {shared lastShared : Shared}
    {memory lastMemory : Memory} (world : World Shared Memory Stage)
    (finishes : Finishes cut lastShared lastMemory stage shared memory) :
    ∃ moves, exec (step cut) (world.put cpu (some stage) shared memory)
        (List.replicate moves (.advance cpu)) =
      some (world.put cpu none lastShared lastMemory) := by
  have taken : ∀ {stage shared memory},
      step cut (world.put cpu (some stage) shared memory) (.advance cpu) =
        some (world.put cpu (cut.advance stage shared memory).1
          (cut.advance stage shared memory).2.1
          (cut.advance stage shared memory).2.2) := by
    intro stage shared memory
    rw [step_advance_eq_some]
    refine ⟨stage, World.stage_put_self .., ?_⟩
    simp only [World.advanced, World.shared_put, World.memory_put_self,
      World.put_put]
  induction finishes with
  | last ended =>
      refine ⟨1, exec_cons_eq_some.mpr ⟨_, taken, ?_⟩⟩
      rw [ended]
      rfl
  | more went rest induction =>
      obtain ⟨moves, ran⟩ := induction
      refine ⟨moves + 1, exec_cons_eq_some.mpr ⟨_, taken, ?_⟩⟩
      rw [went]
      exact ran

theorem exec_alone {cpu : Nat} {job : Job} {lastShared : Shared}
    {lastMemory : Memory} (idle : world.stage cpu = none)
    (finishes : Finishes cut lastShared lastMemory
      (cut.launch job (world.memory cpu)).1 world.shared
      (cut.launch job (world.memory cpu)).2) :
    ∃ moves, exec (step cut) world
        (.launch cpu job :: List.replicate moves (.advance cpu)) =
      some (world.put cpu none lastShared lastMemory) := by
  obtain ⟨moves, ran⟩ := finishes.exec world
  exact ⟨moves, exec_cons_eq_some.mpr
    ⟨_, step_launch_eq_some.mpr ⟨idle, rfl⟩, ran⟩⟩

/-! Jobs that are done one after the other. -/

theorem launches_advance (moves cpu : Nat) (later : List (Move Job)) :
    launches (List.replicate moves (.advance cpu) ++ later) = launches later := by
  induction moves with
  | zero => rfl
  | succ moves induction => exact induction

theorem mem_launches {schedule : List (Move Job)} {cpu : Nat} {job : Job} :
    (cpu, job) ∈ launches schedule ↔ .launch cpu job ∈ schedule := by
  rw [launches, List.mem_filterMap]
  constructor
  · rintro ⟨move, member, kept⟩
    cases move with
    | launch other taken =>
        obtain ⟨rfl, rfl⟩ := Prod.mk.inj (Option.some.inj kept)
        exact member
    | advance other => cases kept
  · exact fun member => ⟨_, member, rfl⟩

section Sequence

variable {State Event : Type} {serve : State → Event → Option State}
  {cpuOf : Event → Nat} {jobOf : Event → Job} {Fine : State → Event → Prop}

/-- A machine that does whole jobs is simulated by the interleavings, when each
job by itself does what the machine does. -/
theorem exec_sequence (Agrees : State → World Shared Memory Stage → Prop)
    (alone : ∀ {state next event} {world : World Shared Memory Stage},
      Agrees state world → Fine state event → serve state event = some next →
      ∃ shared memory, Agrees next (world.put (cpuOf event) none shared memory) ∧
        Finishes cut shared memory
          (cut.launch (jobOf event) (world.memory (cpuOf event))).1 world.shared
          (cut.launch (jobOf event) (world.memory (cpuOf event))).2)
    {state last : State} {events : List Event} (agrees : Agrees state world)
    (idle : ∀ cpu, world.stage cpu = none)
    (run : exec serve state events = some last)
    (fine : EveryStep serve Fine state events) :
    ∃ schedule final, exec (step cut) world schedule = some final ∧
      Agrees last final ∧ (∀ cpu, final.stage cpu = none) ∧
      launches schedule = events.map fun event => (cpuOf event, jobOf event) := by
  induction events generalizing world state with
  | nil => exact ⟨[], world, rfl, Option.some.inj run ▸ agrees, idle, rfl⟩
  | cons event rest induction =>
      obtain ⟨next, served, remaining⟩ := exec_cons_eq_some.mp run
      simp only [EveryStep, served] at fine
      obtain ⟨shared, memory, agreesNext, finishes⟩ := alone agrees fine.1 served
      obtain ⟨moves, ran⟩ := exec_alone (idle (cpuOf event)) finishes
      have stillIdle : ∀ cpu,
          (world.put (cpuOf event) none shared memory).stage cpu = none := by
        intro cpu
        by_cases own : cpu = cpuOf event
        · rw [own, World.stage_put_self]
        · rw [World.stage_put_of_ne _ _ _ own, idle]
      obtain ⟨schedule, final, ranRest, reached, ended, given⟩ :=
        induction agreesNext stillIdle remaining fine.2
      refine ⟨.launch (cpuOf event) (jobOf event) ::
        (List.replicate moves (.advance (cpuOf event)) ++ schedule), final, ?_, reached,
        ended, ?_⟩
      · rw [← List.cons_append, exec_append, ran]
        exact ranRest
      · show (cpuOf event, jobOf event) :: launches (_ ++ schedule) = _
        rw [launches_advance, given]
        rfl

end Sequence

/-! What each processor owes to the jobs that it was given. -/

def jobsOn (cpu : Nat) (schedule : List (Move Job)) : List Job :=
  (launches schedule).filterMap fun entry =>
    if entry.1 = cpu then some entry.2 else none

theorem jobsOn_launch (cpu mover : Nat) (job : Job) (rest : List (Move Job)) :
    jobsOn cpu (.launch mover job :: rest) =
      (if mover = cpu then [job] else []) ++ jobsOn cpu rest := by
  simp only [jobsOn, launches, List.filterMap_cons]
  by_cases same : mover = cpu
  · simp only [if_pos same]
    rfl
  · simp only [if_neg same]
    rfl

theorem exec_history (Own : List Job → Option Stage → Memory → Prop)
    (launch : ∀ {jobs job memory}, Own jobs none memory →
      Own (jobs ++ [job]) (some (cut.launch job memory).1) (cut.launch job memory).2)
    (advance : ∀ {jobs stage shared memory}, Own jobs (some stage) memory →
      Own jobs (cut.advance stage shared memory).1 (cut.advance stage shared memory).2.2)
    {given : Nat → List Job} {schedule : List (Move Job)}
    (own : ∀ cpu, Own (given cpu) (world.stage cpu) (world.memory cpu))
    (run : exec (step cut) world schedule = some final) (cpu : Nat) :
    Own (given cpu ++ jobsOn cpu schedule) (final.stage cpu) (final.memory cpu) := by
  induction schedule generalizing world given with
  | nil =>
      obtain rfl := Option.some.inj run
      exact (List.append_nil (given cpu)).symm ▸ own cpu
  | cons move rest induction =>
      obtain ⟨next, taken, remaining⟩ := exec_cons_eq_some.mp run
      cases move with
      | launch mover job =>
          obtain ⟨idle, rfl⟩ := step_launch_eq_some.mp taken
          have later := @induction _
            (fun other => given other ++ if mover = other then [job] else []) ?_ remaining
          · rw [jobsOn_launch, ← List.append_assoc]
            exact later
          · intro other
            by_cases same : mover = other
            · subst same
              rw [if_pos rfl, World.launched, World.stage_put_self, World.memory_put_self]
              exact launch (idle ▸ own mover)
            · rw [if_neg same, List.append_nil, World.launched,
                World.stage_put_of_ne _ _ _ (Ne.symm same),
                World.memory_put_of_ne _ _ _ (Ne.symm same)]
              exact own other
      | advance mover =>
          obtain ⟨stage, busy, rfl⟩ := step_advance_eq_some.mp taken
          refine @induction _ given ?_ remaining
          intro other
          by_cases same : other = mover
          · subst same
            rw [World.advanced, World.stage_put_self, World.memory_put_self]
            exact advance (busy ▸ own other)
          · rw [World.advanced, World.stage_put_of_ne _ _ _ same,
              World.memory_put_of_ne _ _ _ same]
            exact own other

end Interleaving
