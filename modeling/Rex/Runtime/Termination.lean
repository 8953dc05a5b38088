import Rex.Runtime.Cpu

namespace Rex

namespace Cpu

/-! The termination state.  Program code runs at 0; a wrapper and the panic
handler run at 1, or at 2 once the timer has left its mark. -/

def Guarded (cpu : Cpu) : Prop :=
  cpu.terminationState = 1 ∨ cpu.terminationState = 2

/-- The termination state at each control point.  In a `timely` run the timer
does not fire between the comparison and the final store of a wrapper, and then
no mark ever gets past a wrapper. -/
def FlagOk (timely : Prop) (cpu : Cpu) : Prop :=
  match cpu.pc with
  | .program | .enter _ | .forget _ =>
      cpu.terminationState = 0 ∧ (timely → cpu.marked = false)
  | .body _ _ | .check _ _ =>
      (cpu.terminationState = 1 ∧ (timely → cpu.marked = false)) ∨
        cpu.terminationState = 2
  | .reset _ _ =>
      (cpu.terminationState = 1 ∧ (timely → cpu.marked = false)) ∨
        (cpu.terminationState = 2 ∧ ¬ timely)
  | .returned => timely → cpu.marked = false
  | .cleanup _ | .invalidate _ | .format => cpu.Guarded
  | .handleTimeout | .panic | .landingpad => True

theorem register_cases (cpu : Cpu) (cleanupFn : CleanupFn) (cleanupArg : Ptr)
    (registered : Nat → Pc) :
    (∃ idx entries,
      cpu.entries.registerCleanup cleanupFn cleanupArg = (.ok idx, entries) ∧
        cpu.register cleanupFn cleanupArg registered =
          { cpu with entries, pc := registered idx }) ∨
      (cpu.entries.Full ∧
        cpu.register cleanupFn cleanupArg registered =
          { cpu with pc := .panic }) := by
  unfold register
  split
  · rename_i idx entries found
    exact .inl ⟨idx, entries, found, rfl⟩
  · rename_i message entries failed
    have error := congrArg Prod.fst failed
    have unchanged := CleanupEntries.registerCleanup_error error
    rw [failed] at unchanged
    obtain rfl : entries = cpu.entries := unchanged
    exact .inr ⟨(CleanupEntries.registerCleanup_error_iff _ _).mp
      ⟨message, error⟩, rfl⟩

theorem deregister_cases (cpu : Cpu) (idx : Nat) (deregistered : Pc) :
    (∃ entries, cpu.entries.deregisterCleanup idx = (.ok (), entries) ∧
      cpu.deregister idx deregistered =
        { cpu with entries, pc := deregistered }) ∨
      (¬ idx < entriesSize ∧
        cpu.deregister idx deregistered = { cpu with pc := .panic }) := by
  unfold deregister CleanupEntries.deregisterCleanup
  by_cases inRange : idx < entriesSize
  · simp [inRange]
  · simp [inRange]

/-- The body of a wrapper touches neither the termination state nor the objects
of the program, and stays inside its wrapper unless it panics. -/
theorem runBody_frame (cpu : Cpu) (call : Call) (ret : Ptr) (stage : Body) :
    (cpu.runBody call ret stage).terminationState = cpu.terminationState ∧
      (cpu.runBody call ret stage).marked = cpu.marked ∧
      ((∃ next, (cpu.runBody call ret stage).pc = .body call next) ∨
        (∃ value, (cpu.runBody call ret stage).pc = .check call value) ∨
        (cpu.runBody call ret stage).pc = .panic) := by
  cases stage with
  | guardRegister lock =>
      rcases cpu.register_cases .spinlockGuard lock
        (fun idx => .body call (.guardLock lock idx)) with
        ⟨idx, entries, _, result⟩ | ⟨_, result⟩ <;>
        simp [runBody, result]
  | taskRegister task =>
      rcases cpu.register_cases .ownedTaskStruct task
        (fun idx => .check call (some (.ownedTaskStruct task idx))) with
        ⟨idx, entries, _, result⟩ | ⟨_, result⟩ <;>
        simp [runBody, result]
  | guardDeregister lock cleanupIdx =>
      rcases cpu.deregister_cases cleanupIdx (.body call (.guardUnlock lock))
        with ⟨entries, _, result⟩ | ⟨_, result⟩ <;>
        simp [runBody, result]
  | taskDeregister kptr cleanupIdx =>
      rcases cpu.deregister_cases cleanupIdx (.body call (.taskRelease kptr))
        with ⟨entries, _, result⟩ | ⟨_, result⟩ <;>
        simp [runBody, result]
  | taskFromPid pid => by_cases null : ret = 0 <;> simp [runBody, kernel, null]
  | guardLock | guardUnlock | taskRelease | ringbufReserve | ringbufSubmit
  | ringbufDiscard | helper => simp [runBody, kernel]

theorem after_cases (call : Call) :
    call.after = .program ∨ call.after = .forget call := by
  cases call <;> simp [Call.after]

theorem invoke_cases {cpu next : Cpu} {call : Call}
    (taken : cpu.invoke call = some next) :
    next.terminationState = cpu.terminationState ∧ next.marked = cpu.marked ∧
      (next = cpu ∨ next.pc = .enter call) := by
  cases call with
  | guardNew lock =>
      simp only [invoke] at taken
      split at taken
      · contradiction
      · obtain rfl := Option.some.inj taken
        exact ⟨rfl, rfl, .inr rfl⟩
  | reserve kptr size =>
      simp only [invoke] at taken
      split at taken <;> obtain rfl := Option.some.inj taken
      · exact ⟨rfl, rfl, .inl rfl⟩
      · exact ⟨rfl, rfl, .inr rfl⟩
  | fromPid | helper =>
      obtain rfl := Option.some.inj taken
      exact ⟨rfl, rfl, .inr rfl⟩
  | submit | discard | drop =>
      simp only [invoke, consume] at taken
      split at taken
      · obtain rfl := Option.some.inj taken
        exact ⟨rfl, rfl, .inr rfl⟩
      · contradiction

theorem timer_cases {cpu next : Cpu} (taken : cpu.timer = some next) :
    cpu.pc ≠ .landingpad ∧ cpu.pc ≠ .returned ∧
      ((cpu.terminationState = 0 ∧ next = { cpu with pc := .handleTimeout }) ∨
        (cpu.terminationState = 1 ∧
          next = { cpu with terminationState := 2, marked := true }) ∨
        (cpu.terminationState ≠ 0 ∧ cpu.terminationState ≠ 1 ∧ next = cpu)) := by
  unfold timer at taken
  split at taken
  · contradiction
  · rename_i unfinished
    obtain ⟨noPad, notDone⟩ := not_or.mp unfinished
    refine ⟨noPad, notDone, ?_⟩
    split at taken
    · exact .inl ⟨‹_›, (Option.some.inj taken).symm⟩
    · split at taken
      · exact .inr (.inl ⟨‹_›, (Option.some.inj taken).symm⟩)
      · exact .inr (.inr ⟨‹_›, ‹_›, (Option.some.inj taken).symm⟩)

def TimerOutsideWindow (cpu : Cpu) (action : Action) : Prop :=
  action = .timer → ∀ call value, cpu.pc ≠ .reset call value

private theorem advance_flagOk {timely : Prop} {cpu next : Cpu} {ret : Ptr}
    (ok : cpu.FlagOk timely) (taken : cpu.advance ret = some next) :
    next.FlagOk timely := by
  unfold advance at taken
  cases pcEq : cpu.pc with
  | program | landingpad | returned => simp [pcEq] at taken
  | enter call =>
      simp only [FlagOk, pcEq] at ok
      simp only [pcEq, Option.some.injEq] at taken
      subst taken
      exact .inl ⟨rfl, ok.2⟩
  | body call stage =>
      simp only [FlagOk, pcEq] at ok
      simp only [pcEq, Option.some.injEq] at taken
      subst taken
      obtain ⟨state, marked, position⟩ := cpu.runBody_frame call ret stage
      rcases position with ⟨later, at_⟩ | ⟨value, at_⟩ | at_ <;>
        simp only [FlagOk, at_, state, marked] <;> exact ok
  | check call value =>
      simp only [FlagOk, pcEq] at ok
      simp only [pcEq] at taken
      split at taken
      · obtain rfl := Option.some.inj taken
        trivial
      · rename_i unmarked
        obtain rfl := Option.some.inj taken
        exact .inl (ok.resolve_right unmarked)
  | reset call value =>
      simp only [FlagOk, pcEq] at ok
      simp only [pcEq, Option.some.injEq] at taken
      subst taken
      have unmarked : timely → cpu.marked = false := by
        rcases ok with ⟨_, unmarked⟩ | ⟨_, late⟩
        · exact unmarked
        · exact fun timely => absurd timely late
      rcases after_cases call with after | after <;>
        simp only [FlagOk, after] <;> exact ⟨trivial, unmarked⟩
  | forget call =>
      simp only [FlagOk, pcEq] at ok
      simp only [pcEq, Option.some.injEq] at taken
      subst taken
      exact ok
  | panic =>
      simp only [pcEq, Option.some.injEq] at taken
      subst taken
      exact .inl rfl
  | cleanup idx =>
      simp only [FlagOk, pcEq] at ok
      simp only [pcEq] at taken
      split at taken <;> obtain rfl := Option.some.inj taken <;> exact ok
  | invalidate idx =>
      simp only [FlagOk, pcEq] at ok
      simp only [pcEq, Option.some.injEq] at taken
      subst taken
      exact ok
  | handleTimeout | format =>
      simp only [pcEq, Option.some.injEq] at taken
      subst taken
      trivial

private theorem timer_flagOk {timely : Prop} {cpu next : Cpu}
    (ok : cpu.FlagOk timely)
    (outside : timely → cpu.TimerOutsideWindow .timer)
    (taken : cpu.timer = some next) : next.FlagOk timely := by
  obtain ⟨_, notDone, ⟨_, rfl⟩ | ⟨one, rfl⟩ | ⟨_, _, rfl⟩⟩ := timer_cases taken
  · trivial
  · cases pcEq : cpu.pc with
    | program | enter | forget =>
        -- a state of 1 is never found in program code
        simp [FlagOk, pcEq, one] at ok
    | body | check =>
        simp only [FlagOk]
        exact .inr trivial
    | reset call value =>
        simp only [FlagOk]
        exact .inr ⟨trivial, fun timely => outside timely rfl call value pcEq⟩
    | cleanup | invalidate | format =>
        simp only [FlagOk]
        exact .inr rfl
    | returned => exact absurd pcEq notDone
    | handleTimeout | panic | landingpad => simp only [FlagOk]
  · exact ok

theorem step_flagOk {timely : Prop} {cpu next : Cpu} {action : Action}
    (ok : cpu.FlagOk timely)
    (outside : timely → cpu.TimerOutsideWindow action)
    (taken : cpu.step action = some next) : next.FlagOk timely := by
  cases action with
  | call call =>
      simp only [step, Option.ite_none_right_eq_some] at taken
      obtain ⟨inProgram, invoked⟩ := taken
      simp only [FlagOk, inProgram] at ok
      obtain ⟨state, marked, unchanged | entered⟩ := invoke_cases invoked
      · subst unchanged
        simpa only [FlagOk, inProgram] using ok
      · simpa only [FlagOk, entered, state, marked] using ok
  | step ret => exact advance_flagOk ok taken
  | panic =>
      simp only [step, Option.ite_none_right_eq_some] at taken
      obtain ⟨_, raised⟩ := taken
      obtain rfl := Option.some.inj raised
      trivial
  | ret =>
      simp only [step, Option.ite_none_right_eq_some] at taken
      obtain ⟨⟨inProgram, _⟩, done⟩ := taken
      simp only [FlagOk, inProgram] at ok
      obtain rfl := Option.some.inj done
      exact ok.2
  | timer => exact timer_flagOk ok outside taken

theorem start_flagOk (timely : Prop) (entries : CleanupEntries CleanupFn) :
    (start entries).FlagOk timely :=
  ⟨rfl, fun _ => rfl⟩

/-! A request left by the timer.  The wrapper loads the state, compares it and
only then stores 0, so a mark left between the comparison and the store is
overwritten unseen. -/

def InProgram : Pc → Prop
  | .program | .enter _ | .forget _ | .returned => True
  | _ => False

/-- Without a firing inside the window, a request is never lost: no program
code runs after it, no wrapper resets the state over it, and the wrapper that
finds it ends in `__rex_handle_timeout`. -/
theorem timeout_noticed (entries : CleanupEntries CleanupFn)
    {schedule : List Action} {final : Cpu}
    (run : Machine.exec step (start entries) schedule = some final)
    (outside : Machine.EveryStep step TimerOutsideWindow (start entries)
      schedule)
    (requested : final.marked = true) :
    ¬ InProgram final.pc ∧
      (∀ call value, final.pc ≠ .reset call value) ∧
      ∀ call value ret, final.pc = .check call value →
        final.step (.step ret) = some { final with pc := .handleTimeout } := by
  have ok : final.FlagOk True :=
    Machine.exec_invariant_of_everyStep (FlagOk True)
      (fun ok good taken => step_flagOk ok (fun _ => good) taken)
      (start_flagOk True entries) outside run
  refine ⟨?_, ?_, ?_⟩
  · intro inProgram
    cases pcEq : final.pc <;> simp_all [FlagOk, InProgram]
  · intro call value pcEq
    simp [FlagOk, pcEq, requested] at ok
  · intro call value ret pcEq
    have two : final.terminationState = 2 := by
      simpa [FlagOk, pcEq, requested] using ok
    simp [step, advance, pcEq, two]

def helperSchedule : List Action :=
  [.call .helper, .step 0, .timer, .step 0]

theorem timeout_noticed_in_body :
    ∃ final,
      Machine.exec step (start (Vector.replicate _ .default)) helperSchedule =
          some final ∧
        final.marked = true ∧ ¬ InProgram final.pc := by
  obtain ⟨final, run, requested⟩ : ∃ final,
      Machine.exec step (start (Vector.replicate _ .default)) helperSchedule =
          some final ∧ final.marked = true :=
    ⟨_, rfl, rfl⟩
  have noticed := timeout_noticed _ run
    (by simp [helperSchedule, Machine.EveryStep, TimerOutsideWindow, step,
      start, invoke, advance, timer, runBody, kernel, Call.body]) requested
  exact ⟨final, run, requested, noticed.1⟩

/-- The timer fires after the wrapper of a helper has compared the state with 2
and before it stores 0: the program goes on. -/
theorem timeout_lost_in_window :
    ∃ final,
      Machine.exec step (start (Vector.replicate _ .default))
          [.call .helper, .step 0, .step 0, .step 0, .timer, .step 0] =
          some final ∧
        final.marked = true ∧ final.pc = .program ∧
          final.terminationState = 0 :=
  ⟨_, rfl, rfl, rfl, rfl⟩

end Cpu

end Rex
