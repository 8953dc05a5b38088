import Mathlib.Data.List.Induction
import Rex.Electrode.Position

namespace Rex.Electrode

open Bytes Effect Program Rex.Frame Machine

/-! What a replica acknowledges has been stored, or passed up to its user-space
part. -/

def Maps.prepare (maps : Maps) (event : Ingress) : Except Stop Int32 × State :=
  (handlePrepare event.kernel prepareStart).run (maps.start event.frame)

def prepareStep (maps : Maps) (event : Ingress) : Option Maps :=
  some (maps.prepare event).2.maps

/-- The data of the frame was submitted, or the frame passed up. -/
def Kept (maps : Maps) (event : Ingress) : Prop :=
  (maps.prepare event).2.maps.mapPrepareBuffer =
      maps.mapPrepareBuffer ++
        [(prepareData event.frame prepareStart).take maxDataLen] ∨
    verdict (maps.prepare event).1 = some xdpPass

/-- The operation is in the batch of the Prepare. -/
def Covers (frame : Frame) (op : Nat) : Prop :=
  (prepareBatchStart (frame.drop prepareStart)).toNat ≤ op ∧
    op ≤ (prepareLastOp (frame.drop prepareStart)).toNat

def Secured (maps : Maps) (frames : List Ingress) (op : Nat) : Prop :=
  ∃ before event later middle, frames = before ++ event :: later ∧
    exec prepareStep maps before = some middle ∧ Kept middle event ∧
    Covers event.frame op

/-- The buffer has room whenever a Prepare with enough data moves the
position. -/
def Reserves (maps : Maps) (event : Ingress) : Prop :=
  Advances maps.ctrState (event.frame.drop prepareStart) →
    maxDataLen ≤ (prepareData event.frame prepareStart).length →
    event.kernel.reserves = true

theorem Secured.append {maps : Maps} {frames : List Ingress} {op : Nat}
    (secured : Secured maps frames op) (more : List Ingress) :
    Secured maps (frames ++ more) op := by
  obtain ⟨before, event, later, middle, rfl, ran, kept, covers⟩ := secured
  exact ⟨before, event, later ++ more, middle, by simp, ran, kept, covers⟩

theorem prepare_outcome (maps : Maps) (event : Ingress) :
    PrepareOutcome event.kernel prepareStart (maps.start event.frame)
      (maps.prepare event) :=
  handlePrepare_outcome ..

theorem kept_of_advances {maps : Maps} {event : Ingress}
    (advances : Advances maps.ctrState (event.frame.drop prepareStart))
    (reserves : Reserves maps event) : Kept maps event := by
  have outcome := prepare_outcome maps event
  unfold Kept
  generalize maps.prepare event = ran at outcome
  cases outcome with
  | passedUp _ short => exact .inr rfl
  | lost _ enough full =>
      rw [reserves advances enough] at full
      cases full
  | stored _ enough room =>
      exact .inl (congrArg (fun view => view.1.mapPrepareBuffer)
        (besides_prepareFastReply ..))
  | resent notAdvances seen => exact absurd advances notAdvances
  | ended notAdvances other => exact absurd advances notAdvances

theorem prepare_position (maps : Maps) (event : Ingress)
    (reserves : Reserves maps event) :
    (maps.prepare event).2.maps.ctrState.lastOp = maps.ctrState.lastOp ∨
      (Kept maps event ∧
        (maps.prepare event).2.maps.ctrState.lastOp =
          prepareLastOp (event.frame.drop prepareStart) ∧
        ∀ op, maps.ctrState.lastOp.toNat < op →
          op ≤ (prepareLastOp (event.frame.drop prepareStart)).toNat →
          Covers event.frame op) := by
  rcases (handlePrepare_position event.kernel prepareStart
    (maps.start event.frame)).1 with same | ⟨advances, _, lastOp⟩
  · exact .inl (congrArg PaxosCtrState.lastOp same)
  · refine .inr ⟨kept_of_advances advances reserves, lastOp, ?_⟩
    intro op after within
    have joins : (prepareBatchStart (event.frame.drop prepareStart)).toNat ≤
        maps.ctrState.lastOp.toNat + 1 := advances.joins
    exact ⟨by omega, within⟩

theorem secured_to_position {maps middle : Maps} {frames : List Ingress}
    (reserves : EveryStep prepareStep Reserves maps frames)
    (run : exec prepareStep maps frames = some middle) {op : Nat}
    (after : maps.ctrState.lastOp.toNat < op)
    (within : op ≤ middle.ctrState.lastOp.toNat) : Secured maps frames op := by
  induction frames using List.reverseRecOn generalizing middle with
  | nil =>
      obtain rfl := Option.some.inj run
      omega
  | append_singleton frames event induction =>
      obtain ⟨earlier, ran, taken⟩ := exec_concat.mp run
      obtain rfl := Option.some.inj taken
      obtain ⟨reservesBefore, last⟩ := (everyStep_append _ _ _).mp reserves
      by_cases old : op ≤ earlier.ctrState.lastOp.toNat
      · exact (induction reservesBefore ran old).append [event]
      · rcases prepare_position earlier event (last earlier ran).1 with
          same | ⟨kept, lastOp, covers⟩
        · rw [same] at within
          omega
        · rw [lastOp] at within
          exact ⟨frames, event, [], earlier, rfl, ran, kept,
            covers op (by omega) within⟩

theorem position_of_tx (maps : Maps) (event : Ingress)
    (answered : verdict (maps.prepare event).1 = some xdpTx) :
    (prepareLastOp (event.frame.drop prepareStart)).toNat ≤
      (maps.prepare event).2.ctrState.lastOp.toNat := by
  have outcome := prepare_outcome maps event
  generalize maps.prepare event = ran at outcome answered
  cases outcome with
  | passedUp advances short =>
      exact absurd (Option.some.inj answered : xdpPass = xdpTx) (by decide)
  | lost advances enough full =>
      exact absurd (Option.some.inj answered : 0 = xdpTx) (by decide)
  | stored advances enough room =>
      rw [ctrState_prepareFastReply]
      exact le_rfl
  | resent notAdvances seen =>
      rw [ctrState_prepareFastReply]
      exact seen
  | ended notAdvances other =>
      rcases other with rfl | rfl | rfl
      · exact absurd (Option.some.inj answered : xdpPass = xdpTx) (by decide)
      · exact absurd (Option.some.inj answered : xdpDrop = xdpTx) (by decide)
      · cases answered

/-- Where the buffer has room for every Prepare that moves the position, an
acknowledged operation has been stored or passed up, and a Prepare that is
neither stored nor passed up leaves the position alone. -/
theorem acknowledged_are_secured {maps middle : Maps} {frames : List Ingress}
    {event : Ingress}
    (reserves : EveryStep prepareStep Reserves maps (frames ++ [event]))
    (run : exec prepareStep maps frames = some middle) :
    (verdict (middle.prepare event).1 = some xdpTx →
      ∀ op, maps.ctrState.lastOp.toNat < op →
        op ≤ (prepareLastOp (event.frame.drop prepareStart)).toNat →
        Secured maps (frames ++ [event]) op) ∧
    (¬ Kept middle event →
      (middle.prepare event).2.maps.ctrState.lastOp = middle.ctrState.lastOp) := by
  constructor
  · intro answered op after within
    have reached : _ ≤ (middle.prepare event).2.maps.ctrState.lastOp.toNat :=
      position_of_tx middle event answered
    exact secured_to_position reserves (exec_concat.mpr ⟨middle, run, rfl⟩) after
      (by omega)
  · intro lost
    have last := ((everyStep_append _ _ _).mp reserves).2 middle run
    rcases prepare_position middle event last.1 with same | ⟨kept, _⟩
    · exact same
    · exact absurd kept lost

/-! A replica at the start of the log, and Prepares for its first operations. -/

def full : Kernel :=
  ⟨false, false, fun _ => 0, true⟩

theorem acknowledged_are_secured_twice :
    Secured firstMaps
      [⟨prepareFrame 0 2 1, roomy⟩, ⟨prepareFrame 0 2 1, full⟩] 1 := by
  obtain ⟨middle, run, answered⟩ : ∃ middle,
      exec prepareStep firstMaps [⟨prepareFrame 0 2 1, roomy⟩] = some middle ∧
        verdict (middle.prepare ⟨prepareFrame 0 2 1, full⟩).1 = some xdpTx :=
    ⟨_, rfl, by decide +kernel⟩
  refine (acknowledged_are_secured ?_ run).1 answered 1 (by decide) (by decide +kernel)
  refine ⟨fun _ _ => rfl, ?_, trivial⟩
  -- the second frame finds its operations in the log
  intro advances
  exact absurd advances.later (by decide +kernel)

instance (maps : Maps) (event : Ingress) : Decidable (Kept maps event) :=
  inferInstanceAs (Decidable (_ ∨ _))

/-- A Prepare that finds the buffer full is lost, and acknowledged when it is
sent again. -/
theorem lost_prepare_acknowledged :
    ¬ ∀ (maps middle : Maps) (frames : List Ingress) (event : Ingress),
      exec prepareStep maps frames = some middle →
      (verdict (middle.prepare event).1 = some xdpTx →
        ∀ op, maps.ctrState.lastOp.toNat < op →
          op ≤ (prepareLastOp (event.frame.drop prepareStart)).toNat →
          Secured maps (frames ++ [event]) op) ∧
      (¬ Kept middle event →
        (middle.prepare event).2.maps.ctrState.lastOp = middle.ctrState.lastOp) := by
  intro always
  obtain ⟨before, event, later, middle, split, ran, kept, _⟩ :=
    (always firstMaps _ [⟨prepareFrame 0 2 1, full⟩] ⟨prepareFrame 0 2 1, roomy⟩
      rfl).1 (by decide +kernel) 1 (by decide) (by decide +kernel)
  cases before with
  | nil =>
      obtain ⟨rfl, _⟩ := List.cons.inj split
      obtain rfl := Option.some.inj ran
      exact absurd kept (by decide +kernel)
  | cons first rest =>
      obtain ⟨rfl, tail⟩ := List.cons.inj split
      cases rest with
      | nil =>
          obtain ⟨rfl, _⟩ := List.cons.inj tail
          obtain rfl := Option.some.inj ran
          exact absurd kept (by decide +kernel)
      | cons second more =>
          have sizes := congrArg List.length tail
          simp at sizes

end Rex.Electrode
