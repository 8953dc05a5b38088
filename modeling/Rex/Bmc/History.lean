import Mathlib.Data.List.Induction
import Rex.Bmc.Update
import Rex.Data.Machine

namespace Rex.Bmc

open Bytes Effect Program Rex.Frame Machine

/-! Whole runs of the two programs, one frame after the other, on any number of
CPUs. -/

structure World where
  mapKcache : MapKcache
  cpus : Nat → PerCpu

def World.zero : World :=
  ⟨fun _ => .zero, fun _ => .zero⟩

inductive Event
  | rx (cpu : Nat) (frame : Frame) (kernel : Kernel) (fuel : Nat)
  | tx (cpu : Nat) (frame : Frame) (pagedLen : Nat)

def Event.cpu : Event → Nat
  | .rx cpu _ _ _ => cpu
  | .tx cpu _ _ => cpu

def World.start (world : World) (cpu : Nat) (frame : Frame) : State :=
  ⟨frame, world.mapKcache, world.cpus cpu, []⟩

def World.handle (world : World) : Event → Except Stop Int32 × State
  | .rx cpu frame kernel fuel =>
      (xdpRxFilter kernel fuel).run (world.start cpu frame)
  | .tx cpu frame pagedLen => (xdpTxFilter pagedLen).run (world.start cpu frame)

def World.after (world : World) (event : Event) : World :=
  ⟨(world.handle event).2.mapKcache,
    Function.update world.cpus event.cpu (world.handle event).2.cpu⟩

def step (world : World) (event : Event) : Option World :=
  some (world.after event)

/-! What one frame does to one slot. -/

def Event.Invalidates (slot : Slot) : Event → Prop
  | .rx _ frame _ _ => IsSegment frame ∧
      slot ∈ (setRequests (frame.drop tcpHeaderLen)).map requestSlot
  | .tx _ _ _ => False

def Event.Refills (world : World) (slot : Slot) : Event → Prop
  | .rx _ _ _ _ => False
  | .tx _ frame pagedLen => Bmc.Refills world.mapKcache frame pagedLen slot

/-- A frame leaves a slot alone unless it is a response that refills it or a
segment that invalidates it. -/
theorem World.after_cases (world : World) (event : Event) (slot : Slot) :
    (∃ cpu frame pagedLen, event = .tx cpu frame pagedLen ∧
        Bmc.Refills world.mapKcache frame pagedLen slot ∧
        (world.after event).mapKcache slot =
          refilled world.mapKcache frame pagedLen slot) ∨
      (event.Invalidates slot ∧ (world.after event).mapKcache slot =
          (world.mapKcache slot).invalidate) ∨
      (¬ event.Refills world slot ∧ ¬ event.Invalidates slot ∧
        (world.after event).mapKcache slot = world.mapKcache slot) := by
  cases event with
  | tx cpu frame pagedLen =>
      have cache := xdpTxFilter_cache pagedLen (world.start cpu frame) slot
      by_cases refills : Bmc.Refills world.mapKcache frame pagedLen slot
      · exact .inl ⟨cpu, frame, pagedLen, rfl, refills, cache.trans (if_pos refills)⟩
      · exact .inr (.inr ⟨refills, not_false, cache.trans (if_neg refills)⟩)
  | rx cpu frame kernel fuel =>
      by_cases segment : IsSegment frame
      · obtain ⟨final, ran, _, cache⟩ :
            ∃ final, (xdpRxFilter kernel fuel).run (world.start cpu frame) =
              (.ok xdpPass, final) ∧ Idle (world.start cpu frame) final ∧
              final.mapKcache = world.mapKcache.invalidated
                (setRequests (frame.drop tcpHeaderLen)) :=
          run_xdpRxFilter_segment kernel fuel segment
        have entry : (world.after (.rx cpu frame kernel fuel)).mapKcache slot =
            world.mapKcache.invalidated (setRequests (frame.drop tcpHeaderLen))
              slot := by
          rw [← cache]
          exact congrArg (fun ran => ran.2.mapKcache slot) ran
        by_cases named :
            slot ∈ (setRequests (frame.drop tcpHeaderLen)).map requestSlot
        · exact .inr (.inl ⟨⟨segment, named⟩, entry.trans (if_pos named)⟩)
        · exact .inr (.inr ⟨not_false, fun invalidates => named invalidates.2,
            entry.trans (if_neg named)⟩)
      · refine .inr (.inr ⟨not_false, fun invalidates => segment invalidates.1, ?_⟩)
        show ((xdpRxFilter kernel fuel).run (world.start cpu frame)).2.mapKcache
          slot = world.mapKcache slot
        by_cases get : IsGet frame
        · rw [IsGet.mapKcache get]
          rfl
        · obtain ⟨_, ran, _⟩ : ∃ result,
              (xdpRxFilter kernel fuel).run (world.start cpu frame) =
                (result, world.start cpu frame) ∧ _ :=
            run_xdpRxFilter_other kernel fuel get segment
          rw [ran]
          rfl

def Untouched (slot : Slot) (world : World) (later : List Event) : Prop :=
  EveryStep step (fun world event =>
    ¬ event.Refills world slot ∧ ¬ event.Invalidates slot) world later

theorem Untouched.not_invalidates {slot : Slot} {world : World}
    {later : List Event} (untouched : Untouched slot world later) :
    ∀ event ∈ later, ¬ event.Invalidates slot := by
  induction later generalizing world with
  | nil => exact fun _ member => absurd member List.not_mem_nil
  | cons first rest induction =>
      obtain ⟨now, after⟩ := untouched
      intro event member
      rcases List.mem_cons.mp member with rfl | member
      · exact now.2
      · exact induction after event member

/-- The contents of a slot and the response that they come from. -/
structure Origin (history : List Event) (world : World) (slot : Slot)
    (cpu : Nat) (frame : Frame) (pagedLen : Nat) (later : List Event)
    (middle : World) : Prop where
  split : ∃ before, history = before ++ .tx cpu frame pagedLen :: later ∧
    exec step .zero before = some middle
  refills : Refills middle.mapKcache frame pagedLen slot
  untouched : Untouched slot (middle.after (.tx cpu frame pagedLen)) later
  entry : world.mapKcache slot = refilled middle.mapKcache frame pagedLen slot

/-- A valid entry still is what the last response refilled it with. -/
theorem valid_origin {history : List Event} {world : World} {slot : Slot}
    (run : exec step .zero history = some world)
    (valid : (world.mapKcache slot).valid = 1) :
    ∃ cpu frame pagedLen later middle,
      Origin history world slot cpu frame pagedLen later middle := by
  induction history using List.reverseRecOn generalizing world with
  | nil =>
      obtain rfl := Option.some.inj run
      exact absurd valid (by decide : (0 : UInt8) ≠ 1)
  | append_singleton history event induction =>
      obtain ⟨earlier, ran, taken⟩ := exec_concat.mp run
      obtain rfl := Option.some.inj taken
      rcases earlier.after_cases event slot with
        ⟨cpu, frame, pagedLen, rfl, refills, entry⟩ | ⟨_, entry⟩ |
          ⟨noRefill, noInvalidate, entry⟩
      · exact ⟨cpu, frame, pagedLen, [], earlier,
          ⟨history, rfl, ran⟩, refills, trivial, entry⟩
      · rw [entry] at valid
        exact absurd valid (earlier.mapKcache slot).valid_invalidate
      · rw [entry] at valid
        obtain ⟨cpu, frame, pagedLen, later, middle, ⟨before, rfl, ranBefore⟩,
          refills, untouched, same⟩ := induction ran valid
        refine ⟨cpu, frame, pagedLen, later ++ [event], middle,
          ⟨before, by simp, ranBefore⟩, refills, ?_, entry.trans same⟩
        refine (everyStep_append _ _ _).mpr ⟨untouched, ?_⟩
        intro last ranLater
        -- the run up to here is the one that ends in the world before the event
        rw [exec_append, ranBefore, Option.bind_some, exec_cons_eq_some] at ran
        obtain ⟨next, taken, ranNext⟩ := ran
        obtain rfl := Option.some.inj taken
        obtain rfl := Option.some.inj (ranLater.symm.trans ranNext)
        exact ⟨⟨noRefill, noInvalidate⟩, trivial⟩

/-! What holds of every entry along every run. -/

theorem BmcCacheEntry.record_refill (entry : BmcCacheEntry) (hash : UInt32)
    (skbLen : Nat) (payload : List UInt8) :
    (entry.refill hash skbLen payload).record = (copyPayload skbLen payload).1 := by
  have whole : field (put entry.data 0 (copyPayload skbLen payload).1) 0
      (copyPayload skbLen payload).1.length = (copyPayload skbLen payload).1 :=
    field_put_self (Nat.zero_le _)
  rwa [field, List.drop_zero] at whole

theorem reachable_len {history : List Event} {world : World}
    (run : exec step .zero history = some world) (slot : Slot) :
    (world.mapKcache slot).len ≤ maxCacheDataSize := by
  refine exec_invariant (fun world => (world.mapKcache slot).len ≤ maxCacheDataSize)
    ?_ (Nat.zero_le _) run
  intro earlier next event before taken
  obtain rfl := Option.some.inj taken
  rcases earlier.after_cases event slot with ⟨_, _, _, _, _, entry⟩ |
    ⟨_, entry⟩ | ⟨_, _, entry⟩
  · rw [entry]
    exact length_copyPayload_le _ _
  · rw [entry, BmcCacheEntry.invalidate]
    split
    · exact before
    · exact before
  · rw [entry]
    exact before

theorem reachable_fits {history : List Event} {world : World}
    (run : exec step .zero history = some world) (slot : Slot) :
    (world.mapKcache slot).len ≤ maxPacketLength :=
  (reachable_len run slot).trans (by decide)

section Origin

variable {history : List Event} {world : World} {slot : Slot} {cpu : Nat}
  {frame : Frame} {pagedLen : Nat} {later : List Event} {middle : World}

theorem Origin.record_eq
    (origin : Origin history world slot cpu frame pagedLen later middle) :
    (world.mapKcache slot).record =
      (copyPayload (frame.length + pagedLen) (frame.drop udpHeaderLen)).1 := by
  rw [origin.entry]
  exact BmcCacheEntry.record_refill ..

theorem Origin.copies
    (origin : Origin history world slot cpu frame pagedLen later middle) :
    Copies 0 ((frame.drop udpHeaderLen).take maxCacheDataSize)
      (world.mapKcache slot).record
      (copyPayload (frame.length + pagedLen) (frame.drop udpHeaderLen)).2 := by
  rw [origin.record_eq]
  exact origin.refills.response.copies pagedLen

theorem Origin.record_isPrefix
    (origin : Origin history world slot cpu frame pagedLen later middle) :
    (world.mapKcache slot).record <+: frame.drop udpHeaderLen :=
  origin.copies.start.trans (List.take_prefix _ _)

end Origin

/-- The record of a response starts with its mark: there is no newline in the
mark, so the copying loop gets past it. -/
theorem Copies.valueMark_isPrefix {payload copied : List UInt8} {total : Nat}
    (copies : Copies 0 (payload.take maxCacheDataSize) copied total)
    (starts : valueMark <+: payload) : valueMark <+: copied := by
  have inPart : valueMark <+: payload.take maxCacheDataSize :=
    List.prefix_take_iff.mpr ⟨starts, by decide⟩
  rcases Nat.lt_or_ge total 2 with short | two
  · rwa [copies.whole short]
  · rcases List.prefix_or_prefix_of_prefix inPart copies.start with before | after
    · exact before
    · have none : copied.count newline = 0 := by
        rw [List.count_eq_zero]
        intro member
        exact absurd (after.subset member) (by decide)
      have := copies.counted
      omega

end Rex.Bmc
