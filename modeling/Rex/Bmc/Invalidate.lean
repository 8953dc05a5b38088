import Rex.Bmc.Freshness

namespace Rex.Bmc

open Bytes Effect Program Rex.Frame

/-! The whole effect of a segment on the cache. -/

/-- The slot belongs to a key that follows an occurrence of `set ` in the
segment. -/
def SetSlot (frame : Frame) (slot : Slot) : Prop :=
  ∃ before after, frame.drop tcpHeaderLen = before ++ setCommand ++ after ∧
    slot = slotOf (fnv1a (after.takeWhile (· != space)))

theorem mem_requestSlots_iff {frame : Frame} {slot : Slot} :
    slot ∈ (setRequests (frame.drop tcpHeaderLen)).map requestSlot ↔
      SetSlot frame slot := by
  rw [List.mem_map]
  constructor
  · rintro ⟨request, member, rfl⟩
    obtain ⟨before, shape⟩ := mem_setRequests_iff.mp member
    exact ⟨before, request, shape, rfl⟩
  · rintro ⟨before, after, shape, rfl⟩
    exact ⟨after, mem_setRequests_iff.mpr ⟨before, shape⟩, rfl⟩

def Switches (state final : State) (slot : Slot) : Prop :=
  (state.mapKcache slot).valid = 1 ∧ (final.mapKcache slot).valid = 0

/-- A segment to the memcached port is passed on as it is.  It invalidates the
valid entries in the slots of its keys, leaves everything else in the cache
alone, and counts the entries that it has switched. -/
theorem invalidation_exact {state : State}
    (port : state.dataSlice.destPort = memcachedPort)
    (long : tcpHeaderLen + 4 ≤ state.dataSlice.length) :
    ∃ final, bmcInvalidateCache.run state = (.ok xdpPass, final) ∧
      final.dataSlice = state.dataSlice ∧
      (∀ slot, SetSlot state.dataSlice slot → (state.mapKcache slot).valid = 1 →
        final.mapKcache slot = { state.mapKcache slot with valid := 0 }) ∧
      (∀ slot,
        ¬ (SetSlot state.dataSlice slot ∧ (state.mapKcache slot).valid = 1) →
        final.mapKcache slot = state.mapKcache slot) ∧
      ∃ switched : Finset Slot, (∀ slot, slot ∈ switched ↔
          Switches state final slot) ∧
        final.invalidations = state.invalidations + .ofNat switched.card := by
  obtain ⟨final, ran, idle, cache, count⟩ := run_bmcInvalidateCache port long
  have set (slot : Slot) (sets : SetSlot state.dataSlice slot)
      (valid : (state.mapKcache slot).valid = 1) :
      final.mapKcache slot = { state.mapKcache slot with valid := 0 } := by
    rw [cache, MapKcache.invalidated, if_pos (mem_requestSlots_iff.mpr sets),
      BmcCacheEntry.invalidate, if_pos valid]
  have others (slot : Slot) (other : ¬ (SetSlot state.dataSlice slot ∧
      (state.mapKcache slot).valid = 1)) :
      final.mapKcache slot = state.mapKcache slot := by
    rw [cache, MapKcache.invalidated]
    split
    · rename_i member
      have invalid := fun valid => other ⟨mem_requestSlots_iff.mp member, valid⟩
      rw [BmcCacheEntry.invalidate, if_neg invalid]
    · rfl
  refine ⟨final, ran, idle.frame, set, others, _, ?_, count⟩
  intro slot
  rw [MapKcache.mem_switched, mem_requestSlots_iff]
  constructor
  · rintro ⟨sets, valid⟩
    exact ⟨valid, by rw [set slot sets valid]⟩
  · rintro ⟨valid, switched⟩
    refine ⟨?_, valid⟩
    by_contra unset
    rw [others slot fun both => unset both.1, valid] at switched
    exact absurd switched (by decide)

def twiceFrame : Frame :=
  setFrame [107, 32, 48, 13, 10, 115, 101, 116, 32, 107, 32]

theorem invalidation_exact_twice :
    ∃ world final, Machine.exec step .zero
        [.tx 0 (responseFrame [107, 32, 48, 32, 49, 13, 10, 120, 13, 10]) 0] =
          some world ∧
      bmcInvalidateCache.run (world.start 0 twiceFrame) = (.ok xdpPass, final) ∧
      Switches (world.start 0 twiceFrame) final (slotOf (fnv1a [107])) := by
  obtain ⟨world, run, valid⟩ : ∃ world, Machine.exec step .zero
      [.tx 0 (responseFrame [107, 32, 48, 32, 49, 13, 10, 120, 13, 10]) 0] =
        some world ∧ (world.mapKcache (slotOf (fnv1a [107]))).valid = 1 :=
    ⟨_, rfl, by decide +kernel⟩
  have long : tcpHeaderLen + 4 ≤ twiceFrame.length := by decide +kernel
  have sets : SetSlot twiceFrame (slotOf (fnv1a [107])) :=
    ⟨[], [107, 32, 48, 13, 10, 115, 101, 116, 32, 107, 32], by decide +kernel,
      by decide +kernel⟩
  have port : (world.start 0 twiceFrame).dataSlice.destPort = memcachedPort :=
    show twiceFrame.destPort = memcachedPort by decide +kernel
  obtain ⟨final, ran, _, set, _⟩ := invalidation_exact port long
  refine ⟨world, final, run, ran, valid, ?_⟩
  rw [set _ sets valid]

end Rex.Bmc
