import Mathlib.Data.List.Basic
import Mathlib.Data.List.FinRange
import Mathlib.Data.List.Nodup
import Mathlib.Data.List.Perm.Basic
import Rex.Data.Machine

namespace Rex

/-! The per-CPU cleanup registry.  Constructors of kernel resource bindings
record a destructor in a free slot, drop handlers invalidate the slot, and the
panic handler runs what is still valid. -/

abbrev Ptr := UInt64

abbrev entriesSize : Nat := 64

abbrev PanicMessage := String

structure CleanupEntry (F : Type) where
  valid : UInt64
  cleanupFn : Option F
  cleanupArg : Ptr
deriving DecidableEq

structure CleanupCall (F : Type) where
  cleanupFn : F
  cleanupArg : Ptr
deriving DecidableEq

namespace CleanupEntry

def new (cleanupFn : F) (cleanupArg : Ptr) : CleanupEntry F :=
  { valid := 1, cleanupFn := some cleanupFn, cleanupArg }

def cleanup (entry : CleanupEntry F) : List (CleanupCall F) :=
  if entry.valid ≠ 0 then
    match entry.cleanupFn with
    | some cleanupFn => [{ cleanupFn, cleanupArg := entry.cleanupArg }]
    | none => []
  else
    []

def default : CleanupEntry F :=
  { valid := 0, cleanupFn := none, cleanupArg := 0 }

end CleanupEntry

abbrev CleanupEntries (F : Type) := Vector (CleanupEntry F) entriesSize

namespace CleanupEntries

def AllInvalid (entries : CleanupEntries F) : Prop :=
  ∀ idx : Fin entriesSize, entries[idx].valid = 0

theorem allInvalid_default :
    AllInvalid (Vector.replicate entriesSize (.default : CleanupEntry F)) := by
  simp [AllInvalid, CleanupEntry.default]

def Full (entries : CleanupEntries F) : Prop :=
  ∀ idx : Fin entriesSize, entries[idx].valid ≠ 0

instance (entries : CleanupEntries F) : Decidable entries.Full :=
  inferInstanceAs (Decidable (∀ _ : Fin entriesSize, _))

def findNextEmtpyEntry (entries : CleanupEntries F) :
    Except PanicMessage (Fin entriesSize) :=
  match (List.finRange entriesSize).find? fun idx => entries[idx].valid == 0 with
  | some idx => .ok idx
  | none => .error "Object count exceeded\n"

/-- Returns the index of the slot taken.  The table is returned on the panic
path too, since the panic handler goes on to use it. -/
def registerCleanup (entries : CleanupEntries F) (cleanupFn : F)
    (cleanupArg : Ptr) : Except PanicMessage Nat × CleanupEntries F :=
  match entries.findNextEmtpyEntry with
  | .ok idx => (.ok idx, entries.set idx (.new cleanupFn cleanupArg))
  | .error message => (.error message, entries)

def invalidate (entries : CleanupEntries F) (idx : Fin entriesSize) :
    CleanupEntries F :=
  entries.set idx { entries[idx] with valid := 0 }

def deregisterCleanup (entries : CleanupEntries F) (idx : Nat) :
    Except PanicMessage Unit × CleanupEntries F :=
  if inRange : idx < entriesSize then
    (.ok (), entries.invalidate ⟨idx, inRange⟩)
  else
    (.error s!"index out of bounds: the len is 64 but the index is {idx}",
      entries)

def cleanupLoop (entries : CleanupEntries F) :
    List (Fin entriesSize) → List (CleanupCall F) × CleanupEntries F
  | [] => ([], entries)
  | idx :: rest =>
      let (calls, final) := cleanupLoop (entries.invalidate idx) rest
      (entries[idx].cleanup ++ calls, final)

def cleanupAll (entries : CleanupEntries F) :
    List (CleanupCall F) × CleanupEntries F :=
  entries.cleanupLoop (List.finRange entriesSize)

end CleanupEntries

structure Handle (F : Type) where
  idx : Nat
  cleanupFn : F
  cleanupArg : Ptr
deriving DecidableEq

def Handle.call (handle : Handle F) : CleanupCall F :=
  { cleanupFn := handle.cleanupFn, cleanupArg := handle.cleanupArg }

namespace CleanupEntries

/-- The table is in step with the handles that are live: each owns a slot of
its own that holds its function and argument, and no other slot is valid. -/
structure Tracks (entries : CleanupEntries F) (live : List (Handle F)) :
    Prop where
  nodup : (live.map Handle.idx).Nodup
  holds : ∀ handle ∈ live, ∃ inRange : handle.idx < entriesSize,
    entries[handle.idx].valid ≠ 0 ∧
      entries[handle.idx].cleanupFn = some handle.cleanupFn ∧
        entries[handle.idx].cleanupArg = handle.cleanupArg
  free : ∀ idx : Fin entriesSize, (∀ handle ∈ live, handle.idx ≠ idx) →
    entries[idx].valid = 0

variable {entries : CleanupEntries F} {live : List (Handle F)}

@[simp] theorem valid_invalidate_self (entries : CleanupEntries F)
    (idx : Fin entriesSize) : (entries.invalidate idx)[idx].valid = 0 := by
  simp [invalidate]

theorem getElem_invalidate_of_ne (entries : CleanupEntries F)
    {idx : Fin entriesSize} {other : Nat} (inRange : other < entriesSize)
    (ne : other ≠ idx) : (entries.invalidate idx)[other] = entries[other] := by
  simp [invalidate, Ne.symm ne]

namespace Tracks

theorem empty (invalid : entries.AllInvalid) : Tracks entries [] where
  nodup := List.nodup_nil
  holds := by simp
  free := fun idx _ => invalid idx

theorem perm {other : List (Handle F)} (tracks : Tracks entries live)
    (same : live.Perm other) : Tracks entries other where
  nodup := (same.map Handle.idx).nodup_iff.mp tracks.nodup
  holds := fun handle member => tracks.holds handle (same.mem_iff.mpr member)
  free := fun idx unowned =>
    tracks.free idx fun handle member =>
      unowned handle (same.mem_iff.mp member)

theorem idx_lt (tracks : Tracks entries live) {handle : Handle F}
    (member : handle ∈ live) : handle.idx < entriesSize :=
  (tracks.holds handle member).1

theorem valid_eq_zero_iff (tracks : Tracks entries live)
    (idx : Fin entriesSize) :
    entries[idx].valid = 0 ↔ ∀ handle ∈ live, handle.idx ≠ idx := by
  constructor
  · intro invalid handle member same
    obtain ⟨inRange, valid, _⟩ := tracks.holds handle member
    simp only [same] at valid
    exact valid invalid
  · exact tracks.free idx

end Tracks

theorem findNextEmtpyEntry_ok {idx : Fin entriesSize}
    (found : entries.findNextEmtpyEntry = .ok idx) :
    entries[idx].valid = 0 := by
  unfold findNextEmtpyEntry at found
  split at found
  · rename_i candidate search
    obtain rfl := Except.ok.inj found
    simpa using List.find?_some search
  · contradiction

theorem findNextEmtpyEntry_error_iff :
    (∃ message, entries.findNextEmtpyEntry = .error message) ↔
      entries.Full := by
  unfold findNextEmtpyEntry
  split
  · rename_i idx search
    have invalid : entries[idx].valid = 0 := by
      simpa using List.find?_some search
    simp only [reduceCtorEq, exists_false, false_iff]
    exact fun valid => valid idx invalid
  · rename_i search
    have valid := List.find?_eq_none.mp search
    simpa [Full] using fun idx => valid idx (List.mem_finRange idx)

theorem registerCleanup_error {cleanupFn : F} {cleanupArg : Ptr}
    {message : PanicMessage}
    (failed : (entries.registerCleanup cleanupFn cleanupArg).1 =
      .error message) :
    (entries.registerCleanup cleanupFn cleanupArg).2 = entries := by
  unfold registerCleanup at failed ⊢
  split
  · rename_i idx found
    simp [found] at failed
  · rfl

theorem registerCleanup_error_iff (cleanupFn : F) (cleanupArg : Ptr) :
    (∃ message,
      (entries.registerCleanup cleanupFn cleanupArg).1 = .error message) ↔
      entries.Full := by
  rw [← findNextEmtpyEntry_error_iff]
  unfold registerCleanup
  split <;> rename_i found <;> simp [found]

namespace Tracks

theorem register (tracks : Tracks entries live) {cleanupFn : F}
    {cleanupArg : Ptr} {idx : Nat} {next : CleanupEntries F}
    (registered : entries.registerCleanup cleanupFn cleanupArg =
      (.ok idx, next)) :
    Tracks next ({ idx, cleanupFn, cleanupArg } :: live) := by
  unfold registerCleanup at registered
  split at registered
  · rename_i slot found
    simp only [Prod.mk.injEq, Except.ok.injEq] at registered
    obtain ⟨rfl, rfl⟩ := registered
    have unowned :=
      (tracks.valid_eq_zero_iff slot).mp (findNextEmtpyEntry_ok found)
    constructor
    · rw [List.map_cons, List.nodup_cons]
      refine ⟨?_, tracks.nodup⟩
      intro taken
      obtain ⟨handle, member, same⟩ := List.mem_map.mp taken
      exact unowned handle member same
    · intro handle member
      rcases List.mem_cons.mp member with rfl | older
      · exact ⟨slot.isLt, by simp [CleanupEntry.new]⟩
      · obtain ⟨inRange, held⟩ := tracks.holds handle older
        refine ⟨inRange, ?_⟩
        rwa [Vector.getElem_set_ne _ _ (Ne.symm (unowned handle older))]
    · intro other unclaimed
      have ne := unclaimed _ List.mem_cons_self
      have invalid := tracks.free other fun handle member =>
        unclaimed handle (List.mem_cons_of_mem _ member)
      simpa [Vector.getElem_set, ne] using invalid
  · simp at registered

theorem register_error_iff (tracks : Tracks entries live) (cleanupFn : F)
    (cleanupArg : Ptr) :
    (∃ message,
      (entries.registerCleanup cleanupFn cleanupArg).1 = .error message) ↔
      ∀ idx : Fin entriesSize, ∃ handle ∈ live, handle.idx = idx := by
  rw [registerCleanup_error_iff]
  apply forall_congr'
  intro idx
  rw [Ne, tracks.valid_eq_zero_iff]
  push Not
  rfl

theorem invalidate (tracks : Tracks entries live) (idx : Fin entriesSize) :
    Tracks (entries.invalidate idx)
      (live.filter fun handle => handle.idx ≠ idx) where
  nodup := tracks.nodup.sublist (List.filter_sublist.map Handle.idx)
  holds := by
    intro handle member
    obtain ⟨older, ne⟩ := List.mem_filter.mp member
    obtain ⟨inRange, held⟩ := tracks.holds handle older
    refine ⟨inRange, ?_⟩
    rwa [getElem_invalidate_of_ne _ inRange (by simpa using ne)]
  free := by
    intro other unowned
    by_cases same : other = idx
    · subst same
      exact valid_invalidate_self entries other
    · have ne : (other : Nat) ≠ idx := fun equal => same (Fin.ext equal)
      have unchanged := getElem_invalidate_of_ne entries other.isLt ne
      simp only [Fin.getElem_fin, unchanged]
      refine tracks.free other fun handle member equal => ?_
      exact unowned handle
        (List.mem_filter.mpr ⟨member, by simp [equal, ne]⟩) equal

theorem deregister {handle : Handle F}
    (tracks : Tracks entries (handle :: live)) :
    ∃ next, entries.deregisterCleanup handle.idx = (.ok (), next) ∧
      Tracks next live := by
  have inRange := tracks.idx_lt List.mem_cons_self
  refine ⟨_, by rw [deregisterCleanup, dif_pos inRange], ?_⟩
  have rest := tracks.invalidate ⟨handle.idx, inRange⟩
  have distinct := List.nodup_cons.mp tracks.nodup
  rw [List.filter_cons_of_neg (by simp), List.filter_eq_self.mpr] at rest
  · exact rest
  · intro other member
    have ne : other.idx ≠ handle.idx := fun same =>
      distinct.1 (List.mem_map.mpr ⟨other, member, same⟩)
    simpa using ne

end Tracks

private theorem filter_owner_eq {live : List (Handle F)} {handle : Handle F}
    (nodup : (live.map Handle.idx).Nodup) (member : handle ∈ live) :
    live.filter (fun other => other.idx = handle.idx) = [handle] := by
  induction live with
  | nil => simp at member
  | cons first rest induction =>
      rw [List.map_cons, List.nodup_cons] at nodup
      obtain ⟨fresh, nodup⟩ := nodup
      rcases List.mem_cons.mp member with rfl | older
      · rw [List.filter_cons_of_pos (by simp), List.filter_eq_nil_iff.mpr]
        intro other otherMember same
        exact fresh (List.mem_map.mpr
          ⟨other, otherMember, by simpa using same⟩)
      · have ne : first.idx ≠ handle.idx := fun same =>
          fresh (List.mem_map.mpr ⟨handle, older, same.symm⟩)
        rw [List.filter_cons_of_neg (by simpa using ne),
          induction nodup older]

theorem Tracks.cleanup_eq (tracks : Tracks entries live)
    (idx : Fin entriesSize) :
    entries[idx].cleanup =
      (live.filter fun handle => handle.idx = (idx : Nat)).map
        Handle.call := by
  by_cases owned : ∃ handle ∈ live, handle.idx = idx
  · obtain ⟨handle, member, same⟩ := owned
    obtain ⟨inRange, valid, fn, arg⟩ := tracks.holds handle member
    simp only [same] at valid fn arg
    have owner := filter_owner_eq tracks.nodup member
    rw [same] at owner
    rw [owner]
    simp [CleanupEntry.cleanup, valid, fn, arg, Handle.call]
  · have unowned : ∀ handle ∈ live, handle.idx ≠ idx := fun handle member same =>
      owned ⟨handle, member, same⟩
    have invalid := tracks.free idx unowned
    rw [List.filter_eq_nil_iff.mpr (by simpa using unowned)]
    simp [CleanupEntry.cleanup, show entries[(idx : Nat)].valid = 0 from invalid]

/-- The loop of `cleanup_all` over any remaining slots, by induction on them:
what was called together with what is still live accounts for every handle. -/
theorem Tracks.cleanupLoop (tracks : Tracks entries live)
    (slots : List (Fin entriesSize)) :
    ∃ remaining, Tracks (entries.cleanupLoop slots).2 remaining ∧
      (live.map Handle.call).Perm
        ((entries.cleanupLoop slots).1 ++ remaining.map Handle.call) ∧
      ∀ handle ∈ remaining, handle ∈ live ∧
        ∀ idx ∈ slots, handle.idx ≠ idx := by
  induction slots generalizing entries live with
  | nil => exact ⟨live, tracks, by simp [CleanupEntries.cleanupLoop]⟩
  | cons idx rest induction =>
      obtain ⟨remaining, remainingTracks, accounted, kept⟩ :=
        induction (tracks.invalidate idx)
      refine ⟨remaining, remainingTracks, ?_, ?_⟩
      · have split := List.filter_append_perm
          (fun handle : Handle F => decide (handle.idx = idx)) live
        simp only [CleanupEntries.cleanupLoop, List.append_assoc]
        rw [tracks.cleanup_eq idx]
        refine (split.symm.map Handle.call).trans ?_
        rw [List.map_append]
        refine List.Perm.append_left _ ?_
        simpa using accounted
      · intro handle member
        obtain ⟨survives, elsewhere⟩ := kept handle member
        obtain ⟨older, ne⟩ := List.mem_filter.mp survives
        refine ⟨older, ?_⟩
        intro other otherMember
        rcases List.mem_cons.mp otherMember with rfl | later
        · simpa using ne
        · exact elsewhere other later

theorem Tracks.cleanupAll (tracks : Tracks entries live) :
    (live.map Handle.call).Perm entries.cleanupAll.1 ∧
      Tracks entries.cleanupAll.2 [] := by
  obtain ⟨remaining, remainingTracks, accounted, kept⟩ :=
    tracks.cleanupLoop (List.finRange entriesSize)
  have exhausted : remaining = [] := by
    apply List.eq_nil_iff_forall_not_mem.mpr
    intro handle member
    have inRange := remainingTracks.idx_lt member
    exact (kept handle member).2 ⟨handle.idx, inRange⟩
      (List.mem_finRange _) rfl
  subst exhausted
  rw [List.map_nil, List.append_nil] at accounted
  exact ⟨accounted, remainingTracks⟩

end CleanupEntries

/-! Runs of the registry.  The table evolves together with the handles that its
callers hold; a handle is given up at most once, in any order. -/

structure Registry (F : Type) where
  entries : CleanupEntries F
  live : List (Handle F)

inductive RegistryOp (F : Type)
  | register (cleanupFn : F) (cleanupArg : Ptr)
  | deregister (position : Nat)
  | cleanupAll

namespace Registry

/-- A panicking registration leaves its caller without a handle.  After
`cleanup_all` no drop handler runs any more, so no handle is live. -/
def step (registry : Registry F) : RegistryOp F → Option (Registry F)
  | .register cleanupFn cleanupArg =>
      match registry.entries.registerCleanup cleanupFn cleanupArg with
      | (.ok idx, entries) =>
          some { entries, live := { idx, cleanupFn, cleanupArg } :: registry.live }
      | (.error _, entries) => some { registry with entries }
  | .deregister position =>
      match registry.live[position]? with
      | none => none
      | some handle =>
          let live := registry.live.eraseIdx position
          some { entries := (registry.entries.deregisterCleanup handle.idx).2, live }
  | .cleanupAll => some { entries := registry.entries.cleanupAll.2, live := [] }

theorem step_tracks {registry next : Registry F} {op : RegistryOp F}
    (tracks : registry.entries.Tracks registry.live)
    (taken : registry.step op = some next) :
    next.entries.Tracks next.live := by
  cases op with
  | register cleanupFn cleanupArg =>
      simp only [step] at taken
      split at taken
      · rename_i idx entries registered
        obtain rfl := Option.some.inj taken
        exact tracks.register registered
      · rename_i message entries failed
        obtain rfl := Option.some.inj taken
        have unchanged := CleanupEntries.registerCleanup_error
          (congrArg Prod.fst failed)
        rw [failed] at unchanged
        obtain rfl : entries = registry.entries := unchanged
        exact tracks
  | deregister position =>
      simp only [step] at taken
      split at taken
      · contradiction
      · rename_i handle found
        obtain ⟨inRange, rfl⟩ := List.getElem?_eq_some_iff.mp found
        obtain rfl := Option.some.inj taken
        have reordered := tracks.perm
          (List.getElem_cons_eraseIdx_perm inRange).symm
        obtain ⟨entries, deregistered, remaining⟩ := reordered.deregister
        rw [deregistered]
        exact remaining
  | cleanupAll =>
      obtain rfl := Option.some.inj taken
      exact tracks.cleanupAll.2

theorem run_tracks {entries : CleanupEntries F} {ops : List (RegistryOp F)}
    {final : Registry F}
    (invalid : ∀ idx : Fin entriesSize, entries[idx].valid = 0)
    (run : Machine.exec step { entries, live := [] } ops = some final) :
    final.entries.Tracks final.live :=
  Machine.exec_invariant (fun registry => registry.entries.Tracks registry.live)
    step_tracks (.empty invalid) run

/-- In every state that registrations, deregistrations in any order and
cleanups can reach, the table holds exactly the live handles; registration
panics exactly when they fill it; and `cleanup_all` runs each of them once. -/
theorem reachable_registry {entries : CleanupEntries F}
    {ops : List (RegistryOp F)} {final : Registry F}
    (invalid : ∀ idx : Fin entriesSize, entries[idx].valid = 0)
    (run : Machine.exec step { entries, live := [] } ops = some final) :
    ((final.live.map Handle.idx).Nodup ∧
      (∀ handle ∈ final.live, ∃ inRange : handle.idx < entriesSize,
        final.entries[handle.idx].valid ≠ 0 ∧
          final.entries[handle.idx].cleanupFn = some handle.cleanupFn ∧
            final.entries[handle.idx].cleanupArg = handle.cleanupArg) ∧
      (∀ idx : Fin entriesSize, (∀ handle ∈ final.live, handle.idx ≠ idx) →
        final.entries[idx].valid = 0)) ∧
    (∀ cleanupFn cleanupArg,
      ((∃ message, (final.entries.registerCleanup cleanupFn cleanupArg).1 =
          .error message) ↔
        ∀ idx : Fin entriesSize, ∃ handle ∈ final.live, handle.idx = idx) ∧
      ∀ message, (final.entries.registerCleanup cleanupFn cleanupArg).1 =
          .error message →
        (final.entries.registerCleanup cleanupFn cleanupArg).2 =
          final.entries) ∧
    (final.entries.cleanupAll.1.Perm (final.live.map Handle.call) ∧
      (∀ idx : Fin entriesSize, final.entries.cleanupAll.2[idx].valid = 0) ∧
      final.entries.cleanupAll.2.cleanupAll.1 = []) := by
  have tracks := run_tracks invalid run
  refine ⟨⟨tracks.nodup, tracks.holds, tracks.free⟩, ?_, ?_⟩
  · intro cleanupFn cleanupArg
    exact ⟨tracks.register_error_iff cleanupFn cleanupArg,
      fun _ failed => CleanupEntries.registerCleanup_error failed⟩
  · obtain ⟨called, cleared⟩ := tracks.cleanupAll
    refine ⟨called.symm, fun idx => cleared.free idx (by simp), ?_⟩
    exact (List.map_nil ▸ cleared.cleanupAll.1).nil_eq.symm

theorem reachable_registry_out_of_order :
    ∃ final : Registry Nat,
      Machine.exec step { entries := Vector.replicate _ .default, live := [] }
          [.register 0 16, .register 1 32, .deregister 1] = some final ∧
        final.entries.cleanupAll.1.Perm
          [{ cleanupFn := 1, cleanupArg := 32 }] := by
  obtain ⟨final, run, live⟩ : ∃ final : Registry Nat,
      Machine.exec step { entries := Vector.replicate _ .default, live := [] }
          [.register 0 16, .register 1 32, .deregister 1] = some final ∧
        final.live.map Handle.call = [{ cleanupFn := 1, cleanupArg := 32 }] :=
    ⟨_, rfl, rfl⟩
  have called :=
    (reachable_registry (by simp [CleanupEntry.default]) run).2.2.1
  exact ⟨final, run, live ▸ called⟩

end Registry

end Rex
