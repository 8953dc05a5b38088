import Rex.Bmc.Staged

namespace Rex.Bmc

open Bytes Effect Program Rex.Frame Machine

/-! What the programs note, however they end, and the order in which they take
and release the locks of the cache. -/

def Appends (Good : List Note → Prop) (state final : State) : Prop :=
  ∃ later, final.notes = state.notes ++ later ∧ Good later

theorem Appends.fresh {Good : List Note → Prop} {state final : State}
    (appends : Appends Good state final) (start : state.notes = []) :
    Good final.notes := by
  obtain ⟨later, noted, good⟩ := appends
  rwa [noted, start, List.nil_append]

structure Composes (Good : List Note → Prop) : Prop where
  nil : Good []
  append : ∀ {first second}, Good first → Good second → Good (first ++ second)

theorem keepsNotes_editFrame (edit : Frame → Frame) :
    Keeps State.notes (editFrame edit) :=
  keeps_modify fun _ => rfl

theorem keepsNotes_editHeader (start : Nat) (header : Header) (edit : Frame → Frame) :
    Keeps State.notes (editHeader start header edit) :=
  keeps_get.bind fun _ => (keepsNotes_editFrame edit).ite (keeps_halt _)

theorem keepsNotes_bump (idx : Fin 1) (count : BmcStats → BmcStats) :
    Keeps State.notes (Program.bump idx count) :=
  keeps_modify fun _ => rfl

theorem keepsNotes_setKey (keyRef : Fin maxKeyInPacket) (key : MemcachedKey) :
    Keeps State.notes (setKey keyRef key) :=
  keeps_modify fun _ => rfl

theorem keepsNotes_setEntry (slot : Slot) (entry : BmcCacheEntry) :
    Keeps State.notes
      (Effect.modify fun state => state.setEntry slot entry : Program Unit) :=
  keeps_modify fun _ => rfl

theorem keepsNotes_storeEach (off : Nat) (bytes : List UInt8) :
    Keeps State.notes (storeEach off bytes) := by
  induction bytes generalizing off with
  | nil => exact keeps_pure ()
  | cons byte rest induction =>
      apply keeps_get.bind
      intro state
      apply Keeps.ite
      · exact (keepsNotes_editFrame _).bind fun _ => induction (off + 1)
      · exact keeps_halt _

theorem keepsNotes_verifyKey (slot : Slot) (key : MemcachedKey) (stats : Fin 1) :
    Keeps State.notes (verifyKey slot key stats) := by
  apply keeps_get.bind
  intro state
  apply Keeps.ite
  · apply (keeps_pure _).ite
    apply (keeps_demand _ _).bind
    intro entryDataKey
    exact (keeps_pure _).ite ((keepsNotes_bump _ _).bind fun _ => keeps_pure _)
  · exact keeps_pure _

theorem keepsNotes_swapHeaders : Keeps State.notes swapHeaders :=
  (keepsNotes_editHeader _ _ _).bind fun _ =>
    (keepsNotes_editHeader _ _ _).bind fun _ => keepsNotes_editHeader _ _ _

theorem keepsNotes_scanKey (payload : List UInt8) (keyRef : Fin maxKeyInPacket)
    (readPktOffset : UInt8) :
    Keeps State.notes (scanKey payload keyRef readPktOffset) := by
  apply keeps_get.bind
  intro state
  apply (keepsNotes_setKey _ _).bind
  intro _
  apply (keeps_demand _ _).bind
  intro window
  apply (keepsNotes_setKey _ _).bind
  intro _
  exact (keeps_demand _ _).bind fun _ => keeps_pure _

namespace Composes

variable {Value Other : Type} {Good : List Note → Prop} (composes : Composes Good)

include composes

theorem refl (state : State) : Appends Good state state :=
  ⟨[], (List.append_nil _).symm, composes.nil⟩

theorem trans {first second third : State} (before : Appends Good first second)
    (after : Appends Good second third) : Appends Good first third := by
  obtain ⟨earlier, noted, good⟩ := before
  obtain ⟨later, noted', good'⟩ := after
  refine ⟨earlier ++ later, ?_, composes.append good good'⟩
  rw [noted', noted, List.append_assoc]

theorem quiet {program : Program Value} (keeps : Keeps State.notes program) :
    Relates (Appends Good) program := by
  intro state
  refine ⟨[], ?_, composes.nil⟩
  rw [keeps state, List.append_nil]

theorem bind {first : Program Value} {next : Value → Program Other}
    (before : Relates (Appends Good) first)
    (after : ∀ value, Relates (Appends Good) (next value)) :
    Relates (Appends Good) (first >>= next) :=
  .bind composes.trans before after

theorem after {first : Program Value} {next : Value → Program Other}
    (keeps : Keeps State.notes first)
    (rest : ∀ value, Relates (Appends Good) (next value)) :
    Relates (Appends Good) (first >>= next) :=
  composes.bind (composes.quiet keeps) rest

omit composes

theorem note {entry : Note} (good : Good [entry]) :
    Relates (Appends Good) (note entry) :=
  fun _ => ⟨[entry], rfl, good⟩

theorem guarded {Inside : List Note → Prop} {slot : Slot}
    (enclosed : ∀ {inside}, Inside inside →
      Good (.lock slot :: (inside ++ [.unlock slot])))
    {body : Program Value} (noted : Relates (Appends Inside) body) :
    Relates (Appends Good) (guarded slot body) := by
  intro state
  obtain ⟨inside, appended, good⟩ := noted (state.note (.lock slot))
  refine ⟨.lock slot :: (inside ++ [.unlock slot]), ?_, enclosed good⟩
  show (body.run (state.note (.lock slot))).2.notes ++ [.unlock slot] = _
  rw [appended, State.notes_note]
  simp

include composes

theorem writeRecord (payloadIndex : Nat) {slot : Slot} {entry : BmcCacheEntry}
    (copied : Good [.copied slot entry.record]) :
    Relates (Appends Good) (writeRecord payloadIndex slot entry) := by
  apply composes.after keeps_get
  intro state
  apply composes.after (keeps_demand _ _)
  intro payload
  cases stored : slice entry.data 0 entry.len with
  | none =>
      simp only [sliceOf, stored, demand_none]
      exact fun _ => composes.refl _
  | some record =>
      obtain rfl : record = entry.record := slice_some stored
      simp only [sliceOf, stored, demand_some, pure_bind_eq]
      apply composes.after (keeps_demand _ _)
      intro _
      apply composes.after (keepsNotes_editFrame _)
      intro _
      exact composes.bind (note copied) fun _ =>
        composes.quiet (keepsNotes_storeEach _ _)

theorem copyCacheData (kernel : Kernel) (payloadIndex : Nat) {slot : Slot}
    {state : State} (copied : Good [.copied slot (state.mapKcache slot).record]) :
    Appends Good state ((copyCacheData kernel payloadIndex slot).run state).2 := by
  simp only [Bmc.copyCacheData, lookupStats, bpfMapLookupElem_eq_some Nat.one_pos,
    demand_some, run_pure_bind, bump, run_modify_bind, run_get_bind,
    State.mapKcache_bump, State.dataSlice_bump]
  split
  · cases kernel.printk with
    | error code => exact composes.refl state
    | ok printed => exact composes.refl state
  · refine composes.after (keepsNotes_editFrame _) (fun _ => ?_) _
    apply composes.after (keepsNotes_editHeader _ _ _)
    intro _
    apply composes.after (keepsNotes_editHeader _ _ _)
    intro _
    exact composes.bind (composes.writeRecord payloadIndex copied) fun _ =>
      composes.quiet (keeps_pure _)

end Composes

theorem copyCacheData_notes (kernel : Kernel) (payloadIndex : Nat) (slot : Slot)
    (state : State) :
    Appends (fun notes => ∀ entry ∈ notes,
        entry = .copied slot (state.mapKcache slot).record) state
      ((copyCacheData kernel payloadIndex slot).run state).2 := by
  have composes : Composes fun notes => ∀ entry ∈ notes,
      entry = .copied slot (state.mapKcache slot).record :=
    ⟨List.forall_mem_nil _, fun first second =>
      List.forall_mem_append.mpr ⟨first, second⟩⟩
  exact composes.copyCacheData kernel payloadIndex (List.forall_mem_singleton.mpr rfl)

/-! What the stages note.  Only a reply notes more than turns of the key loop,
lookups, and locks that are released at once. -/

structure Admits (Good : List Note → Prop) : Prop extends Composes Good where
  iteration : Good [.iteration]
  lookup : ∀ slot, Good [.lookup slot]
  locked : ∀ slot, Good [.lock slot, .unlock slot]

namespace Admits

variable {Value : Type} {Good : List Note → Prop} (admits : Admits Good)

include admits

theorem lookupEntry (hash : UInt32) (code : Int32) :
    Relates (Appends Good) (lookupEntry hash code) :=
  admits.after (keeps_demand _ _) fun slot =>
    admits.bind (Composes.note (admits.lookup slot)) fun _ =>
      admits.quiet (keeps_pure _)

theorem guarded {slot : Slot} {body : Program Value}
    (quiet : Keeps State.notes body) :
    Relates (Appends Good) (guarded slot body) := by
  have inside : Relates (Appends (· = [])) body := by
    intro state
    exact ⟨[], by rw [quiet state, List.append_nil], rfl⟩
  refine Composes.guarded ?_ inside
  intro inside none
  subst none
  exact admits.locked slot

theorem probe (name : List UInt8) (keyRef : Fin maxKeyInPacket) (stats : Fin 1)
    (keyCount : Nat) : Relates (Appends Good) (probe name keyRef stats keyCount) := by
  apply admits.bind (admits.lookupEntry _ _)
  intro slot
  apply admits.after keeps_get
  intro state
  apply admits.bind (admits.guarded (keeps_pure _))
  intro entryValid
  apply admits.quiet
  exact ((keepsNotes_setKey _ _).bind fun _ => keeps_pure _).ite
    ((keepsNotes_bump _ _).bind fun _ => keeps_pure _)

theorem runRx (kernel : Kernel) : Relates (Appends Good) (Stage.runRx kernel) := by
  have ends : Keeps State.notes (pure (.inr xdpPass) : Program Onward) :=
    keeps_pure _
  apply admits.quiet
  refine (keepsNotes_editHeader _ _ _).bind fun _ => keeps_get.bind fun state =>
    .ite ?_ (.ite ?_ ends)
  · exact (keepsNotes_editHeader _ _ _).bind fun _ => keeps_get.bind fun _ =>
      (keeps_demand _ _).bind fun _ => ends.ite (keeps_pure _)
  · refine (keepsNotes_editHeader _ _ _).bind fun _ => (keeps_demand _ _).bind fun _ =>
      ends.ite (ends.ite ?_)
    exact (keeps_demand _ _).bind fun _ => (keepsNotes_bump _ _).bind fun _ =>
      keeps_get.bind fun _ => (keeps_demand _ _).bind fun _ => keeps_pure _

theorem runScan (kernel : Kernel) (payload : List UInt8) (payloadIndex : Nat)
    (stats : Fin 1) (pctx : ParsingContext) :
    Relates (Appends Good) (Stage.runScan kernel payload payloadIndex stats pctx) := by
  apply admits.bind (Composes.note admits.iteration)
  intro _
  apply admits.after (keeps_demand _ _)
  intro keyRef
  apply admits.after (keepsNotes_scanKey _ _ _)
  rintro ⟨name, delimiter⟩
  apply (admits.quiet (keeps_pure _)).ite
  apply admits.bind (admits.probe _ _ _ _)
  intro keyCount
  apply admits.quiet
  exact ((keepsNotes_swapHeaders.bind fun _ => keeps_pure _).ite (keeps_pure _)).ite
    (keeps_pure _)

theorem runCheck (request : List UInt8) (rest : List (List UInt8)) :
    Relates (Appends Good) (Stage.runCheck request rest) := by
  apply admits.after (keeps_demand _ _)
  intro stats
  apply admits.after (keepsNotes_bump _ _)
  intro _
  apply admits.bind (admits.lookupEntry _ _)
  intro slot
  apply admits.quiet
  exact keeps_get.bind fun _ =>
    ((keepsNotes_bump _ _).bind fun _ => keeps_pure _).ite (keeps_pure _)

theorem runTx (pagedLen : Nat) : Relates (Appends Good) (Stage.runTx pagedLen) := by
  have ends : Keeps State.notes (pure (.inr tcActOk) : Program Onward) :=
    keeps_pure _
  apply admits.quiet
  refine keeps_get.bind fun state => ends.ite ?_
  refine (keepsNotes_editHeader _ _ _).bind fun _ => ends.ite ?_
  refine (keepsNotes_editHeader _ _ _).bind fun _ => ends.ite ?_
  exact (keeps_demand _ _).bind fun _ => (keepsNotes_bump _ _).bind fun _ => keeps_pure _

theorem bmcUpdateCache (skbLen : Nat) (payload : List UInt8) (stats : Fin 1) :
    Relates (Appends Good) (bmcUpdateCache skbLen payload stats) := by
  apply admits.after (keeps_demand _ _)
  intro hash
  apply admits.bind (admits.lookupEntry _ _)
  intro slot
  apply admits.guarded
  apply keeps_get.bind
  intro state
  apply (keeps_pure _).ite
  apply (keepsNotes_setEntry _ _).bind
  intro _
  exact ((keepsNotes_bump _ _).bind fun _ => keeps_pure _).ite (keeps_pure _)

theorem stage (stage : Stage)
    (reply : ∀ kernel payloadIndex pctx stats,
      stage = .reply kernel payloadIndex pctx stats →
        Relates (Appends Good) (writePktReply kernel payloadIndex pctx stats)) :
    Relates (Appends Good) stage.run := by
  cases stage with
  | rx kernel => exact admits.runRx kernel
  | scan kernel payload payloadIndex stats pctx => exact admits.runScan _ _ _ _ _
  | reply kernel payloadIndex pctx stats =>
      exact admits.bind (reply _ _ _ _ rfl) fun _ => admits.quiet (keeps_pure _)
  | check request rest => exact admits.runCheck _ _
  | clear slot rest =>
      exact admits.bind (admits.guarded (keeps_modify fun _ => rfl)) fun _ =>
        admits.quiet (keeps_pure _)
  | tx pagedLen => exact admits.runTx _
  | update skbLen payload stats =>
      exact admits.bind (admits.bmcUpdateCache _ _ _) fun _ =>
        admits.quiet (keeps_pure _)

end Admits

/-! The lock that is held, as the notes go on.  There is none for notes that take
a lock while one is held, release another one than the one that is held, or copy
a record of a slot that is not locked. -/

def holding : Option Slot → List Note → Option (Option Slot)
  | held, [] => some held
  | none, .lock slot :: rest => holding (some slot) rest
  | some held, .unlock slot :: rest =>
      if slot = held then holding none rest else none
  | some held, .copied slot _ :: rest =>
      if slot = held then holding (some held) rest else none
  | held, .iteration :: rest | held, .lookup _ :: rest | held, .reply :: rest =>
      holding held rest
  | some _, .lock _ :: _ | none, .unlock _ :: _ | none, .copied _ _ :: _ => none

theorem holding_append (held : Option Slot) (first second : List Note) :
    holding held (first ++ second) =
      (holding held first).bind fun between => holding between second := by
  induction first generalizing held with
  | nil => rfl
  | cons entry rest induction =>
      cases entry with
      | iteration => exact induction held
      | lookup slot => exact induction held
      | reply => exact induction held
      | lock slot =>
          cases held with
          | none => exact induction (some slot)
          | some other => rfl
      | unlock slot =>
          cases held with
          | none => rfl
          | some other =>
              simp only [List.cons_append, holding]
              split
              · exact induction none
              · rfl
      | copied slot record =>
          cases held with
          | none => rfl
          | some other =>
              simp only [List.cons_append, holding]
              split
              · exact induction (some other)
              · rfl

def Steady (held : Option Slot) (notes : List Note) : Prop :=
  holding held notes = some held

theorem composes_steady (held : Option Slot) : Composes (Steady held) where
  nil := rfl
  append := by
    intro first second before after
    rw [Steady, holding_append, before, Option.bind_some, after]

theorem steady_locked {slot : Slot} {inside : List Note}
    (steady : Steady (some slot) inside) :
    Steady none (.lock slot :: (inside ++ [.unlock slot])) := by
  show holding (some slot) (inside ++ [.unlock slot]) = some none
  rw [holding_append, steady, Option.bind_some, holding, if_pos rfl]
  rfl

theorem admits_steady : Admits (Steady none) where
  toComposes := composes_steady none
  iteration := rfl
  lookup _ := rfl
  locked slot := steady_locked (composes_steady (some slot)).nil

theorem steady_writePktReply (kernel : Kernel) (payloadIndex : Nat)
    (pctx : ParsingContext) (stats : Fin 1) :
    Relates (Appends (Steady none))
      (writePktReply kernel payloadIndex pctx stats) := by
  have free := admits_steady
  apply free.bind (Composes.note (rfl : holding none [.reply] = some none))
  intro _
  apply free.after (keeps_demand _ _)
  intro keyRef
  apply free.after keeps_get
  intro state
  apply free.bind (free.lookupEntry _ _)
  intro slot
  have locked := composes_steady (some slot)
  apply Composes.guarded steady_locked
  apply locked.after (keepsNotes_verifyKey _ _ _)
  intro cacheHit
  apply Relates.ite
  · exact fun state => locked.copyCacheData kernel payloadIndex (if_pos rfl)
  · exact locked.after (keepsNotes_bump _ _) fun _ => locked.quiet (keeps_pure _)

theorem steady_stage (stage : Stage) : Relates (Appends (Steady none)) stage.run :=
  admits_steady.stage stage fun _ _ _ _ _ => steady_writePktReply _ _ _ _

/-! Whole programs. -/

theorem steady_keyLoop (kernel : Kernel) (payload : List UInt8)
    (payloadIndex : Nat) (stats : Fin 1) (fuel : Nat) (pctx : ParsingContext) :
    Relates (Appends (Steady none))
      (keyLoop kernel payload payloadIndex stats fuel pctx) := by
  induction fuel generalizing kernel payload payloadIndex stats pctx with
  | zero => exact admits_steady.quiet (keeps_halt _)
  | succ fuel induction =>
      rw [keyLoop_succ]
      apply admits_steady.bind (steady_stage (.scan ..))
      intro onward
      cases onward with
      | inr code => exact admits_steady.quiet (keeps_pure _)
      | inl next =>
          cases next with
          | scan kernel payload payloadIndex stats pctx => exact induction _ _ _ _ _
          | reply kernel payloadIndex pctx stats => exact steady_writePktReply _ _ _ _
          | rx kernel => exact admits_steady.quiet (keeps_halt _)
          | check request rest => exact admits_steady.quiet (keeps_halt _)
          | clear slot rest => exact admits_steady.quiet (keeps_halt _)
          | tx pagedLen => exact admits_steady.quiet (keeps_halt _)
          | update skbLen payload stats => exact admits_steady.quiet (keeps_halt _)

theorem steady_invalidateFrom (requests : List (List UInt8)) :
    Relates (Appends (Steady none)) (invalidateFrom requests) := by
  have free := admits_steady
  refine free.bind ?_ fun _ => free.quiet (keeps_pure _)
  induction requests with
  | nil => exact free.quiet (keeps_pure ())
  | cons request rest induction =>
      refine free.bind ?_ fun _ => induction
      apply free.after (keeps_demand _ _)
      intro stats
      apply free.after (keepsNotes_bump _ _)
      intro _
      apply free.bind (free.lookupEntry _ _)
      intro slot
      apply free.after keeps_get
      intro state
      apply Relates.ite
      · exact free.after (keepsNotes_bump _ _) fun _ =>
          free.guarded (keepsNotes_setEntry _ _)
      · exact free.quiet (keeps_pure ())

theorem steady_afterCheck (onward : Onward) :
    Relates (Appends (Steady none)) (afterCheck onward) := by
  have free := admits_steady
  cases onward with
  | inr code => exact free.quiet (keeps_pure _)
  | inl next =>
      cases next with
      | check request rest => exact steady_invalidateFrom _
      | clear slot rest =>
          exact free.bind (free.guarded (keeps_modify fun _ => rfl)) fun _ =>
            steady_invalidateFrom _
      | rx kernel => exact free.quiet (keeps_halt _)
      | scan kernel payload payloadIndex stats pctx => exact free.quiet (keeps_halt _)
      | reply kernel payloadIndex pctx stats => exact free.quiet (keeps_halt _)
      | tx pagedLen => exact free.quiet (keeps_halt _)
      | update skbLen payload stats => exact free.quiet (keeps_halt _)

theorem steady_xdpRxFilter (kernel : Kernel) (fuel : Nat) :
    Relates (Appends (Steady none)) (xdpRxFilter kernel fuel) := by
  rw [xdpRxFilter_eq]
  apply admits_steady.bind (steady_stage (.rx kernel))
  intro onward
  cases onward with
  | inr code => exact steady_afterCheck _
  | inl next =>
      cases next with
      | scan kernel payload payloadIndex stats pctx => exact steady_keyLoop _ _ _ _ _ _
      | rx kernel => exact steady_afterCheck _
      | reply kernel payloadIndex pctx stats => exact steady_afterCheck _
      | check request rest => exact steady_afterCheck _
      | clear slot rest => exact steady_afterCheck _
      | tx pagedLen => exact steady_afterCheck _
      | update skbLen payload stats => exact steady_afterCheck _

theorem steady_xdpTxFilter (pagedLen : Nat) :
    Relates (Appends (Steady none)) (xdpTxFilter pagedLen) := by
  have free := admits_steady
  rw [xdpTxFilter_eq]
  apply free.bind (steady_stage (.tx pagedLen))
  intro onward
  cases onward with
  | inr code => exact free.quiet (keeps_pure _)
  | inl next =>
      cases next with
      | update skbLen payload stats =>
          exact free.bind (free.bmcUpdateCache _ _ _) fun _ => free.quiet (keeps_pure _)
      | rx kernel => exact free.quiet (keeps_halt _)
      | scan kernel payload payloadIndex stats pctx => exact free.quiet (keeps_halt _)
      | reply kernel payloadIndex pctx stats => exact free.quiet (keeps_halt _)
      | check request rest => exact free.quiet (keeps_halt _)
      | clear slot rest => exact free.quiet (keeps_halt _)
      | tx pagedLen => exact free.quiet (keeps_halt _)

/-- Whatever frame either program is given, in whatever state of the maps, and
however it ends, it never takes the lock of a slot while it holds one, copies a
record only under the lock of its slot, and ends with no lock held. -/
theorem locks_balanced (world : World) (event : Event) :
    holding none (world.handle event).2.notes = some none := by
  cases event with
  | rx cpu frame kernel fuel =>
      exact (steady_xdpRxFilter kernel fuel (world.start cpu frame)).fresh rfl
  | tx cpu frame pagedLen =>
      exact (steady_xdpTxFilter pagedLen (world.start cpu frame)).fresh rfl

end Rex.Bmc
