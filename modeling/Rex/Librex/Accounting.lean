import Mathlib.Tactic.Abel
import Rex.Librex.Load
import Rex.Librex.Parsing

namespace Rex.Librex

open Procedure Ledger

/-! File descriptors obtained and closed by `rex_obj_load`.  The log is replayed
against the descriptors that are open; closing -1 has no effect. -/

def Syscall.effect : Syscall → Option (Event Nat)
  | .openFile ret => ret.map .acquire
  | .openStream ret => ret.map .acquire
  | .openTmp ret => ret.map .acquire
  | .close fd => fd.toNat?.map .release
  | .mapCreate _ ret => ret.map .acquire
  | .progLoadRexBase _ ret => ret.map .acquire
  | .progLoadRex _ ret => ret.map .acquire
  | .remove _ => none

variable {size : Nat}

def RexObj.owned (obj : RexObj size) : Multiset Nat :=
  ↑(obj.progFd.bind Int.toNat?).toList + ↑(mapFds obj.mapDefs) +
    ↑(progFds obj.progs)

structure RexObj.Complete (obj : RexObj size) : Prop where
  progFd : ∃ fd : Nat, obj.progFd = some (fd : Int)
  maps : ∀ entry ∈ obj.mapDefs, entry.2.mapFd.isSome
  progs : ∀ prog ∈ obj.progs, prog.progFd.isSome

theorem posts_obtain {call : Syscall} {ret : Option Nat}
    (obtains : call.effect = ret.map .acquire) (held : Multiset Nat) :
    Posts Syscall.effect [call] held (↑ret.toList + held) := by
  cases ret with
  | none =>
      simp only [Option.toList_none, Multiset.coe_nil, zero_add]
      exact posts_silent obtains held
  | some fd => exact posts_acquire obtains held

theorem posts_obtain_cons {call : Syscall} {calls : List Syscall}
    {fd : Nat} {fds : List Nat} {held : Multiset Nat}
    (obtains : call.effect = some (.acquire fd))
    (later : Posts Syscall.effect calls (fd ::ₘ held) (↑fds + fd ::ₘ held)) :
    Posts Syscall.effect (call :: calls) held (↑(fd :: fds) + held) := by
  rw [Multiset.add_cons, ← Multiset.cons_add] at later
  exact (posts_acquire obtains held).append later

theorem posts_close (fd : Int) (held : Multiset Nat) :
    Posts Syscall.effect [.close fd] (↑fd.toNat?.toList + held) held := by
  cases fd with
  | ofNat fd => exact posts_release rfl held
  | negSucc =>
      simp only [Int.toNat?, Option.toList_none, Multiset.coe_nil, zero_add]
      exact posts_silent rfl held

theorem posts_closeInt (ret : Option Nat) (held : Multiset Nat) :
    Posts Syscall.effect [.close (intFd ret)] (↑ret.toList + held) held := by
  have closed := posts_close (intFd ret) held
  cases ret <;> exact closed

theorem posts_closeAll (fds : List Nat) (held : Multiset Nat) :
    Posts Syscall.effect (closeAll fds) (↑fds + held) held := by
  have closed := posts_releaseAll
    (fun fd : Nat => (rfl : (Syscall.close fd).effect = some (.release fd)))
    fds held
  rwa [List.map_id'] at closed

theorem posts_closeOptional (fd : Option Int) (held : Multiset Nat) :
    Posts Syscall.effect (fd.map .close).toList
      (↑(fd.bind Int.toNat?).toList + held) held := by
  cases fd with
  | none => simp
  | some fd => exact posts_close fd held

/-! Destructors and the `close_fds` path close what the fields own. -/

theorem posts_destroy (obj : RexObj size) (leaked : Multiset Nat) :
    Posts Syscall.effect obj.destroy (obj.owned + leaked) leaked := by
  rw [RexObj.owned, add_assoc, add_assoc]
  exact ((posts_closeOptional obj.progFd _).append
    (posts_closeAll (mapFds obj.mapDefs) _)).append
    (posts_closeAll (progFds obj.progs) leaked)

namespace RexObj

theorem owned_eq_mapFds {obj : RexObj size} (progFd : obj.progFd = some (-1))
    (progs : ∀ prog ∈ obj.progs, prog.progFd = none) :
    obj.owned = ↑(mapFds obj.mapDefs) := by
  have closed : progFds obj.progs = [] := by
    simpa [progFds] using progs
  have invalid : Int.toNat? (-1) = none := rfl
  simp [owned, progFd, closed, invalid]

theorem owned_setProgFd {obj : RexObj size} (progFd : obj.progFd = some (-1))
    (fd : Nat) :
    ({ obj with progFd := some (fd : Int) } : RexObj size).owned =
      fd ::ₘ obj.owned := by
  have valid : Int.toNat? (fd : Int) = some fd := rfl
  have invalid : Int.toNat? (-1) = none := rfl
  simp [owned, progFd, valid, invalid]

theorem Fresh.owned {obj : RexObj size} (fresh : obj.Fresh) : obj.owned = 0 := by
  have closed : mapFds obj.mapDefs = [] := by
    simpa [mapFds] using fresh.maps
  rw [owned_eq_mapFds fresh.progFd fresh.progs, closed]
  rfl

/-! `fix_maps` owns what it creates, whether or not it gets to the end. -/

section FixMaps

variable {kernel : Kernel} {mapsShaddr mapsShoff : UInt64}

theorem fixEntries_cons_cases {idx : Nat} {mOff : UInt64} {mDef : RexMap}
    {rest final : MapDefs} {fileMap image : Vector UInt8 size}
    {calls : List Syscall} (fresh : mDef.mapFd = none)
    (ran : fixEntries kernel mapsShaddr mapsShoff idx ((mOff, mDef) :: rest)
      fileMap = .ok (status, final, image, calls)) :
    (kernel.mapCreate idx = none ∧ status = .failure ∧
        final = (mOff, mDef) :: rest ∧
        calls = [.mapCreate (mDef.mapDef.attr mDef.name) none]) ∨
      ∃ fd window restFinal restCalls,
        kernel.mapCreate idx = some fd ∧
        Window.locate size 8
          (mOff + .ofNat kptrOffset - mapsShaddr + mapsShoff).toNat =
            some window ∧
        fixEntries kernel mapsShaddr mapsShoff (idx + 1) rest
          (window.write fileMap (kptrBytes fd)) =
            .ok (status, restFinal, image, restCalls) ∧
        final = (mOff, { mDef with mapFd := some fd }) :: restFinal ∧
        calls = .mapCreate (mDef.mapDef.attr mDef.name) (some fd) ::
          restCalls := by
  unfold fixEntries at ran
  cases created : kernel.mapCreate idx with
  | none =>
      simp only [created, RexMap.create, fresh] at ran
      cases ran
      exact .inl ⟨rfl, rfl, rfl, rfl⟩
  | some fd =>
      simp only [created, RexMap.create] at ran
      split at ran
      · cases ran
      · rename_i window located
        obtain ⟨⟨_, restFinal, _, restCalls⟩, ranRest, built⟩ := bind_eq_ok.mp ran
        cases built
        exact .inr ⟨fd, window, restFinal, restCalls, rfl, located, ranRest, rfl, rfl⟩

theorem fixEntries_posts {idx : Nat} {entries final : MapDefs}
    {fileMap image : Vector UInt8 size} {calls : List Syscall}
    (fresh : ∀ entry ∈ entries, entry.2.mapFd = none)
    (ran : fixEntries kernel mapsShaddr mapsShoff idx entries fileMap =
      .ok (status, final, image, calls)) (held : Multiset Nat) :
    Posts Syscall.effect calls held (↑(mapFds final) + held) := by
  induction entries generalizing idx final fileMap calls held with
  | nil =>
      cases ran
      simp [mapFds]
  | cons entry rest induction =>
      have freshRest : ∀ entry ∈ rest, entry.2.mapFd = none :=
        fun entry member => fresh entry (.tail _ member)
      have freshHead := fresh entry List.mem_cons_self
      rcases fixEntries_cons_cases freshHead ran with
        ⟨_, _, rfl, rfl⟩ | ⟨fd, _, restFinal, restCalls, _, _, ranRest, rfl, rfl⟩
      · have none : mapFds (entry :: rest) = [] := by
          simpa [mapFds] using fresh
        rw [show (entry.1, entry.2) = entry from rfl, none]
        simpa using posts_silent (by rfl) held
      · exact posts_obtain_cons rfl (induction freshRest ranRest (fd ::ₘ held))

theorem fixEntries_status {idx : Nat} {entries final : MapDefs}
    {fileMap image : Vector UInt8 size} {calls : List Syscall}
    (fresh : ∀ entry ∈ entries, entry.2.mapFd = none)
    (ran : fixEntries kernel mapsShaddr mapsShoff idx entries fileMap =
      .ok (status, final, image, calls)) :
    (status = .success ∧ (∀ entry ∈ final, entry.2.mapFd.isSome) ∧
        ∀ k < entries.length, (kernel.mapCreate (idx + k)).isSome) ∨
      (status = .failure ∧
        ∃ k < entries.length, kernel.mapCreate (idx + k) = none) := by
  induction entries generalizing idx final fileMap calls with
  | nil =>
      cases ran
      exact .inl (by simp)
  | cons entry rest induction =>
      have freshRest : ∀ entry ∈ rest, entry.2.mapFd = none :=
        fun entry member => fresh entry (.tail _ member)
      rcases fixEntries_cons_cases (fresh entry List.mem_cons_self) ran with
        ⟨failed, rfl, _⟩ | ⟨fd, _, restFinal, _, created, _, ranRest, rfl, _⟩
      · exact .inr ⟨rfl, 0, by simp, failed⟩
      · rcases induction freshRest ranRest with
          ⟨rfl, all, answered⟩ | ⟨rfl, k, inRest, missing⟩
        · refine .inl ⟨rfl, by simpa using all, ?_⟩
          intro k inEntries
          cases k with
          | zero => simp [created]
          | succ k =>
              have later := answered k (by simpa using inEntries)
              rwa [Nat.add_assoc, Nat.add_comm 1] at later
        · refine .inr ⟨rfl, k + 1, by simpa using inRest, ?_⟩
          rwa [Nat.add_assoc, Nat.add_comm 1] at missing

end FixMaps

theorem loadProgs_posts {kernel : Kernel} {basefd idx : Nat}
    {timeoutHandlerOff : Option UInt64} {progs final : List RexProg}
    {calls : List Syscall} (fresh : ∀ prog ∈ progs, prog.progFd = none)
    (ran : loadProgs kernel basefd timeoutHandlerOff idx progs =
      .ok (status, final, calls)) (held : Multiset Nat) :
    Posts Syscall.effect calls held (↑(progFds final) + held) := by
  induction progs generalizing idx final calls held with
  | nil =>
      cases ran
      simp [progFds]
  | cons prog rest induction =>
      have freshRest : ∀ prog ∈ rest, prog.progFd = none :=
        fun prog member => fresh prog (.tail _ member)
      have closed : progFds (prog :: rest) = [] := by
        simpa [progFds] using fresh
      unfold loadProgs at ran
      split at ran
      · cases ran
      · cases ran
        simp [closed]
      · split at ran
        · cases ran
          rw [closed]
          simpa using posts_silent (by rfl) held
        · obtain ⟨⟨_, restFinal, restCalls⟩, ranRest, built⟩ := bind_eq_ok.mp ran
          cases built
          exact posts_obtain_cons rfl (induction freshRest ranRest _)

theorem loadProgs_loaded {kernel : Kernel} {basefd idx : Nat}
    {timeoutHandlerOff : Option UInt64} {progs final : List RexProg}
    {calls : List Syscall}
    (ran : loadProgs kernel basefd timeoutHandlerOff idx progs =
      .ok (.success, final, calls)) : ∀ prog ∈ final, prog.progFd.isSome := by
  induction progs generalizing idx final calls with
  | nil =>
      cases ran
      simp
  | cons prog rest induction =>
      unfold loadProgs at ran
      split at ran
      · cases ran
      · cases ran
      · split at ran
        · cases ran
        · obtain ⟨⟨_, restFinal, restCalls⟩, ranRest, built⟩ := bind_eq_ok.mp ran
          cases built
          simpa using induction ranRest

theorem posts_closeFds (obj : RexObj size) (held : Multiset Nat) :
    Posts Syscall.effect obj.closeFds.2 (obj.owned + held)
      (obj.closeFds.1.owned + held) := by
  have before : obj.owned + held =
      ↑(progFds obj.progs) + (↑(obj.progFd.bind Int.toNat?).toList +
        (↑(mapFds obj.mapDefs) + held)) := by
    rw [owned]
    abel
  have after : obj.closeFds.1.owned + held = ↑(mapFds obj.mapDefs) + held := by
    simp [owned, closeFds, progFds]
  rw [before, after]
  exact (posts_closeAll (progFds obj.progs) _).append
    (posts_closeOptional obj.progFd _)

end RexObj

/-! The loader: what is open is what the object owns and what has been leaked. -/

namespace Loader

variable {kernel : Kernel} {file : ElfFile}

def Accounts (loader : Loader size) (leaked : Multiset Nat) : Prop :=
  replay Syscall.effect loader.log = some (loader.obj.owned + leaked)

theorem Accounts.destroy {loader : Loader size} {leaked : Multiset Nat}
    (accounts : loader.Accounts leaked) :
    replay Syscall.effect (loader.log ++ loader.obj.destroy) = some leaked :=
  (posts_destroy loader.obj leaked).replay accounts

theorem Accounts.call {loader : Loader size} {leaked later : Multiset Nat}
    {calls : List Syscall} (accounts : loader.Accounts leaked)
    (posted : Posts Syscall.effect calls (loader.obj.owned + leaked)
      (loader.obj.owned + later)) : (loader.call calls).Accounts later :=
  posted.replay accounts

def MapsCreated (kernel : Kernel) (obj : RexObj size) : Prop :=
  ∀ k < obj.mapDefs.length, (kernel.mapCreate k).isSome

theorem fixMaps_accounts {loader next : Loader size} (fresh : loader.obj.Fresh)
    (accounts : loader.Accounts 0)
    (ran : fixMaps kernel file loader = .ok (status, next)) :
    next.Accounts 0 ∧ next.tmpFile = loader.tmpFile ∧
      next.obj.progFd = some (-1) ∧ next.obj.progs = loader.obj.progs ∧
      ((status = .success ∧ (∀ entry ∈ next.obj.mapDefs, entry.2.mapFd.isSome) ∧
          MapsCreated kernel loader.obj) ∨
        (status = .failure ∧ ¬ MapsCreated kernel loader.obj)) := by
  unfold fixMaps at ran
  split at ran
  · rename_i null
    cases ran
    have none := fresh.unmapped null
    exact ⟨accounts, rfl, fresh.progFd, rfl,
      .inl ⟨rfl, by simp [none], by simp [MapsCreated, none]⟩⟩
  · obtain ⟨maps, _, ran⟩ := bind_eq_ok.mp ran
    obtain ⟨⟨_, mapDefs, fileMap, calls⟩, fixed, built⟩ := bind_eq_ok.mp ran
    cases built
    have owned : ({ loader.obj with mapDefs, fileMap } : RexObj size).owned =
        ↑(mapFds mapDefs) :=
      RexObj.owned_eq_mapFds fresh.progFd fresh.progs
    simp only [Accounts, fresh.owned, add_zero] at accounts
    have replayed := (RexObj.fixEntries_posts fresh.maps fixed 0).replay accounts
    rw [← owned] at replayed
    refine ⟨replayed, rfl, fresh.progFd, rfl, ?_⟩
    rcases RexObj.fixEntries_status fresh.maps fixed with
      ⟨rfl, all, answered⟩ | ⟨rfl, k, inEntries, missing⟩
    · exact .inl ⟨rfl, all, by simpa [MapsCreated] using answered⟩
    · refine .inr ⟨rfl, fun created => ?_⟩
      have answered := created k inEntries
      simp_all

/-! `load` opens the temporary file a second time to hand it to the kernel. -/

theorem posts_stream (ret : Option Nat) (held : Multiset Nat) :
    Posts Syscall.effect
      ((.openStream ret : Syscall) ::
        (ret.map fun fd => Syscall.close (fd : Nat)).toList) held held := by
  cases ret with
  | none => exact posts_silent rfl held
  | some fd =>
      have opened : Posts Syscall.effect
          [(.openStream (some fd) : Syscall)] held (fd ::ₘ held) :=
        posts_acquire rfl held
      exact opened.append (posts_release rfl held)

theorem writeTmp_accounts (kernel : Kernel) {loader : Loader size}
    (accounts : loader.Accounts 0) :
    (loader.writeTmp kernel).Accounts ↑kernel.openTmp.toList := by
  have opened : Posts Syscall.effect
      [(.openTmp kernel.openTmp : Syscall)] loader.obj.owned
      (↑kernel.openTmp.toList + loader.obj.owned) :=
    posts_obtain rfl _
  rw [Accounts, add_zero] at accounts
  have replayed :=
    ((posts_stream kernel.openStream _).append opened).replay accounts
  rw [add_comm] at replayed
  exact replayed

theorem afterBase_accounts {loader : Loader size} {basefd : Nat}
    (progFd : loader.obj.progFd = some (-1))
    (current : replay Syscall.effect loader.log =
      some (basefd ::ₘ (loader.obj.owned + ↑kernel.openTmp.toList))) :
    (loader.afterBase kernel basefd).Accounts 0 := by
  have owned := RexObj.owned_setProgFd progFd basefd
  have closed := posts_closeInt kernel.openTmp
    (basefd ::ₘ loader.obj.owned)
  have removed : Posts Syscall.effect [(.remove kernel.remove : Syscall)]
      (basefd ::ₘ loader.obj.owned) (basefd ::ₘ loader.obj.owned) :=
    posts_silent rfl _
  rw [add_comm, Multiset.cons_add] at closed
  have replayed := (closed.append removed).replay current
  rw [← owned, ← add_zero (RexObj.owned _)] at replayed
  exact replayed

theorem abort_accounts {loader : Loader size} {leaked : Multiset Nat}
    (accounts : loader.Accounts leaked) : loader.abort.Accounts leaked :=
  (RexObj.posts_closeFds loader.obj leaked).replay accounts

structure Ready (loader : Loader size) : Prop where
  accounts : loader.Accounts 0
  progFd : loader.obj.progFd = some (-1)
  progs : ∀ prog ∈ loader.obj.progs, prog.progFd = none
  maps : ∀ entry ∈ loader.obj.mapDefs, entry.2.mapFd.isSome

theorem loadProgs_accounts {loader : Loader size} {basefd : Nat}
    {progs : List RexProg} {calls : List Syscall}
    (accounts : loader.Accounts 0)
    (fresh : ∀ prog ∈ loader.obj.progs, prog.progFd = none)
    (ran : RexObj.loadProgs kernel basefd loader.obj.timeoutHandlerOff 0
      loader.obj.progs = .ok (status, progs, calls)) :
    Accounts ({ loader with
      obj := { loader.obj with progs }
      tmpFile := false
      tmpContents := none }.call calls) 0 := by
  have closed : progFds loader.obj.progs = [] := by
    simpa [progFds] using fresh
  have owned : ({ loader.obj with progs } : RexObj size).owned =
      ↑(progFds progs) + loader.obj.owned := by
    simp [RexObj.owned, closed, add_comm]
  rw [Accounts, add_zero] at accounts
  have replayed :=
    (RexObj.loadProgs_posts fresh ran loader.obj.owned).replay accounts
  rw [← owned, ← add_zero (RexObj.owned _)] at replayed
  exact replayed

theorem loadRest_accounts {loader next : Loader size} {basefd : Nat}
    (ran : loadRest kernel basefd loader = .ok (status, next))
    (progFd : loader.obj.progFd = some (-1))
    (progs : ∀ prog ∈ loader.obj.progs, prog.progFd = none)
    (maps : ∀ entry ∈ loader.obj.mapDefs, entry.2.mapFd.isSome)
    (current : replay Syscall.effect loader.log =
      some (basefd ::ₘ (loader.obj.owned + ↑kernel.openTmp.toList))) :
    next.Accounts 0 ∧
      next.tmpFile = (loader.tmpFile && decide (kernel.remove = .error)) ∧
      (status = .success → next.obj.Complete) := by
  have based := afterBase_accounts progFd current
  unfold loadRest at ran
  cases removal : kernel.remove with
  | error =>
      simp only [removal] at ran
      cases ran
      exact ⟨based, by simp [afterBase, call], nofun⟩
  | absent =>
      simp only [removal] at ran
      cases ran
      exact ⟨abort_accounts based, by simp [abort, call], nofun⟩
  | removed =>
      simp only [removal] at ran
      obtain ⟨⟨came, final, calls⟩, loaded, built⟩ := bind_eq_ok.mp ran
      have accounts := loadProgs_accounts based progs loaded
      cases came with
      | success =>
          cases built
          have complete := RexObj.loadProgs_loaded loaded
          exact ⟨accounts, by simp [call],
            fun _ => ⟨⟨basefd, rfl⟩, maps, complete⟩⟩
      | failure =>
          cases built
          exact ⟨abort_accounts accounts, by simp [abort, call], nofun⟩
      | thrown =>
          cases built
          exact ⟨accounts, by simp [call], nofun⟩

theorem load_accounts {loader next : Loader size} (ready : loader.Ready)
    (ran : load kernel loader = .ok (status, next)) :
    match kernel.progLoadRexBase with
    | none =>
        status = .failure ∧ next.Accounts ↑kernel.openTmp.toList ∧
          next.tmpFile = kernel.openStream.isSome
    | some _ =>
        next.Accounts 0 ∧
          next.tmpFile =
            (kernel.openStream.isSome && decide (kernel.remove = .error)) ∧
          (status = .success → next.obj.Complete) := by
  have written := writeTmp_accounts kernel ready.accounts
  unfold load at ran
  cases base : kernel.progLoadRexBase with
  | none =>
      simp only [base] at ran
      cases ran
      refine ⟨rfl, ?_, rfl⟩
      exact written.call (posts_silent rfl _)
  | some basefd =>
      simp only [base] at ran
      refine loadRest_accounts ran ready.progFd ready.progs ready.maps ?_
      have loaded : Posts Syscall.effect
          [Syscall.progLoadRexBase ((loader.writeTmp kernel).baseAttr kernel)
            (some basefd)]
          (loader.obj.owned + ↑kernel.openTmp.toList)
          (basefd ::ₘ (loader.obj.owned + ↑kernel.openTmp.toList)) :=
        posts_acquire rfl _
      exact loaded.replay written

end Loader

end Rex.Librex
