import Rex.Librex.Accounting

namespace Rex.Librex

open Procedure Ledger

/-! Who owns the descriptors that `rex_obj_load` obtains, on every way out of
it. -/

variable {platform : Platform} {kernel : Kernel} {path : String}
  {file : ElfFile} {uninitialised : ScnPtr}

namespace Loader

variable {size : Nat}

theorem steps_cases {loader next : Loader size} (fresh : loader.obj.Fresh)
    (accounts : loader.Accounts 0)
    (ran : andThen (parseElf platform file)
      (andThen (fixMaps kernel file) (load kernel)) loader = .ok (status, next)) :
    ((∃ obj, RexObj.parseElf platform file loader.obj = .ok (.success, obj) ∧
          MapsCreated kernel obj) ∧
        ∃ ready : Loader size, ready.Ready ∧
          load kernel ready = .ok (status, next)) ∨
      ((∀ obj, RexObj.parseElf platform file loader.obj = .ok (.success, obj) →
          ¬ MapsCreated kernel obj) ∧
        status ≠ .success ∧ next.Accounts 0 ∧ next.tmpFile = loader.tmpFile) := by
  have parsedFresh : ∀ {came parsed},
      parseElf platform file loader = .ok (came, parsed) →
        ∃ obj, RexObj.parseElf platform file loader.obj = .ok (came, obj) ∧
          parsed = { loader with obj } ∧ obj.Fresh := by
    intro came parsed parsing
    obtain ⟨⟨_, obj⟩, ranParse, built⟩ := bind_eq_ok.mp parsing
    cases built
    exact ⟨obj, ranParse, rfl,
      RexObj.parseElf_fresh loader.obj came obj fresh ranParse⟩
  have kept : ∀ {obj : RexObj size}, obj.Fresh →
      Accounts { loader with obj } 0 := by
    intro obj freshObj
    rw [Accounts, fresh.owned] at accounts
    rw [Accounts, freshObj.owned]
    exact accounts
  rcases andThen_cases ran with ⟨parsed, parsing, ran⟩ | ⟨parsing, failed⟩
  · obtain ⟨obj, ranParse, rfl, freshObj⟩ := parsedFresh parsing
    rcases andThen_cases ran with ⟨fixed, fixing, ran⟩ | ⟨fixing, failed⟩
    · obtain ⟨after, _, progFd, progs, ⟨_, maps, created⟩ | ⟨impossible, _⟩⟩ :=
        fixMaps_accounts freshObj (kept freshObj) fixing
      · refine .inl ⟨⟨obj, ranParse, created⟩, fixed, ⟨after, progFd, ?_, maps⟩, ran⟩
        rw [progs]
        exact freshObj.progs
      · cases impossible
    · obtain ⟨after, tmpFile, _, _, ⟨succeeded, _⟩ | ⟨_, missing⟩⟩ :=
        fixMaps_accounts freshObj (kept freshObj) fixing
      · exact absurd succeeded failed
      · refine .inr ⟨?_, failed, after, tmpFile⟩
        intro other parsedOther
        cases ranParse.symm.trans parsedOther
        exact missing
  · obtain ⟨obj, ranParse, rfl, freshObj⟩ := parsedFresh parsing
    refine .inr ⟨?_, failed, kept freshObj, rfl⟩
    intro other parsedOther
    cases ranParse.symm.trans parsedOther
    exact absurd rfl failed

end Loader

def ReachesLoad (platform : Platform) (kernel : Kernel) (path : String)
    (file : ElfFile) (uninitialised : ScnPtr) : Prop :=
  kernel.elfVersion ∧ (kernel.elfBegin ∧ kernel.fstat ∧ kernel.mmap) ∧
    ∃ obj, RexObj.parseElf platform file
        (.new path file.bytes uninitialised) = .ok (.success, obj) ∧
      Loader.MapsCreated kernel obj

/-- The failures that leave nothing behind. -/
structure FailsCleanly (platform : Platform) (kernel : Kernel) (path : String)
    (file : ElfFile) (uninitialised : ScnPtr) : Prop where
  opened : kernel.elfVersion → kernel.openFile.isSome →
    kernel.elfBegin ∧ kernel.fstat ∧ kernel.mmap
  base : ReachesLoad platform kernel path file uninitialised →
    kernel.progLoadRexBase = none →
      kernel.openTmp = none ∧ kernel.openStream = none
  removal : ReachesLoad platform kernel path file uninitialised →
    kernel.progLoadRexBase.isSome → kernel.remove = .error →
      kernel.openStream = none

theorem construct_accounts (kernel : Kernel) (path : String) (file : ElfFile)
    (uninitialised : ScnPtr)
    (constructed : kernel.elfBegin ∧ kernel.fstat ∧ kernel.mmap) :
    ∃ log, RexObj.construct kernel path file uninitialised =
        (some (.new path file.bytes uninitialised), log) ∧
      replay Syscall.effect log = some 0 := by
  refine ⟨[.openFile kernel.openFile, .close (intFd kernel.openFile)],
    by rw [RexObj.construct, if_pos constructed], ?_⟩
  have opened : Posts Syscall.effect
      [(.openFile kernel.openFile : Syscall)] 0
      (↑kernel.openFile.toList + 0) :=
    posts_obtain rfl 0
  exact opened.append (posts_closeInt kernel.openFile 0)

theorem construct_throws
    (thrown : ¬ (kernel.elfBegin ∧ kernel.fstat ∧ kernel.mmap)) :
    RexObj.construct kernel path file uninitialised =
        (none, [.openFile kernel.openFile]) ∧
      replay Syscall.effect [(.openFile kernel.openFile : Syscall)] =
        some ↑kernel.openFile.toList := by
  refine ⟨if_neg thrown, ?_⟩
  have opened : Posts Syscall.effect
      [(.openFile kernel.openFile : Syscall)] 0
      (↑kernel.openFile.toList + 0) :=
    posts_obtain rfl 0
  rw [add_zero] at opened
  exact opened

theorem Loader.Accounts.finish {loader : Loader size} {leaked : Multiset Nat}
    {status : Status} (accounts : loader.Accounts leaked)
    (failed : status ≠ .success) :
    replay Syscall.effect (loader.finish status).log = some leaked ∧
      (loader.finish status).tmpFile = loader.tmpFile ∧
      (loader.finish status).result = none := by
  cases status with
  | success => exact absurd rfl failed
  | failure => exact ⟨accounts.destroy, rfl, rfl⟩
  | thrown => exact ⟨accounts.destroy, rfl, rfl⟩

theorem coe_toList_eq_zero {ret : Option Nat} :
    (↑ret.toList : Multiset Nat) = 0 ↔ ret = none := by
  cases ret <;> simp

/-! `FailsCleanly` on each of the ways to a failure. -/

theorem failsCleanly_of_short
    (constructed : kernel.elfBegin ∧ kernel.fstat ∧ kernel.mmap)
    (short : ¬ ReachesLoad platform kernel path file uninitialised) :
    FailsCleanly platform kernel path file uninitialised :=
  ⟨fun _ _ => constructed, fun reached => absurd reached short,
    fun reached => absurd reached short⟩

theorem failsCleanly_iff_of_thrown (version : kernel.elfVersion)
    (thrown : ¬ (kernel.elfBegin ∧ kernel.fstat ∧ kernel.mmap)) :
    FailsCleanly platform kernel path file uninitialised ↔
      kernel.openFile = none := by
  constructor
  · intro clean
    rw [← Option.not_isSome_iff_eq_none]
    exact fun opened => thrown (clean.opened version opened)
  · intro closed
    refine ⟨?_, fun reached => absurd reached.2.1 thrown,
      fun reached => absurd reached.2.1 thrown⟩
    intro _ opened
    simp [closed] at opened

theorem failsCleanly_iff_of_reached
    (reached : ReachesLoad platform kernel path file uninitialised) :
    FailsCleanly platform kernel path file uninitialised ↔
      (kernel.progLoadRexBase = none →
        kernel.openTmp = none ∧ kernel.openStream = none) ∧
      (kernel.progLoadRexBase.isSome → kernel.remove = .error →
        kernel.openStream = none) := by
  constructor
  · exact fun clean => ⟨clean.base reached, clean.removal reached⟩
  · exact fun ⟨base, removal⟩ =>
      ⟨fun _ _ => reached.2.1, fun _ => base, fun _ => removal⟩

def Outcome.Accounted (outcome : Outcome size) (clean : Prop) : Prop :=
  (outcome.result = none →
    (replay Syscall.effect outcome.log = some 0 ∧ outcome.tmpFile = false ↔
      clean)) ∧
  ∀ obj, outcome.result = some obj →
    obj.Complete ∧ replay Syscall.effect outcome.log = some obj.owned ∧
      replay Syscall.effect (outcome.log ++ obj.destroy) = some 0

theorem accounted_of_null {outcome : Outcome size} {leaked : Multiset Nat}
    {clean : Prop} (null : outcome.result = none)
    (replayed : replay Syscall.effect outcome.log = some leaked)
    (same : leaked = 0 ∧ outcome.tmpFile = false ↔ clean) :
    outcome.Accounted clean := by
  constructor
  · intro _
    rw [replayed, Option.some.injEq]
    exact same
  · intro obj some
    rw [null] at some
    cases some

theorem accounted_of_load {loader next : Loader size} (ready : loader.Ready)
    (loading : Loader.load kernel loader = .ok (status, next)) :
    (next.finish status).Accounted
      ((kernel.progLoadRexBase = none →
        kernel.openTmp = none ∧ kernel.openStream = none) ∧
      (kernel.progLoadRexBase.isSome → kernel.remove = .error →
        kernel.openStream = none)) := by
  have accounts := Loader.load_accounts ready loading
  cases base : kernel.progLoadRexBase with
  | none =>
      simp only [base] at accounts
      obtain ⟨rfl, accounts, tmpFile⟩ := accounts
      obtain ⟨replayed, kept, null⟩ := accounts.finish (by decide : Status.failure ≠ .success)
      apply accounted_of_null null replayed
      rw [kept, tmpFile, coe_toList_eq_zero]
      simp
  | some basefd =>
      simp only [base] at accounts
      obtain ⟨accounts, tmpFile, complete⟩ := accounts
      by_cases succeeded : status = .success
      · subst succeeded
        refine ⟨nofun, ?_⟩
        intro obj same
        obtain rfl : next.obj = obj := Option.some.inj same
        have owned := accounts
        rw [Loader.Accounts, add_zero] at owned
        exact ⟨complete rfl, owned, accounts.destroy⟩
      · obtain ⟨replayed, kept, null⟩ := accounts.finish succeeded
        apply accounted_of_null null replayed
        rw [kept, tmpFile]
        by_cases error : kernel.remove = .error <;> simp [error]

/-- When `rex_obj_load` fails, everything it opened has been closed exactly once
and the temporary file is gone if and only if the failure is one of the clean
ones.  When it succeeds, the open descriptors are those in the optional fields
of the object, and destroying it closes each exactly once. -/
theorem loader_accounting_iff {outcome : Outcome file.size}
    (ran : rexObjLoad platform kernel path file uninitialised = .ok outcome) :
    (outcome.result = none →
      (replay Syscall.effect outcome.log = some 0 ∧ outcome.tmpFile = false ↔
        FailsCleanly platform kernel path file uninitialised)) ∧
    ∀ obj, outcome.result = some obj →
      obj.Complete ∧ replay Syscall.effect outcome.log = some obj.owned ∧
        replay Syscall.effect (outcome.log ++ obj.destroy) = some 0 := by
  change outcome.Accounted (FailsCleanly platform kernel path file uninitialised)
  unfold rexObjLoad at ran
  split at ran
  · rename_i version
    cases ran
    apply accounted_of_null rfl rfl
    refine ⟨fun _ => ⟨?_, ?_, ?_⟩, fun _ => ⟨rfl, rfl⟩⟩
    · exact fun supported => absurd supported version
    · exact fun reached => absurd reached.1 version
    · exact fun reached => absurd reached.1 version
  · rename_i version
    have version : kernel.elfVersion := by simpa using version
    by_cases constructed : kernel.elfBegin ∧ kernel.fstat ∧ kernel.mmap
    · obtain ⟨log, built, current⟩ :=
        construct_accounts kernel path file uninitialised constructed
      rw [built] at ran
      obtain ⟨⟨status, next⟩, steps, finished⟩ := bind_eq_ok.mp ran
      cases finished
      have fresh := RexObj.fresh_new path file.bytes uninitialised
      have accounts : Loader.Accounts
          ⟨.new path file.bytes uninitialised, log, false, kernel.tmpBefore⟩ 0 := by
        rw [Loader.Accounts, fresh.owned]
        exact current
      rcases Loader.steps_cases fresh accounts steps with
        ⟨⟨obj, parsed, created⟩, loader, ready, loading⟩ |
          ⟨short, failed, after, tmpFile⟩
      · have reached : ReachesLoad platform kernel path file uninitialised :=
          ⟨version, constructed, obj, parsed, created⟩
        rw [failsCleanly_iff_of_reached reached]
        exact accounted_of_load ready loading
      · have short : ¬ ReachesLoad platform kernel path file uninitialised := by
          rintro ⟨_, _, obj, parsed, created⟩
          exact short obj parsed created
        obtain ⟨replayed, kept, null⟩ := after.finish failed
        apply accounted_of_null null replayed
        exact ⟨fun _ => failsCleanly_of_short constructed short,
          fun _ => ⟨rfl, kept.trans tmpFile⟩⟩
    · obtain ⟨thrown, replayed⟩ := construct_throws constructed
      rw [thrown] at ran
      cases ran
      apply accounted_of_null rfl replayed
      rw [failsCleanly_iff_of_thrown version constructed, coe_toList_eq_zero]
      simp

def timeoutFile : ElfFile where
  size := 24
  size_lt := by decide
  bytes := #v[1, 0, 0, 0, 18, 0, 1, 0, 16, 0, 0, 0, 0, 0, 0, 0, 1, 0, 0, 0, 0, 0, 0, 0]
  shstrndx := some 2
  scns := [some ⟨0, 0, 0, 0, 0, 0⟩, some ⟨0, 2, 0, 0, 24, 3⟩]
  strptr := fun table _ =>
    if table = 2 then some ".symtab" else some "__rex_handle_timeout"
  getdata idx :=
    if idx = 1 then
      some (.ofBytes [1, 0, 0, 0, 18, 0, 1, 0, 16, 0, 0, 0, 0, 0, 0, 0, 1, 0, 0, 0, 0, 0, 0, 0])
    else
      none

theorem loader_accounting_iff_timeoutFile :
    ∃ outcome obj,
      rexObjLoad .plain .willing "prog" timeoutFile .null = .ok outcome ∧
        outcome.result = some obj ∧ obj.Complete ∧
        replay Syscall.effect (outcome.log ++ obj.destroy) = some 0 := by
  obtain ⟨outcome, obj, ran, result⟩ : ∃ outcome obj,
      rexObjLoad .plain .willing "prog" timeoutFile .null = .ok outcome ∧
        outcome.result = some obj :=
    ⟨_, _, rfl, rfl⟩
  obtain ⟨complete, _, destroyed⟩ := (loader_accounting_iff ran).2 obj result
  exact ⟨outcome, obj, ran, result, complete, destroyed⟩

def emptyFile : ElfFile where
  size := 0
  size_lt := by decide
  bytes := #v[]
  shstrndx := none
  scns := []
  strptr _ _ := none
  getdata _ := none

/-- An empty file cannot be mapped, and the constructor throws with the file
still open. -/
theorem descriptor_leaked_by_constructor :
    (rexObjLoad .plain { Kernel.willing with mmap := false } "prog" emptyFile
      .null).toOption.map (fun outcome =>
        (outcome.result.isNone, acquired Syscall.effect 3 outcome.log,
          released Syscall.effect 3 outcome.log)) =
      some (true, 1, 0) := by
  decide

end Rex.Librex
