import Rex.Librex.Ownership
import Rex.Librex.Readable

namespace Rex.Librex

open Procedure

/-! Which files the whole parser can read, and for which of them the result
depends on the file only. -/

namespace RexObj

variable {platform : Platform} {file : ElfFile} {size shstrndx : Nat}

/-! The relocations. -/

section Relas

theorem parseRela_resolves {data : ElfData} {idx : Nat} {rela : RexRelaDyn}
    (read : data.rela idx = .ok rela) (resolves : file.Resolves shstrndx rela)
    {obj : RexObj size} (pointer : obj.dynsymScn = file.scnPtr shstrndx .dynsym) :
    ∃ next, parseRela file data idx obj = .ok (.success, next) ∧
      next.dynsymScn = obj.dynsymScn := by
  rcases resolves with relative | ⟨globDat, syms, delivered, holds⟩
  · refine ⟨_, bind_eq_ok.mpr ⟨rela, read, if_pos relative⟩, rfl⟩
  · obtain ⟨dynsym, header⟩ := ElfFile.headerOf_of_dataOf delivered
    obtain ⟨sym, found⟩ := ElfData.sym_of_holds holds
    have other : rela.rType ≠ rX8664Relative := by
      rw [globDat]
      decide
    refine ⟨{ obj with
      dynSyms := obj.dynSyms ++
        [{ offset := rela.offset, symbol := file.strptr dynsym.shLink sym.stName }] },
      bind_eq_ok.mpr ⟨rela, read, ?_⟩, rfl⟩
    rw [if_neg other, if_pos globDat, pointer, ElfFile.elfGetdata_scnPtr,
      ElfFile.header_scnPtr header, delivered]
    exact bind_eq_ok.mpr ⟨_, rfl, bind_eq_ok.mpr ⟨_, rfl, bind_eq_ok.mpr ⟨sym, found, rfl⟩⟩⟩

theorem parseRela_unsupported {data : ElfData} {idx : Nat} {rela : RexRelaDyn}
    (read : data.rela idx = .ok rela) (notRelative : rela.rType ≠ rX8664Relative)
    (notGlobDat : rela.rType ≠ rX8664GlobDat) (obj : RexObj size) :
    parseRela file data idx obj = .ok (.failure, obj) := by
  refine bind_eq_ok.mpr ⟨rela, read, ?_⟩
  rw [if_neg notRelative, if_neg notGlobDat]
  rfl

theorem parseRela_crashes {data : ElfData} {idx : Nat} {rela : RexRelaDyn}
    (read : data.rela idx = .ok rela) (globDat : rela.rType = rX8664GlobDat)
    (unresolved : ¬ file.Resolves shstrndx rela) {obj : RexObj size}
    (pointer : obj.dynsymScn = file.scnPtr shstrndx .dynsym) :
    ∃ crash, parseRela file data idx obj = .error crash := by
  have other : rela.rType ≠ rX8664Relative := by
    rw [globDat]
    decide
  simp only [parseRela, read, bind, Except.bind, if_neg other, if_pos globDat, pointer,
    ElfFile.elfGetdata_scnPtr]
  cases header : file.headerOf shstrndx .dynsym with
  | none =>
      rw [ElfFile.header_scnPtr_none header]
      exact ⟨_, rfl⟩
  | some dynsym =>
      rw [ElfFile.header_scnPtr header]
      cases delivered : file.dataOf shstrndx .dynsym with
      | none => exact ⟨_, rfl⟩
      | some syms =>
          have outside : ¬ syms.Holds (24 * rela.rSym) 24 := fun holds =>
            unresolved (.inr ⟨globDat, syms, delivered, holds⟩)
          obtain ⟨crash, unread⟩ := ElfData.sym_of_not_holds outside
          exact ⟨crash, by simp only [unread]⟩

theorem judges_parseRela (file : ElfFile) (shstrndx size : Nat) (data : ElfData) :
    Judges (parseRela file data)
      (fun _ (obj : RexObj size) => obj.dynsymScn = file.scnPtr shstrndx .dynsym)
      (fun _ idx => ∃ rela, data.relaAt idx = some rela ∧
        file.Resolves shstrndx rela)
      (fun _ idx => ∃ rela, data.relaAt idx = some rela ∧
        rela.rType ≠ rX8664Relative ∧ rela.rType ≠ rX8664GlobDat) := by
  have read {idx : Nat} {rela : RexRelaDyn} :
      data.relaAt idx = some rela ↔ data.rela idx = .ok rela :=
    ElfData.relaAt_eq_some_iff
  constructor
  · rintro before idx obj pointer ⟨rela, found, resolves⟩
    obtain ⟨next, ran, kept⟩ := parseRela_resolves (read.mp found) resolves pointer
    exact ⟨next, ran, kept.trans pointer⟩
  · rintro before idx obj pointer ⟨rela, found, notRelative, notGlobDat⟩
    exact ⟨obj, parseRela_unsupported (read.mp found) notRelative notGlobDat obj⟩
  · intro before idx obj pointer refused accepted
    cases same : data.rela idx with
    | error crash =>
        have crashed : parseRela file data idx obj = .error crash := by
          rw [parseRela, same]
          rfl
        exact not_returns_of_crash crashed
    | ok rela =>
        have found := read.mpr same
        have unresolved : ¬ file.Resolves shstrndx rela :=
          fun resolves => refused ⟨rela, found, resolves⟩
        have globDat : rela.rType = rX8664GlobDat := by
          by_contra other
          refine accepted ⟨rela, found, fun relative => unresolved (.inl relative), other⟩
        obtain ⟨crash, crashed⟩ := parseRela_crashes same globDat unresolved pointer
        exact not_returns_of_crash crashed

theorem parseRelaDyn_eq {relas : Elf64Shdr} {obj : RexObj size}
    (header : file.headerOf shstrndx .relaDyn = some relas)
    (pointer : obj.relaDynScn = file.scnPtr shstrndx .relaDyn) :
    parseRelaDyn file obj =
      match file.dataOf shstrndx .relaDyn with
      | none => .error .nullDereference
      | some data =>
          if relas.shSize.toNat % 24 ≠ 0 then
            .ok (.failure, obj)
          else
            each (parseRela file data) (List.range (relas.shSize.toNat / 24)) obj := by
  have present : file.scnPtr shstrndx .relaDyn ≠ .null := by
    obtain ⟨idx, found, -⟩ := Option.bind_eq_some_iff.mp header
    rw [ElfFile.scnPtr, found]
    exact ScnPtr.noConfusion
  rw [parseRelaDyn, pointer, if_neg present, ElfFile.elf64Getshdr_scnPtr,
    ElfFile.elfGetdata_scnPtr, header]
  cases file.dataOf shstrndx .relaDyn with
  | none => rfl
  | some data => rfl

theorem returns_parseRelaDyn_iff {relas : Elf64Shdr} {obj : RexObj size}
    (header : file.headerOf shstrndx .relaDyn = some relas)
    (pointer : obj.relaDynScn = file.scnPtr shstrndx .relaDyn)
    (dynsym : obj.dynsymScn = file.scnPtr shstrndx .dynsym) :
    Returns (parseRelaDyn file) obj ↔
      ∃ data, file.dataOf shstrndx .relaDyn = some data ∧
        (relas.shSize.toNat % 24 ≠ 0 ∨ file.RelasResolve shstrndx relas data) := by
  have ran := parseRelaDyn_eq header pointer
  cases delivered : file.dataOf shstrndx .relaDyn with
  | none =>
      rw [delivered] at ran
      refine iff_of_false (not_returns_of_crash ran) ?_
      rintro ⟨data, impossible, -⟩
      cases impossible
  | some data =>
      rw [delivered] at ran
      dsimp only at ran
      simp only [Option.some.injEq, exists_eq_left']
      split at ran
      · rename_i odd
        exact iff_of_true (returns_of_failure ran) (.inl odd)
      · rename_i whole
        rw [or_iff_right whole, returns_congr ran,
          (judges_parseRela file shstrndx size data).returns_iff dynsym]
        rfl

end Relas

/-! A map that was read from its section can be written to in the file. -/

theorem kptr_inRange (delivers : file.DeliversFromFile) {idx : Nat} {maps : Elf64Shdr}
    {data : ElfData} (header : file.scns[idx]?.join = some maps)
    (delivered : file.getdata idx = some data) {value : UInt64}
    (backs : maps.Backs data value) :
    (value + .ofNat kptrOffset - maps.shAddr + maps.shOffset).toNat + 8 ≤ file.size := by
  have inFile := delivers idx maps data header delivered backs.1
  have inSection := backs.2
  have small := file.size_lt
  have valueLt := value.toNat_lt
  have addrLt := maps.shAddr.toNat_lt
  rw [UInt64.toNat_sub, mapDefSize] at inSection
  rw [UInt64.toNat_add, UInt64.toNat_sub, UInt64.toNat_add, UInt64.toNat_ofNat', kptrOffset]
  omega

theorem fixEntries_returns {maps : Elf64Shdr} (kernel : Kernel) {entries : MapDefs}
    (inRange : ∀ entry ∈ entries,
      (entry.1 + .ofNat kptrOffset - maps.shAddr + maps.shOffset).toNat + 8 ≤ file.size)
    (idx : Nat) (fileMap : Vector UInt8 file.size) :
    ∃ status final image calls,
      fixEntries kernel maps.shAddr maps.shOffset idx entries fileMap =
        .ok (status, final, image, calls) ∧ status ≠ .thrown := by
  induction entries generalizing idx fileMap with
  | nil => exact ⟨_, _, _, _, rfl, by decide⟩
  | cons entry rest induction =>
      obtain ⟨mOff, mDef⟩ := entry
      have located := Window.locate_eq_some (inRange _ List.mem_cons_self)
      unfold fixEntries
      dsimp only
      split
      · exact ⟨_, _, _, _, rfl, by decide⟩
      · rename_i fd created
        rw [located]
        obtain ⟨status, final, image, calls, ran, caught⟩ :=
          induction (fun entry member => inRange entry (List.mem_cons_of_mem _ member))
            (idx + 1) (Window.write ⟨_, _⟩ fileMap (kptrBytes fd))
        dsimp only
        rw [ran]
        exact ⟨_, _, _, _, rfl, caught⟩

end RexObj

theorem Loader.returns_fixMaps {file : ElfFile} {shstrndx : Nat} (kernel : Kernel)
    (delivers : file.DeliversFromFile) {loader : Loader file.size}
    (pointer : loader.obj.mapsScn = file.scnPtr shstrndx .maps)
    (parsed : ∀ idx maps, file.found shstrndx .maps = some idx →
      file.scns[idx]?.join = some maps →
      ∃ data, file.getdata idx = some data ∧
        ∀ entry ∈ loader.obj.mapDefs, maps.Backs data entry.1) :
    Returns (Loader.fixMaps kernel file) loader := by
  cases found : file.found shstrndx .maps with
  | none =>
      have absent : loader.obj.mapsScn = .null := by
        rw [pointer, ElfFile.scnPtr, found]
        rfl
      exact Succeeds.returns ⟨loader, by rw [Loader.fixMaps, if_pos absent]; rfl⟩
  | some idx =>
      obtain ⟨maps, read, header⟩ := ElfFile.headerOf_of_found found
      have present : loader.obj.mapsScn ≠ .null := by
        rw [pointer, ElfFile.scnPtr, found]
        exact ScnPtr.noConfusion
      obtain ⟨data, delivered, backed⟩ := parsed idx maps found read
      obtain ⟨status, final, image, calls, ran, caught⟩ :=
        RexObj.fixEntries_returns kernel
          (fun entry member => RexObj.kptr_inRange delivers read delivered
            (backed entry member))
          0 loader.obj.fileMap
      refine ⟨status, Loader.call
        { loader with obj := { loader.obj with mapDefs := final, fileMap := image } } calls,
        ?_, caught⟩
      rw [Loader.fixMaps, if_neg present, pointer, ElfFile.header_scnPtr header]
      exact bind_eq_ok.mpr ⟨maps, rfl, bind_eq_ok.mpr ⟨_, ran, rfl⟩⟩

namespace ElfFile

variable (file : ElfFile)

def ReachesRelocations (shstrndx : Nat) : Prop :=
  file.Scans shstrndx ∧ ¬ file.MapsRejected shstrndx ∧ file.MapsReadable shstrndx ∧
    ∃ symtab syms, file.headerOf shstrndx .symtab = some symtab ∧
      file.dataOf shstrndx .symtab = some syms ∧
      file.ProgsReadable shstrndx symtab syms ∧ file.HasTimeoutHandler symtab syms

/-- Each part of the parser that is reached can read the file or rejects it. -/
def Readable : Prop :=
  ∀ shstrndx, file.Scans shstrndx → file.MapsRejected shstrndx ∨
    file.MapsReadable shstrndx ∧
      ∃ symtab, file.headerOf shstrndx .symtab = some symtab ∧
        ∀ syms, file.dataOf shstrndx .symtab = some syms →
          file.ProgsReadable shstrndx symtab syms ∧
            (file.HasTimeoutHandler symtab syms → file.RelasReadable shstrndx)

end ElfFile

namespace RexObj

variable {platform : Platform} {file : ElfFile} {shstrndx : Nat}

def afterScan (path : String) (file : ElfFile) (shstrndx : Nat)
    (uninitialised : ScnPtr) : RexObj file.size :=
  (new path file.bytes uninitialised).scanned file shstrndx file.scnIdxs

structure Mapped (file : ElfFile) (shstrndx : Nat) (uninitialised : ScnPtr)
    (obj : RexObj file.size) : Prop where
  points : obj.Points file shstrndx
  relaDynScn : obj.relaDynScn = (file.found shstrndx .relaDyn).elim uninitialised .scn
  backed : ∀ idx maps, file.found shstrndx .maps = some idx →
    file.scns[idx]?.join = some maps →
    ∃ data, file.getdata idx = some data ∧
      ∀ entry ∈ obj.mapDefs, maps.Backs data entry.1

section Stages

variable {path : String} {uninitialised : ScnPtr}

theorem points_afterScan :
    (afterScan path file shstrndx uninitialised).Points file shstrndx :=
  ⟨rfl, rfl, rfl⟩

theorem parseMaps_mapped {obj : RexObj file.size}
    (ran : parseMaps platform file (afterScan path file shstrndx uninitialised) =
      .ok (.success, obj)) :
    obj.Mapped file shstrndx uninitialised ∧ obj.timeoutHandlerOff = none := by
  obtain ⟨kept, backed⟩ := mapsParsed_of_success points_afterScan rfl ran
  refine ⟨⟨?_, ?_, backed⟩, ?_⟩
  · rw [kept]
    exact ⟨rfl, rfl, rfl⟩
  · rw [kept]
    rfl
  · rw [kept]
    rfl

theorem parseProgs_mapped (scans : file.Scans shstrndx) {obj final : RexObj file.size}
    (mapped : obj.Mapped file shstrndx uninitialised)
    (ran : parseProgs platform file obj = .ok (.success, final)) :
    final.Mapped file shstrndx uninitialised := by
  obtain ⟨symtab, syms, -, -, -, parsed, -⟩ :=
    progsParsed_of_success scans mapped.points ran
  have points := mapped.points
  rw [parsed.kept]
  exact ⟨⟨points.symtabScn, points.dynsymScn, points.mapsScn⟩, mapped.relaDynScn,
    mapped.backed⟩

theorem reaches_iff (platform : Platform) (path : String) (uninitialised : ScnPtr)
    (scans : file.Scans shstrndx) :
    Succeeds (andThen (parseMaps platform file) (parseProgs platform file))
        (afterScan path file shstrndx uninitialised) ↔
      file.ReachesRelocations shstrndx := by
  rw [succeeds_andThen_iff, ElfFile.ReachesRelocations, and_iff_right scans]
  constructor
  · rintro ⟨obj, ran, succeeds⟩
    obtain ⟨mapped, unhandled⟩ := parseMaps_mapped ran
    obtain ⟨accepted, readable⟩ :=
      (parseMaps_success_iff points_afterScan rfl).mp ⟨obj, ran⟩
    exact ⟨accepted, readable,
      (parseProgs_success_iff scans mapped.points unhandled).mp succeeds⟩
  · rintro ⟨accepted, readable, symbols⟩
    obtain ⟨obj, ran⟩ :=
      (parseMaps_success_iff points_afterScan rfl).mpr ⟨accepted, readable⟩
    obtain ⟨mapped, unhandled⟩ := parseMaps_mapped ran
    exact ⟨obj, ran, (parseProgs_success_iff scans mapped.points unhandled).mpr symbols⟩

theorem parseElf_of_scans (platform : Platform) (scans : file.Scans shstrndx) :
    parseElf platform file (new path file.bytes uninitialised) =
      andThen (andThen (parseMaps platform file) (parseProgs platform file))
        (parseRelaDyn file) (afterScan path file shstrndx uninitialised) := by
  rw [parseElf, andThen_of_success (parseScns_of_scans scans _), andThen_assoc]
  rfl

/-- A section pointer that was never set is dereferenced. -/
theorem parseRelaDyn_wild {obj : RexObj file.size} (unset : obj.relaDynScn = .wild) :
    parseRelaDyn file obj = .error .wildPointer := by
  rw [parseRelaDyn, unset, if_neg ScnPtr.noConfusion]
  rfl

theorem parseElf_of_not_scans (platform : Platform) (path : String)
    (uninitialised : ScnPtr) (unreadable : ¬ ∃ shstrndx, file.Scans shstrndx) :
    ∃ final, parseScns file (new path file.bytes uninitialised) = .ok (.failure, final) ∧
      parseElf platform file (new path file.bytes uninitialised) =
        .ok (.failure, final) := by
  obtain ⟨final, failed⟩ := parseScns_of_not_scans (not_exists.mp unreadable)
    (new path file.bytes uninitialised)
  refine ⟨final, failed, ?_⟩
  simp only [parseElf, andThen, failed]

theorem returns_parseElf (platform : Platform) (readable : file.Readable) :
    Returns (parseElf platform file) (new path file.bytes uninitialised) := by
  by_cases scannable : ∃ shstrndx, file.Scans shstrndx
  · obtain ⟨shstrndx, scans⟩ := scannable
    rw [returns_congr (parseElf_of_scans platform scans), returns_andThen_iff,
      returns_andThen_iff, returns_parseMaps_iff points_afterScan rfl]
    have readableFrom := readable shstrndx scans
    refine ⟨⟨readableFrom.imp_right And.left, fun obj ran => ?_⟩, fun final ran => ?_⟩
    · obtain ⟨mapped, -⟩ := parseMaps_mapped ran
      obtain ⟨accepted, -⟩ := (parseMaps_success_iff points_afterScan rfl).mp ⟨obj, ran⟩
      obtain ⟨-, symtab, header, symbols⟩ := readableFrom.resolve_left accepted
      exact (returns_parseProgs_iff scans mapped.points).mpr
        ⟨symtab, header, fun syms delivered => (symbols syms delivered).1⟩
    · obtain ⟨-, accepted, -, symtab, syms, header, delivered, -, handler⟩ :=
        (reaches_iff platform path uninitialised scans).mp ⟨final, ran⟩
      obtain ⟨-, other, same, symbols⟩ := readableFrom.resolve_left accepted
      obtain rfl := Option.some.inj (header.symm.trans same)
      have relas := (symbols syms delivered).2 handler
      obtain ⟨obj, maps, progs⟩ := (andThen_cases ran).resolve_right fun failed =>
        failed.2 rfl
      have mapped := parseProgs_mapped scans (parseMaps_mapped maps).1 progs
      obtain ⟨relaDyn, data, found, resolved⟩ := relas
      have pointer : final.relaDynScn = file.scnPtr shstrndx .relaDyn := by
        obtain ⟨idx, isFound, -⟩ := Option.bind_eq_some_iff.mp found
        rw [mapped.relaDynScn, ElfFile.scnPtr, isFound]
        rfl
      exact (returns_parseRelaDyn_iff found pointer mapped.points.dynsymScn).mpr
        ⟨data, resolved⟩
  · obtain ⟨final, -, failed⟩ := parseElf_of_not_scans platform path uninitialised scannable
    exact returns_of_failure failed

/-- If the parser comes back whatever the uninitialised pointer holds, it can
read the file. -/
theorem readable_of_returns
    (returns : Returns (parseElf platform file) (new path file.bytes .wild)) :
    file.Readable := by
  intro shstrndx scans
  rw [returns_congr (parseElf_of_scans platform scans), returns_andThen_iff,
    returns_andThen_iff, returns_parseMaps_iff points_afterScan rfl] at returns
  obtain ⟨⟨mapsReturn, progsReturn⟩, relasReturn⟩ := returns
  by_cases rejected : file.MapsRejected shstrndx
  · exact .inl rejected
  · have mapsReadable := mapsReturn.resolve_left rejected
    obtain ⟨obj, ran⟩ :=
      (parseMaps_success_iff points_afterScan rfl).mpr ⟨rejected, mapsReadable⟩
    obtain ⟨mapped, unhandled⟩ := parseMaps_mapped ran
    obtain ⟨symtab, header, symbols⟩ :=
      (returns_parseProgs_iff scans mapped.points).mp (progsReturn obj ran)
    refine .inr ⟨mapsReadable, symtab, header, fun syms delivered => ?_⟩
    have progsReadable := symbols syms delivered
    refine ⟨progsReadable, fun handler => ?_⟩
    obtain ⟨final, parsed⟩ := (parseProgs_success_iff scans mapped.points unhandled).mpr
      ⟨symtab, syms, header, delivered, progsReadable, handler⟩
    have returned := relasReturn final ((andThen_of_success ran).trans parsed)
    have finalMapped := parseProgs_mapped scans mapped parsed
    cases found : file.found shstrndx .relaDyn with
    | none =>
        have unset : final.relaDynScn = .wild := by
          rw [finalMapped.relaDynScn, found]
          rfl
        exact absurd returned (not_returns_of_crash (parseRelaDyn_wild unset))
    | some idx =>
        obtain ⟨relas, -, relaHeader⟩ := ElfFile.headerOf_of_found found
        have pointer : final.relaDynScn = file.scnPtr shstrndx .relaDyn := by
          rw [finalMapped.relaDynScn, ElfFile.scnPtr, found]
          rfl
        obtain ⟨data, relaData, resolved⟩ := (returns_parseRelaDyn_iff relaHeader pointer
          finalMapped.points.dynsymScn).mp returned
        exact ⟨relas, data, relaHeader, relaData, resolved⟩

theorem mapped_of_parseElf {obj : RexObj file.size}
    (ran : parseElf platform file (new path file.bytes uninitialised) =
      .ok (.success, obj)) :
    ∃ shstrndx, obj.mapsScn = file.scnPtr shstrndx .maps ∧
      ∀ idx maps, file.found shstrndx .maps = some idx →
        file.scns[idx]?.join = some maps →
        ∃ data, file.getdata idx = some data ∧
          ∀ entry ∈ obj.mapDefs, maps.Backs data entry.1 := by
  by_cases scannable : ∃ shstrndx, file.Scans shstrndx
  · obtain ⟨shstrndx, scans⟩ := scannable
    rw [parseElf_of_scans platform scans] at ran
    rcases andThen_cases ran with ⟨parsed, prepared, relas⟩ | ⟨_, failed⟩
    · obtain ⟨mappedObj, maps, progs⟩ := (andThen_cases prepared).resolve_right fun failed =>
        failed.2 rfl
      have mapped := parseProgs_mapped scans (parseMaps_mapped maps).1 progs
      have kept := parseRelaDyn_mapsKept parsed parsed _ obj (.refl parsed) relas
      refine ⟨shstrndx, kept.mapsScn.trans mapped.points.mapsScn, ?_⟩
      rw [kept.mapDefs]
      exact mapped.backed
    · exact absurd rfl failed
  · obtain ⟨final, -, failed⟩ := parseElf_of_not_scans platform path uninitialised scannable
    cases ran.symm.trans failed

end Stages

end RexObj

/-- Parsing and then fixing the maps comes back with a code, whatever is in the
uninitialised memory and whatever the kernel answers, exactly for the files that
the parser can read. -/
theorem loader_in_range_iff (platform : Platform) (path : String) (file : ElfFile)
    (delivers : file.DeliversFromFile) (loader : Loader file.size) :
    (∀ (kernel : Kernel) (uninitialised : ScnPtr),
      Returns (andThen (Loader.parseElf platform file) (Loader.fixMaps kernel file))
        { loader with obj := .new path file.bytes uninitialised }) ↔
      file.Readable := by
  constructor
  · intro returns
    obtain ⟨⟨status, parsedLoader, ran, caught⟩, -⟩ :=
      returns_andThen_iff.mp (returns .willing .wild)
    obtain ⟨⟨parsedStatus, obj⟩, parsed, built⟩ := bind_eq_ok.mp ran
    cases built
    exact RexObj.readable_of_returns ⟨status, obj, parsed, caught⟩
  · intro readable kernel uninitialised
    rw [returns_andThen_iff]
    constructor
    · obtain ⟨status, obj, parsed, caught⟩ := RexObj.returns_parseElf platform readable
      exact ⟨status, _, bind_eq_ok.mpr ⟨_, parsed, rfl⟩, caught⟩
    · intro next ran
      obtain ⟨⟨parsedStatus, obj⟩, parsed, built⟩ := bind_eq_ok.mp ran
      cases built
      obtain ⟨shstrndx, pointer, backed⟩ := RexObj.mapped_of_parseElf parsed
      exact Loader.returns_fixMaps kernel delivers pointer backed

def relocatedFile : ElfFile where
  size := 48
  size_lt := by decide
  bytes := #v[1, 0, 0, 0, 18, 0, 1, 0, 16, 0, 0, 0, 0, 0, 0, 0, 1, 0, 0, 0, 0, 0, 0, 0,
    64, 0, 0, 0, 0, 0, 0, 0, 8, 0, 0, 0, 0, 0, 0, 0, 16, 0, 0, 0, 0, 0, 0, 0]
  shstrndx := some 3
  scns := [some ⟨0, 0, 0, 0, 0, 0⟩, some ⟨1, 2, 0, 0, 24, 4⟩, some ⟨2, 4, 0, 24, 24, 0⟩]
  strptr table name :=
    if table = 4 then some "__rex_handle_timeout"
    else if name = 1 then some ".symtab"
    else some ".rela.dyn"
  getdata idx :=
    if idx = 1 then
      some (.ofBytes [1, 0, 0, 0, 18, 0, 1, 0, 16, 0, 0, 0, 0, 0, 0, 0, 1, 0, 0, 0, 0, 0, 0, 0])
    else if idx = 2 then
      some (.ofBytes [64, 0, 0, 0, 0, 0, 0, 0, 8, 0, 0, 0, 0, 0, 0, 0, 16, 0, 0, 0, 0, 0, 0, 0])
    else
      none

theorem relocatedFile_delivers : relocatedFile.DeliversFromFile := by
  intro idx sh data header delivered filled
  simp only [relocatedFile] at header delivered
  split at delivered
  · subst_vars
    cases header
    cases delivered
    decide
  · split at delivered
    · subst_vars
      cases header
      cases delivered
      decide
    · cases delivered

theorem relocatedFile_readable : relocatedFile.Readable := by
  rintro shstrndx ⟨index, -⟩
  cases index
  have unmapped : relocatedFile.found 3 .maps = none := by decide
  refine .inr ⟨RexObj.mapsReadable_of_absent unmapped, _, rfl, ?_⟩
  rintro syms ⟨⟩
  refine ⟨⟨?_, ?_⟩, fun _ => ⟨_, _, rfl, rfl, .inr ?_⟩⟩
  · intro empty
    cases empty
  · intro sym member
    cases List.mem_singleton.mp member
    exact fun _ => ⟨rfl, rfl⟩
  · refine handles_cons_iff.mpr ⟨.inl ⟨_, rfl, .inl rfl⟩, fun _ => ?_⟩
    intro before item after impossible
    simp at impossible

def relocatedLoader : Loader relocatedFile.size :=
  ⟨.new "prog" relocatedFile.bytes .null, [], false, none⟩

theorem loader_in_range_iff_relocated :
    relocatedFile.DeliversFromFile ∧
      Returns (andThen (Loader.parseElf .plain relocatedFile)
        (Loader.fixMaps .willing relocatedFile))
        { relocatedLoader with obj := .new "prog" relocatedFile.bytes .wild } :=
  ⟨relocatedFile_delivers, (loader_in_range_iff .plain "prog" relocatedFile
    relocatedFile_delivers relocatedLoader).mpr relocatedFile_readable .willing .wild⟩

/-- A file without sections, as `strip` can leave it. -/
def strippedFile : ElfFile :=
  { emptyFile with
    shstrndx := some 0
    scns := [some ⟨0, 0, 0, 0, 0, 0⟩] }

def strippedLoader (uninitialised : ScnPtr) : Loader strippedFile.size :=
  ⟨.new "prog" strippedFile.bytes uninitialised, [], false, none⟩

/-- The symbol table that was not found is dereferenced. -/
theorem stripped_file_crashes :
    ¬ ∀ (platform : Platform) (path : String) (file : ElfFile) (loader : Loader file.size)
      (kernel : Kernel) (uninitialised : ScnPtr),
      Returns (andThen (Loader.parseElf platform file) (Loader.fixMaps kernel file))
        { loader with obj := .new path file.bytes uninitialised } := by
  intro always
  have crashed : andThen (Loader.parseElf .plain strippedFile)
      (Loader.fixMaps .willing strippedFile) (strippedLoader .null) =
        .error .nullDereference := rfl
  exact not_returns_of_crash crashed
    (always .plain "prog" strippedFile (strippedLoader .null) .willing .null)

/-! The part of the object that the uninitialised pointer could influence. -/

namespace RexObj

variable {platform : Platform} {file : ElfFile} {size : Nat}

structure Parsed where
  mapDefs : MapDefs
  progs : List RexProg
  dynRelas : List RexRelaDyn
  dynSyms : List RexDynSym
  textSyms : List (String × UInt64 × UInt64)
  timeoutHandlerOff : Option UInt64

def parsed (obj : RexObj size) : Parsed where
  mapDefs := obj.mapDefs
  progs := obj.progs
  dynRelas := obj.dynRelas
  dynSyms := obj.dynSyms
  textSyms := obj.textSyms
  timeoutHandlerOff := obj.timeoutHandlerOff

def parseResult (platform : Platform) (path : String) (file : ElfFile)
    (uninitialised : ScnPtr) : Except Crash (Status × Parsed) :=
  (parseElf platform file (new path file.bytes uninitialised)).map fun returned =>
    (returned.1, returned.2.parsed)

def withRela (pointer : ScnPtr) (obj : RexObj size) : RexObj size :=
  { obj with relaDynScn := pointer }

section Commutes

variable (pointer : ScnPtr) {shstrndx : Nat}

theorem parseMap_commutes (maps : ElfData) (strtabidx mapsShndx : Nat)
    (mapsShaddr : UInt64) (sym : Elf64Sym) (obj : RexObj size) :
    CommutesAt (withRela pointer)
      (parseMap platform file maps strtabidx mapsShndx mapsShaddr sym) obj := by
  unfold CommutesAt parseMap
  split
  · change (Platform.tryEmplace _ obj.mapDefs _ _ >>= _) = _
    cases Platform.tryEmplace platform obj.mapDefs sym.stValue
      (RexMap.new maps mapsShaddr sym.stValue (file.strptr strtabidx sym.stName)) with
    | error crash => rfl
    | ok emplaced => rfl
  · rfl

theorem parseMaps_commutes {obj : RexObj size} (points : obj.Points file shstrndx) :
    CommutesAt (withRela pointer) (parseMaps platform file) obj := by
  have changed : (withRela pointer obj).Points file shstrndx :=
    ⟨points.symtabScn, points.dynsymScn, points.mapsScn⟩
  unfold CommutesAt
  rcases parseMaps_cases platform file shstrndx size with
    ⟨-, ran⟩ | ⟨-, ran⟩ | ⟨_, _, _, _, syms, -, ran⟩
  · rw [ran _ changed, ran _ points]
    rfl
  · rw [ran _ changed, ran _ points]
    rfl
  · rw [ran _ changed, ran _ points]
    cases syms.syms with
    | error crash => rfl
    | ok symbols =>
        exact commutesAt_each (fun _ => parseMap_commutes pointer _ _ _ _ _) _ obj

theorem withProg_withRela (symName scnName : String) (sym : Elf64Sym)
    (obj : RexObj size) :
    withProg platform symName scnName sym (withRela pointer obj) =
      withRela pointer (withProg platform symName scnName sym obj) := by
  unfold withProg noteTimeoutHandler addTextSym
  cases platform.findSecDef scnName with
  | none => split <;> split <;> rfl
  | some secDef => split <;> split <;> rfl

theorem parseProg_commutes (strtabidx : Nat) (sym : Elf64Sym) (obj : RexObj size) :
    CommutesAt (withRela pointer) (parseProg platform file shstrndx strtabidx sym)
      obj := by
  unfold CommutesAt
  by_cases func : file.IsFunc sym
  · by_cases named : (file.named shstrndx sym.stShndx).isSome ∧
        (file.strptr strtabidx sym.stName).isSome
    · obtain ⟨scn, scnNamed⟩ := Option.isSome_iff_exists.mp named.1
      obtain ⟨symName, symNamed⟩ := Option.isSome_iff_exists.mp named.2
      rw [parseProg_of_func func scnNamed symNamed,
        parseProg_of_func func scnNamed symNamed, withProg_withRela]
      rfl
    · obtain ⟨crash, crashed⟩ := parseProg_crashes platform func named
      rw [crashed, crashed]
      rfl
  · rw [parseProg_of_other func, parseProg_of_other func]
    rfl

theorem requireHandler_commutes (obj : RexObj size) :
    CommutesAt (withRela pointer) requireHandler obj := by
  unfold CommutesAt requireHandler withRela
  dsimp only
  split <;> rfl

theorem parseProgs_commutes (scans : file.Scans shstrndx) {obj : RexObj size}
    (points : obj.Points file shstrndx) :
    CommutesAt (withRela pointer) (parseProgs platform file) obj := by
  have changed : (withRela pointer obj).Points file shstrndx :=
    ⟨points.symtabScn, points.dynsymScn, points.mapsScn⟩
  unfold CommutesAt
  rcases parseProgs_cases platform size scans with
    ⟨-, ran⟩ | ⟨symtab, -, ⟨-, ran⟩ | ⟨syms, -, ran⟩⟩
  · rw [ran _ changed, ran _ points]
    rfl
  · rw [ran _ changed, ran _ points]
    rfl
  · rw [ran _ changed, ran _ points]
    cases syms.syms with
    | error crash => rfl
    | ok symbols =>
        exact CommutesAt.andThen
          (commutesAt_each (parseProg_commutes pointer symtab.shLink) _ obj)
          fun next _ => requireHandler_commutes pointer next

end Commutes

theorem parseScns_parsed (seen : Parsed) :
    Keeps (fun obj : RexObj size => obj.parsed = seen) (parseScns file) := by
  intro obj status final same ran
  unfold parseScns at ran
  split at ran
  · cases ran
    exact same
  · rename_i shstrndx _
    have step (idx : Nat) : Keeps (fun obj : RexObj size => obj.parsed = seen)
        (parseScn file shstrndx idx) := by
      intro obj status final same ran
      cases named : file.named shstrndx idx with
      | none =>
          cases ran.symm.trans (parseScn_of_unnamed named obj)
          exact same
      | some scn =>
          cases ran.symm.trans (parseScn_of_named named obj)
          cases file.kindAt shstrndx idx with
          | none => exact same
          | some kind => cases kind <;> exact same
    exact Keeps.each step _ obj status final same ran

theorem parseResult_of_not_scans (platform : Platform) (path : String)
    (unreadable : ¬ ∃ shstrndx, file.Scans shstrndx) (uninitialised : ScnPtr) :
    parseResult platform path file uninitialised =
      .ok (.failure, (new path file.bytes .null).parsed) := by
  obtain ⟨final, scan, failed⟩ :=
    parseElf_of_not_scans platform path uninitialised unreadable
  have seen := parseScns_parsed (new path file.bytes .null).parsed
    (new path file.bytes uninitialised) _ final rfl scan
  rw [parseResult, failed]
  exact congrArg (fun fields => Except.ok (Status.failure, fields)) seen

theorem afterScan_of_found {shstrndx idx : Nat} (path : String)
    (found : file.found shstrndx .relaDyn = some idx) (first second : ScnPtr) :
    afterScan path file shstrndx first = afterScan path file shstrndx second := by
  have last : file.lastOf shstrndx file.scnIdxs .relaDyn = some idx := found
  simp only [afterScan, scanned, new, last, Option.elim]

theorem afterScan_of_absent {shstrndx : Nat} (path : String)
    (absent : file.found shstrndx .relaDyn = none) (uninitialised : ScnPtr) :
    afterScan path file shstrndx uninitialised =
      withRela uninitialised (afterScan path file shstrndx .null) := by
  have last : file.lastOf shstrndx file.scnIdxs .relaDyn = none := absent
  simp only [afterScan, scanned, new, withRela, last, Option.elim]

theorem parseResult_of_short {shstrndx : Nat} (scans : file.Scans shstrndx) (path : String)
    (absent : file.found shstrndx .relaDyn = none)
    (short : ¬ file.ReachesRelocations shstrndx) (uninitialised : ScnPtr) :
    parseResult platform path file uninitialised =
      parseResult platform path file .null := by
  let before : Proc Crash (RexObj file.size) :=
    andThen (parseMaps platform file) (parseProgs platform file)
  have commutes : CommutesAt (withRela uninitialised) before
      (afterScan path file shstrndx .null) := by
    refine (parseMaps_commutes uninitialised points_afterScan).andThen fun next ran => ?_
    exact parseProgs_commutes uninitialised scans (parseMaps_mapped ran).1.points
  have stops : ¬ Succeeds before (afterScan path file shstrndx .null) :=
    fun succeeds => short ((reaches_iff platform path .null scans).mp succeeds)
  rw [parseResult, parseResult, parseElf_of_scans platform scans,
    parseElf_of_scans platform scans, afterScan_of_absent path absent uninitialised]
  change Except.map _ (andThen before _ _) = Except.map _ (andThen before _ _)
  rw [andThen, andThen, commutes]
  cases ran : before (afterScan path file shstrndx .null) with
  | error crash => rfl
  | ok returned =>
      obtain ⟨status, final⟩ := returned
      cases status with
      | success => exact absurd ⟨final, ran⟩ stops
      | failure | thrown => rfl

end RexObj

/-- The result of parsing depends on the file only, exactly if every file that
gets as far as the relocations has a section of them. -/
theorem parse_result_unique_iff (platform : Platform) (path : String) (file : ElfFile) :
    (∀ first second : ScnPtr,
      RexObj.parseResult platform path file first =
        RexObj.parseResult platform path file second) ↔
      ∀ shstrndx, file.ReachesRelocations shstrndx →
        (file.found shstrndx .relaDyn).isSome := by
  constructor
  · intro same shstrndx reaches
    have scans := reaches.1
    by_contra absent
    have absent := Option.not_isSome_iff_eq_none.mp absent
    -- with the pointer unset, the last part of the parser sees what it held before
    have runs (uninitialised : ScnPtr) : ∃ obj : RexObj file.size,
        obj.relaDynScn = uninitialised ∧
          RexObj.parseResult platform path file uninitialised =
            (RexObj.parseRelaDyn file obj).map fun returned =>
              (returned.1, returned.2.parsed) := by
      obtain ⟨obj, ran⟩ :=
        (RexObj.reaches_iff platform path uninitialised scans).mpr reaches
      obtain ⟨mapsObj, maps, progs⟩ := (andThen_cases ran).resolve_right fun failed =>
        failed.2 rfl
      have mapped := RexObj.parseProgs_mapped scans (RexObj.parseMaps_mapped maps).1 progs
      refine ⟨obj, ?_, ?_⟩
      · rw [mapped.relaDynScn, absent]
        rfl
      · rw [RexObj.parseResult, RexObj.parseElf_of_scans platform scans,
          andThen_of_success ran]
    obtain ⟨nullObj, isNull, nullRun⟩ := runs .null
    obtain ⟨wildObj, isWild, wildRun⟩ := runs .wild
    have impossible := (nullRun.symm.trans (same .null .wild)).trans wildRun
    rw [RexObj.parseRelaDyn_wild isWild, RexObj.parseRelaDyn, if_pos isNull] at impossible
    cases impossible
  · intro found first second
    by_cases scannable : ∃ shstrndx, file.Scans shstrndx
    · obtain ⟨shstrndx, scans⟩ := scannable
      cases isFound : file.found shstrndx .relaDyn with
      | none =>
          have short : ¬ file.ReachesRelocations shstrndx := by
            intro reaches
            have impossible := found shstrndx reaches
            rw [isFound] at impossible
            cases impossible
          exact (RexObj.parseResult_of_short scans path isFound short first).trans
            (RexObj.parseResult_of_short scans path isFound short second).symm
      | some idx =>
          rw [RexObj.parseResult, RexObj.parseResult,
            RexObj.parseElf_of_scans platform scans,
            RexObj.parseElf_of_scans platform scans,
            RexObj.afterScan_of_found path isFound first second]
    · rw [RexObj.parseResult_of_not_scans platform path scannable,
        RexObj.parseResult_of_not_scans platform path scannable]

/-- A file without relocations is parsed, or crashes the loader. -/
theorem parse_result_not_unique :
    ¬ ∀ (platform : Platform) (path : String) (file : ElfFile) (first second : ScnPtr),
      RexObj.parseResult platform path file first =
        RexObj.parseResult platform path file second := by
  intro always
  have same := always .plain "prog" timeoutFile .null .wild
  have differs : (RexObj.parseResult .plain "prog" timeoutFile .null).isOk ≠
      (RexObj.parseResult .plain "prog" timeoutFile .wild).isOk := by
    decide +kernel
  exact differs (congrArg Except.isOk same)

end Rex.Librex
