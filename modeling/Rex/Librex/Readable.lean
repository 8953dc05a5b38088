import Rex.Librex.Sections

namespace Rex.Librex

open Procedure

/-! The files that each part of the parser can read.  A part returns an error for
the sections that libelf cannot deliver; what the sections contain is used as it
is. -/

namespace ElfData

def Holds (data : ElfData) (offset len : Nat) : Prop :=
  data.dBuf.isSome ∧ offset + len ≤ data.dSize

instance (data : ElfData) (offset len : Nat) : Decidable (data.Holds offset len) :=
  inferInstanceAs (Decidable (_ ∧ _))

theorem view_of_holds {data : ElfData} {offset len : Nat} (holds : data.Holds offset len) :
    ∃ raw, data.view offset len = .ok raw := by
  obtain ⟨filled, inRange⟩ := holds
  obtain ⟨buf, filled⟩ := Option.isSome_iff_exists.mp filled
  rw [← data.length_dBuf buf filled] at inRange
  refine ⟨(buf.drop offset).take len, ?_⟩
  simp only [view, filled, if_pos inRange]

theorem view_of_not_holds {data : ElfData} {offset len : Nat}
    (outside : ¬ data.Holds offset len) : ∃ crash, data.view offset len = .error crash := by
  unfold view
  cases filled : data.dBuf with
  | none => exact ⟨_, rfl⟩
  | some buf =>
      refine ⟨_, if_neg fun inRange => outside ⟨Option.isSome_of_eq_some filled, ?_⟩⟩
      rwa [data.length_dBuf buf filled] at inRange

theorem sym_of_holds {data : ElfData} {idx : Nat} (holds : data.Holds (24 * idx) 24) :
    ∃ sym, data.sym idx = .ok sym := by
  obtain ⟨raw, read⟩ := view_of_holds holds
  exact ⟨_, by rw [sym, read]; rfl⟩

theorem sym_of_not_holds {data : ElfData} {idx : Nat}
    (outside : ¬ data.Holds (24 * idx) 24) : ∃ crash, data.sym idx = .error crash := by
  obtain ⟨crash, unread⟩ := view_of_not_holds outside
  exact ⟨crash, by rw [sym, unread]; rfl⟩

theorem nrSyms_le (data : ElfData) : data.nrSyms.toInt.toNat ≤ data.dSize / 24 := by
  have size : Int32.size = 2 ^ 32 := rfl
  unfold nrSyms
  rw [Int32.toInt_ofNat', Int.bmod_def, size]
  generalize data.dSize / 24 = count
  split <;> omega

def HoldsSyms (data : ElfData) : Prop :=
  data.dBuf = none → data.nrSyms.toInt.toNat = 0

/-- The symbols of a table, as many as an `int` can count. -/
def symbols (data : ElfData) : List Elf64Sym :=
  data.syms.toOption.getD []

def relaAt (data : ElfData) (idx : Nat) : Option RexRelaDyn :=
  (data.rela idx).toOption

end ElfData

theorem exists_mapM_ok {α β Failure : Type} {f : α → Except Failure β} {list : List α}
    (ok : ∀ item ∈ list, ∃ value, f item = .ok value) :
    ∃ values, list.mapM f = .ok values := by
  induction list with
  | nil => exact ⟨[], rfl⟩
  | cons item rest induction =>
      obtain ⟨value, read⟩ := ok item List.mem_cons_self
      obtain ⟨values, others⟩ :=
        induction fun other member => ok other (List.mem_cons_of_mem _ member)
      refine ⟨value :: values, ?_⟩
      rw [List.mapM_cons, read, others]
      rfl

theorem exists_mem_snoc {α : Type} {before : List α} {last : α} {p : α → Prop} :
    (∃ item ∈ before ++ [last], p item) ↔ (∃ item ∈ before, p item) ∨ p last := by
  simp only [List.mem_append, List.mem_singleton, or_and_right, exists_or,
    exists_eq_left]

namespace ElfData

theorem syms_eq_ok {data : ElfData} (holds : data.HoldsSyms) :
    data.syms = .ok data.symbols := by
  have read : ∃ syms, data.syms = .ok syms := by
    apply exists_mapM_ok
    intro idx member
    have counted := List.mem_range.mp member
    have inTable := data.nrSyms_le
    refine sym_of_holds ⟨?_, by omega⟩
    rw [Option.isSome_iff_ne_none]
    intro empty
    have := holds empty
    omega
  obtain ⟨syms, read⟩ := read
  rw [symbols, read]
  rfl

theorem syms_eq_error {data : ElfData} (missing : ¬ data.HoldsSyms) :
    data.syms = .error .nullDereference := by
  rw [HoldsSyms, Classical.not_imp] at missing
  obtain ⟨empty, counted⟩ := missing
  obtain ⟨count, same⟩ := Nat.exists_eq_succ_of_ne_zero counted
  have unread : data.sym 0 = .error .nullDereference := by
    simp only [sym, view, empty]
    rfl
  rw [syms, same, List.range_succ_eq_map, List.mapM_cons, unread]
  rfl

theorem relaAt_eq_some_iff {data : ElfData} {idx : Nat} {rela : RexRelaDyn} :
    data.relaAt idx = some rela ↔ data.rela idx = .ok rela := by
  rw [relaAt]
  cases data.rela idx with
  | error crash => simp only [Except.toOption, reduceCtorEq]
  | ok other => simp only [Except.toOption, Option.some.injEq, Except.ok.injEq]

end ElfData

/-- libelf takes the data of a section from where its header says it is in the
file. -/
def ElfFile.DeliversFromFile (file : ElfFile) : Prop :=
  ∀ idx sh data, file.scns[idx]?.join = some sh → file.getdata idx = some data →
    data.dBuf.isSome → sh.shOffset.toNat + data.dSize ≤ file.size

/-- The definition of a map at an address lies in the data of the section. -/
def Elf64Shdr.Backs (maps : Elf64Shdr) (data : ElfData) (value : UInt64) : Prop :=
  data.Holds (value - maps.shAddr).toNat mapDefSize

instance (maps : Elf64Shdr) (data : ElfData) (value : UInt64) :
    Decidable (maps.Backs data value) :=
  inferInstanceAs (Decidable (ElfData.Holds _ _ _))

namespace ElfFile

variable (file : ElfFile) (shstrndx : Nat)

/-- The first symbol that puts a map at its address has a name, and the map is in
the section. -/
def ReadsMap (mapsShndx : Nat) (maps : Elf64Shdr) (data : ElfData) (symtab : Elf64Shdr)
    (before : List Elf64Sym) (sym : Elf64Sym) : Prop :=
  RexObj.IsMapSym mapsShndx sym →
    (∀ earlier ∈ before, RexObj.IsMapSym mapsShndx earlier →
      earlier.stValue ≠ sym.stValue) →
    (file.strptr symtab.shLink sym.stName).isSome ∧ maps.Backs data sym.stValue

def MapsRejected : Prop :=
  (file.found shstrndx .maps).isSome ∧
    (file.dataOf shstrndx .symtab = none ∨ file.dataOf shstrndx .maps = none)

/-- Some sections as the scan finds them and libelf delivers them. -/
structure HasMaps (idx : Nat) (maps : Elf64Shdr) (data : ElfData) (symtab : Elf64Shdr)
    (syms : ElfData) : Prop where
  found : file.found shstrndx .maps = some idx
  maps : file.headerOf shstrndx .maps = some maps
  data : file.dataOf shstrndx .maps = some data
  symtab : file.headerOf shstrndx .symtab = some symtab
  syms : file.dataOf shstrndx .symtab = some syms

def MapsReadable : Prop :=
  ∀ idx maps data symtab syms, file.HasMaps shstrndx idx maps data symtab syms →
    syms.HoldsSyms ∧ Passes (file.ReadsMap idx maps data symtab) syms.symbols

def IsFunc (sym : Elf64Sym) : Prop :=
  sym.stType = sttFunc ∧ sym.stShndx < file.scns.length

def ReadsProg (symtab : Elf64Shdr) (sym : Elf64Sym) : Prop :=
  file.IsFunc sym → (file.named shstrndx sym.stShndx).isSome ∧
    (file.strptr symtab.shLink sym.stName).isSome

def ProgsReadable (symtab : Elf64Shdr) (syms : ElfData) : Prop :=
  syms.HoldsSyms ∧ ∀ sym ∈ syms.symbols, file.ReadsProg shstrndx symtab sym

def HasTimeoutHandler (symtab : Elf64Shdr) (syms : ElfData) : Prop :=
  ∃ sym ∈ syms.symbols, file.IsFunc sym ∧
    file.strptr symtab.shLink sym.stName = some "__rex_handle_timeout"

/-- A relocation of a supported type, whose symbol is in the dynamic table. -/
def Resolves (rela : RexRelaDyn) : Prop :=
  rela.rType = rX8664Relative ∨ rela.rType = rX8664GlobDat ∧
    ∃ syms, file.dataOf shstrndx .dynsym = some syms ∧ syms.Holds (24 * rela.rSym) 24

def RelasResolve (relas : Elf64Shdr) (data : ElfData) : Prop :=
  Handles (fun _ idx => ∃ rela, data.relaAt idx = some rela ∧
      file.Resolves shstrndx rela)
    (fun _ idx => ∃ rela, data.relaAt idx = some rela ∧
      rela.rType ≠ rX8664Relative ∧ rela.rType ≠ rX8664GlobDat)
    (List.range (relas.shSize.toNat / 24))

/-- The data is dereferenced before the size of the section is looked at. -/
def RelasReadable : Prop :=
  ∃ relas data, file.headerOf shstrndx .relaDyn = some relas ∧
    file.dataOf shstrndx .relaDyn = some data ∧
    (relas.shSize.toNat % 24 ≠ 0 ∨ file.RelasResolve shstrndx relas data)

variable {file shstrndx}

/-- The sections are those of the scan, so there is one choice of them. -/
theorem HasMaps.unique {idx otherIdx : Nat} {maps otherMaps symtab otherSymtab : Elf64Shdr}
    {data otherData syms otherSyms : ElfData}
    (sections : file.HasMaps shstrndx idx maps data symtab syms)
    (others : file.HasMaps shstrndx otherIdx otherMaps otherData otherSymtab otherSyms) :
    otherIdx = idx ∧ otherMaps = maps ∧ otherData = data ∧ otherSymtab = symtab ∧
      otherSyms = syms :=
  ⟨Option.some.inj (others.found.symm.trans sections.found),
    Option.some.inj (others.maps.symm.trans sections.maps),
    Option.some.inj (others.data.symm.trans sections.data),
    Option.some.inj (others.symtab.symm.trans sections.symtab),
    Option.some.inj (others.syms.symm.trans sections.syms)⟩

theorem HasMaps.accepted {idx : Nat} {maps symtab : Elf64Shdr} {data syms : ElfData}
    (sections : file.HasMaps shstrndx idx maps data symtab syms) :
    ¬ file.MapsRejected shstrndx := by
  rintro ⟨-, missing | missing⟩
  · cases missing.symm.trans sections.syms
  · cases missing.symm.trans sections.data

end ElfFile

namespace RexObj

variable {platform : Platform} {file : ElfFile} {size shstrndx : Nat}

/-! The maps. -/

section Maps

variable {mapsShndx : Nat} {maps symtab : Elf64Shdr} {data syms : ElfData}

theorem new_of_backs {off : UInt64} (backs : maps.Backs data off) (name : String) :
    ∃ map, RexMap.new data maps.shAddr off (some name) = .ok (some map) := by
  obtain ⟨raw, read⟩ := ElfData.view_of_holds backs
  simp only [RexMap.new, read]
  exact ⟨_, rfl⟩

theorem new_of_not_backs {off : UInt64} (outside : ¬ maps.Backs data off) (name : String) :
    ∃ crash, RexMap.new data maps.shAddr off (some name) = .error crash := by
  obtain ⟨crash, unread⟩ := ElfData.view_of_not_holds outside
  refine ⟨crash, ?_⟩
  rw [RexMap.new, unread]
  rfl

/-- The object after the symbols before some point. -/
structure MapsParsed (start : RexObj size) (mapsShndx : Nat) (maps : Elf64Shdr)
    (data : ElfData) (before : List Elf64Sym) (obj : RexObj size) : Prop where
  kept : obj = { start with mapDefs := obj.mapDefs }
  keys : ∀ value, value ∈ obj.mapDefs.map Prod.fst ↔
    ∃ sym ∈ before, IsMapSym mapsShndx sym ∧ sym.stValue = value
  backed : ∀ entry ∈ obj.mapDefs, maps.Backs data entry.1

theorem MapsParsed.skip {start obj : RexObj size} {before : List Elf64Sym}
    {sym : Elf64Sym} (parsed : MapsParsed start mapsShndx maps data before obj)
    (known : IsMapSym mapsShndx sym → sym.stValue ∈ obj.mapDefs.map Prod.fst) :
    MapsParsed start mapsShndx maps data (before ++ [sym]) obj := by
  refine ⟨parsed.kept, fun value => ?_, parsed.backed⟩
  have old : IsMapSym mapsShndx sym ∧ sym.stValue = value →
      ∃ earlier ∈ before, IsMapSym mapsShndx earlier ∧ earlier.stValue = value := by
    rintro ⟨isMap, rfl⟩
    exact (parsed.keys _).mp (known isMap)
  rw [parsed.keys, exists_mem_snoc, or_iff_left_of_imp old]

theorem MapsParsed.add (platform : Platform) {start obj : RexObj size} {before : List Elf64Sym}
    {sym : Elf64Sym} (parsed : MapsParsed start mapsShndx maps data before obj)
    (isMap : IsMapSym mapsShndx sym) (backs : maps.Backs data sym.stValue)
    (map : RexMap) :
    MapsParsed start mapsShndx maps data (before ++ [sym])
      { obj with
        mapDefs := platform.arrange ((sym.stValue, map) :: obj.mapDefs) } := by
  have perm := platform.arrange_perm ((sym.stValue, map) :: obj.mapDefs)
  refine ⟨?_, fun value => ?_, fun entry member => ?_⟩
  · rw [parsed.kept]
  · rw [(perm.map Prod.fst).mem_iff, List.map_cons, List.mem_cons, parsed.keys,
      exists_mem_snoc, and_iff_right isMap, or_comm, eq_comm]
  · rcases List.mem_cons.mp (perm.mem_iff.mp member) with rfl | earlier
    · exact backs
    · exact parsed.backed entry earlier

theorem judges_parseMap (platform : Platform) (file : ElfFile) (mapsShndx : Nat)
    (maps : Elf64Shdr) (data : ElfData) (symtab : Elf64Shdr) (start : RexObj size) :
    Judges (parseMap platform file data symtab.shLink mapsShndx maps.shAddr)
      (MapsParsed start mapsShndx maps data) (file.ReadsMap mapsShndx maps data symtab)
      (fun _ _ => False) where
  accepts before sym obj parsed reads := by
    by_cases isMap : IsMapSym mapsShndx sym
    · by_cases known : sym.stValue ∈ obj.mapDefs.map Prod.fst
      · refine ⟨obj, ?_, parsed.skip fun _ => known⟩
        simp only [parseMap, if_pos isMap, Platform.tryEmplace, if_pos known]
        rfl
      · have first : ∀ earlier ∈ before, IsMapSym mapsShndx earlier →
            earlier.stValue ≠ sym.stValue :=
          fun earlier member isMap same =>
            known ((parsed.keys _).mpr ⟨earlier, member, isMap, same⟩)
        obtain ⟨named, backs⟩ := reads isMap first
        obtain ⟨name, named⟩ := Option.isSome_iff_exists.mp named
        obtain ⟨map, constructed⟩ := new_of_backs backs name
        refine ⟨_, ?_, parsed.add platform isMap backs map⟩
        simp only [parseMap, if_pos isMap, Platform.tryEmplace, if_neg known, named,
          constructed]
        rfl
    · refine ⟨obj, ?_, parsed.skip fun both => absurd both isMap⟩
      rw [parseMap, if_neg isMap]
      rfl
  rejects _ _ _ _ impossible := impossible.elim
  breaks before sym obj parsed refused _ := by
    rw [ElfFile.ReadsMap] at refused
    push Not at refused
    obtain ⟨isMap, first, unread⟩ := refused
    have known : sym.stValue ∉ obj.mapDefs.map Prod.fst := by
      rw [parsed.keys]
      rintro ⟨earlier, member, isMap, same⟩
      exact first earlier member isMap same
    cases named : file.strptr symtab.shLink sym.stName with
    | none =>
        have thrown : parseMap platform file data symtab.shLink mapsShndx maps.shAddr
            sym obj = .ok (.thrown, obj) := by
          simp only [parseMap, if_pos isMap, Platform.tryEmplace, if_neg known, named]
          rfl
        exact not_returns_of_thrown thrown
    | some name =>
        have outside := unread (Option.isSome_of_eq_some named)
        obtain ⟨crash, crashes⟩ := new_of_not_backs outside name
        have crashed : parseMap platform file data symtab.shLink mapsShndx maps.shAddr
            sym obj = .error crash := by
          simp only [parseMap, if_pos isMap, Platform.tryEmplace, if_neg known, named,
            crashes]
          rfl
        exact not_returns_of_crash crashed

structure Points (file : ElfFile) (shstrndx : Nat) (obj : RexObj size) : Prop where
  symtabScn : obj.symtabScn = file.scnPtr shstrndx .symtab
  dynsymScn : obj.dynsymScn = file.scnPtr shstrndx .dynsym
  mapsScn : obj.mapsScn = file.scnPtr shstrndx .maps

theorem parseMaps_of_absent {obj : RexObj size} (points : obj.Points file shstrndx)
    (absent : file.found shstrndx .maps = none) :
    parseMaps platform file obj = .ok (.success, obj) := by
  simp only [parseMaps, points.mapsScn, ElfFile.scnPtr, absent]
  rfl

theorem parseMaps_of_rejected {obj : RexObj size} (points : obj.Points file shstrndx)
    (rejected : file.MapsRejected shstrndx) :
    parseMaps platform file obj = .ok (.failure, obj) := by
  obtain ⟨present, missing⟩ := rejected
  obtain ⟨idx, found⟩ := Option.isSome_iff_exists.mp present
  have pointer : obj.mapsScn = .scn idx := by
    rw [points.mapsScn, ElfFile.scnPtr, found]
    rfl
  unfold parseMaps
  simp only [pointer]
  rw [← pointer, points.mapsScn, points.symtabScn, ElfFile.elfGetdata_scnPtr,
    ElfFile.elfGetdata_scnPtr]
  cases syms : file.dataOf shstrndx .symtab with
  | none => rfl
  | some data =>
      have absent : file.dataOf shstrndx .maps = none :=
        missing.resolve_left (by rw [syms]; exact Option.some_ne_none data)
      rw [absent]
      rfl

theorem parseMaps_eq_each {obj : RexObj size} (points : obj.Points file shstrndx)
    (sections : file.HasMaps shstrndx mapsShndx maps data symtab syms) :
    parseMaps platform file obj =
      syms.syms.bind fun symbols =>
        each (parseMap platform file data symtab.shLink mapsShndx maps.shAddr) symbols
          obj := by
  have pointer : obj.mapsScn = .scn mapsShndx := by
    rw [points.mapsScn, ElfFile.scnPtr, sections.found]
    rfl
  unfold parseMaps
  simp only [pointer]
  rw [← pointer, points.mapsScn, points.symtabScn, ElfFile.elfGetdata_scnPtr,
    ElfFile.elfGetdata_scnPtr, sections.data, sections.syms,
    ElfFile.header_scnPtr sections.maps, ElfFile.header_scnPtr sections.symtab]
  rfl

theorem parseMaps_cases (platform : Platform) (file : ElfFile) (shstrndx size : Nat) :
    file.MapsRejected shstrndx ∧ (∀ obj : RexObj size, obj.Points file shstrndx →
        parseMaps platform file obj = .ok (.failure, obj)) ∨
      file.found shstrndx .maps = none ∧ (∀ obj : RexObj size,
        obj.Points file shstrndx → parseMaps platform file obj = .ok (.success, obj)) ∨
      ∃ idx maps data symtab syms, file.HasMaps shstrndx idx maps data symtab syms ∧
        ∀ obj : RexObj size, obj.Points file shstrndx →
          parseMaps platform file obj =
            syms.syms.bind fun symbols =>
              each (parseMap platform file data symtab.shLink idx maps.shAddr) symbols
                obj := by
  by_cases rejected : file.MapsRejected shstrndx
  · exact .inl ⟨rejected, fun obj points => parseMaps_of_rejected points rejected⟩
  · cases found : file.found shstrndx .maps with
    | none => exact .inr (.inl ⟨rfl, fun obj points => parseMaps_of_absent points found⟩)
    | some idx =>
        obtain ⟨maps, -, header⟩ := ElfFile.headerOf_of_found found
        have delivered : file.dataOf shstrndx .symtab ≠ none ∧
            file.dataOf shstrndx .maps ≠ none := by
          refine ⟨fun none => ?_, fun none => ?_⟩
          · exact rejected ⟨Option.isSome_of_eq_some found, .inl none⟩
          · exact rejected ⟨Option.isSome_of_eq_some found, .inr none⟩
        obtain ⟨syms, table⟩ := Option.ne_none_iff_exists'.mp delivered.1
        obtain ⟨data, contents⟩ := Option.ne_none_iff_exists'.mp delivered.2
        obtain ⟨symtab, symtabHeader⟩ := ElfFile.headerOf_of_dataOf table
        have sections : file.HasMaps shstrndx idx maps data symtab syms :=
          ⟨found, header, contents, symtabHeader, table⟩
        exact .inr (.inr ⟨idx, maps, data, symtab, syms, sections,
          fun obj points => parseMaps_eq_each points sections⟩)

theorem mapsReadable_iff
    (sections : file.HasMaps shstrndx mapsShndx maps data symtab syms) :
    file.MapsReadable shstrndx ↔
      syms.HoldsSyms ∧ Passes (file.ReadsMap mapsShndx maps data symtab) syms.symbols := by
  constructor
  · intro readable
    exact readable _ _ _ _ _ sections
  · intro passes idx' maps' data' symtab' syms' others
    obtain ⟨rfl, rfl, rfl, rfl, rfl⟩ := sections.unique others
    exact passes

theorem mapsReadable_of_absent (absent : file.found shstrndx .maps = none) :
    file.MapsReadable shstrndx := by
  intro idx maps data symtab syms sections
  cases absent.symm.trans sections.found

theorem mapsParsed_start {obj : RexObj size} (unmapped : obj.mapDefs = []) :
    MapsParsed obj mapsShndx maps data [] obj := by
  refine ⟨rfl, fun value => ?_, fun entry member => ?_⟩
  · simp [unmapped]
  · rw [unmapped] at member
    exact absurd member List.not_mem_nil

theorem returns_parseMaps_iff {obj : RexObj size} (points : obj.Points file shstrndx)
    (unmapped : obj.mapDefs = []) :
    Returns (parseMaps platform file) obj ↔
      file.MapsRejected shstrndx ∨ file.MapsReadable shstrndx := by
  rcases parseMaps_cases platform file shstrndx size with
    ⟨rejected, ran⟩ | ⟨absent, ran⟩ | ⟨idx, maps, data, symtab, syms, sections, ran⟩
  · exact iff_of_true (returns_of_failure (ran obj points)) (.inl rejected)
  · exact iff_of_true (Succeeds.returns ⟨obj, ran obj points⟩)
      (.inr (mapsReadable_of_absent absent))
  · have judges := judges_parseMap platform file idx maps data symtab obj
    have ran := ran obj points
    rw [or_iff_right sections.accepted, mapsReadable_iff sections]
    by_cases holds : syms.HoldsSyms
    · rw [ElfData.syms_eq_ok holds] at ran
      rw [and_iff_right holds, returns_congr ran,
        judges.returns_iff (mapsParsed_start unmapped), handles_iff_passes]
    · rw [ElfData.syms_eq_error holds] at ran
      exact iff_of_false (not_returns_of_crash ran) fun both => holds both.1

theorem parseMaps_success_iff {obj : RexObj size} (points : obj.Points file shstrndx)
    (unmapped : obj.mapDefs = []) :
    Succeeds (parseMaps platform file) obj ↔
      ¬ file.MapsRejected shstrndx ∧ file.MapsReadable shstrndx := by
  rcases parseMaps_cases platform file shstrndx size with
    ⟨rejected, ran⟩ | ⟨absent, ran⟩ | ⟨idx, maps, data, symtab, syms, sections, ran⟩
  · exact iff_of_false (not_succeeds_of_failure (ran obj points)) fun both => both.1 rejected
  · refine iff_of_true ⟨obj, ran obj points⟩
      ⟨fun rejected => ?_, mapsReadable_of_absent absent⟩
    rw [ElfFile.MapsRejected, absent] at rejected
    exact absurd rejected.1 Bool.false_ne_true
  · have judges := judges_parseMap platform file idx maps data symtab obj
    have ran := ran obj points
    rw [and_iff_right sections.accepted, mapsReadable_iff sections]
    by_cases holds : syms.HoldsSyms
    · rw [ElfData.syms_eq_ok holds] at ran
      rw [and_iff_right holds, succeeds_congr ran,
        judges.succeeds_iff (mapsParsed_start unmapped)]
    · rw [ElfData.syms_eq_error holds] at ran
      refine iff_of_false ?_ fun both => holds both.1
      rintro ⟨final, succeeded⟩
      cases succeeded.symm.trans ran

theorem mapsParsed_of_success {obj final : RexObj size}
    (points : obj.Points file shstrndx) (unmapped : obj.mapDefs = [])
    (ran : parseMaps platform file obj = .ok (.success, final)) :
    final = { obj with mapDefs := final.mapDefs } ∧
      ∀ idx maps, file.found shstrndx .maps = some idx →
        file.scns[idx]?.join = some maps →
        ∃ data, file.getdata idx = some data ∧
          ∀ entry ∈ final.mapDefs, maps.Backs data entry.1 := by
  rcases parseMaps_cases platform file shstrndx size with
    ⟨_, failed⟩ | ⟨absent, same⟩ | ⟨idx, maps, data, symtab, syms, sections, loop⟩
  · cases ran.symm.trans (failed obj points)
  · cases ran.symm.trans (same obj points)
    refine ⟨rfl, fun idx maps found => ?_⟩
    cases absent.symm.trans found
  · have judges := judges_parseMap platform file idx maps data symtab obj
    obtain ⟨symbols, -, loop⟩ := bind_eq_ok.mp ((loop obj points).symm.trans ran)
    have parsed := judges.invariant (mapsParsed_start unmapped) loop
    refine ⟨parsed.kept, fun other header found isHeader => ⟨data, ?_, ?_⟩⟩
    · have delivered := sections.data
      rwa [ElfFile.dataOf, found, Option.bind_some] at delivered
    · have same := sections.maps
      rw [ElfFile.headerOf, found, Option.bind_some, isHeader] at same
      obtain rfl := Option.some.inj same
      exact parsed.backed

end Maps

/-! The programs. -/

section Progs

variable {symtab : Elf64Shdr}

structure ProgsParsed (start : RexObj size) (file : ElfFile) (symtab : Elf64Shdr)
    (before : List Elf64Sym) (obj : RexObj size) : Prop where
  kept : obj = { start with
    progs := obj.progs, textSyms := obj.textSyms,
    timeoutHandlerOff := obj.timeoutHandlerOff }
  handler : obj.timeoutHandlerOff.isSome ↔
    start.timeoutHandlerOff.isSome ∨ ∃ sym ∈ before, file.IsFunc sym ∧
      file.strptr symtab.shLink sym.stName = some "__rex_handle_timeout"

theorem parseProg_of_other {sym : Elf64Sym} (other : ¬ file.IsFunc sym)
    (strtabidx : Nat) (obj : RexObj size) :
    parseProg platform file shstrndx strtabidx sym obj = .ok (.success, obj) := by
  unfold parseProg ElfFile.elfGetscn
  by_cases inFile : sym.stShndx < file.scns.length
  · have typed : sym.stType ≠ sttFunc := fun func => other ⟨func, inFile⟩
    simp only [if_pos inFile, if_pos typed]
    rfl
  · simp only [if_neg inFile]
    rfl

def withProg (platform : Platform) (symName scnName : String) (sym : Elf64Sym)
    (obj : RexObj size) : RexObj size :=
  let obj := noteTimeoutHandler symName sym (addTextSym platform symName sym obj)
  match platform.findSecDef scnName with
  | none => obj
  | some secDef =>
      { obj with
        progs := obj.progs ++
          [{ name := symName, scnName, secDef := some secDef, offset := sym.stValue,
             progFd := none }] }

theorem parseProg_of_func {sym : Elf64Sym} (func : file.IsFunc sym) {strtabidx : Nat}
    {scn : Elf64Shdr × String} {symName : String}
    (scnNamed : file.named shstrndx sym.stShndx = some scn)
    (symNamed : file.strptr strtabidx sym.stName = some symName) (obj : RexObj size) :
    parseProg platform file shstrndx strtabidx sym obj =
      .ok (.success, withProg platform symName scn.2 sym obj) := by
  obtain ⟨sh, read, both⟩ := Option.bind_eq_some_iff.mp scnNamed
  obtain ⟨scnName, string, rfl⟩ := Option.map_eq_some_iff.mp both
  have typed : ¬ sym.stType ≠ sttFunc := not_not.mpr func.1
  have header : file.header (.scn sym.stShndx) = .ok sh := by
    simp only [ElfFile.header, ElfFile.elf64Getshdr, read]
    rfl
  unfold parseProg ElfFile.elfGetscn withProg
  simp only [if_pos func.2, if_neg typed]
  refine bind_eq_ok.mpr ⟨sh, header, bind_eq_ok.mpr ⟨symName, ?_,
    bind_eq_ok.mpr ⟨scnName, ?_, ?_⟩⟩⟩
  · rw [symNamed, cString]
  · rw [string, cString]
  · cases platform.findSecDef scnName with
    | none => rfl
    | some secDef => rfl

theorem parseProg_crashes (platform : Platform) {sym : Elf64Sym}
    (func : file.IsFunc sym) {strtabidx : Nat}
    (unread : ¬ ((file.named shstrndx sym.stShndx).isSome ∧
      (file.strptr strtabidx sym.stName).isSome)) :
    ∃ crash, ∀ obj : RexObj size,
      parseProg platform file shstrndx strtabidx sym obj = .error crash := by
  have typed : ¬ sym.stType ≠ sttFunc := not_not.mpr func.1
  unfold parseProg ElfFile.elfGetscn
  simp only [if_pos func.2, if_neg typed, ElfFile.header, ElfFile.elf64Getshdr]
  cases read : file.scns[sym.stShndx]?.join with
  | none => exact ⟨_, fun _ => rfl⟩
  | some sh =>
      cases symNamed : file.strptr strtabidx sym.stName with
      | none => exact ⟨_, fun _ => rfl⟩
      | some symName =>
          cases string : file.strptr shstrndx sh.shName with
          | none =>
              exact ⟨.nullDereference, by simp [bind, Except.bind, cString, string]⟩
          | some scnName => simp [ElfFile.named, read, string, symNamed] at unread

theorem ProgsParsed.skip {start obj : RexObj size} {before : List Elf64Sym}
    {sym : Elf64Sym} (parsed : ProgsParsed start file symtab before obj)
    (other : ¬ file.IsFunc sym) :
    ProgsParsed start file symtab (before ++ [sym]) obj := by
  refine ⟨parsed.kept, parsed.handler.trans (or_congr_right ?_)⟩
  rw [exists_mem_snoc]
  exact (or_iff_left fun found => other found.1).symm

theorem withProg_kept (platform : Platform) (symName scnName : String) (sym : Elf64Sym)
    (obj : RexObj size) :
    withProg platform symName scnName sym obj =
      { obj with
        progs := (withProg platform symName scnName sym obj).progs
        textSyms := (withProg platform symName scnName sym obj).textSyms
        timeoutHandlerOff :=
          (withProg platform symName scnName sym obj).timeoutHandlerOff } := by
  unfold withProg noteTimeoutHandler addTextSym
  cases platform.findSecDef scnName with
  | none => split <;> split <;> rfl
  | some secDef => split <;> split <;> rfl

theorem timeoutHandlerOff_withProg (platform : Platform) (symName scnName : String)
    (sym : Elf64Sym) (obj : RexObj size) :
    (withProg platform symName scnName sym obj).timeoutHandlerOff =
      if symName = "__rex_handle_timeout" then some sym.stValue
      else obj.timeoutHandlerOff := by
  unfold withProg noteTimeoutHandler addTextSym
  cases platform.findSecDef scnName with
  | none => split <;> split <;> rfl
  | some secDef => split <;> split <;> rfl

theorem ProgsParsed.add (platform : Platform) {start obj : RexObj size}
    {before : List Elf64Sym} {sym : Elf64Sym} {symName : String}
    (parsed : ProgsParsed start file symtab before obj) (func : file.IsFunc sym)
    (symNamed : file.strptr symtab.shLink sym.stName = some symName)
    (scnName : String) :
    ProgsParsed start file symtab (before ++ [sym])
      (withProg platform symName scnName sym obj) := by
  constructor
  · rw [withProg_kept, parsed.kept]
  · rw [timeoutHandlerOff_withProg]
    split
    · rename_i same
      refine iff_of_true rfl (.inr ⟨sym, List.mem_append_right _ List.mem_cons_self, func, ?_⟩)
      rw [symNamed, same]
    · rename_i other
      have unnamed : file.strptr symtab.shLink sym.stName ≠
          some "__rex_handle_timeout" := by
        rw [symNamed]
        exact fun same => other (Option.some.inj same)
      refine parsed.handler.trans (or_congr_right ?_)
      rw [exists_mem_snoc]
      exact (or_iff_left fun found => unnamed found.2).symm

theorem judges_parseProg (file : ElfFile) (shstrndx : Nat) (platform : Platform)
    (symtab : Elf64Shdr) (start : RexObj size) :
    Judges (parseProg platform file shstrndx symtab.shLink)
      (ProgsParsed start file symtab) (fun _ => file.ReadsProg shstrndx symtab)
      (fun _ _ => False) where
  accepts before sym obj parsed reads := by
    by_cases func : file.IsFunc sym
    · obtain ⟨scnNamed, symNamed⟩ := reads func
      obtain ⟨scn, scnNamed⟩ := Option.isSome_iff_exists.mp scnNamed
      obtain ⟨symName, symNamed⟩ := Option.isSome_iff_exists.mp symNamed
      exact ⟨_, parseProg_of_func func scnNamed symNamed obj,
        parsed.add platform func symNamed scn.2⟩
    · exact ⟨obj, parseProg_of_other func symtab.shLink obj, parsed.skip func⟩
  rejects _ _ _ _ impossible := impossible.elim
  breaks before sym obj parsed refused _ := by
    rw [ElfFile.ReadsProg] at refused
    push Not at refused
    obtain ⟨func, unread⟩ := refused
    obtain ⟨crash, crashed⟩ := parseProg_crashes platform func
      (fun both => unread both.1 both.2)
    exact not_returns_of_crash (crashed obj)

def requireHandler : Proc Crash (RexObj size) := fun obj =>
  if obj.timeoutHandlerOff.isNone then .ok (.failure, obj) else .ok (.success, obj)

theorem returns_requireHandler (obj : RexObj size) : Returns requireHandler obj := by
  unfold Returns requireHandler
  split
  · exact ⟨_, _, rfl, by decide⟩
  · exact ⟨_, _, rfl, by decide⟩

theorem requireHandler_eq_success_iff {obj final : RexObj size} :
    requireHandler obj = .ok (.success, final) ↔
      final = obj ∧ obj.timeoutHandlerOff.isSome := by
  unfold requireHandler
  cases obj.timeoutHandlerOff with
  | none => simp
  | some off => simp [eq_comm]

theorem parseProgs_cases (platform : Platform) (size : Nat)
    (scans : file.Scans shstrndx) :
    file.headerOf shstrndx .symtab = none ∧ (∀ obj : RexObj size,
        obj.Points file shstrndx →
          parseProgs platform file obj = .error .nullDereference) ∨
      ∃ symtab, file.headerOf shstrndx .symtab = some symtab ∧
        (file.dataOf shstrndx .symtab = none ∧ (∀ obj : RexObj size,
            obj.Points file shstrndx →
              parseProgs platform file obj = .ok (.failure, obj)) ∨
          ∃ syms, file.dataOf shstrndx .symtab = some syms ∧ ∀ obj : RexObj size,
            obj.Points file shstrndx →
              parseProgs platform file obj =
                syms.syms.bind fun symbols =>
                  andThen (each (parseProg platform file shstrndx symtab.shLink) symbols)
                    requireHandler obj) := by
  cases header : file.headerOf shstrndx .symtab with
  | none =>
      refine .inl ⟨rfl, fun obj points => ?_⟩
      rw [parseProgs, points.symtabScn, ElfFile.header_scnPtr_none header]
      rfl
  | some symtab =>
      refine .inr ⟨symtab, rfl, ?_⟩
      cases contents : file.dataOf shstrndx .symtab with
      | none =>
          refine .inl ⟨rfl, fun obj points => ?_⟩
          rw [parseProgs, points.symtabScn, scans.1, ElfFile.header_scnPtr header,
            ElfFile.elfGetdata_scnPtr, contents]
          rfl
      | some syms =>
          refine .inr ⟨syms, rfl, fun obj points => ?_⟩
          rw [parseProgs, points.symtabScn, scans.1, ElfFile.header_scnPtr header,
            ElfFile.elfGetdata_scnPtr, contents]
          rfl

theorem progsParsed_start (obj : RexObj size) :
    ProgsParsed obj file symtab [] obj := by
  refine ⟨rfl, ?_⟩
  simp

theorem returns_parseProgs_iff (scans : file.Scans shstrndx) {obj : RexObj size}
    (points : obj.Points file shstrndx) :
    Returns (parseProgs platform file) obj ↔
      ∃ symtab, file.headerOf shstrndx .symtab = some symtab ∧
        ∀ syms, file.dataOf shstrndx .symtab = some syms →
          file.ProgsReadable shstrndx symtab syms := by
  rcases parseProgs_cases platform size scans with
    ⟨absent, crashed⟩ | ⟨symtab, header, ⟨missing, ran⟩ | ⟨syms, delivered, ran⟩⟩
  · refine iff_of_false (not_returns_of_crash (crashed obj points)) ?_
    rintro ⟨symtab, header, -⟩
    rw [absent] at header
    cases header
  · refine iff_of_true (returns_of_failure (ran obj points)) ⟨symtab, header, ?_⟩
    intro syms delivered
    cases missing.symm.trans delivered
  · have judges := judges_parseProg file shstrndx platform symtab obj
    have ran := ran obj points
    constructor
    · intro returns
      refine ⟨symtab, header, fun other same => ?_⟩
      obtain rfl := Option.some.inj (delivered.symm.trans same)
      by_cases holds : syms.HoldsSyms
      · rw [ElfData.syms_eq_ok holds] at ran
        dsimp only [Except.bind] at ran
        rw [returns_congr ran, returns_andThen_iff,
          judges.returns_iff (progsParsed_start obj), handles_iff_passes] at returns
        exact ⟨holds, passes_iff_forall.mp returns.1⟩
      · rw [ElfData.syms_eq_error holds] at ran
        exact absurd returns (not_returns_of_crash ran)
    · rintro ⟨other, same, readable⟩
      obtain rfl := Option.some.inj (header.symm.trans same)
      obtain ⟨holds, reads⟩ := readable syms delivered
      rw [ElfData.syms_eq_ok holds] at ran
      dsimp only [Except.bind] at ran
      rw [returns_congr ran, returns_andThen_iff,
        judges.returns_iff (progsParsed_start obj), handles_iff_passes]
      exact ⟨passes_iff_forall.mpr reads, fun next _ => returns_requireHandler next⟩

theorem progsParsed_of_success (scans : file.Scans shstrndx) {obj final : RexObj size}
    (points : obj.Points file shstrndx)
    (ran : parseProgs platform file obj = .ok (.success, final)) :
    ∃ symtab syms, file.headerOf shstrndx .symtab = some symtab ∧
      file.dataOf shstrndx .symtab = some syms ∧
      file.ProgsReadable shstrndx symtab syms ∧
      ProgsParsed obj file symtab syms.symbols final ∧
      final.timeoutHandlerOff.isSome := by
  rcases parseProgs_cases platform size scans with
    ⟨_, crashed⟩ | ⟨symtab, header, ⟨_, failed⟩ | ⟨syms, delivered, loop⟩⟩
  · cases ran.symm.trans (crashed obj points)
  · cases ran.symm.trans (failed obj points)
  · have judges := judges_parseProg file shstrndx platform symtab obj
    have loop := (loop obj points).symm.trans ran
    by_cases holds : syms.HoldsSyms
    · rw [ElfData.syms_eq_ok holds] at loop
      rcases andThen_cases loop with ⟨next, done, last⟩ | ⟨_, failed⟩
      · obtain ⟨rfl, handled⟩ := requireHandler_eq_success_iff.mp last
        have readable := (judges.succeeds_iff (progsParsed_start obj)).mp ⟨_, done⟩
        exact ⟨symtab, syms, header, delivered, ⟨holds, passes_iff_forall.mp readable⟩,
          judges.invariant (progsParsed_start obj) done, handled⟩
      · exact absurd rfl failed
    · rw [ElfData.syms_eq_error holds] at loop
      cases loop

theorem parseProgs_success_iff (scans : file.Scans shstrndx) {obj : RexObj size}
    (points : obj.Points file shstrndx) (unhandled : obj.timeoutHandlerOff = none) :
    Succeeds (parseProgs platform file) obj ↔
      ∃ symtab syms, file.headerOf shstrndx .symtab = some symtab ∧
        file.dataOf shstrndx .symtab = some syms ∧
        file.ProgsReadable shstrndx symtab syms ∧ file.HasTimeoutHandler symtab syms := by
  constructor
  · rintro ⟨final, ran⟩
    obtain ⟨symtab, syms, header, delivered, readable, parsed, handled⟩ :=
      progsParsed_of_success scans points ran
    refine ⟨symtab, syms, header, delivered, readable, ?_⟩
    refine (parsed.handler.mp handled).resolve_left ?_
    simp [unhandled]
  · rintro ⟨symtab, syms, header, delivered, ⟨holds, reads⟩, handler⟩
    have judges := judges_parseProg file shstrndx platform symtab obj
    obtain ⟨final, loop, parsed⟩ :=
      judges.passes (progsParsed_start obj) (passes_iff_forall.mpr reads)
    have handled := parsed.handler.mpr (.inr handler)
    rcases parseProgs_cases platform size scans with
      ⟨absent, _⟩ | ⟨other, same, ⟨missing, _⟩ | ⟨table, sameTable, ran⟩⟩
    · cases absent.symm.trans header
    · cases missing.symm.trans delivered
    · obtain rfl := Option.some.inj (header.symm.trans same)
      obtain rfl := Option.some.inj (delivered.symm.trans sameTable)
      have ran := ran obj points
      rw [ElfData.syms_eq_ok holds] at ran
      dsimp only [Except.bind] at ran
      rw [succeeds_congr ran, succeeds_andThen_iff]
      exact ⟨final, loop, final, requireHandler_eq_success_iff.mpr ⟨rfl, handled⟩⟩

end Progs

end RexObj

end Rex.Librex
