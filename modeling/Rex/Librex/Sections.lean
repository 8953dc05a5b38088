import Rex.Librex.Object

namespace Rex.Librex

open Procedure

/-! What the scan of the section headers finds. -/

inductive ScnKind
  | symtab
  | dynsym
  | maps
  | relaDyn
deriving DecidableEq

def Elf64Shdr.kind (sh : Elf64Shdr) (name : String) : Option ScnKind :=
  if sh.shType = shtSymtab ∧ name = ".symtab" then
    some .symtab
  else if sh.shType = shtDynsym ∧ name = ".dynsym" then
    some .dynsym
  else if name = ".maps" then
    some .maps
  else if sh.shType = shtRela ∧ name = ".rela.dyn" then
    some .relaDyn
  else
    none

namespace ElfFile

variable (file : ElfFile) (shstrndx : Nat)

def named (idx : Nat) : Option (Elf64Shdr × String) :=
  file.scns[idx]?.join.bind fun sh =>
    (file.strptr shstrndx sh.shName).map fun name => (sh, name)

def kindAt (idx : Nat) : Option ScnKind :=
  (file.named shstrndx idx).bind fun scn => scn.1.kind scn.2

def lastOf (idxs : List Nat) (kind : ScnKind) : Option Nat :=
  (idxs.filter fun idx => file.kindAt shstrndx idx = some kind).getLast?

def scnIdxs : List Nat := List.range' 1 (file.scns.length - 1)

def found (kind : ScnKind) : Option Nat :=
  file.lastOf shstrndx file.scnIdxs kind

def headerOf (kind : ScnKind) : Option Elf64Shdr :=
  (file.found shstrndx kind).bind fun idx => file.scns[idx]?.join

def dataOf (kind : ScnKind) : Option ElfData :=
  (file.found shstrndx kind).bind file.getdata

def Scans : Prop :=
  file.shstrndx = some shstrndx ∧
    ∀ idx ∈ file.scnIdxs, (file.named shstrndx idx).isSome

instance : Decidable (file.Scans shstrndx) :=
  inferInstanceAs (Decidable (_ ∧ _))

/-- The section pointer after the scan, where nothing is found before. -/
def scnPtr (kind : ScnKind) : ScnPtr :=
  (file.found shstrndx kind).elim .null .scn

variable {file shstrndx}

theorem headerOf_of_found {kind : ScnKind} {idx : Nat}
    (found : file.found shstrndx kind = some idx) :
    ∃ sh, file.scns[idx]?.join = some sh ∧ file.headerOf shstrndx kind = some sh := by
  have member := List.mem_of_getLast? found
  have isKind := (List.mem_filter.mp member).2
  obtain ⟨⟨sh, name⟩, isNamed, -⟩ :=
    Option.bind_eq_some_iff.mp (of_decide_eq_true isKind)
  obtain ⟨header, read, -⟩ := Option.bind_eq_some_iff.mp isNamed
  refine ⟨header, read, ?_⟩
  rw [headerOf, found, Option.bind_some, read]

theorem headerOf_of_dataOf {kind : ScnKind} {data : ElfData}
    (delivered : file.dataOf shstrndx kind = some data) :
    ∃ sh, file.headerOf shstrndx kind = some sh := by
  obtain ⟨idx, found, -⟩ := Option.bind_eq_some_iff.mp delivered
  obtain ⟨sh, -, header⟩ := headerOf_of_found found
  exact ⟨sh, header⟩

theorem elf64Getshdr_scnPtr (kind : ScnKind) :
    file.elf64Getshdr (file.scnPtr shstrndx kind) =
      .ok (file.headerOf shstrndx kind) := by
  unfold scnPtr headerOf
  cases file.found shstrndx kind with
  | none => rfl
  | some idx => rfl

theorem elfGetdata_scnPtr (kind : ScnKind) :
    file.elfGetdata (file.scnPtr shstrndx kind) =
      .ok (file.dataOf shstrndx kind) := by
  unfold scnPtr dataOf
  cases file.found shstrndx kind with
  | none => rfl
  | some idx => rfl

theorem header_scnPtr {kind : ScnKind} {sh : Elf64Shdr}
    (header : file.headerOf shstrndx kind = some sh) :
    file.header (file.scnPtr shstrndx kind) = .ok sh := by
  unfold ElfFile.header
  rw [elf64Getshdr_scnPtr, header]
  rfl

theorem header_scnPtr_none {kind : ScnKind}
    (absent : file.headerOf shstrndx kind = none) :
    file.header (file.scnPtr shstrndx kind) = .error .nullDereference := by
  unfold ElfFile.header
  rw [elf64Getshdr_scnPtr, absent]
  rfl

end ElfFile

namespace RexObj

variable {size : Nat}

def point (obj : RexObj size) (idx : Nat) : Option ScnKind → RexObj size
  | some .symtab => { obj with symtabScn := .scn idx }
  | some .dynsym => { obj with dynsymScn := .scn idx }
  | some .maps => { obj with mapsScn := .scn idx }
  | some .relaDyn => { obj with relaDynScn := .scn idx }
  | none => obj

def scanned (obj : RexObj size) (file : ElfFile) (shstrndx : Nat)
    (idxs : List Nat) : RexObj size :=
  { obj with
    symtabScn := (file.lastOf shstrndx idxs .symtab).elim obj.symtabScn .scn
    dynsymScn := (file.lastOf shstrndx idxs .dynsym).elim obj.dynsymScn .scn
    mapsScn := (file.lastOf shstrndx idxs .maps).elim obj.mapsScn .scn
    relaDynScn := (file.lastOf shstrndx idxs .relaDyn).elim obj.relaDynScn .scn }

section Scan

variable {file : ElfFile} {shstrndx : Nat}

theorem parseScn_of_named {idx : Nat} {scn : Elf64Shdr × String}
    (named : file.named shstrndx idx = some scn) (obj : RexObj size) :
    parseScn file shstrndx idx obj =
      .ok (.success, obj.point idx (file.kindAt shstrndx idx)) := by
  obtain ⟨sh, read, both⟩ := Option.bind_eq_some_iff.mp named
  obtain ⟨name, string, rfl⟩ := Option.map_eq_some_iff.mp both
  rw [ElfFile.kindAt, named, Option.bind_some]
  unfold parseScn Elf64Shdr.kind
  simp only [read, string]
  split
  · rfl
  · split
    · rfl
    · split
      · rfl
      · split <;> rfl

theorem parseScn_of_unnamed {idx : Nat} (unnamed : file.named shstrndx idx = none)
    (obj : RexObj size) :
    parseScn file shstrndx idx obj = .ok (.failure, obj) := by
  unfold parseScn
  cases read : file.scns[idx]?.join with
  | none => rfl
  | some sh =>
      cases string : file.strptr shstrndx sh.shName with
      | none => simp only [string]
      | some name => simp [ElfFile.named, read, string] at unnamed

theorem lastOf_concat (idxs : List Nat) (idx : Nat) (kind : ScnKind) :
    file.lastOf shstrndx (idxs ++ [idx]) kind =
      if file.kindAt shstrndx idx = some kind then
        some idx
      else
        file.lastOf shstrndx idxs kind := by
  unfold ElfFile.lastOf
  rw [List.filter_append, List.filter_singleton]
  split
  · rename_i same
    simp [same]
  · rename_i other
    simp [other]

theorem scanned_concat (obj : RexObj size) (idxs : List Nat) (idx : Nat) :
    obj.scanned file shstrndx (idxs ++ [idx]) =
      (obj.scanned file shstrndx idxs).point idx (file.kindAt shstrndx idx) := by
  simp only [scanned, lastOf_concat]
  cases file.kindAt shstrndx idx with
  | none => rfl
  | some kind => cases kind <;> rfl

theorem judges_parseScn (obj : RexObj size) :
    Judges (parseScn file shstrndx)
      (fun before state => state = obj.scanned file shstrndx before)
      (fun _ idx => (file.named shstrndx idx).isSome)
      (fun _ idx => file.named shstrndx idx = none) where
  accepts before idx state same named := by
    obtain ⟨scn, named⟩ := Option.isSome_iff_exists.mp named
    refine ⟨_, parseScn_of_named named state, ?_⟩
    rw [scanned_concat, same]
  rejects before idx state same unnamed :=
    ⟨state, parseScn_of_unnamed unnamed state⟩
  breaks before idx state same refused accepted :=
    absurd (Option.not_isSome_iff_eq_none.mp refused) accepted

theorem parseScns_of_scans (scans : file.Scans shstrndx) (obj : RexObj size) :
    parseScns file obj =
      .ok (.success, obj.scanned file shstrndx file.scnIdxs) := by
  unfold parseScns
  rw [scans.1]
  obtain ⟨final, ran, rfl⟩ :=
    (judges_parseScn obj).passes rfl (passes_iff_forall.mpr scans.2)
  exact ran

theorem parseScns_of_not_scans (unreadable : ∀ shstrndx, ¬ file.Scans shstrndx)
    (obj : RexObj size) :
    ∃ final, parseScns file obj = .ok (.failure, final) := by
  unfold parseScns
  cases index : file.shstrndx with
  | none => exact ⟨obj, rfl⟩
  | some shstrndx =>
      have returns : Returns (each (parseScn file shstrndx) file.scnIdxs) obj := by
        refine ((judges_parseScn obj).returns_iff rfl).mpr ?_
        intro before idx after _ _
        cases named : file.named shstrndx idx with
        | none => exact .inr named
        | some scn => exact .inl (Option.isSome_of_eq_some named)
      obtain ⟨status, final, ran, caught⟩ := returns
      cases status with
      | success =>
          have passes := ((judges_parseScn obj).succeeds_iff rfl).mp ⟨final, ran⟩
          exact absurd ⟨index, passes_iff_forall.mp passes⟩ (unreadable shstrndx)
      | failure => exact ⟨final, ran⟩
      | thrown => exact absurd rfl caught

end Scan

end RexObj

end Rex.Librex
