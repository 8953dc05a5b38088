import Mathlib.Data.List.Basic
import Rex.Data.Procedure
import Rex.Librex.Elf

namespace Rex.Librex

open Procedure

/-! The loader's object and how `parse_elf` fills it in. -/

structure BpfSecDef where
  sec : String
  progType : UInt32
deriving DecidableEq

def secDefMatches (secDef : BpfSecDef) (secName : String) : Bool :=
  let secPfx := secDef.sec.toList
  let secName := secName.toList
  match secPfx.getLast? with
  | some '/' => secPfx.isPrefixOf secName
  | some '+' =>
      let secPfx := secPfx.dropLast
      secPfx.isPrefixOf secName &&
        (secName.length == secPfx.length ||
          secName[secPfx.length]? == some '/')
  | _ => secName == secPfx

structure MapDef where
  mapType : UInt32
  keySize : UInt32
  valSize : UInt32
  maxSize : UInt32
  mapFlag : UInt32
deriving DecidableEq

def mapDefSize : Nat := 32

def kptrOffset : Nat := 24

def MapDef.ofBytes (raw : List UInt8) : MapDef where
  mapType := .ofNat (LittleEndian.field raw 0 4)
  keySize := .ofNat (LittleEndian.field raw 4 4)
  valSize := .ofNat (LittleEndian.field raw 8 4)
  maxSize := .ofNat (LittleEndian.field raw 12 4)
  mapFlag := .ofNat (LittleEndian.field raw 16 4)

structure RexMap where
  mapDef : MapDef
  mapFd : Option Nat
  name : String
deriving DecidableEq

structure RexProg where
  name : String
  scnName : String
  secDef : Option BpfSecDef
  offset : UInt64
  progFd : Option Nat
deriving DecidableEq

structure RexDynSym where
  offset : UInt64
  symbol : Option String
deriving DecidableEq

abbrev MapDefs : Type := List (UInt64 × RexMap)

/-- What the loader gets from outside: libbpf's section table, LLVM's demangler,
and the order in which a hash table is traversed after an insertion. -/
structure Platform where
  sectionDefs : List BpfSecDef
  demangle : String → String
  arrange : MapDefs → MapDefs
  arrange_perm : ∀ entries, (arrange entries).Perm entries

/-- `map_defs` is kept in the order of its traversals. -/
structure RexObj (size : Nat) where
  progs : List RexProg
  mapDefs : MapDefs
  symtabScn : ScnPtr
  dynsymScn : ScnPtr
  mapsScn : ScnPtr
  relaDynScn : ScnPtr
  dynRelas : List RexRelaDyn
  dynSyms : List RexDynSym
  timeoutHandlerOff : Option UInt64
  textSyms : List (String × UInt64 × UInt64)
  fileMap : Vector UInt8 size
  progFd : Option Int
  loaded : Bool
  basename : String

/-- The constructor, once the file is mapped.  It does not initialise
`rela_dyn_scn`. -/
def RexObj.new (path : String) (bytes : Vector UInt8 size)
    (uninitialised : ScnPtr) : RexObj size where
  progs := []
  mapDefs := []
  symtabScn := .null
  dynsymScn := .null
  mapsScn := .null
  relaDynScn := uninitialised
  dynRelas := []
  dynSyms := []
  timeoutHandlerOff := none
  textSyms := []
  fileMap := bytes
  progFd := some (-1)
  loaded := false
  basename := ((path ++ ".base").splitOn "/").getLast?.getD ""

namespace Platform

variable (platform : Platform)

def findSecDef (secName : String) : Option BpfSecDef :=
  platform.sectionDefs.find? fun secDef => secDefMatches secDef secName

/-- `try_emplace`: a key that is present keeps its value, and the new value is
not even constructed. -/
def tryEmplace (entries : MapDefs) (key : UInt64)
    (construct : Except Crash (Option RexMap)) :
    Except Crash (Status × MapDefs) :=
  if key ∈ entries.map Prod.fst then
    .ok (.success, entries)
  else
    match construct with
    | .error crash => .error crash
    | .ok none => .ok (.thrown, entries)
    | .ok (some map) => .ok (.success, platform.arrange ((key, map) :: entries))

end Platform

/-- `rex_map`'s constructor; `none` is the exception of a string made from a
null pointer. -/
def RexMap.new (data : ElfData) (base off : UInt64) (name : Option String) :
    Except Crash (Option RexMap) := do
  match name with
  | none => return none
  | some name =>
      let raw ← data.view (off - base).toNat mapDefSize
      return some { mapDef := .ofBytes raw, mapFd := none, name }

def ElfData.nrSyms (data : ElfData) : Int32 :=
  -- the loader counts the symbols in an `int`
  .ofNat (data.dSize / 24)

def ElfData.syms (data : ElfData) : Except Crash (List Elf64Sym) :=
  (List.range data.nrSyms.toInt.toNat).mapM data.sym

def alignUp16 (val : UInt64) : UInt64 :=
  if val &&& 0xf ≠ 0 then (val &&& ~~~ 0xf) + 0x10 else val

namespace RexObj

variable (platform : Platform) (file : ElfFile) {size : Nat}

def parseScn (shstrndx idx : Nat) : Proc Crash (RexObj size) := fun obj =>
  match file.scns[idx]?.join with
  | none => .ok (.failure, obj)
  | some sh =>
      match file.strptr shstrndx sh.shName with
      | none => .ok (.failure, obj)
      | some name =>
          if sh.shType = shtSymtab ∧ name = ".symtab" then
            .ok (.success, { obj with symtabScn := .scn idx })
          else if sh.shType = shtDynsym ∧ name = ".dynsym" then
            .ok (.success, { obj with dynsymScn := .scn idx })
          else if name = ".maps" then
            .ok (.success, { obj with mapsScn := .scn idx })
          else if sh.shType = shtRela ∧ name = ".rela.dyn" then
            .ok (.success, { obj with relaDynScn := .scn idx })
          else
            .ok (.success, obj)

def parseScns : Proc Crash (RexObj size) := fun obj =>
  match file.shstrndx with
  | none => .ok (.failure, obj)
  | some shstrndx =>
      each (parseScn file shstrndx) (List.range' 1 (file.scns.length - 1)) obj

def IsMapSym (mapsShndx : Nat) (sym : Elf64Sym) : Prop :=
  sym.stShndx = mapsShndx ∧ sym.stType = sttObject ∧
    sym.stSize.toNat = mapDefSize

instance (mapsShndx : Nat) (sym : Elf64Sym) :
    Decidable (IsMapSym mapsShndx sym) :=
  inferInstanceAs (Decidable (_ ∧ _))

def parseMap (maps : ElfData) (strtabidx mapsShndx : Nat) (mapsShaddr : UInt64)
    (sym : Elf64Sym) : Proc Crash (RexObj size) := fun obj => do
  if IsMapSym mapsShndx sym then
    let (status, mapDefs) ← platform.tryEmplace obj.mapDefs sym.stValue
      (RexMap.new maps mapsShaddr sym.stValue
        (file.strptr strtabidx sym.stName))
    return (status, { obj with mapDefs })
  else
    return (.success, obj)

def parseMaps : Proc Crash (RexObj size) := fun obj => do
  match obj.mapsScn with
  | .null => return (.success, obj)
  | .wild => .error .wildPointer
  | .scn mapsShndx =>
      let maps ← file.elfGetdata obj.mapsScn
      let syms ← file.elfGetdata obj.symtabScn
      match syms, maps with
      | none, _ => return (.failure, obj)
      | some _, none => return (.failure, obj)
      | some syms, some maps =>
          let strtabidx := (← file.header obj.symtabScn).shLink
          let mapsShaddr := (← file.header obj.mapsScn).shAddr
          each (parseMap platform file maps strtabidx mapsShndx mapsShaddr)
            (← syms.syms) obj

def cString (string : Option String) : Except Crash String :=
  match string with
  | none => .error .nullDereference
  | some string => .ok string

def addTextSym (symName : String) (sym : Elf64Sym) (obj : RexObj size) :
    RexObj size :=
  if sym.stValue ≠ 0 then
    { obj with
      textSyms := obj.textSyms ++
        [(platform.demangle symName, sym.stValue, alignUp16 sym.stSize)] }
  else
    obj

def noteTimeoutHandler (symName : String) (sym : Elf64Sym) (obj : RexObj size) :
    RexObj size :=
  if symName = "__rex_handle_timeout" then
    { obj with timeoutHandlerOff := some sym.stValue }
  else
    obj

def parseProg (shstrndx strtabidx : Nat) (sym : Elf64Sym) :
    Proc Crash (RexObj size) := fun obj => do
  match file.elfGetscn sym.stShndx with
  | .null => return (.success, obj)
  | scn =>
      if sym.stType ≠ sttFunc then
        return (.success, obj)
      else
        let scnName := file.strptr shstrndx (← file.header scn).shName
        let symName ← cString (file.strptr strtabidx sym.stName)
        let obj := noteTimeoutHandler symName sym
          (addTextSym platform symName sym obj)
        let scnName ← cString scnName
        match platform.findSecDef scnName with
        | none => return (.success, obj)
        | some secDef =>
            let prog : RexProg :=
              { name := symName, scnName, secDef := some secDef,
                offset := sym.stValue, progFd := none }
            return (.success, { obj with progs := obj.progs ++ [prog] })

def parseProgs : Proc Crash (RexObj size) := fun obj => do
  let strtabidx := (← file.header obj.symtabScn).shLink
  match file.shstrndx, ← file.elfGetdata obj.symtabScn with
  | none, _ => return (.failure, obj)
  | some _, none => return (.failure, obj)
  | some shstrndx, some syms =>
      andThen
        (each (parseProg platform file shstrndx strtabidx) (← syms.syms))
        (fun obj =>
          if obj.timeoutHandlerOff.isNone then
            .ok (.failure, obj)
          else
            .ok (.success, obj))
        obj

def parseRela (relas : ElfData) (idx : Nat) : Proc Crash (RexObj size) :=
  fun obj => do
    let rela ← relas.rela idx
    if rela.rType = rX8664Relative then
      return (.success, { obj with dynRelas := obj.dynRelas ++ [rela] })
    else if rela.rType = rX8664GlobDat then
      let syms ← file.elfGetdata obj.dynsymScn
      let strtabidx := (← file.header obj.dynsymScn).shLink
      match syms with
      | none => .error .nullDereference
      | some syms =>
          let sym ← syms.sym rela.rSym
          let dynSym : RexDynSym :=
            { offset := rela.offset, symbol := file.strptr strtabidx sym.stName }
          return (.success, { obj with dynSyms := obj.dynSyms ++ [dynSym] })
    else
      return (.failure, obj)

def parseRelaDyn : Proc Crash (RexObj size) := fun obj => do
  if obj.relaDynScn = .null then
    return (.success, obj)
  else
    match ← file.elf64Getshdr obj.relaDynScn with
    | none => return (.failure, obj)
    | some relaDyn =>
        match ← file.elfGetdata obj.relaDynScn with
        | none => .error .nullDereference
        | some relas =>
            if relaDyn.shSize.toNat % 24 ≠ 0 then
              return (.failure, obj)
            else
              each (parseRela file relas)
                (List.range (relaDyn.shSize.toNat / 24)) obj

def parseElf : Proc Crash (RexObj size) :=
  andThen (parseScns file) (andThen (parseMaps platform file)
    (andThen (parseProgs platform file) (parseRelaDyn file)))

end RexObj

end Rex.Librex
