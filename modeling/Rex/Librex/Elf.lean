import Rex.Data.LittleEndian
import Rex.Data.Window

namespace Rex.Librex

/-! The ELF file as libelf presents it to the loader. -/

structure Elf64Shdr where
  shName : Nat
  shType : UInt32
  shAddr : UInt64
  shOffset : UInt64
  shSize : UInt64
  shLink : Nat
deriving DecidableEq

structure Elf64Sym where
  stName : Nat
  stInfo : UInt8
  stShndx : Nat
  stValue : UInt64
  stSize : UInt64
deriving DecidableEq

structure RexRelaDyn where
  offset : UInt64
  info : UInt64
  addend : UInt64
deriving DecidableEq

/-- What `elf_getdata` answers: `d_size` bytes at `d_buf`, or a null `d_buf` as for
a section without contents in the file. -/
structure ElfData where
  dBuf : Option (List UInt8)
  dSize : Nat
  length_dBuf : ∀ buf, dBuf = some buf → buf.length = dSize

def ElfData.ofBytes (bytes : List UInt8) : ElfData where
  dBuf := some bytes
  dSize := bytes.length
  length_dBuf _ same := by rw [Option.some.inj same]

/-- The bytes of the file, and the answers of libelf about it.  `scns` starts with
section 0, which libelf does not enumerate; a section whose header cannot be read
is `none`, and so are a string and the data of a section for which libelf returns
a null pointer. -/
structure ElfFile where
  size : Nat
  size_lt : size < 2 ^ 64
  bytes : Vector UInt8 size
  shstrndx : Option Nat
  scns : List (Option Elf64Shdr)
  strptr : Nat → Nat → Option String
  getdata : Nat → Option ElfData

/-- A section pointer of `rex_obj`; `wild` is whatever uninitialised memory
happens to hold. -/
inductive ScnPtr
  | null
  | scn (idx : Nat)
  | wild
deriving DecidableEq

inductive Crash
  | nullDereference
  | wildPointer
  | outOfRange
deriving DecidableEq

def shtSymtab : UInt32 := 2

def shtRela : UInt32 := 4

def shtDynsym : UInt32 := 11

namespace ElfFile

variable (file : ElfFile)

def elf64Getshdr : ScnPtr → Except Crash (Option Elf64Shdr)
  | .null => .ok none
  | .scn idx => .ok (file.scns[idx]?.join)
  | .wild => .error .wildPointer

def header (scn : ScnPtr) : Except Crash Elf64Shdr := do
  match ← file.elf64Getshdr scn with
  | none => .error .nullDereference
  | some shdr => .ok shdr

def elfGetdata : ScnPtr → Except Crash (Option ElfData)
  | .null => .ok none
  | .scn idx => .ok (file.getdata idx)
  | .wild => .error .wildPointer

def elfGetscn (idx : Nat) : ScnPtr :=
  if idx < file.scns.length then .scn idx else .null

end ElfFile

namespace ElfData

def view (data : ElfData) (offset len : Nat) : Except Crash (List UInt8) :=
  match data.dBuf with
  | none => .error .nullDereference
  | some buf =>
      if offset + len ≤ buf.length then
        .ok ((buf.drop offset).take len)
      else
        .error .outOfRange

def sym (data : ElfData) (idx : Nat) : Except Crash Elf64Sym := do
  let raw ← data.view (24 * idx) 24
  return {
    stName := LittleEndian.field raw 0 4
    stInfo := .ofNat (LittleEndian.field raw 4 1)
    stShndx := LittleEndian.field raw 6 2
    stValue := .ofNat (LittleEndian.field raw 8 8)
    stSize := .ofNat (LittleEndian.field raw 16 8) }

def rela (data : ElfData) (idx : Nat) : Except Crash RexRelaDyn := do
  let raw ← data.view (24 * idx) 24
  return {
    offset := .ofNat (LittleEndian.field raw 0 8)
    info := .ofNat (LittleEndian.field raw 8 8)
    addend := .ofNat (LittleEndian.field raw 16 8) }

end ElfData

def sttObject : UInt8 := 1

def sttFunc : UInt8 := 2

def Elf64Sym.stType (sym : Elf64Sym) : UInt8 :=
  sym.stInfo &&& 0xf

def rX8664GlobDat : UInt64 := 6

def rX8664Relative : UInt64 := 8

def RexRelaDyn.rType (rela : RexRelaDyn) : UInt64 :=
  rela.info &&& 0xffffffff

def RexRelaDyn.rSym (rela : RexRelaDyn) : Nat :=
  (rela.info >>> 32).toNat

end Rex.Librex
