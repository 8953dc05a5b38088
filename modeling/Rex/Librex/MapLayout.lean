import Rex.Librex.Load

namespace Rex.Librex

/-! The maps of a program: the statics that the Rust side builds and where the
linker puts them. -/

structure RexMapHandle where
  mapType : UInt32
  keySize : UInt32
  valSize : UInt32
  maxSize : UInt32
  mapFlag : UInt32
  kptr : UInt64

def RexMapHandle.new (mapType : UInt32) (sizeOfK sizeOfV : Nat)
    (ms mf : UInt32) : RexMapHandle where
  mapType := mapType
  keySize := .ofNat sizeOfK
  valSize := .ofNat sizeOfV
  maxSize := ms
  mapFlag := mf
  kptr := 0

/-- `repr(C)`: the pointer is aligned to 8 bytes, after 4 bytes of padding. -/
def RexMapHandle.bytes (handle : RexMapHandle) (padding : Vector UInt8 4) :
    List UInt8 :=
  LittleEndian.encode 4 handle.mapType.toNat ++
    (LittleEndian.encode 4 handle.keySize.toNat ++
      (LittleEndian.encode 4 handle.valSize.toNat ++
        (LittleEndian.encode 4 handle.maxSize.toNat ++
          (LittleEndian.encode 4 handle.mapFlag.toNat ++
            (padding.toList ++ LittleEndian.encode 8 handle.kptr.toNat)))))

structure MapStatic where
  name : String
  addr : UInt64
  mapType : UInt32
  keySize : Nat
  valSize : Nat
  maxSize : UInt32
  mapFlag : UInt32
  keySize_lt : keySize < 2 ^ 32
  valSize_lt : valSize < 2 ^ 32

namespace MapStatic

def handle (static : MapStatic) : RexMapHandle :=
  .new static.mapType static.keySize static.valSize static.maxSize static.mapFlag

structure Requests (static : MapStatic) (attr : MapCreateAttr) : Prop where
  mapType : attr.mapType = static.mapType
  keySize : attr.keySize.toNat = static.keySize
  valueSize : attr.valueSize.toNat = static.valSize
  maxEntries : attr.maxEntries = static.maxSize
  mapFlags : attr.mapFlags = static.mapFlag
  mapName : attr.mapName = objName static.name

def fileOff (static : MapStatic) (maps : Elf64Shdr) : Nat :=
  static.addr.toNat - maps.shAddr.toNat + maps.shOffset.toNat

def Apart (first second : MapStatic) : Prop :=
  first.addr.toNat + mapDefSize ≤ second.addr.toNat ∨
    second.addr.toNat + mapDefSize ≤ first.addr.toNat

end MapStatic

/-- The statics lie in the `.maps` section, each with a symbol of its own; the
other symbols are none that `parse_maps` takes for a map.  The symbols are those
that an `int` can count, which is all of them in a table of less than 48 GiB.
libelf delivers the symbols, and the section as it is in the file. -/
structure LaidOut (file : ElfFile) (statics : List MapStatic)
    (symtabShndx mapsShndx : Nat) (symtab maps : Elf64Shdr) : Prop where
  symtabScn : file.scns[symtabShndx]?.join = some symtab
  mapsScn : file.scns[mapsShndx]?.join = some maps
  inFile : maps.shOffset.toNat + maps.shSize.toNat ≤ file.size
  mapsData : file.getdata mapsShndx =
    some (.ofBytes ((file.bytes.toList.drop maps.shOffset.toNat).take maps.shSize.toNat))
  symbols : ∃ data syms, file.getdata symtabShndx = some data ∧
    data.syms = .ok syms ∧
    List.Forall₂
      (fun sym static => sym.stValue = static.addr ∧
        file.strptr symtab.shLink sym.stName = some static.name)
      (syms.filter (RexObj.IsMapSym mapsShndx)) statics
  inSection : ∀ static ∈ statics, maps.shAddr.toNat ≤ static.addr.toNat ∧
    static.addr.toNat + mapDefSize ≤ maps.shAddr.toNat + maps.shSize.toNat
  contents : ∀ static ∈ statics, ∃ padding,
    (file.bytes.toList.drop (static.fileOff maps)).take mapDefSize =
      static.handle.bytes padding
  disjoint : statics.Pairwise MapStatic.Apart

namespace MapStatic

def mapDef (static : MapStatic) : MapDef where
  mapType := static.mapType
  keySize := .ofNat static.keySize
  valSize := .ofNat static.valSize
  maxSize := static.maxSize
  mapFlag := static.mapFlag

theorem requests_attr (static : MapStatic) :
    static.Requests (static.mapDef.attr static.name) where
  mapType := rfl
  keySize := Nat.mod_eq_of_lt static.keySize_lt
  valueSize := Nat.mod_eq_of_lt static.valSize_lt
  maxEntries := rfl
  mapFlags := rfl
  mapName := rfl

end MapStatic

theorem toNat_lt_pow (value : UInt32) : value.toNat < 256 ^ 4 :=
  value.toNat_lt

theorem MapDef.ofBytes_handle (static : MapStatic) (padding : Vector UInt8 4) :
    MapDef.ofBytes (static.handle.bytes padding) = static.mapDef := by
  have skip (value : UInt32) (rest : List UInt8) (offset : Nat) :
      LittleEndian.field (LittleEndian.encode 4 value.toNat ++ rest) (4 + offset) 4 =
        LittleEndian.field rest offset 4 := by
    have skipped := LittleEndian.field_skip (LittleEndian.encode 4 value.toNat)
      rest offset 4
    rwa [LittleEndian.length_encode] at skipped
  have here (value : UInt32) (rest : List UInt8) :
      LittleEndian.field (LittleEndian.encode 4 value.toNat ++ rest) 0 4 =
        value.toNat :=
    LittleEndian.field_encode (toNat_lt_pow value) rest
  unfold MapDef.ofBytes RexMapHandle.bytes
  rw [here, skip _ _ 0, here, skip _ _ 4, skip _ _ 0, here, skip _ _ 8,
    skip _ _ 4, skip _ _ 0, here, skip _ _ 12, skip _ _ 8, skip _ _ 4,
    skip _ _ 0, here]
  simp only [UInt32.ofNat_toNat]
  rfl

/-! Addresses of the section and offsets in the file. -/

namespace LaidOut

variable {file : ElfFile} {statics : List MapStatic}
  {symtabShndx mapsShndx : Nat} {symtab maps : Elf64Shdr}
  (layout : LaidOut file statics symtabShndx mapsShndx symtab maps)

include layout

theorem fileOff_le (member : static ∈ statics) :
    static.fileOff maps + mapDefSize ≤ file.size := by
  have := layout.inSection static member
  have := layout.inFile
  unfold MapStatic.fileOff
  omega

theorem kptrFileOff (member : static ∈ statics) :
    (static.addr + .ofNat kptrOffset - maps.shAddr + maps.shOffset).toNat =
      static.fileOff maps + kptrOffset := by
  have inSection := (layout.inSection static member).1
  have inFile := layout.fileOff_le member
  have small := file.size_lt
  have addrLt := static.addr.toNat_lt
  have shAddrLt := maps.shAddr.toNat_lt
  unfold MapStatic.fileOff mapDefSize at inFile
  unfold MapStatic.fileOff kptrOffset
  simp only [UInt64.toNat_add, UInt64.toNat_sub, UInt64.toNat_ofNat']
  omega

theorem view_static
    (member : static ∈ statics) (delivered : file.getdata mapsShndx = some data) :
    ∃ padding, data.view (static.addr - maps.shAddr).toNat mapDefSize =
      .ok (static.handle.bytes padding) := by
  obtain ⟨lower, upper⟩ := layout.inSection static member
  obtain ⟨padding, holds⟩ := layout.contents static member
  refine ⟨padding, ?_⟩
  have inFile := layout.inFile
  have offset : (static.addr - maps.shAddr).toNat =
      static.addr.toNat - maps.shAddr.toNat :=
    UInt64.toNat_sub_of_le _ _ (UInt64.le_iff_toNat_le.mpr lower)
  obtain rfl := Option.some.inj (layout.mapsData.symm.trans delivered)
  have fits : static.addr.toNat - maps.shAddr.toNat + mapDefSize ≤
      ((file.bytes.toList.drop maps.shOffset.toNat).take
        maps.shSize.toNat).length := by
    simp only [List.length_take, List.length_drop, Vector.length_toList]
    omega
  have position : maps.shOffset.toNat +
      (static.addr.toNat - maps.shAddr.toNat) = static.fileOff maps :=
    Nat.add_comm _ _
  simp only [ElfData.view, ElfData.ofBytes, offset, if_pos fits]
  rw [List.drop_take, List.take_take, List.drop_drop, position,
    Nat.min_eq_left (by omega), holds]

end LaidOut

end Rex.Librex
