import Rex.Data.Ledger
import Rex.Librex.Object

namespace Rex.Librex

open Procedure

/-! `fix_maps`, `load` and `rex_obj_load`, with every system call that obtains
or gives up a file descriptor, and the temporary file through which the image goes
to the kernel. -/

structure MapCreateAttr where
  mapType : UInt32
  keySize : UInt32
  valueSize : UInt32
  maxEntries : UInt32
  mapFlags : UInt32
  mapName : List UInt8
deriving DecidableEq

/-- `image` is what the kernel can read from `rustfd`. -/
structure RexBaseAttr where
  progName : List UInt8
  rustfd : Int
  image : Option (List UInt8)
  mapOffs : List UInt64
  dynRelas : List RexRelaDyn
  dynSyms : List RexDynSym
  textSyms : List (String × UInt64 × UInt64)
deriving DecidableEq

structure RexProgAttr where
  progType : UInt32
  progName : List UInt8
  baseProgFd : Nat
  progOffset : UInt64
  unwinderInsnOff : UInt64
deriving DecidableEq

inductive Removal
  | removed
  | absent
  | error
deriving DecidableEq

inductive Syscall
  | openFile (ret : Option Nat)
  | openStream (ret : Option Nat)
  | openTmp (ret : Option Nat)
  | close (fd : Int)
  | mapCreate (attr : MapCreateAttr) (ret : Option Nat)
  | progLoadRexBase (attr : RexBaseAttr) (ret : Option Nat)
  | progLoadRex (attr : RexProgAttr) (ret : Option Nat)
  | remove (ret : Removal)
deriving DecidableEq

/-- The answers of the system during one `rex_obj_load`.  The `idx`-th map
creation and program load have answers of their own.  `tmpBefore` is what a file
with the name of the temporary file held before, and `written` how many bytes a
stream can write to it. -/
structure Kernel where
  elfVersion : Bool
  openFile : Option Nat
  elfBegin : Bool
  fstat : Bool
  mmap : Bool
  mapCreate : Nat → Option Nat
  tmpBefore : Option (List UInt8)
  openStream : Option Nat
  written : Nat
  openTmp : Option Nat
  progLoadRexBase : Option Nat
  remove : Removal
  progLoadRex : Nat → Option Nat

/-- The object under construction; `tmpFile` says that the temporary file made
by this call exists, and `tmpContents` is what is under its name, whoever made
it. -/
structure Loader (size : Nat) where
  obj : RexObj size
  log : List Syscall
  tmpFile : Bool
  tmpContents : Option (List UInt8)

def intFd (ret : Option Nat) : Int :=
  match ret with
  | none => -1
  | some fd => fd

def objName (name : String) : List UInt8 :=
  name.toUTF8.data.toList.take 15

def MapDef.attr (mapDef : MapDef) (name : String) : MapCreateAttr where
  mapType := mapDef.mapType
  keySize := mapDef.keySize
  valueSize := mapDef.valSize
  maxEntries := mapDef.maxSize
  mapFlags := mapDef.mapFlag
  mapName := objName name

def RexMap.create (map : RexMap) (ret : Option Nat) : RexMap × Syscall :=
  let call := .mapCreate (map.mapDef.attr map.name) ret
  match ret with
  | none => (map, call)
  | some fd => ({ map with mapFd := some fd }, call)

def kptrBytes (fd : Nat) : Vector UInt8 8 :=
  ⟨(LittleEndian.encode 8 fd).toArray, by simp⟩

def mapFds (entries : MapDefs) : List Nat :=
  entries.filterMap fun entry => entry.2.mapFd

def progFds (progs : List RexProg) : List Nat :=
  progs.filterMap RexProg.progFd

def closeAll (fds : List Nat) : List Syscall :=
  fds.map fun fd => .close (fd : Nat)

namespace RexObj

variable {size : Nat}

/-- The loop of `fix_maps`: the map definitions, the file mapping and the calls
made, with `idx` calls made before. -/
def fixEntries (kernel : Kernel) (mapsShaddr mapsShoff : UInt64) :
    Nat → MapDefs → Vector UInt8 size →
      Except Crash
        (Status × MapDefs × Vector UInt8 size × List Syscall)
  | _, [], fileMap => .ok (.success, [], fileMap, [])
  | idx, (mOff, mDef) :: rest, fileMap => do
      let kptrFileOff := mOff + .ofNat kptrOffset - mapsShaddr + mapsShoff
      let (mDef, call) := mDef.create (kernel.mapCreate idx)
      match mDef.mapFd with
      | none => return (.failure, (mOff, mDef) :: rest, fileMap, [call])
      | some fd =>
          match Window.locate size 8 kptrFileOff.toNat with
          | none => .error .outOfRange
          | some window =>
              let (status, rest, fileMap, calls) ←
                fixEntries kernel mapsShaddr mapsShoff (idx + 1) rest
                  (window.write fileMap (kptrBytes fd))
              return (status, (mOff, mDef) :: rest, fileMap, call :: calls)

def destroy (obj : RexObj size) : List Syscall :=
  (obj.progFd.map .close).toList ++
    closeAll (mapFds obj.mapDefs) ++ closeAll (progFds obj.progs)

def closeFds (obj : RexObj size) : RexObj size × List Syscall :=
  ({ obj with
      progs := obj.progs.map fun prog => { prog with progFd := none }
      progFd := none },
    closeAll (progFds obj.progs) ++ (obj.progFd.map .close).toList)

def loadProgs (kernel : Kernel) (basefd : Nat)
    (timeoutHandlerOff : Option UInt64) :
    Nat → List RexProg →
      Except Crash (Status × List RexProg × List Syscall)
  | _, [] => .ok (.success, [], [])
  | idx, prog :: rest =>
      match prog.secDef, timeoutHandlerOff with
      | none, _ => .error .nullDereference
      | some _, none => .ok (.thrown, prog :: rest, [])
      | some secDef, some unwinderInsnOff =>
          let attr : RexProgAttr :=
            { progType := secDef.progType, progName := objName prog.name,
              baseProgFd := basefd, progOffset := prog.offset, unwinderInsnOff }
          match kernel.progLoadRex idx with
          | none => .ok (.failure, prog :: rest, [.progLoadRex attr none])
          | some fd => do
              let (status, rest, calls) ←
                loadProgs kernel basefd timeoutHandlerOff (idx + 1) rest
              return (status, { prog with progFd := some fd } :: rest,
                .progLoadRex attr (some fd) :: calls)

end RexObj

namespace Loader

variable {size : Nat}

def call (loader : Loader size) (calls : List Syscall) : Loader size :=
  { loader with log := loader.log ++ calls }

def parseElf (platform : Platform) (file : ElfFile) : Proc Crash (Loader size) :=
  fun loader => do
    let (status, obj) ← RexObj.parseElf platform file loader.obj
    return (status, { loader with obj })

def fixMaps (kernel : Kernel) (file : ElfFile) : Proc Crash (Loader size) :=
  fun loader => do
    if loader.obj.mapsScn = .null then
      return (.success, loader)
    else
      let maps ← file.header loader.obj.mapsScn
      let (status, mapDefs, fileMap, calls) ←
        RexObj.fixEntries kernel maps.shAddr maps.shOffset 0
          loader.obj.mapDefs loader.obj.fileMap
      return (status,
        { loader with obj := { loader.obj with mapDefs, fileMap } }.call calls)

/-- Neither opening the stream nor writing to it is checked. -/
def writeTmp (kernel : Kernel) (loader : Loader size) : Loader size :=
  let stream : List Syscall :=
    .openStream kernel.openStream ::
      (kernel.openStream.map fun fd => Syscall.close (fd : Nat)).toList
  let tmpContents :=
    match kernel.openStream with
    | none => loader.tmpContents
    | some _ => some (loader.obj.fileMap.toList.take kernel.written)
  { loader with tmpFile := kernel.openStream.isSome, tmpContents }.call
    (stream ++ [Syscall.openTmp kernel.openTmp])

def baseAttr (kernel : Kernel) (loader : Loader size) : RexBaseAttr where
  progName := objName loader.obj.basename
  rustfd := intFd kernel.openTmp
  image := kernel.openTmp.bind fun _ => loader.tmpContents
  mapOffs := loader.obj.mapDefs.map fun entry => entry.1 + .ofNat kptrOffset
  dynRelas := loader.obj.dynRelas
  dynSyms := loader.obj.dynSyms
  textSyms := loader.obj.textSyms

def afterBase (kernel : Kernel) (basefd : Nat) (loader : Loader size) :
    Loader size :=
  { loader with obj := { loader.obj with progFd := some basefd } }.call
    [.close (loader.baseAttr kernel).rustfd, .remove kernel.remove]

def abort (loader : Loader size) : Loader size :=
  { loader with obj := loader.obj.closeFds.1 }.call loader.obj.closeFds.2

def loadRest (kernel : Kernel) (basefd : Nat) : Proc Crash (Loader size) :=
  fun loader =>
    let loader := loader.afterBase kernel basefd
    match kernel.remove with
    | .error => .ok (.thrown, loader)
    | .absent =>
        .ok (.failure, { loader with tmpFile := false, tmpContents := none }.abort)
    | .removed => do
        let (status, progs, calls) ←
          RexObj.loadProgs kernel basefd loader.obj.timeoutHandlerOff 0
            loader.obj.progs
        let loader :=
          { loader with
            obj := { loader.obj with progs }
            tmpFile := false
            tmpContents := none }.call calls
        match status with
        | .success =>
            return (.success,
              { loader with obj := { loader.obj with loaded := true } })
        | .failure => return (.failure, loader.abort)
        | .thrown => return (.thrown, loader)

def load (kernel : Kernel) : Proc Crash (Loader size) := fun loader =>
  let loader := loader.writeTmp kernel
  let loader := loader.call
    [.progLoadRexBase (loader.baseAttr kernel) kernel.progLoadRexBase]
  match kernel.progLoadRexBase with
  | none => .ok (.failure, loader)
  | some basefd => loadRest kernel basefd loader

end Loader

structure Outcome (size : Nat) where
  result : Option (RexObj size)
  log : List Syscall
  tmpFile : Bool

def Loader.finish (loader : Loader size) : Status → Outcome size
  | .success => ⟨some loader.obj, loader.log, loader.tmpFile⟩
  | .failure => ⟨none, loader.log ++ loader.obj.destroy, loader.tmpFile⟩
  | .thrown => ⟨none, loader.log ++ loader.obj.destroy, loader.tmpFile⟩

def RexObj.construct (kernel : Kernel) (path : String) (file : ElfFile)
    (uninitialised : ScnPtr) :
    Option (RexObj file.size) × List Syscall :=
  if kernel.elfBegin ∧ kernel.fstat ∧ kernel.mmap then
    (some (.new path file.bytes uninitialised),
      [.openFile kernel.openFile, .close (intFd kernel.openFile)])
  else
    (none, [.openFile kernel.openFile])

def rexObjLoad (platform : Platform) (kernel : Kernel) (path : String)
    (file : ElfFile) (uninitialised : ScnPtr) :
    Except Crash (Outcome file.size) :=
  if ¬ kernel.elfVersion then
    .ok ⟨none, [], false⟩
  else
    match RexObj.construct kernel path file uninitialised with
    | (none, log) => .ok ⟨none, log, false⟩
    | (some obj, log) => do
        let (status, loader) ←
          andThen (Loader.parseElf platform file)
            (andThen (Loader.fixMaps kernel file) (Loader.load kernel))
            ⟨obj, log, false, kernel.tmpBefore⟩
        return loader.finish status

/-! The libbpf view of a loaded object. -/

structure BpfMap where
  name : String
  fd : Nat
  mapDef : MapDef
deriving DecidableEq

structure BpfProgram where
  name : String
  secName : String
  secDef : Option BpfSecDef
  fd : Nat
deriving DecidableEq

structure BpfObject where
  maps : List BpfMap
  programs : List BpfProgram
deriving DecidableEq

def RexMap.bpfmap (map : RexMap) : Option BpfMap :=
  map.mapFd.map fun fd => { name := map.name, fd, mapDef := map.mapDef }

def RexProg.bpfProg (prog : RexProg) : Option BpfProgram :=
  prog.progFd.map fun fd =>
    { name := prog.name, secName := prog.scnName, secDef := prog.secDef, fd }

def RexObj.bpfObj (obj : RexObj size) : Option BpfObject := do
  if obj.loaded then
    let maps ← obj.mapDefs.mapM fun entry => entry.2.bpfmap
    let programs ← obj.progs.mapM RexProg.bpfProg
    return { maps, programs }
  else
    none

def Kernel.willing : Kernel where
  elfVersion := true
  openFile := some 3
  elfBegin := true
  fstat := true
  mmap := true
  mapCreate idx := some (10 + idx)
  tmpBefore := none
  openStream := some 3
  written := 4096
  openTmp := some 3
  progLoadRexBase := some 4
  remove := .removed
  progLoadRex idx := some (20 + idx)

def Platform.plain : Platform where
  sectionDefs := [⟨"tc", 3⟩]
  demangle := id
  arrange := id
  arrange_perm _ := .refl _

end Rex.Librex
