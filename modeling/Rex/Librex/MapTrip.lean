import Mathlib.Data.List.Forall2
import Mathlib.Data.List.Perm.Basic
import Rex.Librex.Accounting
import Rex.Librex.MapLayout

namespace Rex.Librex

open Procedure

/-! The maps on their way through `parse_maps`, `fix_maps` and `load`. -/

variable {platform : Platform} {kernel : Kernel} {file : ElfFile}
  {statics : List MapStatic} {symtabShndx mapsShndx : Nat}
  {symtab maps : Elf64Shdr} {size : Nat}

namespace MapStatic

def entry (static : MapStatic) : UInt64 × RexMap :=
  (static.addr, { mapDef := static.mapDef, mapFd := none, name := static.name })

def created (kernel : Kernel) (item : MapStatic × Nat) : UInt64 × RexMap :=
  (item.1.addr, { item.1.entry.2 with mapFd := kernel.mapCreate item.2 })

def creation (kernel : Kernel) (item : MapStatic × Nat) : Syscall :=
  .mapCreate (item.1.mapDef.attr item.1.name) (kernel.mapCreate item.2)

theorem Apart.symm {first second : MapStatic} (apart : first.Apart second) :
    second.Apart first :=
  Or.symm apart

theorem Apart.addr_ne {first second : MapStatic} (apart : first.Apart second) :
    first.addr ≠ second.addr := by
  intro same
  unfold Apart mapDefSize at apart
  rw [same] at apart
  omega

end MapStatic

/-! `parse_maps` -/

namespace LaidOut

variable (layout : LaidOut file statics symtabShndx mapsShndx symtab maps)

include layout

theorem new_static
    (member : static ∈ statics) (delivered : file.getdata mapsShndx = some data) :
    RexMap.new data maps.shAddr static.addr (some static.name) =
      .ok (some static.entry.2) := by
  obtain ⟨padding, viewed⟩ := layout.view_static member delivered
  simp only [RexMap.new, viewed, bind, Except.bind, MapDef.ofBytes_handle]
  rfl

theorem parseMap_static (platform : Platform) (member : static ∈ statics)
    (delivered : file.getdata mapsShndx = some data)
    {sym : Elf64Sym} (isMap : RexObj.IsMapSym mapsShndx sym)
    (value : sym.stValue = static.addr)
    (named : file.strptr symtab.shLink sym.stName = some static.name)
    {obj : RexObj size} (new : static.addr ∉ obj.mapDefs.map Prod.fst) :
    RexObj.parseMap platform file data symtab.shLink mapsShndx maps.shAddr sym
        obj =
      .ok (.success,
        { obj with
          mapDefs := platform.arrange (static.entry :: obj.mapDefs) }) := by
  simp only [RexObj.parseMap, if_pos isMap, value, named,
    layout.new_static member delivered, Platform.tryEmplace, if_neg new]
  rfl

theorem each_parseMap
    (platform : Platform) (delivered : file.getdata mapsShndx = some data)
    {syms : List Elf64Sym} {todo : List MapStatic}
    (symbols : List.Forall₂
      (fun sym static => sym.stValue = static.addr ∧
        file.strptr symtab.shLink sym.stName = some static.name)
      (syms.filter (RexObj.IsMapSym mapsShndx)) todo)
    (members : todo ⊆ statics) (apart : todo.Pairwise MapStatic.Apart)
    (obj : RexObj size)
    (new : ∀ static ∈ todo, static.addr ∉ obj.mapDefs.map Prod.fst) :
    ∃ mapDefs,
      each (RexObj.parseMap platform file data symtab.shLink mapsShndx
        maps.shAddr) syms obj = .ok (.success, { obj with mapDefs }) ∧
      mapDefs.Perm (todo.map MapStatic.entry ++ obj.mapDefs) := by
  induction syms generalizing todo obj with
  | nil =>
      cases symbols
      exact ⟨obj.mapDefs, rfl, .refl _⟩
  | cons sym rest induction =>
      by_cases isMap : RexObj.IsMapSym mapsShndx sym
      · rw [List.filter_cons_of_pos (by simpa using isMap)] at symbols
        obtain _ | ⟨⟨value, named⟩, symbols⟩ := symbols
        rename_i static todo
        obtain ⟨member, members⟩ := List.cons_subset.mp members
        obtain ⟨apartHead, apart⟩ := List.pairwise_cons.mp apart
        have parsed := layout.parseMap_static platform member delivered isMap
          value named (new static List.mem_cons_self)
        have arranged := platform.arrange_perm (static.entry :: obj.mapDefs)
        have stillNew : ∀ other ∈ todo, other.addr ∉
            (platform.arrange (static.entry :: obj.mapDefs)).map Prod.fst := by
          intro other later found
          rw [(arranged.map Prod.fst).mem_iff, List.map_cons, List.mem_cons] at found
          rcases found with same | earlier
          · exact (apartHead other later).addr_ne same.symm
          · exact new other (.tail _ later) earlier
        obtain ⟨mapDefs, ran, perm⟩ :=
          induction symbols members apart { obj with mapDefs := _ } stillNew
        refine ⟨mapDefs, (andThen_of_success parsed).trans ran, ?_⟩
        exact perm.trans ((arranged.append_left _).trans List.perm_middle)
      · rw [List.filter_cons_of_neg (by simpa using isMap)] at symbols
        obtain ⟨mapDefs, ran, perm⟩ := induction symbols members apart obj new
        have skipped : RexObj.parseMap platform file data symtab.shLink mapsShndx
            maps.shAddr sym obj = .ok (.success, obj) := by
          simp only [RexObj.parseMap, if_neg isMap]
          rfl
        exact ⟨mapDefs, (andThen_of_success skipped).trans ran, perm⟩

theorem parseMaps_statics (platform : Platform) {obj : RexObj size}
    (symtabScn : obj.symtabScn = .scn symtabShndx)
    (mapsScn : obj.mapsScn = .scn mapsShndx) (empty : obj.mapDefs = []) :
    ∃ order : List MapStatic, order.Perm statics ∧
      RexObj.parseMaps platform file obj =
        .ok (.success, { obj with mapDefs := order.map MapStatic.entry }) := by
  obtain ⟨syms, table, deliveredSyms, read, symbols⟩ := layout.symbols
  have new : ∀ static ∈ statics, static.addr ∉ obj.mapDefs.map Prod.fst := by
    simp [empty]
  obtain ⟨mapDefs, ran, perm⟩ := layout.each_parseMap platform
    layout.mapsData symbols (List.Subset.refl _) layout.disjoint obj new
  rw [empty, List.append_nil] at perm
  have ordered : Relation.Comp (· = List.map MapStatic.entry ·) List.Perm
      mapDefs statics := by
    rw [List.eq_map_comp_perm]
    exact perm
  obtain ⟨order, rfl, reordered⟩ := ordered
  refine ⟨order, reordered, ?_⟩
  rw [← ran]
  simp only [RexObj.parseMaps, mapsScn, symtabScn, ElfFile.header,
    ElfFile.elfGetdata, ElfFile.elf64Getshdr, layout.mapsScn, layout.symtabScn,
    deliveredSyms, layout.mapsData, read, bind, Except.bind]

end LaidOut

/-! `fix_maps` -/

/-- The image after the maps have been created: the pointer of each handle holds
the descriptor of its own map, and no other byte has changed. -/
structure Patched (kernel : Kernel) (maps : Elf64Shdr)
    (items : List (MapStatic × Nat)) (before after : Vector UInt8 size) :
    Prop where
  kptrs : ∀ item ∈ items, ∃ (fd : Nat) (window : Window size 8),
    kernel.mapCreate item.2 = some fd ∧
    window.start = item.1.fileOff maps + kptrOffset ∧
    window.read after = kptrBytes fd
  others : ∀ idx (inFile : idx < size),
    (∀ item ∈ items, idx < item.1.fileOff maps + kptrOffset ∨
      item.1.fileOff maps + kptrOffset + 8 ≤ idx) →
    after[idx] = before[idx]

theorem Patched.cons {static : MapStatic} {number fd : Nat}
    {rest : List (MapStatic × Nat)} {window : Window size 8}
    {before after : Vector UInt8 size}
    (created : kernel.mapCreate number = some fd)
    (located : window.start = static.fileOff maps + kptrOffset)
    (apart : ∀ item ∈ rest,
      static.fileOff maps + mapDefSize ≤ item.1.fileOff maps ∨
        item.1.fileOff maps + mapDefSize ≤ static.fileOff maps)
    (patched : Patched kernel maps rest
      (window.write before (kptrBytes fd)) after) :
    Patched kernel maps ((static, number) :: rest) before after := by
  unfold mapDefSize at apart
  unfold kptrOffset at located
  constructor
  · intro item member
    rcases List.mem_cons.mp member with rfl | later
    · refine ⟨fd, window, created, located, ?_⟩
      rw [← window.read_write before (kptrBytes fd)]
      apply window.read_congr
      intro idx inFile inside
      apply patched.others
      intro item later
      have := apart item later
      have := inside.1
      have := inside.2
      unfold kptrOffset
      omega
    · exact patched.kptrs item later
  · intro idx inFile outside
    have untouched : ¬ window.Covers idx := by
      have := outside (static, number) List.mem_cons_self
      simp only [kptrOffset] at this
      unfold Window.Covers
      omega
    rw [patched.others idx inFile fun item later => outside item (.tail _ later)]
    exact window.getElem_write_of_not_covers before _ inFile untouched

theorem Patched.unique {items : List (MapStatic × Nat)}
    {before after other : Vector UInt8 size} (patched : Patched kernel maps items before after)
    (same : Patched kernel maps items before other) : after = other := by
  apply Vector.ext
  intro idx inFile
  by_cases covered : ∃ item ∈ items, item.1.fileOff maps + kptrOffset ≤ idx ∧
      idx < item.1.fileOff maps + kptrOffset + 8
  · obtain ⟨item, member, inside⟩ := covered
    obtain ⟨fd, window, created, start, read⟩ := patched.kptrs item member
    obtain ⟨otherFd, otherWindow, otherCreated, otherStart, otherRead⟩ :=
      same.kptrs item member
    obtain rfl := Option.some.inj (created.symm.trans otherCreated)
    obtain rfl : window = otherWindow := by
      cases window
      cases otherWindow
      simp_all
    rw [← start] at inside
    exact window.getElem_of_read_eq (read.trans otherRead.symm) inFile inside
  · have outside : ∀ item ∈ items, idx < item.1.fileOff maps + kptrOffset ∨
        item.1.fileOff maps + kptrOffset + 8 ≤ idx := by
      intro item member
      by_contra inside
      exact covered ⟨item, member, by omega, by omega⟩
    rw [patched.others idx inFile outside, same.others idx inFile outside]

theorem RexObj.fixEntries_cons {mapsShaddr mapsShoff mOff : UInt64}
    {mDef : RexMap} {rest final : MapDefs} {fileMap image : Vector UInt8 size}
    {calls : List Syscall} {window : Window size 8} {status : Status}
    (created : kernel.mapCreate idx = some fd)
    (located : Window.locate size 8
      (mOff + .ofNat kptrOffset - mapsShaddr + mapsShoff).toNat = some window)
    (fixed : fixEntries kernel mapsShaddr mapsShoff (idx + 1) rest
      (window.write fileMap (kptrBytes fd)) = .ok (status, final, image, calls)) :
    fixEntries kernel mapsShaddr mapsShoff idx ((mOff, mDef) :: rest) fileMap =
      .ok (status, (mOff, { mDef with mapFd := some fd }) :: final, image,
        .mapCreate (mDef.mapDef.attr mDef.name) (some fd) :: calls) := by
  simp only [fixEntries, created, RexMap.create, located, fixed, bind, Except.bind,
    pure, Except.pure]

namespace LaidOut

variable (layout : LaidOut file statics symtabShndx mapsShndx symtab maps)

include layout

theorem fileOff_apart {first second : MapStatic} (memberFirst : first ∈ statics)
    (memberSecond : second ∈ statics) (apart : first.Apart second) :
    first.fileOff maps + mapDefSize ≤ second.fileOff maps ∨
      second.fileOff maps + mapDefSize ≤ first.fileOff maps := by
  have := (layout.inSection first memberFirst).1
  have := (layout.inSection second memberSecond).1
  unfold MapStatic.Apart at apart
  unfold MapStatic.fileOff
  omega

theorem locate_kptr (member : static ∈ statics) :
    ∃ window, Window.locate file.size 8
        (static.addr + .ofNat kptrOffset - maps.shAddr + maps.shOffset).toNat =
          some window ∧
      window.start = static.fileOff maps + kptrOffset := by
  have inFile : static.fileOff maps + kptrOffset + 8 ≤ file.size :=
    layout.fileOff_le member
  rw [layout.kptrFileOff member]
  exact ⟨_, Window.locate_eq_some inFile, rfl⟩

theorem fixEntries_statics {order : List MapStatic} (members : order ⊆ statics)
    (apart : order.Pairwise MapStatic.Apart) (idx : Nat)
    (answered : ∀ k < order.length, (kernel.mapCreate (idx + k)).isSome)
    (fileMap : Vector UInt8 file.size) :
    ∃ image,
      RexObj.fixEntries kernel maps.shAddr maps.shOffset idx
          (order.map MapStatic.entry) fileMap =
        .ok (.success, (order.zipIdx idx).map (MapStatic.created kernel), image,
          (order.zipIdx idx).map (MapStatic.creation kernel)) ∧
      Patched kernel maps (order.zipIdx idx) fileMap image := by
  induction order generalizing idx fileMap with
  | nil => exact ⟨fileMap, rfl, nofun, fun _ _ _ => rfl⟩
  | cons static rest induction =>
      obtain ⟨member, members⟩ := List.cons_subset.mp members
      obtain ⟨apartHead, apart⟩ := List.pairwise_cons.mp apart
      obtain ⟨fd, created⟩ := Option.isSome_iff_exists.mp (answered 0 (by simp))
      obtain ⟨window, located, start⟩ := layout.locate_kptr member
      have answeredRest : ∀ k < rest.length,
          (kernel.mapCreate (idx + 1 + k)).isSome := by
        intro k inRest
        rw [Nat.add_assoc, Nat.add_comm 1]
        exact answered (k + 1) (by simpa using inRest)
      obtain ⟨image, fixed, patched⟩ := induction members apart (idx + 1)
        answeredRest (window.write fileMap (kptrBytes fd))
      refine ⟨image, ?_, ?_⟩
      · have step : RexObj.fixEntries kernel maps.shAddr maps.shOffset idx
            (static.entry :: rest.map MapStatic.entry) fileMap = _ :=
          RexObj.fixEntries_cons created located fixed
        rw [← created] at step
        exact step
      · refine patched.cons created start ?_
        intro item later
        have memberItem := List.fst_mem_of_mem_zipIdx later
        exact layout.fileOff_apart member (members memberItem)
          (apartHead item.1 memberItem)

end LaidOut

theorem LaidOut.fixMaps_statics
    (layout : LaidOut file statics symtabShndx mapsShndx symtab maps)
    {order : List MapStatic} (perm : order.Perm statics)
    (answered : ∀ k < statics.length, (kernel.mapCreate k).isSome)
    {loader : Loader file.size} (mapsScn : loader.obj.mapsScn = .scn mapsShndx)
    (mapDefs : loader.obj.mapDefs = order.map MapStatic.entry) :
    ∃ ready, Loader.fixMaps kernel file loader = .ok (.success, ready) ∧
      ready.obj.progs = loader.obj.progs ∧ ready.tmpContents = loader.tmpContents ∧
      ready.obj.mapDefs = order.zipIdx.map (MapStatic.created kernel) ∧
      Patched kernel maps order.zipIdx loader.obj.fileMap ready.obj.fileMap ∧
      ready.log = loader.log ++ order.zipIdx.map (MapStatic.creation kernel) := by
  have apart := (perm.pairwise_iff MapStatic.Apart.symm).mpr layout.disjoint
  have answered : ∀ k < order.length, (kernel.mapCreate (0 + k)).isSome := by
    simpa [perm.length_eq] using answered
  obtain ⟨image, fixed, patched⟩ := layout.fixEntries_statics perm.subset apart 0
    answered loader.obj.fileMap
  rw [← mapDefs] at fixed
  have mapped : loader.obj.mapsScn ≠ .null := by simp [mapsScn]
  have header : file.header loader.obj.mapsScn = .ok maps := by
    simp only [mapsScn, ElfFile.header, ElfFile.elf64Getshdr, layout.mapsScn,
      bind, Except.bind]
  refine ⟨{ loader with
    obj := { loader.obj with mapDefs := _, fileMap := image } }.call _,
    ?_, rfl, rfl, rfl, patched, rfl⟩
  rw [Loader.fixMaps, if_neg mapped]
  exact bind_eq_ok.mpr ⟨maps, header, bind_eq_ok.mpr ⟨_, fixed, rfl⟩⟩

/-! `load` -/

namespace Syscall

def mapCreateCall? : Syscall → Option (MapCreateAttr × Option Nat)
  | .mapCreate attr ret => some (attr, ret)
  | _ => none

def baseCall? : Syscall → Option RexBaseAttr
  | .progLoadRexBase attr _ => some attr
  | _ => none

def Quiet (call : Syscall) : Prop :=
  call.mapCreateCall? = none ∧ call.baseCall? = none

theorem filterMap_quiet {calls : List Syscall}
    (quiet : ∀ call ∈ calls, call.Quiet) :
    calls.filterMap mapCreateCall? = [] ∧ calls.filterMap baseCall? = [] :=
  ⟨List.filterMap_eq_nil_iff.mpr fun call member => (quiet call member).1,
    List.filterMap_eq_nil_iff.mpr fun call member => (quiet call member).2⟩

theorem quiet_closeAll (fds : List Nat) :
    ∀ call ∈ (closeAll fds : List Syscall), call.Quiet := by
  intro call member
  obtain ⟨fd, _, rfl⟩ := List.mem_map.mp member
  exact ⟨rfl, rfl⟩

theorem quiet_closeFds (obj : RexObj size) :
    ∀ call ∈ obj.closeFds.2, call.Quiet := by
  intro call member
  rcases List.mem_append.mp member with closed | base
  · exact quiet_closeAll _ call closed
  · obtain ⟨fd, _, rfl⟩ := Option.mem_map.mp (Option.mem_toList.mp base)
    exact ⟨rfl, rfl⟩

end Syscall

theorem RexObj.loadProgs_returns (kernel : Kernel) (basefd : Nat)
    (timeoutHandlerOff : Option UInt64) (idx : Nat) {progs : List RexProg}
    (matched : ∀ prog ∈ progs, prog.secDef.isSome) :
    ∃ status final calls,
      loadProgs kernel basefd timeoutHandlerOff idx progs =
        .ok (status, final, calls) ∧
      ∀ call ∈ (calls : List Syscall), call.Quiet := by
  induction progs generalizing idx with
  | nil => exact ⟨.success, [], [], rfl, nofun⟩
  | cons prog rest induction =>
      obtain ⟨secDef, found⟩ :=
        Option.isSome_iff_exists.mp (matched prog List.mem_cons_self)
      unfold loadProgs
      cases timeoutHandlerOff with
      | none =>
          simp only [found]
          exact ⟨.thrown, _, _, rfl, nofun⟩
      | some unwinderInsnOff =>
          simp only [found]
          cases loaded : kernel.progLoadRex idx with
          | none =>
              refine ⟨.failure, _, _, rfl, ?_⟩
              intro call member
              rw [List.mem_singleton.mp member]
              exact ⟨rfl, rfl⟩
          | some fd =>
              obtain ⟨status, final, calls, ran, quiet⟩ := induction (idx + 1)
                fun prog member => matched prog (.tail _ member)
              refine ⟨status, _, _, by rw [ran]; rfl, ?_⟩
              intro call member
              rcases List.mem_cons.mp member with rfl | later
              · exact ⟨rfl, rfl⟩
              · exact quiet call later

structure RexObj.LoadedFrom (final obj : RexObj size) : Prop where
  loaded : final.loaded = true
  mapDefs : final.mapDefs = obj.mapDefs
  progs : ∀ prog ∈ final.progs, prog.progFd.isSome

namespace Loader

/-- Only calls that concern neither the maps nor the image lead from one state
to the other. -/
def QuietTo (loader next : Loader size) : Prop :=
  ∃ calls, next.log = loader.log ++ calls ∧ ∀ call ∈ calls, call.Quiet

theorem QuietTo.refl (loader : Loader size) : loader.QuietTo loader :=
  ⟨[], (List.append_nil _).symm, nofun⟩

theorem quietTo_call (loader : Loader size) {calls : List Syscall}
    (quiet : ∀ call ∈ calls, call.Quiet) : loader.QuietTo (loader.call calls) :=
  ⟨calls, rfl, quiet⟩

theorem QuietTo.trans {loader next final : Loader size}
    (first : loader.QuietTo next) (second : next.QuietTo final) :
    loader.QuietTo final := by
  obtain ⟨calls, log, quiet⟩ := first
  obtain ⟨later, logLater, quietLater⟩ := second
  refine ⟨calls ++ later, by rw [logLater, log, List.append_assoc], ?_⟩
  intro call member
  rcases List.mem_append.mp member with earlier | later
  · exact quiet call earlier
  · exact quietLater call later

theorem quietTo_abort (loader : Loader size) : loader.QuietTo loader.abort :=
  ⟨loader.obj.closeFds.2, rfl, Syscall.quiet_closeFds loader.obj⟩

theorem quietTo_afterBase (kernel : Kernel) (basefd : Nat)
    (loader : Loader size) : loader.QuietTo (loader.afterBase kernel basefd) := by
  refine ⟨_, rfl, ?_⟩
  intro call member
  simp only [List.mem_cons, List.not_mem_nil, or_false] at member
  rcases member with rfl | rfl <;> exact ⟨rfl, rfl⟩

theorem quietTo_writeTmp (kernel : Kernel) (loader : Loader size) :
    loader.QuietTo (loader.writeTmp kernel) := by
  refine ⟨_, rfl, ?_⟩
  intro call member
  simp only [List.cons_append, List.mem_cons, List.mem_append, Option.mem_toList,
    Option.map_eq_some_iff, List.not_mem_nil, or_false] at member
  rcases member with rfl | ⟨fd, _, rfl⟩ | rfl <;> exact ⟨rfl, rfl⟩

theorem loadRest_returns (kernel : Kernel) (basefd : Nat) {loader : Loader size}
    (matched : ∀ prog ∈ loader.obj.progs, prog.secDef.isSome) :
    ∃ status final, loadRest kernel basefd loader = .ok (status, final) ∧
      loader.QuietTo final ∧
      (status = .success → final.obj.LoadedFrom loader.obj) := by
  have based := quietTo_afterBase kernel basefd loader
  unfold loadRest
  cases removal : kernel.remove with
  | error => exact ⟨.thrown, _, rfl, based, nofun⟩
  | absent =>
      exact ⟨.failure, _, rfl, based.trans (quietTo_abort _), nofun⟩
  | removed =>
      obtain ⟨status, progs, calls, ran, quiet⟩ :=
        RexObj.loadProgs_returns kernel basefd loader.obj.timeoutHandlerOff 0 matched
      have loaded := based.trans (quietTo_call _ quiet)
      cases status with
      | success =>
          refine ⟨.success, _, bind_eq_ok.mpr ⟨_, ran, rfl⟩, loaded, ?_⟩
          exact fun _ => ⟨rfl, rfl, RexObj.loadProgs_loaded ran⟩
      | failure =>
          exact ⟨.failure, _, bind_eq_ok.mpr ⟨_, ran, rfl⟩,
            loaded.trans (quietTo_abort _), nofun⟩
      | thrown =>
          exact ⟨.thrown, _, bind_eq_ok.mpr ⟨_, ran, rfl⟩, loaded, nofun⟩

theorem load_returns (kernel : Kernel) {loader : Loader size}
    (matched : ∀ prog ∈ loader.obj.progs, prog.secDef.isSome) :
    ∃ status middle final, load kernel loader = .ok (status, final) ∧
      loader.QuietTo middle ∧
      (middle.call [.progLoadRexBase ((loader.writeTmp kernel).baseAttr kernel)
        kernel.progLoadRexBase]).QuietTo final ∧
      (status = .success → final.obj.LoadedFrom loader.obj) := by
  have written := quietTo_writeTmp kernel loader
  unfold load
  cases base : kernel.progLoadRexBase with
  | none =>
      exact ⟨.failure, _, _, rfl, written, .refl _, nofun⟩
  | some basefd =>
      have matched : ∀ prog ∈ ((loader.writeTmp kernel).call
          [.progLoadRexBase ((loader.writeTmp kernel).baseAttr kernel)
            (some basefd)]).obj.progs, prog.secDef.isSome := matched
      obtain ⟨status, final, ran, quiet, loaded⟩ :=
        loadRest_returns kernel basefd matched
      exact ⟨status, _, final, ran, written, quiet, loaded⟩

end Loader

/-! `bpf_obj` -/

theorem exists_mapM_eq {f : α → Option β} {list : List α}
    (all : ∀ item ∈ list, (f item).isSome) :
    ∃ results, list.mapM f = some results ∧ results.map some = list.map f := by
  induction list with
  | nil => exact ⟨[], rfl, rfl⟩
  | cons item rest induction =>
      obtain ⟨results, mapped, same⟩ :=
        induction fun item member => all item (.tail _ member)
      obtain ⟨result, found⟩ :=
        Option.isSome_iff_exists.mp (all item List.mem_cons_self)
      refine ⟨result :: results, by simp [mapped, found], ?_⟩
      rw [List.map_cons, List.map_cons, same, found]

theorem RexObj.bpfObj_maps {obj : RexObj size} {items : List (MapStatic × Nat)}
    (loaded : obj.loaded = true)
    (mapDefs : obj.mapDefs = items.map (MapStatic.created kernel))
    (answered : ∀ item ∈ items, (kernel.mapCreate item.2).isSome)
    (progs : ∀ prog ∈ obj.progs, prog.progFd.isSome) :
    ∃ bpf, obj.bpfObj = some bpf ∧
      bpf.maps.map (fun map => (map.name, some map.fd)) =
        items.map fun item => (item.1.name, kernel.mapCreate item.2) := by
  have hasMaps : ∀ entry ∈ obj.mapDefs, entry.2.bpfmap.isSome := by
    rw [mapDefs]
    intro entry member
    obtain ⟨item, memberItem, rfl⟩ := List.mem_map.mp member
    simpa [RexMap.bpfmap, MapStatic.created] using answered item memberItem
  have hasProgs : ∀ prog ∈ obj.progs, prog.bpfProg.isSome := by
    intro prog member
    simpa [RexProg.bpfProg] using progs prog member
  obtain ⟨maps, mapped, same⟩ := exists_mapM_eq hasMaps
  obtain ⟨programs, listed, _⟩ := exists_mapM_eq hasProgs
  refine ⟨⟨maps, programs⟩, by simp [bpfObj, loaded, mapped, listed], ?_⟩
  -- compare the lists under `some`, where `same` says what each map is
  apply List.map_injective_iff.mpr (Option.some_injective _)
  have shown := congrArg
    (List.map (Option.map fun map : BpfMap => (map.name, some map.fd))) same
  rw [mapDefs, List.map_map, List.map_map, List.map_map] at shown
  rw [List.map_map, List.map_map]
  refine shown.trans (List.map_congr_left ?_)
  intro item member
  obtain ⟨fd, created⟩ := Option.isSome_iff_exists.mp (answered item member)
  simp [RexMap.bpfmap, MapStatic.created, created, MapStatic.entry]

/-- The kernel reads the image from the temporary file if that can be opened, and
if the stream has written all of it or, where there is no stream, the file was
there before with the same contents. -/
def HandsOver (kernel : Kernel) (before : Option (List UInt8)) (image : List UInt8) :
    Prop :=
  kernel.openTmp.isSome ∧
    (kernel.openStream.isSome ∧ image.length ≤ kernel.written ∨
      kernel.openStream = none ∧ before = some image)

instance (kernel : Kernel) (before : Option (List UInt8)) (image : List UInt8) :
    Decidable (HandsOver kernel before image) :=
  inferInstanceAs (Decidable (_ ∧ _))

theorem Loader.image_writeTmp (kernel : Kernel) (loader : Loader size) :
    ((loader.writeTmp kernel).baseAttr kernel).image = some loader.obj.fileMap.toList ↔
      HandsOver kernel loader.tmpContents loader.obj.fileMap.toList := by
  unfold HandsOver baseAttr writeTmp call
  cases kernel.openTmp with
  | none => simp
  | some fd =>
      cases kernel.openStream with
      | none => simp
      | some stream => simp [List.take_eq_self_iff]

/-- What the kernel is given, for the statics in the order of the hash table:
one creation request for each, the addresses of the pointers to relocate and, if
the temporary file holds it, the image with the descriptors. -/
structure Delivered (kernel : Kernel) (file : ElfFile) (maps : Elf64Shdr)
    (order : List MapStatic) (handsOver : Prop) (calls : List Syscall) : Prop where
  creations : List.Forall₂
    (fun item call => item.1.Requests call.1 ∧ call.2 = kernel.mapCreate item.2)
    order.zipIdx (calls.filterMap Syscall.mapCreateCall?)
  base : ∃ attr, calls.filterMap Syscall.baseCall? = [attr] ∧
    attr.mapOffs = order.map (fun static => static.addr + .ofNat kptrOffset) ∧
    attr.mapOffs.Nodup ∧
    ((∃ image : Vector UInt8 file.size, attr.image = some image.toList ∧
        Patched kernel maps order.zipIdx file.bytes image) ↔ handsOver)

theorem delivered {order : List MapStatic} {attr : RexBaseAttr} {handsOver : Prop}
    {before after : List Syscall} (ret : Option Nat)
    (apart : order.Pairwise MapStatic.Apart)
    (mapOffs : attr.mapOffs =
      order.map fun static => static.addr + .ofNat kptrOffset)
    (patched : (∃ image : Vector UInt8 file.size, attr.image = some image.toList ∧
      Patched kernel maps order.zipIdx file.bytes image) ↔ handsOver)
    (quietBefore : ∀ call ∈ before, call.Quiet)
    (quietAfter : ∀ call ∈ after, call.Quiet) :
    Delivered kernel file maps order handsOver
      (order.zipIdx.map (MapStatic.creation kernel) ++ before ++
        [.progLoadRexBase attr ret] ++ after) := by
  obtain ⟨noMapsBefore, noBaseBefore⟩ := Syscall.filterMap_quiet quietBefore
  obtain ⟨noMapsAfter, noBaseAfter⟩ := Syscall.filterMap_quiet quietAfter
  constructor
  · have creations : (order.zipIdx.map (MapStatic.creation kernel)).filterMap
        Syscall.mapCreateCall? =
        order.zipIdx.map fun item =>
          (item.1.mapDef.attr item.1.name, kernel.mapCreate item.2) := by
      rw [List.filterMap_map, ← List.filterMap_eq_map]
      rfl
    have noMaps : [(.progLoadRexBase attr ret : Syscall)].filterMap
        Syscall.mapCreateCall? = [] := rfl
    simp only [List.filterMap_append, noMapsBefore, noMapsAfter, creations,
      noMaps, List.append_nil]
    rw [List.forall₂_map_right_iff, List.forall₂_same]
    exact fun item _ => ⟨item.1.requests_attr, rfl⟩
  · refine ⟨attr, ?_, mapOffs, ?_, patched⟩
    · have noBase : (order.zipIdx.map (MapStatic.creation kernel)).filterMap
          Syscall.baseCall? = [] := by
        rw [List.filterMap_map]
        exact List.filterMap_eq_nil_iff.mpr fun _ _ => rfl
      simp [noBase, noBaseBefore, noBaseAfter, Syscall.baseCall?]
    · rw [mapOffs]
      refine List.pairwise_map.mpr (apart.imp ?_)
      intro first second apart same
      exact apart.addr_ne (UInt64.add_left_inj _ |>.mp same)

theorem Loader.load_delivers {order : List MapStatic} {ready : Loader file.size}
    {log : List Syscall} (apart : order.Pairwise MapStatic.Apart)
    (answered : ∀ k < order.length, (kernel.mapCreate k).isSome)
    (matched : ∀ prog ∈ ready.obj.progs, prog.secDef.isSome)
    (mapDefs : ready.obj.mapDefs = order.zipIdx.map (MapStatic.created kernel))
    (patched : Patched kernel maps order.zipIdx file.bytes ready.obj.fileMap)
    (created : ready.log = log ++ order.zipIdx.map (MapStatic.creation kernel)) :
    ∃ status final calls, load kernel ready = .ok (status, final) ∧
      final.log = log ++ calls ∧
      Delivered kernel file maps order
        (HandsOver kernel ready.tmpContents ready.obj.fileMap.toList) calls ∧
      (status = .success → ∃ bpf, final.obj.bpfObj = some bpf ∧
        bpf.maps.map (fun map => (map.name, some map.fd)) =
          order.zipIdx.map fun item =>
            (item.1.name, kernel.mapCreate item.2)) := by
  obtain ⟨status, middle, final, ran, ⟨before, logBefore, quietBefore⟩,
    ⟨after, logAfter, quietAfter⟩, loaded⟩ := load_returns kernel matched
  have mapOffs : ((ready.writeTmp kernel).baseAttr kernel).mapOffs =
      order.map fun static => static.addr + .ofNat kptrOffset := by
    calc
      ready.obj.mapDefs.map (fun entry => entry.1 + .ofNat kptrOffset)
      _ = (order.zipIdx.map Prod.fst).map
          fun static => static.addr + .ofNat kptrOffset := by
        rw [mapDefs, List.map_map, List.map_map]
        rfl
      _ = _ := by rw [List.zipIdx_map_fst]
  have image : (∃ image : Vector UInt8 file.size,
      ((ready.writeTmp kernel).baseAttr kernel).image = some image.toList ∧
        Patched kernel maps order.zipIdx file.bytes image) ↔
      HandsOver kernel ready.tmpContents ready.obj.fileMap.toList := by
    rw [← image_writeTmp]
    constructor
    · rintro ⟨image, written, same⟩
      rw [written, same.unique patched]
    · exact fun written => ⟨ready.obj.fileMap, written, patched⟩
  refine ⟨status, final, _, ran, ?_,
    delivered kernel.progLoadRexBase apart mapOffs image quietBefore quietAfter,
    ?_⟩
  · rw [logAfter, call, logBefore, created]
    simp only [List.append_assoc]
  · intro succeeded
    have answered : ∀ item ∈ order.zipIdx, (kernel.mapCreate item.2).isSome := by
      intro item member
      exact answered item.2 (List.snd_lt_of_mem_zipIdx member)
    obtain ⟨isLoaded, kept, progs⟩ := loaded succeeded
    exact RexObj.bpfObj_maps isLoaded (kept.trans mapDefs) answered progs

/-- The statics of a program reach the kernel through `parse_maps`, `fix_maps`
and `load`, whatever the object's other fields hold and whatever `parse_progs`
and `parse_rela_dyn` do in between.  A loaded object lists each of them with its
name and descriptor.  The image that the kernel reads is the file with the
descriptors exactly if the temporary file holds it. -/
theorem maps_reach_kernel
    (layout : LaidOut file statics symtabShndx mapsShndx symtab maps)
    (platform : Platform) (kernel : Kernel) (obj : RexObj file.size)
    (symtabScn : obj.symtabScn = .scn symtabShndx)
    (mapsScn : obj.mapsScn = .scn mapsShndx) (empty : obj.mapDefs = [])
    (unpatched : obj.fileMap = file.bytes)
    (matched : ∀ prog ∈ obj.progs, prog.secDef.isSome)
    (answered : ∀ k < statics.length, (kernel.mapCreate k).isSome) :
    ∃ (order : List MapStatic) (parsed : RexObj file.size),
      order.Perm statics ∧
      RexObj.parseMaps platform file obj = .ok (.success, parsed) ∧
      ∀ loader : Loader file.size, parsed.MapsKept loader.obj →
        ∃ ready status final calls,
          Loader.fixMaps kernel file loader = .ok (.success, ready) ∧
          Loader.load kernel ready = .ok (status, final) ∧
          final.log = loader.log ++ calls ∧
          Patched kernel maps order.zipIdx file.bytes ready.obj.fileMap ∧
          Delivered kernel file maps order
            (HandsOver kernel loader.tmpContents ready.obj.fileMap.toList) calls ∧
          (status = .success → ∃ bpf, final.obj.bpfObj = some bpf ∧
            bpf.maps.map (fun map => (map.name, some map.fd)) =
              order.zipIdx.map fun item =>
                (item.1.name, kernel.mapCreate item.2)) := by
  obtain ⟨order, perm, parsed⟩ :=
    layout.parseMaps_statics platform symtabScn mapsScn empty
  refine ⟨order, _, perm, parsed, ?_⟩
  intro loader kept
  obtain ⟨ready, fixed, progs, tmpContents, mapDefs, patched, created⟩ :=
    layout.fixMaps_statics perm answered (kept.mapsScn.trans mapsScn) kept.mapDefs
  rw [kept.fileMap, unpatched] at patched
  have matched : ∀ prog ∈ ready.obj.progs, prog.secDef.isSome := by
    rw [progs]
    intro prog member
    rcases kept.progs prog member with earlier | ⟨_, found⟩
    · exact matched prog earlier
    · exact found
  rw [← perm.length_eq] at answered
  have apart := (perm.pairwise_iff MapStatic.Apart.symm).mpr layout.disjoint
  obtain ⟨status, final, calls, ran, log, delivers, lists⟩ :=
    Loader.load_delivers apart answered matched mapDefs patched created
  rw [tmpContents] at delivers
  exact ⟨ready, status, final, calls, fixed, ran, log, patched, delivers, lists⟩

def counts : MapStatic where
  name := "counts"
  addr := 0x1000
  mapType := 1
  keySize := 4
  valSize := 8
  maxSize := 16
  mapFlag := 0
  keySize_lt := by decide
  valSize_lt := by decide

def countsSymtab : Elf64Shdr := ⟨1, shtSymtab, 0, 32, 48, 3⟩

def countsMaps : Elf64Shdr := ⟨2, 1, 0x1000, 0, 32, 0⟩

def countsFile : ElfFile where
  size := 80
  size_lt := by decide
  bytes := #v[1, 0, 0, 0, 4, 0, 0, 0, 8, 0, 0, 0, 16, 0, 0, 0,
    0, 0, 0, 0, 0, 0, 0, 0, 0, 0, 0, 0, 0, 0, 0, 0,
    1, 0, 0, 0, 17, 0, 2, 0, 0, 16, 0, 0, 0, 0, 0, 0, 32, 0, 0, 0, 0, 0, 0, 0,
    2, 0, 0, 0, 18, 0, 1, 0, 16, 0, 0, 0, 0, 0, 0, 0, 1, 0, 0, 0, 0, 0, 0, 0]
  shstrndx := some 4
  scns := [some ⟨0, 0, 0, 0, 0, 0⟩, some countsSymtab, some countsMaps]
  strptr _ name :=
    if name = 1 then some "counts" else some "__rex_handle_timeout"
  getdata idx :=
    if idx = 1 then
      some (.ofBytes [1, 0, 0, 0, 17, 0, 2, 0, 0, 16, 0, 0, 0, 0, 0, 0, 32, 0, 0, 0, 0, 0,
        0, 0, 2, 0, 0, 0, 18, 0, 1, 0, 16, 0, 0, 0, 0, 0, 0, 0, 1, 0, 0, 0, 0, 0, 0, 0])
    else if idx = 2 then
      some (.ofBytes [1, 0, 0, 0, 4, 0, 0, 0, 8, 0, 0, 0, 16, 0, 0, 0, 0, 0, 0, 0, 0, 0,
        0, 0, 0, 0, 0, 0, 0, 0, 0, 0])
    else
      none

theorem countsFile_laidOut :
    LaidOut countsFile [counts] 1 2 countsSymtab countsMaps where
  symtabScn := rfl
  mapsScn := rfl
  inFile := by decide
  mapsData := rfl
  symbols := ⟨_, _, rfl, rfl, .cons ⟨rfl, rfl⟩ .nil⟩
  inSection := by decide
  contents := by
    intro static member
    obtain rfl := List.mem_singleton.mp member
    exact ⟨#v[0, 0, 0, 0], by decide⟩
  disjoint := List.pairwise_singleton _ _

def countsObj : RexObj countsFile.size :=
  { RexObj.new "prog" countsFile.bytes .null with
    symtabScn := .scn 1
    mapsScn := .scn 2 }

def countsLoader (parsed : RexObj countsFile.size) : Loader countsFile.size :=
  ⟨parsed, [], false, none⟩

theorem maps_reach_kernel_counts :
    ∃ parsed ready final calls bpf,
      RexObj.parseMaps .plain countsFile countsObj = .ok (.success, parsed) ∧
      Loader.fixMaps .willing countsFile (countsLoader parsed) = .ok (.success, ready) ∧
      Loader.load .willing ready = .ok (.success, final) ∧
      final.log = calls ∧
      Delivered .willing countsFile countsMaps [counts] True calls ∧
      final.obj.bpfObj = some bpf ∧
      bpf.maps.map (fun map => (map.name, some map.fd)) = [("counts", some 10)] := by
  obtain ⟨order, parsed, perm, ran, trip⟩ :=
    maps_reach_kernel countsFile_laidOut .plain .willing countsObj rfl rfl rfl rfl
      (List.forall_mem_nil _) fun _ _ => rfl
  obtain rfl := List.perm_singleton.mp perm
  obtain ⟨ready, status, final, calls, fixed, loaded, log, -, delivers, lists⟩ :=
    trip (countsLoader parsed) (.refl parsed)
  obtain ⟨_, _, _, ranParse, ranFix, ranLoad⟩ : ∃ parsed ready final,
      RexObj.parseMaps .plain countsFile countsObj = .ok (.success, parsed) ∧
      Loader.fixMaps .willing countsFile (countsLoader parsed) = .ok (.success, ready) ∧
      Loader.load .willing ready = .ok (.success, final) :=
    ⟨_, _, _, rfl, rfl, rfl⟩
  cases ran.symm.trans ranParse
  cases fixed.symm.trans ranFix
  cases loaded.symm.trans ranLoad
  have handsOver : HandsOver .willing none ready.obj.fileMap.toList := by
    refine ⟨rfl, .inl ⟨rfl, ?_⟩⟩
    rw [Vector.length_toList]
    decide
  have delivers : Delivered .willing countsFile countsMaps [counts] True calls :=
    eq_true handsOver ▸ delivers
  obtain ⟨bpf, listed, maps⟩ := lists rfl
  exact ⟨parsed, ready, final, calls, bpf, ran, fixed, loaded, log, delivers, listed, maps⟩

/-- The image has 80 bytes; when the disk is full after 32 of them, the kernel is
given those, and the loader goes on. -/
theorem truncated_image_loaded :
    ∃ parsed ready final attr,
      RexObj.parseMaps .plain countsFile countsObj = .ok (.success, parsed) ∧
      Loader.fixMaps { Kernel.willing with written := 32 } countsFile
        (countsLoader parsed) = .ok (.success, ready) ∧
      Loader.load { Kernel.willing with written := 32 } ready = .ok (.success, final) ∧
      final.log.filterMap Syscall.baseCall? = [attr] ∧
      attr.image.map List.length = some 32 :=
  ⟨_, _, _, _, rfl, rfl, rfl, rfl, rfl⟩

end Rex.Librex
