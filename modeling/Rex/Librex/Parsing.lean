import Rex.Librex.Object

namespace Rex.Librex

open Procedure

/-! What parsing does to the object. -/

namespace RexObj

variable {platform : Platform} {file : ElfFile} {size : Nat}

structure MapsKept (obj final : RexObj size) : Prop where
  mapDefs : final.mapDefs = obj.mapDefs
  mapsScn : final.mapsScn = obj.mapsScn
  fileMap : final.fileMap = obj.fileMap
  progFd : final.progFd = obj.progFd
  progs : ∀ prog ∈ final.progs,
    prog ∈ obj.progs ∨ prog.progFd = none ∧ prog.secDef.isSome

namespace MapsKept

theorem refl (obj : RexObj size) : obj.MapsKept obj :=
  ⟨rfl, rfl, rfl, rfl, fun _ member => .inl member⟩

theorem of_eq {obj middle final : RexObj size} (kept : obj.MapsKept middle)
    (mapDefs : final.mapDefs = middle.mapDefs)
    (mapsScn : final.mapsScn = middle.mapsScn)
    (fileMap : final.fileMap = middle.fileMap)
    (progFd : final.progFd = middle.progFd)
    (progs : final.progs = middle.progs) : obj.MapsKept final :=
  ⟨mapDefs.trans kept.mapDefs, mapsScn.trans kept.mapsScn,
    fileMap.trans kept.fileMap, progFd.trans kept.progFd, progs ▸ kept.progs⟩

theorem addProg {obj middle : RexObj size} (kept : obj.MapsKept middle)
    {prog : RexProg} (unloaded : prog.progFd = none)
    (matched : prog.secDef.isSome) :
    obj.MapsKept { middle with progs := middle.progs ++ [prog] } := by
  refine ⟨kept.mapDefs, kept.mapsScn, kept.fileMap, kept.progFd, ?_⟩
  intro other member
  rcases List.mem_append.mp member with earlier | new
  · exact kept.progs other earlier
  · rw [List.mem_singleton.mp new]
    exact .inr ⟨unloaded, matched⟩

theorem addTextSym {obj middle : RexObj size} (kept : obj.MapsKept middle)
    (symName : String) (sym : Elf64Sym) :
    obj.MapsKept (addTextSym platform symName sym middle) := by
  unfold RexObj.addTextSym
  split
  · exact kept.of_eq rfl rfl rfl rfl rfl
  · exact kept

theorem noteTimeoutHandler {obj middle : RexObj size}
    (kept : obj.MapsKept middle) (symName : String) (sym : Elf64Sym) :
    obj.MapsKept (noteTimeoutHandler symName sym middle) := by
  unfold RexObj.noteTimeoutHandler
  split
  · exact kept.of_eq rfl rfl rfl rfl rfl
  · exact kept

end MapsKept

theorem parseProg_mapsKept (obj : RexObj size) (shstrndx strtabidx : Nat)
    (sym : Elf64Sym) :
    Keeps obj.MapsKept (parseProg platform file shstrndx strtabidx sym) := by
  intro middle status final kept ran
  unfold parseProg at ran
  split at ran
  · cases ran
    exact kept
  · split at ran
    · cases ran
      exact kept
    · obtain ⟨_, _, ran⟩ := bind_eq_ok.mp ran
      obtain ⟨symName, _, ran⟩ := bind_eq_ok.mp ran
      obtain ⟨scnName, _, ran⟩ := bind_eq_ok.mp ran
      have noted : obj.MapsKept (noteTimeoutHandler symName sym
          (addTextSym platform symName sym middle)) :=
        (kept.addTextSym symName sym).noteTimeoutHandler symName sym
      split at ran
      · cases ran
        exact noted
      · cases ran
        exact noted.addProg rfl rfl

theorem parseProgs_mapsKept (obj : RexObj size) :
    Keeps obj.MapsKept (parseProgs platform file) := by
  intro middle status final kept ran
  unfold parseProgs at ran
  obtain ⟨_, _, ran⟩ := bind_eq_ok.mp ran
  obtain ⟨_, _, ran⟩ := bind_eq_ok.mp ran
  split at ran
  · cases ran
    exact kept
  · cases ran
    exact kept
  · obtain ⟨syms, _, ran⟩ := bind_eq_ok.mp ran
    refine Keeps.andThen (Keeps.each (parseProg_mapsKept obj _ _) syms) ?_
      middle status final kept ran
    intro middle status final kept ran
    dsimp only at ran
    split at ran <;> cases ran <;> exact kept

theorem parseRela_mapsKept (obj : RexObj size) (relas : ElfData) (idx : Nat) :
    Keeps obj.MapsKept (parseRela file relas idx) := by
  intro middle status final kept ran
  unfold parseRela at ran
  obtain ⟨rela, _, ran⟩ := bind_eq_ok.mp ran
  split at ran
  · cases ran
    exact kept.of_eq rfl rfl rfl rfl rfl
  · split at ran
    · obtain ⟨_, _, ran⟩ := bind_eq_ok.mp ran
      obtain ⟨_, _, ran⟩ := bind_eq_ok.mp ran
      split at ran
      · cases ran
      · obtain ⟨_, _, ran⟩ := bind_eq_ok.mp ran
        cases ran
        exact kept.of_eq rfl rfl rfl rfl rfl
    · cases ran
      exact kept

theorem parseRelaDyn_mapsKept (obj : RexObj size) :
    Keeps obj.MapsKept (parseRelaDyn file) := by
  intro middle status final kept ran
  unfold parseRelaDyn at ran
  split at ran
  · cases ran
    exact kept
  · obtain ⟨_, _, ran⟩ := bind_eq_ok.mp ran
    split at ran
    · cases ran
      exact kept
    · obtain ⟨_, _, ran⟩ := bind_eq_ok.mp ran
      split at ran
      · cases ran
      · split at ran
        · cases ran
          exact kept
        · exact Keeps.each (parseRela_mapsKept obj _) _ middle status final kept ran

/-! Nothing is open while the file is parsed. -/

structure Fresh (obj : RexObj size) : Prop where
  progFd : obj.progFd = some (-1)
  maps : ∀ entry ∈ obj.mapDefs, entry.2.mapFd = none
  progs : ∀ prog ∈ obj.progs, prog.progFd = none
  unmapped : obj.mapsScn = .null → obj.mapDefs = []

theorem Fresh.mapsKept {obj final : RexObj size} (fresh : obj.Fresh)
    (kept : obj.MapsKept final) : final.Fresh := by
  refine ⟨kept.progFd.trans fresh.progFd, kept.mapDefs ▸ fresh.maps, ?_, ?_⟩
  · intro prog member
    rcases kept.progs prog member with earlier | ⟨unloaded, _⟩
    · exact fresh.progs prog earlier
    · exact unloaded
  · rw [kept.mapsScn, kept.mapDefs]
    exact fresh.unmapped

theorem fresh_new (path : String) (bytes : Vector UInt8 size)
    (uninitialised : ScnPtr) : (new path bytes uninitialised).Fresh :=
  ⟨rfl, by simp [new], by simp [new], fun _ => rfl⟩

theorem parseScn_fresh (shstrndx idx : Nat) :
    Keeps Fresh (parseScn file shstrndx idx : Proc Crash (RexObj size)) := by
  intro obj status final fresh ran
  unfold parseScn at ran
  split at ran
  · cases ran
    exact fresh
  · split at ran
    · cases ran
      exact fresh
    · repeat' split at ran
      all_goals cases ran
      -- only the branch of `.maps` changes `maps_scn`
      all_goals first
        | exact ⟨fresh.progFd, fresh.maps, fresh.progs, fresh.unmapped⟩
        | exact ⟨fresh.progFd, fresh.maps, fresh.progs, nofun⟩

theorem parseScns_fresh :
    Keeps Fresh (parseScns file : Proc Crash (RexObj size)) := by
  intro obj status final fresh ran
  unfold parseScns at ran
  split at ran
  · cases ran
    exact fresh
  · exact Keeps.each (parseScn_fresh _) _ obj status final fresh ran

theorem mapFd_new {data : ElfData} {base off : UInt64} {name : Option String}
    {map : RexMap} (constructed : RexMap.new data base off name = .ok (some map)) :
    map.mapFd = none := by
  unfold RexMap.new at constructed
  split at constructed
  · cases constructed
  · obtain ⟨raw, _, built⟩ := bind_eq_ok.mp constructed
    cases built
    rfl

theorem tryEmplace_fresh {entries final : MapDefs} {key : UInt64}
    {data : ElfData} {base off : UInt64} {name : Option String}
    (fresh : ∀ entry ∈ entries, entry.2.mapFd = none)
    (ran : platform.tryEmplace entries key (RexMap.new data base off name) =
      .ok (status, final)) :
    ∀ entry ∈ final, entry.2.mapFd = none := by
  unfold Platform.tryEmplace at ran
  split at ran
  · cases ran
    exact fresh
  · split at ran
    · cases ran
    · cases ran
      exact fresh
    · rename_i map constructed
      cases ran
      intro entry member
      rcases List.mem_cons.mp ((platform.arrange_perm _).mem_iff.mp member) with
        rfl | earlier
      · exact mapFd_new constructed
      · exact fresh entry earlier

theorem parseMap_fresh (maps : ElfData) (strtabidx mapsShndx : Nat)
    (mapsShaddr : UInt64) (sym : Elf64Sym) :
    Keeps (fun obj => obj.Fresh ∧ obj.mapsScn ≠ .null)
      (parseMap platform file maps strtabidx mapsShndx mapsShaddr sym :
        Proc Crash (RexObj size)) := by
  rintro obj status final ⟨fresh, mapped⟩ ran
  unfold parseMap at ran
  split at ran
  · obtain ⟨⟨_, mapDefs⟩, emplaced, built⟩ := bind_eq_ok.mp ran
    cases built
    have maps := tryEmplace_fresh fresh.maps emplaced
    exact ⟨⟨fresh.progFd, maps, fresh.progs, fun null => absurd null mapped⟩, mapped⟩
  · cases ran
    exact ⟨fresh, mapped⟩

theorem parseMaps_fresh :
    Keeps Fresh (parseMaps platform file : Proc Crash (RexObj size)) := by
  intro obj status final fresh ran
  unfold parseMaps at ran
  cases pointer : obj.mapsScn with
  | null =>
      simp only [pointer] at ran
      cases ran
      exact fresh
  | wild =>
      simp only [pointer] at ran
      cases ran
  | scn idx =>
      simp only [pointer] at ran
      obtain ⟨maps, _, ran⟩ := bind_eq_ok.mp ran
      obtain ⟨syms, _, ran⟩ := bind_eq_ok.mp ran
      split at ran
      · cases ran
        exact fresh
      · cases ran
        exact fresh
      · obtain ⟨_, _, ran⟩ := bind_eq_ok.mp ran
        obtain ⟨_, _, ran⟩ := bind_eq_ok.mp ran
        obtain ⟨_, _, ran⟩ := bind_eq_ok.mp ran
        have mapped : obj.mapsScn ≠ .null := by simp [pointer]
        exact (Keeps.each (parseMap_fresh _ _ _ _) _ obj status final
          ⟨fresh, mapped⟩ ran).1

theorem keeps_fresh {proc : Proc Crash (RexObj size)}
    (kept : ∀ obj : RexObj size, Keeps obj.MapsKept proc) : Keeps Fresh proc :=
  fun obj status final fresh ran =>
    fresh.mapsKept (kept obj obj status final (.refl obj) ran)

theorem parseElf_fresh :
    Keeps Fresh (parseElf platform file : Proc Crash (RexObj size)) :=
  parseScns_fresh.andThen (parseMaps_fresh.andThen
    ((keeps_fresh parseProgs_mapsKept).andThen
      (keeps_fresh parseRelaDyn_mapsKept)))

end RexObj

end Rex.Librex
