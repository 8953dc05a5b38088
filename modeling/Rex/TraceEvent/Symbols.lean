import Mathlib.Data.List.Pairwise
import Rex.Data.BinarySearch

namespace Rex.TraceEvent

open BinarySearch

/-! The kernel symbols of the loader: how they are read from `/proc/kallsyms`, and
how the symbol of an address is found. -/

structure Ksym where
  addr : Int64
  name : List UInt8
deriving DecidableEq

def maxSyms : Nat := 300000

/-- A difference of two `long` that is kept in an `int`. -/
def distance (first second : Int64) : Int32 :=
  (first - second).toInt32

def ksymCmp (first second : Ksym) : Int32 :=
  distance first.addr second.addr

/-- The lines as `sscanf` sees them: an address and a name, or fewer than the three
fields, which end the loop. -/
def readSymbols : List (Option (UInt64 × List UInt8)) → List Ksym
  | [] | none :: _ => []
  | some (addr, name) :: rest =>
      if addr = 0 then
        readSymbols rest
      else
        ⟨addr.toInt64, name⟩ :: readSymbols rest

/-- What `load_kallsyms` may leave in `syms`: the C library does not say where
`qsort` puts symbols that compare equal.  There has to be room for one more. -/
structure LoadKallsyms (lines : List (Option (UInt64 × List UInt8)))
    (syms : List Ksym) : Prop where
  room : (readSymbols lines).length < maxSyms
  perm : syms.Perm (readSymbols lines)
  sorted : syms.Pairwise fun first second => ksymCmp first second ≤ 0

/-- The array is static, so behind the symbols it holds zeros. -/
def addrAt (syms : List Ksym) (index : Nat) : Int64 :=
  (syms[index]?.map Ksym.addr).getD 0

@[simp] theorem addrAt_length (syms : List Ksym) : addrAt syms syms.length = 0 := by
  simp [addrAt]

def probe (syms : List Ksym) (key : Int64) (index : Nat) : Ordering :=
  let result := distance key (addrAt syms index)
  if result < 0 then .lt else if 0 < result then .gt else .eq

def ksymSearch (syms : List Ksym) (key : Int64) : Option Ksym :=
  if syms.length ≤ 0 then
    none
  else
    match search (probe syms key) syms.length 0 syms.length with
    | .found mid => syms[mid]?
    | .gap start =>
        if 1 ≤ start ∧ addrAt syms (start - 1) < key ∧ key < addrAt syms start then
          syms[start - 1]?
        else
          syms[0]?

def Near (first second : Int64) : Prop :=
  -0x80000000 ≤ first.toInt - second.toInt ∧ first.toInt - second.toInt < 0x80000000

instance (first second : Int64) : Decidable (Near first second) :=
  inferInstanceAs (Decidable (_ ∧ _))

theorem toInt_distance {first second : Int64} (near : Near first second) :
    (distance first second).toInt = first.toInt - second.toInt := by
  obtain ⟨lower, upper⟩ := near
  rw [distance, Int64.toInt_toInt32, Int64.toInt_sub]
  rw [Int.bmod_bmod_of_dvd (by decide), Int.bmod_eq_of_le (by omega) (by omega)]

section Probe

variable {syms : List Ksym} {key : Int64} {index : Nat}

theorem probe_eq_compare (near : Near key (addrAt syms index)) :
    probe syms key index = compare key.toInt (addrAt syms index).toInt := by
  have exact := toInt_distance near
  rw [probe]
  simp only [Int32.lt_iff_toInt_lt, exact, Int32.toInt_zero]
  split
  · rw [eq_comm, Int.compare_eq_lt]
    omega
  · split
    · rw [eq_comm, Int.compare_eq_gt]
      omega
    · rw [eq_comm, Int.compare_eq_eq]
      omega

theorem exists_of_lt (within : index < syms.length) :
    ∃ sym ∈ syms, syms[index]? = some sym ∧ addrAt syms index = sym.addr := by
  have found := List.getElem?_eq_getElem within
  refine ⟨_, List.getElem_mem within, found, ?_⟩
  rw [addrAt, found]
  rfl

theorem exists_index {sym : Ksym} (member : sym ∈ syms) :
    ∃ index < syms.length, addrAt syms index = sym.addr := by
  obtain ⟨index, found⟩ := List.mem_iff_getElem?.mp member
  refine ⟨index, (List.getElem?_eq_some_iff.mp found).1, ?_⟩
  rw [addrAt, found]
  rfl

end Probe

/-- The addresses that the search compares are close enough for that. -/
structure Close (syms : List Ksym) (key : Int64) : Prop where
  pair : ∀ first ∈ syms, ∀ second ∈ syms, Near first.addr second.addr
  key : ∀ sym ∈ syms, Near key sym.addr

/-- The address is not below the first symbol, and if it is above the last, the
zero behind the symbols does not hide that. -/
def Covered (syms : List Ksym) (key : Int64) : Prop :=
  (∃ sym ∈ syms, sym.addr ≤ key) ∧ (key < 0 ∨ ∃ sym ∈ syms, key ≤ sym.addr)

section Search

variable {lines : List (Option (UInt64 × List UInt8))} {syms : List Ksym} {key : Int64}

theorem addrAt_mono (loaded : LoadKallsyms lines syms) (close : Close syms key)
    {first second : Nat} (before : first ≤ second) (within : second < syms.length) :
    (addrAt syms first).toInt ≤ (addrAt syms second).toInt := by
  rcases Nat.eq_or_lt_of_le before with rfl | less
  · exact Int.le_refl _
  obtain ⟨lower, lowerMember, lowerFound, lowerAddr⟩ := exists_of_lt (Nat.lt_trans less within)
  obtain ⟨upper, upperMember, upperFound, upperAddr⟩ := exists_of_lt within
  have ordered : ksymCmp lower upper ≤ 0 := by
    have sorted := List.pairwise_iff_getElem.mp loaded.sorted first second
      (Nat.lt_trans less within) within less
    rwa [(List.getElem?_eq_some_iff.mp lowerFound).2,
      (List.getElem?_eq_some_iff.mp upperFound).2] at sorted
  rw [ksymCmp, Int32.le_iff_toInt_le,
    toInt_distance (close.pair lower lowerMember upper upperMember),
    Int32.toInt_zero] at ordered
  rw [lowerAddr, upperAddr]
  omega

theorem probe_of_lt (close : Close syms key) {index : Nat} (within : index < syms.length) :
    probe syms key index = compare key.toInt (addrAt syms index).toInt := by
  obtain ⟨sym, member, _, addr⟩ := exists_of_lt within
  apply probe_eq_compare
  rw [addr]
  exact close.key sym member

theorem probe_sorted (loaded : LoadKallsyms lines syms) (close : Close syms key) :
    Sorted (probe syms key) syms.length := by
  refine ⟨fun before within greater => ?_, fun before within less => ?_⟩
  · have ordered := addrAt_mono loaded close before within
    rw [probe_of_lt close within, Int.compare_eq_gt] at greater
    rw [probe_of_lt close (Nat.lt_of_le_of_lt before within), Int.compare_eq_gt]
    omega
  · have ordered := addrAt_mono loaded close before within
    rw [probe_of_lt close (Nat.lt_of_le_of_lt before within), Int.compare_eq_lt] at less
    rw [probe_of_lt close within, Int.compare_eq_lt]
    omega

theorem sides_of_gap (loaded : LoadKallsyms lines syms) (close : Close syms key)
    {place : Nat} (gap : Brackets (probe syms key) syms.length place place) {index : Nat}
    (within : index < syms.length) :
    (index < place → (addrAt syms index).toInt < key.toInt) ∧
      (place ≤ index → key.toInt < (addrAt syms index).toInt) := by
  obtain ⟨lower, upper⟩ := gap.split (probe_sorted loaded close) index within
  rw [probe_of_lt close within] at lower upper
  exact ⟨fun before => Int.compare_eq_gt.mp (lower before),
    fun after => Int.compare_eq_lt.mp (upper after)⟩

theorem covered_iff_of_gap (loaded : LoadKallsyms lines syms) (close : Close syms key)
    {place : Nat} (gap : Brackets (probe syms key) syms.length place place) :
    Covered syms key ↔
      1 ≤ place ∧ addrAt syms (place - 1) < key ∧ key < addrAt syms place := by
  have sides := @sides_of_gap _ _ _ loaded close _ gap
  have bounded := gap.within
  simp only [Covered, Int64.lt_iff_toInt_lt, Int64.le_iff_toInt_le]
  constructor
  · rintro ⟨⟨lower, lowerMember, below⟩, above⟩
    obtain ⟨first, firstWithin, firstAddr⟩ := exists_index lowerMember
    have before : first < place := by
      by_contra after
      have greater := (sides firstWithin).2 (Nat.le_of_not_lt after)
      rw [firstAddr] at greater
      omega
    refine ⟨by omega, (sides (by omega)).1 (by omega), ?_⟩
    rcases Nat.eq_or_lt_of_le bounded with last | inside
    · rcases above with negative | ⟨upper, upperMember, above⟩
      · rwa [last, addrAt_length]
      · obtain ⟨second, secondWithin, secondAddr⟩ := exists_index upperMember
        have less := (sides secondWithin).1 (by omega)
        rw [secondAddr] at less
        omega
    · exact (sides inside).2 (Nat.le_refl _)
  · rintro ⟨positive, below, above⟩
    obtain ⟨lower, lowerMember, _, lowerAddr⟩ :=
      @exists_of_lt syms (place - 1) (by omega)
    refine ⟨⟨lower, lowerMember, by rw [← lowerAddr]; omega⟩, ?_⟩
    rcases Nat.eq_or_lt_of_le bounded with last | inside
    · rw [last, addrAt_length] at above
      exact .inl above
    · obtain ⟨upper, upperMember, _, upperAddr⟩ := exists_of_lt inside
      exact .inr ⟨upper, upperMember, by rw [← upperAddr]; omega⟩

end Search

/-- When the addresses are so close to each other that no difference is cut off, the
search finds the last symbol that does not lie behind the address.  Below the first
symbol, and above the last one if the address is not negative, it finds the first. -/
theorem ksym_search_nearest {lines : List (Option (UInt64 × List UInt8))}
    {syms : List Ksym} {key : Int64} (loaded : LoadKallsyms lines syms)
    (close : Close (readSymbols lines) key) (read : readSymbols lines ≠ []) :
    ∃ sym ∈ readSymbols lines, ksymSearch syms key = some sym ∧
      (Covered (readSymbols lines) key →
        sym.addr ≤ key ∧
          ∀ other ∈ readSymbols lines, other.addr ≤ key → other.addr ≤ sym.addr) ∧
      (¬ Covered (readSymbols lines) key →
        ∀ other ∈ readSymbols lines, sym.addr ≤ other.addr) := by
  have members : ∀ sym, sym ∈ readSymbols lines ↔ sym ∈ syms :=
    fun sym => loaded.perm.mem_iff.symm
  have nonempty : 0 < syms.length := by
    rw [loaded.perm.length_eq]
    exact List.length_pos_iff.mpr read
  have nearby : Close syms key :=
    ⟨fun first member second other => close.pair first ((members first).mpr member) second
      ((members second).mpr other), fun sym member => close.key sym ((members sym).mpr member)⟩
  have covered : Covered (readSymbols lines) key ↔ Covered syms key := by
    simp only [Covered, members]
  simp only [covered, members, Int64.le_iff_toInt_le]
  rw [ksymSearch, if_neg (by omega)]
  have meets := search_all (probe syms key) syms.length
  cases outcome : search (probe syms key) syms.length 0 syms.length with
  | found mid =>
      rw [outcome] at meets
      obtain ⟨within, equal⟩ := meets
      obtain ⟨sym, member, found, addr⟩ := exists_of_lt within
      rw [probe_of_lt nearby within, Int.compare_eq_eq, addr] at equal
      refine ⟨sym, member, found, fun _ => ⟨Int.le_of_eq equal.symm, fun other _ below => ?_⟩, ?_⟩
      · omega
      · intro uncovered
        refine absurd ⟨⟨sym, member, ?_⟩, .inr ⟨sym, member, ?_⟩⟩ uncovered
        · exact Int64.le_iff_toInt_le.mpr (Int.le_of_eq equal.symm)
        · exact Int64.le_iff_toInt_le.mpr (Int.le_of_eq equal)
  | gap start =>
      rw [outcome] at meets
      have sides := @sides_of_gap _ _ _ loaded nearby _ meets
      have bounded := meets.within
      rw [covered_iff_of_gap loaded nearby meets]
      dsimp only
      split
      · rename_i inside
        obtain ⟨sym, member, found, addr⟩ := @exists_of_lt syms (start - 1) (by omega)
        refine ⟨sym, member, found, fun _ => ⟨?_, fun other otherMember below => ?_⟩,
          fun outside => absurd inside outside⟩
        · have less := (sides (show start - 1 < syms.length by omega)).1 (by omega)
          rw [addr] at less
          omega
        · obtain ⟨index, within, otherAddr⟩ := exists_index otherMember
          have before : index < start := by
            by_contra after
            have greater := (sides within).2 (Nat.le_of_not_lt after)
            rw [otherAddr] at greater
            omega
          rw [← addr, ← otherAddr]
          exact addrAt_mono loaded nearby (by omega) (by omega)
      · rename_i outside
        obtain ⟨sym, member, found, addr⟩ := exists_of_lt nonempty
        refine ⟨sym, member, found, fun inside => absurd inside outside, ?_⟩
        intro _ other otherMember
        obtain ⟨index, within, otherAddr⟩ := exists_index otherMember
        rw [← addr, ← otherAddr]
        exact addrAt_mono loaded nearby (Nat.zero_le _) within

def lowSymbol : Ksym :=
  ⟨0xffffffff81000000, [95, 115, 116, 101, 120, 116]⟩

def highSymbol : Ksym :=
  ⟨0xffffffff81000100, [120]⟩

def twoSymbols : List (Option (UInt64 × List UInt8)) :=
  [some (0xffffffff81000100, [120]), some (0, [121]),
    some (0xffffffff81000000, [95, 115, 116, 101, 120, 116])]

theorem ksym_search_nearest_two :
    ∃ sym, ksymSearch [lowSymbol, highSymbol] 0xffffffff810000ff = some sym ∧
      sym.addr ≤ 0xffffffff810000ff ∧
      (lowSymbol.addr ≤ 0xffffffff810000ff → lowSymbol.addr ≤ sym.addr) := by
  have read : readSymbols twoSymbols = [highSymbol, lowSymbol] := by decide
  have loaded : LoadKallsyms twoSymbols [lowSymbol, highSymbol] := by
    refine ⟨by decide, ?_, by decide⟩
    rw [read]
    exact .swap _ _ _
  have close : Close (readSymbols twoSymbols) 0xffffffff810000ff := by
    rw [read]
    constructor
    · simp only [List.forall_mem_cons, List.not_mem_nil, false_imp_iff, implies_true,
        and_true]
      decide
    · simp only [List.forall_mem_cons, List.not_mem_nil, false_imp_iff, implies_true,
        and_true]
      decide
  have covered : Covered (readSymbols twoSymbols) 0xffffffff810000ff := by
    rw [read]
    exact ⟨⟨lowSymbol, by simp, by decide⟩, .inl (by decide)⟩
  obtain ⟨sym, _, found, nearest, _⟩ :=
    ksym_search_nearest loaded close (by rw [read]; exact List.cons_ne_nil _ _)
  refine ⟨sym, found, (nearest covered).1, (nearest covered).2 lowSymbol ?_⟩
  rw [read]
  exact List.mem_cons_of_mem _ List.mem_cons_self

end Rex.TraceEvent
