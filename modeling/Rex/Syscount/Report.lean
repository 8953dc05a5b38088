import Rex.Data.BubbleSort
import Rex.Syscount.Tally

namespace Rex.Syscount

open Machine

/-! The loader: it walks over the counts, looks up what else is known of each
system call, sorts the rows and prints them under their sums. -/

inductive StatsType
  | countOnly
  | showErrors
  | showLatency
  | showBoth
deriving DecidableEq

namespace StatsType

def errors : StatsType → Bool
  | .countOnly | .showLatency => false
  | .showErrors | .showBoth => true

def latency : StatsType → Bool
  | .countOnly | .showErrors => false
  | .showLatency | .showBoth => true

end StatsType

structure Options where
  type : StatsType
  sortByCount : Bool
  topN : Int

structure Stat where
  id : UInt32
  count : UInt64
  errors : UInt64
  latency : UInt64
deriving DecidableEq

structure Opened where
  errors : Bool
  latency : Bool

/-- The other maps are looked for when their columns are wanted, and a column
whose map is not found is given up. -/
def openMaps (type : StatsType) (found : Opened) : StatsType × Opened :=
  let withErrors :=
    if type.errors = true ∧ found.errors = false then
      if type = .showBoth then .showLatency else .countOnly
    else
      type
  let shown :=
    if withErrors.latency = true ∧ found.latency = false then
      if withErrors = .showBoth then .showErrors else .countOnly
    else
      withErrors
  (shown, ⟨type.errors && found.errors, withErrors.latency && found.latency⟩)

section Rows

variable (maps : Maps) (opened : Opened)

def readTotal (isOpen : Bool) (total : Total) (id : UInt32) : UInt64 :=
  if isOpen then ((maps.totals total).lookup id).getD 0 else 0

def statOf (id : UInt32) (count : UInt64) : Stat :=
  ⟨id, count, readTotal maps opened.errors .errors id,
    readTotal maps opened.latency .latency id⟩

def collect : Nat → UInt32 → List Stat
  | 0, _ => []
  | fuel + 1, key =>
      match (maps.totals .counts).nextKey key with
      | none => []
      | some nextKey =>
          match (maps.totals .counts).lookup nextKey with
          | some count => statOf maps opened nextKey count :: collect fuel nextKey
          | none => collect fuel nextKey

end Rows

def sortStats (sortByCount : Bool) (stats : List Stat) : List Stat :=
  if sortByCount then
    BubbleSort.sort (fun first second => first.count < second.count) stats
  else
    BubbleSort.sort (fun first second => first.id > second.id) stats

def displayCount (topN : Int) (statCount : Nat) : Nat :=
  if 0 < topN ∧ topN < statCount then topN.toNat else statCount

/-- A line has the columns of the type that is shown.  For a latency the mean is
printed, which is the quotient by the count. -/
structure Line where
  id : UInt32
  count : UInt64
  errors : Option UInt64
  latency : Option UInt64
deriving DecidableEq

def column (shown : Bool) (value : UInt64) : Option UInt64 :=
  if shown then some value else none

def lineOf (type : StatsType) (stat : Stat) : Line :=
  ⟨stat.id, stat.count, column type.errors stat.errors, column type.latency stat.latency⟩

structure Report where
  lines : List Line
  totalCount : UInt64
  totalErrors : Option UInt64
  totalLatency : Option UInt64
deriving DecidableEq

/-- One round of the loader; `found` are the maps that the object has.  A walk
takes a call for each key and one more. -/
def report (options : Options) (found : Opened) (maps : Maps) : Report :=
  let (type, opened) := openMaps options.type found
  let stats := sortStats options.sortByCount (collect maps opened (512 + 1) 0)
  { lines := (stats.take (displayCount options.topN stats.length)).map (lineOf type)
    totalCount := sumOf (stats.map Stat.count)
    totalErrors := column type.errors (sumOf (stats.map Stat.errors))
    totalLatency := column type.latency (sumOf (stats.map Stat.latency)) }

section Collect

variable (maps : Maps) (opened : Opened)

def rowOf (id : UInt32) : Stat :=
  statOf maps opened id (((maps.totals .counts).lookup id).getD 0)

theorem collect_eq {fuel : Nat} {key : UInt32}
    (enough : ((maps.totals .counts).keysAfter key).length < fuel) :
    collect maps opened fuel key =
      ((maps.totals .counts).keysAfter key).map (rowOf maps opened) := by
  induction fuel generalizing key with
  | zero => exact absurd enough (Nat.not_lt_zero _)
  | succ fuel induction =>
      rw [collect, HashTable.nextKey]
      cases after : (maps.totals .counts).keysAfter key with
      | nil => rfl
      | cons next rest =>
          have remaining := HashTable.keysAfter_next after
          have member : next ∈ (maps.totals .counts).keys :=
            ((maps.totals .counts).keysAfter_suffix key).subset
              (after ▸ List.mem_cons_self)
          obtain ⟨count, found⟩ := Option.isSome_iff_exists.mp
            (HashTable.isSome_lookup_iff.mpr member)
          rw [after, List.length_cons] at enough
          have shorter : ((maps.totals .counts).keysAfter next).length < fuel := by
            rw [remaining]
            omega
          simp only [List.head?_cons, found, List.map_cons, rowOf, Option.getD_some]
          rw [induction shorter, remaining]

theorem collect_zero : collect maps opened (512 + 1) 0 =
    ((maps.totals .counts).keysAfter 0).map (rowOf maps opened) := by
  apply collect_eq
  have suffix := ((maps.totals .counts).keysAfter_suffix 0).length_le
  have bounded := (maps.totals .counts).length_keys
  omega

end Collect

/-- The lines of all system calls that the walk has met, of which the first ones are
shown.  The sums are over all. -/
structure Report.Shows (report : Report) (options : Options) (type : StatsType)
    (lines : List Line) : Prop where
  shown : report.lines = lines.take (displayCount options.topN lines.length)
  nodup : (lines.map Line.id).Nodup
  ordered : lines.Pairwise fun first second =>
    if options.sortByCount then second.count ≤ first.count else first.id ≤ second.id
  totalCount : report.totalCount = sumOf (lines.map Line.count)
  totalErrors : report.totalErrors = column type.errors (sumOf (lines.filterMap Line.errors))
  totalLatency : report.totalLatency =
    column type.latency (sumOf (lines.filterMap Line.latency))

def Line.Exact (type : StatsType) (events : List Event) (line : Line) : Prop :=
  0 < events.countP (Event.enters line.id) ∧
    line.count = .ofNat (events.countP (Event.enters line.id)) ∧
    line.errors = column type.errors (.ofNat (events.countP (Event.fails line.id))) ∧
    line.latency = column type.latency (sumOf (amounts .latency line.id events.reverse))

section Exact

variable {maps : Maps} {events : List Event} (represents : Represents maps events.reverse)

include represents

end Exact

end Rex.Syscount
