import Rex.Data.Calls
import Rex.Data.ElementTable
import Rex.Syscount.Trace

namespace Rex.Syscount

open Calls

/-! The two programs once more, cut at their accesses to the maps.  They run on all
processors at once, and nothing keeps the accesses of one from coming between those
of another: a count is loaded and stored through the reference that the lookup has
returned, and a key that was not found may have been added by the time of the
update. -/

structure Tables where
  totals : Total → ElementTable UInt32 UInt64 512
  start : ElementTable UInt64 UInt64 1024

namespace Tables

def empty : Tables :=
  ⟨fun _ => .empty fun _ => 0, .empty fun _ => 0⟩

def maps (tables : Tables) : Maps :=
  ⟨fun total => (tables.totals total).contents, tables.start.contents⟩

def setTotal (tables : Tables) (total : Total) (table : ElementTable UInt32 UInt64 512) :
    Tables :=
  { tables with totals := Function.update tables.totals total table }

def setStart (tables : Tables) (table : ElementTable UInt64 UInt64 1024) : Tables :=
  { tables with start := table }

@[simp] theorem totals_setTotal_self (tables : Tables) (total : Total)
    (table : ElementTable UInt32 UInt64 512) :
    (tables.setTotal total table).totals total = table :=
  Function.update_self ..

theorem totals_setTotal_of_ne (tables : Tables) {total other : Total}
    (table : ElementTable UInt32 UInt64 512) (elsewhere : other ≠ total) :
    (tables.setTotal total table).totals other = tables.totals other :=
  Function.update_of_ne elsewhere ..

theorem maps_setTotal (tables : Tables) (total : Total)
    (table : ElementTable UInt32 UInt64 512) :
    (tables.setTotal total table).maps = tables.maps.setTotal total table.contents := by
  refine congrArg (Maps.mk · _) (funext fun other => ?_)
  by_cases same : other = total
  · subst same
    exact (congrArg ElementTable.contents (totals_setTotal_self ..)).trans
      (Maps.totals_setTotal_self tables.maps other table.contents).symm
  · exact (congrArg ElementTable.contents (totals_setTotal_of_ne _ _ same)).trans
      (Maps.totals_setTotal_of_ne tables.maps table.contents same).symm

end Tables

inductive Access
  | find (total : Total) (id : UInt32)
  | load (total : Total) (reference : Reference UInt32)
  | store (total : Total) (reference : Reference UInt32) (value : UInt64)
  | update (total : Total) (id : UInt32) (value : UInt64) (answer : Except Int32 Nat)
  | findStart (key : UInt64)
  | loadStart (reference : Reference UInt64)
  | updateStart (key time : UInt64) (answer : Except Int32 Nat)
  | deleteStart (key : UInt64) (answer : Except Int32 Unit)

abbrev Access.Answer : Access → Type
  | .find .. => Option (Reference UInt32)
  | .load .. | .loadStart .. => UInt64
  | .store .. => Unit
  | .update .. | .updateStart .. | .deleteStart .. => Except Int32 Unit
  | .findStart .. => Option (Reference UInt64)

/-- An access by itself is not interrupted.  An update takes `element` out of the
pool of its table. -/
def serve (element : Nat) :
    (access : Access) → Tables → Option (access.Answer × Tables)
  | .find total id, tables => some ((tables.totals total).find id, tables)
  | .load total reference, tables => some ((tables.totals total).read reference, tables)
  | .store total reference value, tables =>
      some ((), tables.setTotal total ((tables.totals total).write reference value))
  | .update total id value answer, tables =>
      ((tables.totals total).tryUpdate e2big element id value answer).map fun tried =>
        (tried.1, tables.setTotal total tried.2)
  | .findStart key, tables => some (tables.start.find key, tables)
  | .loadStart reference, tables => some (tables.start.read reference, tables)
  | .updateStart key time answer, tables =>
      (tables.start.tryUpdate e2big element key time answer).map fun tried =>
        (tried.1, tables.setStart tried.2)
  | .deleteStart _ (.error code), tables => some (.error code, tables)
  | .deleteStart key (.ok ()), tables =>
      some (.ok (), tables.setStart (tables.start.remove key))

abbrev Code (Value : Type) : Type := Calls Access Access.Answer Int32 Value

namespace Code

def add (total : Total) (id : UInt32) (amount : UInt64) (answer : Except Int32 Nat) :
    Code Unit := do
  match ← request (Access.find total id) with
  | some reference =>
      let value ← request (Access.load total reference)
      request (Access.store total reference (value + amount))
  | none =>
      let stored ← request (Access.update total id amount answer)
      ofExcept stored

def traceSyscallEnter (id : Int64) (kernel : Kernel) : Code Int32 := do
  let syscallId := syscallOf id
  add .counts syscallId 1 (kernel.onTotal .counts)
  match kernel.task with
  | none => pure 0
  | some task =>
      let stored ← request
        (Access.updateStart (startKey syscallId task) kernel.ktime kernel.onStart)
      ofExcept stored
      pure 0

def chargeLatency (syscallId : UInt32) (kernel : Kernel) : Code Int32 := do
  match kernel.task with
  | none => pure 0
  | some task =>
      let key := startKey syscallId task
      match ← request (Access.findStart key) with
      | none => pure 0
      | some reference =>
          let startTime ← request (Access.loadStart reference)
          let delta := kernel.ktime - startTime
          add .latency syscallId delta (kernel.onTotal .latency)
          let deleted ← request (Access.deleteStart key kernel.onDelete)
          ofExcept deleted
          pure 0

def traceSyscallExit (id ret : Int64) (kernel : Kernel) : Code Int32 := do
  let syscallId := syscallOf id
  if ret < 0 then
    add .errors syscallId 1 (kernel.onTotal .errors)
  chargeLatency syscallId kernel

end Code

def Event.code : Event → Code Int32
  | .enter id kernel => Code.traceSyscallEnter id kernel
  | .exit id ret kernel => Code.traceSyscallExit id ret kernel

/-! A program that nothing interrupts does to the maps what the whole one does. -/

theorem run_updateTotal (maps : Maps) (total : Total) (id : UInt32) (value : UInt64)
    (answer : Except Int32 Nat) :
    (updateTotal total id value answer).run maps =
      (((maps.totals total).tryUpdate e2big id value answer).1,
        maps.setTotal total ((maps.totals total).tryUpdate e2big id value answer).2) := by
  cases answer with
  | error code => exact congrArg (Prod.mk _) (maps.setTotal_self total).symm
  | ok place =>
      rw [updateTotal, Effect.run_get_bind, HashTable.tryUpdate]
      cases (maps.totals total).update place id value with
      | none => exact congrArg (Prod.mk _) (maps.setTotal_self total).symm
      | some table => rfl

theorem run_updateStart (maps : Maps) (key time : UInt64) (answer : Except Int32 Nat) :
    (updateStart key time answer).run maps =
      ((maps.start.tryUpdate e2big key time answer).1,
        maps.setStart (maps.start.tryUpdate e2big key time answer).2) := by
  cases answer with
  | error code => rfl
  | ok place =>
      rw [updateStart, Effect.run_get_bind, HashTable.tryUpdate]
      cases maps.start.update place key time with
      | none => rfl
      | some table => rfl

section Alone

variable (tables : Tables)

theorem ends_update (total : Total) (id : UInt32) (value : UInt64)
    (answer : Except Int32 Nat) :
    Ends serve Tables.maps tables (.call (.update total id value answer) ofExcept)
      ((updateTotal total id value answer).run tables.maps) := by
  obtain ⟨element, table, tried, contents⟩ :=
    (tables.totals total).exists_tryUpdate e2big id value answer
  have served : serve element (.update total id value answer) tables =
      some (((tables.maps.totals total).tryUpdate e2big id value answer).1,
        tables.setTotal total table) := by
    rw [serve, tried]
    rfl
  rw [run_updateTotal]
  refine .call served ⟨[], _, rfl, ?_⟩
  rw [Tables.maps_setTotal, contents]
  rfl

theorem ends_add (total : Total) (id : UInt32) (amount : UInt64)
    (answer : Except Int32 Nat) :
    Ends serve Tables.maps tables (Code.add total id amount answer)
      ((add total id amount answer).run tables.maps) := by
  rw [Code.add, request_bind, add, Effect.run_get_bind]
  have found : serve 0 (.find total id) tables =
    some ((tables.totals total).find id, tables) := rfl
  refine .call found ?_
  cases known : (tables.totals total).find id with
  | none =>
      have absent : (tables.maps.totals total).lookup id = none :=
        ElementTable.lookup_eq_none_of_find known
      rw [absent]
      exact ends_update tables total id amount answer
  | some reference =>
      obtain ⟨rfl, current⟩ := ElementTable.find_eq_some known
      have stored : (tables.maps.totals total).lookup reference.key =
        some ((tables.totals total).read reference) := ElementTable.lookup_of_current current
      rw [stored]
      have loaded : serve 0 (.load total reference) tables =
        some ((tables.totals total).read reference, tables) := rfl
      have written : serve 0 (.store total reference
          ((tables.totals total).read reference + amount)) tables =
        some ((), tables.setTotal total ((tables.totals total).write reference
          ((tables.totals total).read reference + amount))) := rfl
      have ended : (tables.setTotal total ((tables.totals total).write reference
          ((tables.totals total).read reference + amount))).maps =
          tables.maps.setTotal total
            ((tables.maps.totals total).modify reference.key (· + amount)) := by
        rw [Tables.maps_setTotal, ElementTable.contents_write current (· + amount)]
        rfl
      refine .call loaded (.call written ?_)
      exact ⟨[], _, rfl, ended⟩

theorem ends_updateStart (key time : UInt64) (answer : Except Int32 Nat) :
    Ends serve Tables.maps tables (.call (.updateStart key time answer) ofExcept)
      ((updateStart key time answer).run tables.maps) := by
  obtain ⟨element, table, tried, contents⟩ :=
    tables.start.exists_tryUpdate e2big key time answer
  have served : serve element (.updateStart key time answer) tables =
      some ((tables.maps.start.tryUpdate e2big key time answer).1,
        tables.setStart table) := by
    rw [serve, tried]
    rfl
  rw [run_updateStart]
  refine .call served ⟨[], _, rfl, ?_⟩
  exact congrArg tables.maps.setStart contents

theorem ends_deleteStart (key : UInt64) (answer : Except Int32 Unit) :
    Ends serve Tables.maps tables (.call (.deleteStart key answer) ofExcept)
      ((deleteStart key answer).run tables.maps) := by
  cases answer with
  | error code =>
      have served : serve 0 (.deleteStart key (.error code)) tables =
        some (.error code, tables) := rfl
      exact .call served ⟨[], _, rfl, rfl⟩
  | ok granted =>
      have served : serve 0 (.deleteStart key (.ok ())) tables =
        some (.ok (), tables.setStart (tables.start.remove key)) := rfl
      refine .call served ⟨[], _, rfl, ?_⟩
      exact congrArg tables.maps.setStart (tables.start.contents_remove key)

theorem ends_enter (id : Int64) (kernel : Kernel) :
    Ends serve Tables.maps tables (Code.traceSyscallEnter id kernel)
      ((traceSyscallEnter id kernel).run tables.maps) := by
  refine .bind (ends_add tables _ _ _ _) fun _ middle => ?_
  cases kernel.task with
  | none => exact ends_ofExcept (.ok 0)
  | some task =>
      refine .bind (ends_updateStart middle _ _ _) fun _ last => ?_
      exact ends_ofExcept (.ok 0)

theorem ends_charge (syscallId : UInt32) (kernel : Kernel) :
    Ends serve Tables.maps tables (Code.chargeLatency syscallId kernel)
      ((chargeLatency syscallId kernel).run tables.maps) := by
  rw [Code.chargeLatency, chargeLatency]
  cases kernel.task with
  | none => exact ends_ofExcept (.ok 0)
  | some task =>
      rw [Effect.run_get_bind]
      have found : serve 0 (.findStart (startKey syscallId task)) tables =
        some (tables.start.find (startKey syscallId task), tables) := rfl
      refine .call found ?_
      cases known : tables.start.find (startKey syscallId task) with
      | none =>
          have absent : tables.maps.start.lookup (startKey syscallId task) = none :=
            ElementTable.lookup_eq_none_of_find known
          rw [absent]
          exact ends_ofExcept (.ok 0)
      | some reference =>
          obtain ⟨own, current⟩ := ElementTable.find_eq_some known
          have stored : tables.maps.start.lookup (startKey syscallId task) =
              some (tables.start.read reference) := by
            rw [← own]
            exact ElementTable.lookup_of_current current
          rw [stored]
          have loaded : serve 0 (.loadStart reference) tables =
            some (tables.start.read reference, tables) := rfl
          refine .call loaded ?_
          refine .bind (ends_add tables _ _ _ _) fun _ middle => ?_
          refine .bind (ends_deleteStart middle _ _) fun _ last => ?_
          exact ends_ofExcept (.ok 0)

theorem ends_exit (id ret : Int64) (kernel : Kernel) :
    Ends serve Tables.maps tables (Code.traceSyscallExit id ret kernel)
      ((traceSyscallExit id ret kernel).run tables.maps) := by
  rw [Code.traceSyscallExit, traceSyscallExit]
  by_cases failed : ret < 0
  · rw [if_pos failed, if_pos failed]
    exact .bind (ends_add tables _ _ _ _) fun _ middle => ends_charge middle _ _
  · rw [if_neg failed, if_neg failed]
    exact ends_charge tables _ _

theorem ends_program (event : Event) :
    Ends serve Tables.maps tables event.code (event.program.run tables.maps) := by
  cases event with
  | enter id kernel => exact ends_enter tables id kernel
  | exit id ret kernel => exact ends_exit tables id ret kernel

end Alone

end Rex.Syscount
