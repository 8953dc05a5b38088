import Rex.Data.Effect
import Rex.Data.HashTable
import Rex.Data.Machine

namespace Rex.Syscount

open Effect Machine

/-! The two tracepoint programs that count system calls, and their maps.  The
three maps that are indexed by a system call are treated alike: a program adds
an amount to an entry, or makes the entry. -/

inductive Total
  | counts
  | errors
  | latency
deriving DecidableEq

abbrev TotalMap : Type := HashTable UInt32 UInt64 512

abbrev StartMap : Type := HashTable UInt64 UInt64 1024

structure Maps where
  totals : Total → TotalMap
  start : StartMap

structure TaskStruct where
  pid : Int32
  tgid : Int32

/-- What the kernel answers to the helpers that a run may call.  An entry that
is stored goes to some place of its table, unless the kernel refuses. -/
structure Kernel where
  task : Option TaskStruct
  ktime : UInt64
  onTotal : Total → Except Int32 Nat
  onStart : Except Int32 Nat
  onDelete : Except Int32 Unit

abbrev Program (Value : Type) : Type := Effect Int32 Maps Value

def e2big : Int32 := -7

namespace Maps

def empty : Maps :=
  ⟨fun _ => .empty, .empty⟩

def setTotal (maps : Maps) (total : Total) (table : TotalMap) : Maps :=
  { maps with totals := Function.update maps.totals total table }

def setStart (maps : Maps) (table : StartMap) : Maps :=
  { maps with start := table }

@[simp] theorem totals_setTotal_self (maps : Maps) (total : Total) (table : TotalMap) :
    (maps.setTotal total table).totals total = table :=
  Function.update_self ..

theorem totals_setTotal_of_ne (maps : Maps) {total other : Total} (table : TotalMap)
    (elsewhere : other ≠ total) :
    (maps.setTotal total table).totals other = maps.totals other :=
  Function.update_of_ne elsewhere ..

theorem setTotal_self (maps : Maps) (total : Total) :
    maps.setTotal total (maps.totals total) = maps := by
  rw [setTotal, Function.update_eq_self]

end Maps

def updateTotal (total : Total) (id : UInt32) (value : UInt64) :
    Except Int32 Nat → Program Unit
  | .error code => halt code
  | .ok place => do
      let maps ← get
      let table ← demand e2big ((maps.totals total).update place id value)
      modify fun maps => maps.setTotal total table

def add (total : Total) (id : UInt32) (amount : UInt64)
    (answer : Except Int32 Nat) : Program Unit := do
  let maps ← get
  match (maps.totals total).lookup id with
  | some _ =>
      modify fun maps =>
        maps.setTotal total ((maps.totals total).modify id (· + amount))
  | none => updateTotal total id amount answer

def updateStart (key time : UInt64) : Except Int32 Nat → Program Unit
  | .error code => halt code
  | .ok place => do
      let maps ← get
      let table ← demand e2big (maps.start.update place key time)
      modify fun maps => maps.setStart table

def deleteStart (key : UInt64) : Except Int32 Unit → Program Unit
  | .error code => halt code
  | .ok () => modify fun maps => maps.setStart (maps.start.remove key)

/-- The key under which the start of a call is kept.  The shift that makes room
for the system call pushes the thread group out of the word. -/
def startKey (syscallId : UInt32) (task : TaskStruct) : UInt64 :=
  let pidTgid := (task.tgid.toInt64.toUInt64 <<< 32) ||| task.pid.toInt64.toUInt64
  syscallId.toUInt64 ||| (pidTgid <<< 32)

def syscallOf (id : Int64) : UInt32 :=
  id.toUInt64.toUInt32

def traceSyscallEnter (id : Int64) (kernel : Kernel) : Program Int32 := do
  let syscallId := syscallOf id
  add .counts syscallId 1 (kernel.onTotal .counts)
  match kernel.task with
  | none => pure 0
  | some task =>
      updateStart (startKey syscallId task) kernel.ktime kernel.onStart
      pure 0

/-- The second half of `trace_syscall_exit`: the time since the call was
entered, if that is known, is added to the latency. -/
def chargeLatency (syscallId : UInt32) (kernel : Kernel) : Program Int32 := do
  match kernel.task with
  | none => pure 0
  | some task =>
      let key := startKey syscallId task
      let maps ← get
      match maps.start.lookup key with
      | none => pure 0
      | some startTime =>
          let delta := kernel.ktime - startTime
          add .latency syscallId delta (kernel.onTotal .latency)
          deleteStart key kernel.onDelete
          pure 0

def traceSyscallExit (id ret : Int64) (kernel : Kernel) : Program Int32 := do
  let syscallId := syscallOf id
  if ret < 0 then
    add .errors syscallId 1 (kernel.onTotal .errors)
  chargeLatency syscallId kernel

inductive Event
  | enter (id : Int64) (kernel : Kernel)
  | exit (id ret : Int64) (kernel : Kernel)

namespace Event

def program : Event → Program Int32
  | .enter id kernel => traceSyscallEnter id kernel
  | .exit id ret kernel => traceSyscallExit id ret kernel

def syscall : Event → UInt32
  | .enter id _ | .exit id _ _ => syscallOf id

def kernel : Event → Kernel
  | .enter _ kernel | .exit _ _ kernel => kernel

end Event

def handle (maps : Maps) (event : Event) : Option Maps :=
  some (event.program.run maps).2

/-! What one addition does. -/

section Add

variable {total : Total} {id : UInt32} {amount : UInt64} {answer : Except Int32 Nat}
  {maps : Maps}

theorem add_cases (total : Total) (id : UInt32) (amount : UInt64)
    (answer : Except Int32 Nat) (maps : Maps) :
    (∃ value, (maps.totals total).lookup id = some value ∧
      (add total id amount answer).run maps =
        (.ok (), maps.setTotal total ((maps.totals total).modify id (· + amount)))) ∨
    (∃ place table, (maps.totals total).lookup id = none ∧
      (maps.totals total).update place id amount = some table ∧
      (add total id amount answer).run maps = (.ok (), maps.setTotal total table)) ∨
    ∃ code, (maps.totals total).lookup id = none ∧
      (add total id amount answer).run maps = (.error code, maps) := by
  rw [add, run_get_bind]
  cases found : (maps.totals total).lookup id with
  | some value => exact .inl ⟨value, rfl, rfl⟩
  | none =>
      cases answer with
      | error code => exact .inr (.inr ⟨code, rfl, rfl⟩)
      | ok place =>
          dsimp only
          rw [updateTotal, run_get_bind]
          cases updated : (maps.totals total).update place id amount with
          | none => exact .inr (.inr ⟨_, rfl, rfl⟩)
          | some table => exact .inr (.inl ⟨place, table, rfl, updated, rfl⟩)

theorem add_eq_ok {next : Maps}
    (ran : (add total id amount answer).run maps = (.ok (), next)) :
    ∃ table, next = maps.setTotal total table ∧
      table.lookup = Function.update (maps.totals total).lookup id
        (some (((maps.totals total).lookup id).getD 0 + amount)) := by
  rcases add_cases total id amount answer maps with ⟨value, found, ended⟩ |
    ⟨place, table, absent, updated, ended⟩ | ⟨code, _, ended⟩
  · rw [ended] at ran
    refine ⟨_, (Prod.mk.inj ran).2.symm, ?_⟩
    rw [HashTable.lookup_modify, found]
    rfl
  · rw [ended] at ran
    refine ⟨_, (Prod.mk.inj ran).2.symm, ?_⟩
    rw [HashTable.lookup_update updated, absent, Option.getD_none, UInt64.zero_add]
  · rw [ended] at ran
    cases (Prod.mk.inj ran).1

end Add

theorem updateStart_eq_ok {key time : UInt64} {answer : Except Int32 Nat}
    {maps next : Maps} (ran : (updateStart key time answer).run maps = (.ok (), next)) :
    ∃ table, next = maps.setStart table ∧
      table.lookup = Function.update maps.start.lookup key (some time) := by
  cases answer with
  | error code => cases (Prod.mk.inj ran).1
  | ok place =>
      rw [updateStart, run_get_bind] at ran
      cases updated : maps.start.update place key time with
      | none =>
          rw [updated] at ran
          cases (Prod.mk.inj ran).1
      | some table =>
          rw [updated] at ran
          exact ⟨table, (Prod.mk.inj ran).2.symm, HashTable.lookup_update updated⟩

theorem deleteStart_eq_ok {key : UInt64} {answer : Except Int32 Unit}
    {maps next : Maps} (ran : (deleteStart key answer).run maps = (.ok (), next)) :
    ∃ table, next = maps.setStart table ∧
      table.lookup = Function.update maps.start.lookup key none := by
  cases answer with
  | error code => cases (Prod.mk.inj ran).1
  | ok granted =>
      exact ⟨_, (Prod.mk.inj ran).2.symm, HashTable.lookup_remove _ _⟩

/-! Two calls have the same key when they are the same system call of the same
thread. -/

def packed (low high : UInt32) : UInt64 :=
  low.toUInt64 ||| high.toUInt64 <<< 32

theorem toUInt32_packed (low high : UInt32) : (packed low high).toUInt32 = low := by
  apply UInt32.eq_of_toBitVec_eq
  ext idx within
  simp [packed]

theorem toUInt32_packed_shift (low high : UInt32) :
    (packed low high >>> 32).toUInt32 = high := by
  apply UInt32.eq_of_toBitVec_eq
  ext idx within
  have shifted : 32 + idx < 64 := Nat.add_lt_add_left within 32
  simp [packed, within, shifted]

theorem startKey_eq_packed (id : UInt32) (task : TaskStruct) :
    startKey id task = packed id task.pid.toUInt32 := by
  apply UInt64.eq_of_toBitVec_eq
  ext idx within
  by_cases low : idx < 32
  · simp [startKey, packed, low]
  · have high : idx - 32 < 32 := by omega
    simp [startKey, packed, low, high, BitVec.getElem_signExtend]

theorem startKey_eq_iff {id other : UInt32} {task thread : TaskStruct} :
    startKey id task = startKey other thread ↔ id = other ∧ task.pid = thread.pid := by
  rw [startKey_eq_packed, startKey_eq_packed]
  constructor
  · intro same
    have low := congrArg UInt64.toUInt32 same
    have high := congrArg (fun word : UInt64 => (word >>> 32).toUInt32) same
    simp only [toUInt32_packed, toUInt32_packed_shift] at low high
    exact ⟨low, congrArg UInt32.toInt32 high⟩
  · rintro ⟨rfl, pid⟩
    rw [pid]

end Rex.Syscount
