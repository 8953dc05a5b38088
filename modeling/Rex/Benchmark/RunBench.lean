import Rex.Bmc.Client
import Rex.Data.Shares

namespace Rex.Benchmark

open Bmc

/-! How the benchmark client deals out its requests to its threads, and what it
reports about them.  A `usize` is a `UInt64`, as a release build computes with
it; `none` is an index out of range, which panics. -/

inductive Protocol
  | udp
  | tcp
deriving DecidableEq

structure BenchEntry where
  key : List UInt8
  value : List UInt8
  proto : Protocol
deriving DecidableEq

structure SendCommand where
  key : List UInt8
  seq : UInt16
  proto : Protocol
  value : List UInt8
deriving DecidableEq

def SendCommand.entry (command : SendCommand) : BenchEntry :=
  ⟨command.key, command.value, command.proto⟩

/-! The part of `run_bench` that builds the commands. -/

def entryIndex (nums threads threadNum index : UInt64) : UInt64 :=
  threadNum * nums / threads + index

def pushCommands (benchmarkEntries : List BenchEntry)
    (nums threads threadNum : UInt64) :
    (remaining : Nat) → (index : UInt64) → (seq : UInt16) →
      Option (List SendCommand)
  | 0, _, _ => some []
  | remaining + 1, index, seq => do
      let entry ←
        benchmarkEntries[(entryIndex nums threads threadNum index).toNat]?
      let seq := seq + 1
      let later ← pushCommands benchmarkEntries nums threads threadNum remaining
        (index + 1) seq
      some (⟨entry.key, seq, entry.proto, entry.value⟩ :: later)

def sendCommands (benchmarkEntries : List BenchEntry)
    (nums threads threadNum : UInt64) : Option (List SendCommand) :=
  pushCommands benchmarkEntries nums threads threadNum (nums / threads).toNat 0 0

def pushThreads (benchmarkEntries : List BenchEntry) (nums threads : UInt64) :
    (remaining : Nat) → (threadNum : UInt64) → Option (List (List SendCommand))
  | 0, _ => some []
  | remaining + 1, threadNum => do
      let commands ← sendCommands benchmarkEntries nums threads threadNum
      let later ← pushThreads benchmarkEntries nums threads remaining (threadNum + 1)
      some (commands :: later)

def sendCommandsVec (benchmarkEntries : List BenchEntry)
    (nums threads : UInt64) : Option (List (List SendCommand)) :=
  pushThreads benchmarkEntries nums threads threads.toNat 0

/-! The part that runs the threads. -/

/-- What a thread sends for a command: a SET over its TCP connection, or a GET
through one of its UDP sockets. -/
inductive Request
  | set (key value : List UInt8)
  | get (socket : Nat) (packet : List UInt8)

def socketsPool : List Nat :=
  List.range 32

def getCommandBenchmark : (counter : UInt64) → List SendCommand →
    Option (List Request)
  | _, [] => some []
  | counter, command :: rest =>
      if command.proto = .tcp then do
        let later ← getCommandBenchmark counter rest
        some (.set command.key command.value :: later)
      else do
        let counter := counter + 1
        let socket ← socketsPool[(counter &&& 0x1F).toNat]?
        let later ← getCommandBenchmark counter rest
        some (.get socket (wrapGetCommand command.key command.seq) :: later)

def popEach : (remaining : Nat) → List (List SendCommand) →
    Option (List (List SendCommand))
  | 0, _ => some []
  | remaining + 1, sendCommandsVec => do
      let commands ← sendCommandsVec.getLast?
      let later ← popEach remaining sendCommandsVec.dropLast
      some (commands :: later)

def joinEach : List (List SendCommand) → Option (List Request)
  | [] => some []
  | commands :: rest => do
      let requests ← getCommandBenchmark 0 commands
      let later ← joinEach rest
      some (requests ++ later)

def runBench (benchmarkEntries : List BenchEntry) (nums threads : UInt64) :
    Option (List Request) := do
  let sendCommandsVec ← sendCommandsVec benchmarkEntries nums threads
  let handed ← popEach threads.toNat sendCommandsVec
  joinEach handed

/-- The number of requests from which the throughput is computed. -/
def reportedRequests (nums timeoutCounter : UInt64) : UInt64 :=
  nums - timeoutCounter

/-! What a run sends. -/

/-- A run with one entry for each of its requests, in which no multiplication
overflows. -/
structure Planned (benchmarkEntries : List BenchEntry) (nums threads : UInt64) :
    Prop where
  asked : 1 ≤ nums
  threaded : 1 ≤ threads
  fits : ∀ threadNum < threads, threadNum.toNat * nums.toNat < 2 ^ 64
  sized : benchmarkEntries.length = nums.toNat

section Commands

variable {benchmarkEntries : List BenchEntry} {nums threads threadNum : UInt64}

def share (nums threads : UInt64) : Nat :=
  nums.toNat / threads.toNat

theorem toNat_div_eq_share : (nums / threads).toNat = share nums threads :=
  UInt64.toNat_div nums threads

def firstEntry (nums threads : UInt64) (threadNum : Nat) : Nat :=
  Shares.start nums.toNat threads.toNat threadNum

theorem Planned.firstEntry_add_share_le
    (planned : Planned benchmarkEntries nums threads)
    (employed : threadNum < threads) :
    firstEntry nums threads threadNum.toNat + share nums threads ≤
      benchmarkEntries.length := by
  rw [planned.sized]
  exact Shares.start_add_share_le_count (UInt64.lt_iff_toNat_lt.mp employed)

theorem Planned.toNat_entryIndex
    (planned : Planned benchmarkEntries nums threads)
    (employed : threadNum < threads) {index : UInt64}
    (inShare : index.toNat < share nums threads) :
    (entryIndex nums threads threadNum index).toNat =
      firstEntry nums threads threadNum.toNat + index.toNat := by
  have within := planned.firstEntry_add_share_le employed
  have bound := nums.toNat_lt
  rw [planned.sized] at within
  have product : (threadNum * nums).toNat = threadNum.toNat * nums.toNat := by
    rw [UInt64.toNat_mul]
    exact Nat.mod_eq_of_lt (planned.fits threadNum employed)
  have first : (threadNum * nums / threads).toNat =
      firstEntry nums threads threadNum.toNat := by
    rw [UInt64.toNat_div, product]
    rfl
  rw [entryIndex, UInt64.toNat_add, first]
  exact Nat.mod_eq_of_lt (by omega)

theorem Planned.entryIndex_lt (planned : Planned benchmarkEntries nums threads)
    (employed : threadNum < threads) {index : UInt64}
    (inShare : index.toNat < share nums threads) :
    (entryIndex nums threads threadNum index).toNat < benchmarkEntries.length := by
  have within := planned.firstEntry_add_share_le employed
  rw [planned.toNat_entryIndex employed inShare]
  omega

theorem toNat_next {counter : UInt64} (room : counter.toNat + 1 < 2 ^ 64) :
    (counter + 1).toNat = counter.toNat + 1 :=
  (UInt64.toNat_add _ _).trans (Nat.mod_eq_of_lt room)

theorem Planned.pushCommands_eq (planned : Planned benchmarkEntries nums threads)
    (employed : threadNum < threads) {remaining : Nat} {index : UInt64}
    (rest : index.toNat + remaining = share nums threads) (seq : UInt16) :
    ∃ commands, pushCommands benchmarkEntries nums threads threadNum remaining
        index seq = some commands ∧
      commands.map SendCommand.entry =
        (benchmarkEntries.drop
          (firstEntry nums threads threadNum.toNat + index.toNat)).take
            remaining := by
  induction remaining generalizing index seq with
  | zero => exact ⟨[], rfl, List.take_zero.symm⟩
  | succ remaining induction =>
      have inShare : index.toNat < share nums threads := by omega
      have within := planned.firstEntry_add_share_le employed
      have bound := nums.toNat_lt
      rw [planned.sized] at within
      have next : (index + 1).toNat = index.toNat + 1 := toNat_next (by omega)
      have position := planned.toNat_entryIndex employed inShare
      have inRange := planned.entryIndex_lt employed inShare
      rw [position] at inRange
      have left : (index + 1).toNat + remaining = share nums threads := by omega
      obtain ⟨later, pushed, entries⟩ := induction left (seq + 1)
      have split := List.drop_eq_getElem_cons inRange
      have found := List.getElem?_eq_getElem inRange
      generalize benchmarkEntries[firstEntry nums threads threadNum.toNat +
        index.toNat] = entry at split found
      refine ⟨⟨entry.key, seq + 1, entry.proto, entry.value⟩ :: later, ?_, ?_⟩
      · simp only [pushCommands, position, found, pushed, Option.bind_eq_bind,
          Option.bind_some]
      · rw [List.map_cons, entries, split, List.take_succ_cons, next, Nat.add_assoc]
        rfl

theorem Planned.sendCommands_eq (planned : Planned benchmarkEntries nums threads)
    (employed : threadNum < threads) :
    ∃ commands, sendCommands benchmarkEntries nums threads threadNum =
        some commands ∧
      commands.map SendCommand.entry =
        (benchmarkEntries.drop (firstEntry nums threads threadNum.toNat)).take
          (share nums threads) := by
  rw [sendCommands, toNat_div_eq_share]
  exact planned.pushCommands_eq employed (Nat.zero_add _) 0

theorem Planned.pushThreads_eq (planned : Planned benchmarkEntries nums threads)
    {remaining : Nat} (rest : threadNum.toNat + remaining = threads.toNat) :
    ∃ lists, pushThreads benchmarkEntries nums threads remaining threadNum =
        some lists ∧
      lists.map (List.map SendCommand.entry) =
        (List.range' threadNum.toNat remaining).map fun threadNum =>
          (benchmarkEntries.drop (firstEntry nums threads threadNum)).take
            (share nums threads) := by
  induction remaining generalizing threadNum with
  | zero => exact ⟨[], rfl, rfl⟩
  | succ remaining induction =>
      have employed : threadNum < threads := by
        rw [UInt64.lt_iff_toNat_lt]
        omega
      have bound := threads.toNat_lt
      have next : (threadNum + 1).toNat = threadNum.toNat + 1 := toNat_next (by omega)
      have left : (threadNum + 1).toNat + remaining = threads.toNat := by omega
      obtain ⟨commands, sent, entries⟩ := planned.sendCommands_eq employed
      obtain ⟨later, pushed, others⟩ := induction left
      refine ⟨commands :: later, ?_, ?_⟩
      · simp only [pushThreads, sent, pushed, Option.bind_eq_bind, Option.bind_some]
      · rw [List.map_cons, entries, others, next, List.range'_succ, List.map_cons]

theorem Planned.sendCommandsVec_eq
    (planned : Planned benchmarkEntries nums threads) :
    ∃ lists, sendCommandsVec benchmarkEntries nums threads = some lists ∧
      lists.map (List.map SendCommand.entry) =
        (List.range threads.toNat).map fun threadNum =>
          (benchmarkEntries.drop (firstEntry nums threads threadNum)).take
            (share nums threads) := by
  rw [sendCommandsVec, List.range_eq_range']
  exact planned.pushThreads_eq (Nat.zero_add _)

theorem Planned.length_commands (planned : Planned benchmarkEntries nums threads)
    {lists : List (List SendCommand)}
    (entries : lists.map (List.map SendCommand.entry) =
      (List.range threads.toNat).map fun threadNum =>
        (benchmarkEntries.drop (firstEntry nums threads threadNum)).take
          (share nums threads)) :
    lists.length = threads.toNat ∧
      lists.flatten.length = threads.toNat * share nums threads := by
  have count := congrArg List.length entries
  rw [List.length_map, List.length_map, List.length_range] at count
  refine ⟨count, ?_⟩
  have full : ∀ commands ∈ lists, commands.length = share nums threads := by
    intro commands member
    have listed : commands.map SendCommand.entry ∈
        lists.map (List.map SendCommand.entry) :=
      List.mem_map_of_mem member
    rw [entries] at listed
    obtain ⟨threadNum, employed, same⟩ := List.mem_map.mp listed
    have length := congrArg List.length same
    have within : firstEntry nums threads threadNum + share nums threads ≤
        nums.toNat :=
      Shares.start_add_share_le_count (List.mem_range.mp employed)
    rw [List.length_take, List.length_drop, planned.sized, List.length_map] at length
    omega
  rw [List.length_flatten, List.map_congr_left full, List.map_const', List.sum_replicate,
    count]
  rfl

end Commands

section Requests

theorem getCommandBenchmark_eq (counter : UInt64) (commands : List SendCommand) :
    ∃ requests, getCommandBenchmark counter commands = some requests ∧
      requests.length = commands.length := by
  induction commands generalizing counter with
  | nil => exact ⟨[], rfl, rfl⟩
  | cons command rest induction =>
      unfold getCommandBenchmark
      split
      · obtain ⟨later, sent, length⟩ := induction counter
        refine ⟨.set command.key command.value :: later, ?_, ?_⟩
        · rw [sent]
          rfl
        · rw [List.length_cons, length, List.length_cons]
      · obtain ⟨later, sent, length⟩ := induction (counter + 1)
        have inPool : ((counter + 1) &&& 0x1F).toNat < socketsPool.length := by
          rw [UInt64.toNat_and]
          exact Nat.lt_of_le_of_lt Nat.and_le_right (by decide)
        obtain ⟨socket, bound⟩ : ∃ socket,
            socketsPool[((counter + 1) &&& 0x1F).toNat]? = some socket :=
          ⟨_, List.getElem?_eq_getElem inPool⟩
        refine ⟨.get socket (wrapGetCommand command.key command.seq) :: later, ?_, ?_⟩
        · simp only [bound, sent, Option.bind_eq_bind, Option.bind_some]
        · rw [List.length_cons, length, List.length_cons]

theorem popEach_eq (lists : List (List SendCommand)) :
    popEach lists.length lists = some lists.reverse := by
  induction lists using List.reverseRecOn with
  | nil => rfl
  | append_singleton lists commands induction =>
      rw [List.length_append, List.length_singleton, List.reverse_concat]
      simp only [popEach, List.getLast?_append, List.getLast?_singleton,
        Option.some_or, List.dropLast_concat, induction, Option.bind_eq_bind,
        Option.bind_some]

theorem joinEach_eq (lists : List (List SendCommand)) :
    ∃ requests, joinEach lists = some requests ∧
      requests.length = lists.flatten.length := by
  induction lists with
  | nil => exact ⟨[], rfl, rfl⟩
  | cons commands rest induction =>
      obtain ⟨requests, sent, length⟩ := getCommandBenchmark_eq 0 commands
      obtain ⟨later, joined, others⟩ := induction
      refine ⟨requests ++ later, ?_, ?_⟩
      · simp only [joinEach, sent, joined, Option.bind_eq_bind, Option.bind_some]
      · rw [List.length_append, length, others, List.flatten_cons, List.length_append]

end Requests

section Sent

variable {benchmarkEntries : List BenchEntry} {nums threads : UInt64}

theorem Planned.runBench_eq (planned : Planned benchmarkEntries nums threads) :
    ∃ requests, runBench benchmarkEntries nums threads = some requests ∧
      requests.length = threads.toNat * share nums threads := by
  obtain ⟨lists, built, entries⟩ := planned.sendCommandsVec_eq
  obtain ⟨count, total⟩ := planned.length_commands entries
  obtain ⟨requests, joined, length⟩ := joinEach_eq lists.reverse
  refine ⟨requests, ?_, ?_⟩
  · have popped := popEach_eq lists
    rw [count] at popped
    simp only [runBench, built, popped, joined, Option.bind_eq_bind, Option.bind_some]
  · rw [length, List.Perm.length_eq lists.reverse_perm.flatten, total]

structure SendsEachOnce (benchmarkEntries : List BenchEntry)
    (nums threads : UInt64) : Prop where
  inRange : ∀ threadNum < threads, ∀ index < nums / threads,
    (entryIndex nums threads threadNum index).toNat < benchmarkEntries.length
  once : ∀ entry < nums, ∃! used : UInt64 × UInt64,
    used.1 < threads ∧ used.2 < nums / threads ∧
      entryIndex nums threads used.1 used.2 = entry
  commands : ∃ lists, sendCommandsVec benchmarkEntries nums threads = some lists ∧
    (lists.flatten.map SendCommand.entry).Perm benchmarkEntries
  reported : ∃ requests, runBench benchmarkEntries nums threads = some requests ∧
    ∀ timeoutCounter : UInt64, timeoutCounter.toNat ≤ requests.length →
      (reportedRequests nums timeoutCounter).toNat =
        requests.length - timeoutCounter.toNat

theorem Planned.inRange (planned : Planned benchmarkEntries nums threads) :
    ∀ threadNum < threads, ∀ index < nums / threads,
      (entryIndex nums threads threadNum index).toNat < benchmarkEntries.length := by
  intro threadNum employed index inShare
  rw [UInt64.lt_iff_toNat_lt, toNat_div_eq_share] at inShare
  exact planned.entryIndex_lt employed inShare

theorem Planned.entryIndex_inj (planned : Planned benchmarkEntries nums threads)
    {threadNum index otherNum otherIndex : UInt64}
    (employed : threadNum < threads) (inShare : index < nums / threads)
    (otherEmployed : otherNum < threads) (inOther : otherIndex < nums / threads)
    (same : entryIndex nums threads threadNum index =
      entryIndex nums threads otherNum otherIndex) :
    threadNum = otherNum ∧ index = otherIndex := by
  rw [UInt64.lt_iff_toNat_lt, toNat_div_eq_share] at inShare inOther
  have positions := congrArg UInt64.toNat same
  rw [planned.toNat_entryIndex employed inShare,
    planned.toNat_entryIndex otherEmployed inOther] at positions
  obtain ⟨sameNum, sameIndex⟩ := Shares.start_add_inj inShare inOther positions
  exact ⟨UInt64.toNat_inj.mp sameNum, UInt64.toNat_inj.mp sameIndex⟩

theorem Planned.once (planned : Planned benchmarkEntries nums threads)
    (even : threads.toNat ∣ nums.toNat) :
    ∀ entry < nums, ∃! used : UInt64 × UInt64,
      used.1 < threads ∧ used.2 < nums / threads ∧
        entryIndex nums threads used.1 used.2 = entry := by
  intro entry below
  obtain ⟨worker, employed, idx, inShare, position⟩ :=
    Shares.covers_iff.mpr even entry.toNat (UInt64.lt_iff_toNat_lt.mp below)
  have numOf : (UInt64.ofNat worker).toNat = worker :=
    UInt64.toNat_ofNat_of_lt' (employed.trans threads.toNat_lt)
  have indexOf : (UInt64.ofNat idx).toNat = idx :=
    UInt64.toNat_ofNat_of_lt'
      ((inShare.trans_le (Nat.div_le_self _ _)).trans nums.toNat_lt)
  have taken : UInt64.ofNat worker < threads := by
    rwa [UInt64.lt_iff_toNat_lt, numOf]
  have within : UInt64.ofNat idx < nums / threads := by
    rwa [UInt64.lt_iff_toNat_lt, indexOf, toNat_div_eq_share]
  have found : entryIndex nums threads (.ofNat worker) (.ofNat idx) = entry := by
    apply UInt64.toNat_inj.mp
    rw [planned.toNat_entryIndex taken (by rwa [indexOf]), numOf, indexOf]
    exact position
  refine ⟨(.ofNat worker, .ofNat idx), ⟨taken, within, found⟩, ?_⟩
  rintro ⟨otherNum, otherIndex⟩ ⟨otherTaken, otherWithin, otherFound⟩
  obtain ⟨sameNum, sameIndex⟩ := planned.entryIndex_inj otherTaken otherWithin
    taken within (otherFound.trans found.symm)
  exact Prod.ext sameNum sameIndex

theorem Planned.commands (planned : Planned benchmarkEntries nums threads)
    (even : threads.toNat ∣ nums.toNat) :
    ∃ lists, sendCommandsVec benchmarkEntries nums threads = some lists ∧
      lists.flatten.map SendCommand.entry = benchmarkEntries := by
  obtain ⟨lists, built, entries⟩ := planned.sendCommandsVec_eq
  refine ⟨lists, built, ?_⟩
  simp only [firstEntry, Shares.start_of_dvd even] at entries
  rw [List.map_flatten, entries, share, Shares.flatten_shares,
    Nat.mul_div_cancel' even, ← planned.sized, List.take_length]

theorem Planned.reported_iff (planned : Planned benchmarkEntries nums threads) :
    (∃ requests, runBench benchmarkEntries nums threads = some requests ∧
      ∀ timeoutCounter : UInt64, timeoutCounter.toNat ≤ requests.length →
        (reportedRequests nums timeoutCounter).toNat =
          requests.length - timeoutCounter.toNat) ↔
      threads.toNat ∣ nums.toNat := by
  obtain ⟨requests, ran, length⟩ := planned.runBench_eq
  constructor
  · rintro ⟨other, same, reported⟩
    obtain rfl := Option.some.inj (ran.symm.trans same)
    have whole := reported 0 (Nat.zero_le _)
    rw [reportedRequests, UInt64.sub_zero, length] at whole
    exact ⟨_, whole⟩
  · intro even
    refine ⟨requests, ran, ?_⟩
    intro timeoutCounter few
    have whole : requests.length = nums.toNat := by
      rw [length, share, Nat.mul_div_cancel' even]
    rw [whole] at few ⊢
    exact UInt64.toNat_sub_of_le _ _ (UInt64.le_iff_toNat_le.mpr few)

theorem sends_each_once_iff (planned : Planned benchmarkEntries nums threads) :
    SendsEachOnce benchmarkEntries nums threads ↔ nums % threads = 0 := by
  have divides : nums % threads = 0 ↔ threads.toNat ∣ nums.toNat := by
    rw [← UInt64.toNat_inj, UInt64.toNat_mod, Nat.dvd_iff_mod_eq_zero]
    rfl
  rw [divides]
  constructor
  · intro sends
    exact planned.reported_iff.mp sends.reported
  · intro even
    obtain ⟨lists, built, entries⟩ := planned.commands even
    exact ⟨planned.inRange, planned.once even, ⟨lists, built, entries ▸ .refl _⟩,
      planned.reported_iff.mpr even⟩

end Sent

def sampleEntry (key : UInt8) : BenchEntry :=
  ⟨[key], [118], .udp⟩

theorem sends_each_once_iff_two :
    SendsEachOnce [sampleEntry 97, sampleEntry 98] 2 2 := by
  refine (sends_each_once_iff ⟨by decide, by decide, ?_, rfl⟩).mpr (by decide)
  intro threadNum employed
  have bound : threadNum.toNat < 2 := UInt64.lt_iff_toNat_lt.mp employed
  show threadNum.toNat * 2 < 2 ^ 64
  omega

/-- Two threads send one request each, and three are reported. -/
theorem third_entry_never_sent :
    ¬ ∀ (benchmarkEntries : List BenchEntry) (nums threads : UInt64),
      Planned benchmarkEntries nums threads →
        SendsEachOnce benchmarkEntries nums threads := by
  intro always
  have planned :
      Planned [sampleEntry 97, sampleEntry 98, sampleEntry 99] 3 2 := by
    refine ⟨by decide, by decide, ?_, rfl⟩
    intro threadNum employed
    have bound : threadNum.toNat < 2 := UInt64.lt_iff_toNat_lt.mp employed
    show threadNum.toNat * 3 < 2 ^ 64
    omega
  obtain ⟨lists, built, whole⟩ := (always _ 3 2 planned).commands
  have sent : sendCommandsVec [sampleEntry 97, sampleEntry 98, sampleEntry 99] 3 2 =
      some [[⟨[97], 1, .udp, [118]⟩], [⟨[98], 1, .udp, [118]⟩]] := by
    decide
  obtain rfl := Option.some.inj (sent.symm.trans built)
  exact absurd whole.length_eq (by decide)

end Rex.Benchmark
