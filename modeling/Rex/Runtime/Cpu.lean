import Rex.Data.Ledger
import Rex.Panic.CleanupEntries

namespace Rex

/-! One CPU running one program against the runtime crate.  The crate's code
advances by single memory or kernel-call steps, so that the kernel timer can
fire between any two of them.  Panics do not unwind: the objects that are alive
when a panic is raised are never dropped. -/

inductive CleanupFn
  | spinlockGuard
  | ownedTaskStruct
deriving DecidableEq

inductive KernelCall
  | bpfSpinLock (lock : Ptr)
  | bpfSpinUnlock (lock : Ptr)
  | bpfTaskFromPid (pid : Int32) (task : Ptr)
  | bpfTaskRelease (task : Ptr)
  | bpfRingbufReserve (ringbuf : Ptr) (size : UInt64) (data : Ptr)
  | bpfRingbufSubmit (data : Ptr) (flags : UInt64)
  | bpfRingbufDiscard (data : Ptr) (flags : UInt64)
  | other
deriving DecidableEq

def CleanupCall.panicCleanup (call : CleanupCall CleanupFn) : KernelCall :=
  match call.cleanupFn with
  | .spinlockGuard => .bpfSpinUnlock call.cleanupArg
  | .ownedTaskStruct => .bpfTaskRelease call.cleanupArg

inductive Object
  | spinlockGuard (lock : Ptr) (cleanupIdx : Nat)
  | ownedTaskStruct (kptr : Ptr) (cleanupIdx : Nat)
  | ringBufEntry (data : Ptr) (len : UInt64)
deriving DecidableEq

/-- Entry points of the crate whose body runs inside `termination_check!`.
`helper` stands for every wrapper whose result owns nothing. -/
inductive Call
  | guardNew (lock : Ptr)
  | fromPid (pid : Int32)
  | reserve (kptr : Ptr) (size : UInt64)
  | submit (data : Ptr) (len flags : UInt64)
  | discard (data : Ptr) (len flags : UInt64)
  | drop (object : Object)
  | helper
deriving DecidableEq

inductive Body
  | guardRegister (lock : Ptr)
  | guardLock (lock : Ptr) (cleanupIdx : Nat)
  | guardDeregister (lock : Ptr) (cleanupIdx : Nat)
  | guardUnlock (lock : Ptr)
  | taskFromPid (pid : Int32)
  | taskRegister (task : Ptr)
  | taskDeregister (kptr : Ptr) (cleanupIdx : Nat)
  | taskRelease (kptr : Ptr)
  | ringbufReserve (kptr : Ptr) (size : UInt64)
  | ringbufSubmit (data : Ptr) (flags : UInt64)
  | ringbufDiscard (data : Ptr) (flags : UInt64)
  | helper
deriving DecidableEq

def Call.body : Call → Body
  | .guardNew lock => .guardRegister lock
  | .fromPid pid => .taskFromPid pid
  | .reserve kptr size => .ringbufReserve kptr size
  | .submit data _ flags => .ringbufSubmit data flags
  | .discard data _ flags => .ringbufDiscard data flags
  | .drop (.spinlockGuard lock cleanupIdx) => .guardDeregister lock cleanupIdx
  | .drop (.ownedTaskStruct kptr cleanupIdx) => .taskDeregister kptr cleanupIdx
  | .drop (.ringBufEntry data _) => .ringbufDiscard data 0
  | .helper => .helper

/-- Control points.  `enter`, `check` and `reset` are the three accesses of
`termination_check!` to the termination state: the store of 1, the load and
comparison with 2, and the store of 0. -/
inductive Pc
  | program
  | enter (call : Call)
  | body (call : Call) (stage : Body)
  | check (call : Call) (value : Option Object)
  | reset (call : Call) (value : Option Object)
  | forget (call : Call)
  | handleTimeout
  | panic
  | cleanup (idx : Nat)
  | invalidate (idx : Fin entriesSize)
  | format
  | landingpad
  | returned
deriving DecidableEq

/-- Where a call continues once its wrapper is done.  `submit` and `discard`
still own the entry and `mem::forget` it. -/
def Call.after : Call → Pc
  | .submit data len flags => .forget (.submit data len flags)
  | .discard data len flags => .forget (.discard data len flags)
  | _ => .program

structure Cpu where
  terminationState : UInt8
  entries : CleanupEntries CleanupFn
  log : List KernelCall
  objects : List Object
  pc : Pc
  /-- History: the timer has stored 2 during this run. -/
  marked : Bool

/-- What happens next.  `step` advances the crate's own code, where `ret` is
what the kernel answers if that step asks it for a pointer. -/
inductive Action
  | call (call : Call)
  | step (ret : Ptr)
  | panic
  | ret
  | timer
deriving DecidableEq

namespace Cpu

def start (entries : CleanupEntries CleanupFn) : Cpu :=
  { terminationState := 0, entries, log := [], objects := [], pc := .program,
    marked := false }

def borrowed (cpu : Cpu) (lock : Ptr) : Bool :=
  cpu.objects.any fun
    | .spinlockGuard other _ => other == lock
    | _ => false

def consume (cpu : Cpu) (object : Object) (call : Call) : Option Cpu :=
  if object ∈ cpu.objects then
    some { cpu with objects := cpu.objects.erase object, pc := .enter call }
  else
    none

def invoke (cpu : Cpu) : Call → Option Cpu
  | .guardNew lock =>
      if cpu.borrowed lock then
        none
      else
        some { cpu with pc := .enter (.guardNew lock) }
  | .fromPid pid => some { cpu with pc := .enter (.fromPid pid) }
  | .reserve kptr size =>
      -- an unloaded map answers `None` before the wrapper is entered
      if kptr = 0 then
        some cpu
      else
        some { cpu with pc := .enter (.reserve kptr size) }
  | .submit data len flags =>
      cpu.consume (.ringBufEntry data len) (.submit data len flags)
  | .discard data len flags =>
      cpu.consume (.ringBufEntry data len) (.discard data len flags)
  | .drop object => cpu.consume object (.drop object)
  | .helper => some { cpu with pc := .enter .helper }

def kernel (cpu : Cpu) (call : KernelCall) (pc : Pc) : Cpu :=
  { cpu with log := cpu.log ++ [call], pc }

def register (cpu : Cpu) (cleanupFn : CleanupFn) (cleanupArg : Ptr)
    (registered : Nat → Pc) : Cpu :=
  match cpu.entries.registerCleanup cleanupFn cleanupArg with
  | (.ok idx, entries) => { cpu with entries, pc := registered idx }
  | (.error _, entries) => { cpu with entries, pc := .panic }

def deregister (cpu : Cpu) (idx : Nat) (deregistered : Pc) : Cpu :=
  match cpu.entries.deregisterCleanup idx with
  | (.ok (), entries) => { cpu with entries, pc := deregistered }
  | (.error _, entries) => { cpu with entries, pc := .panic }

def runBody (cpu : Cpu) (call : Call) (ret : Ptr) : Body → Cpu
  | .guardRegister lock =>
      cpu.register .spinlockGuard lock fun idx =>
        .body call (.guardLock lock idx)
  | .guardLock lock cleanupIdx =>
      cpu.kernel (.bpfSpinLock lock)
        (.check call (some (.spinlockGuard lock cleanupIdx)))
  | .guardDeregister lock cleanupIdx =>
      cpu.deregister cleanupIdx (.body call (.guardUnlock lock))
  | .guardUnlock lock => cpu.kernel (.bpfSpinUnlock lock) (.check call none)
  | .taskFromPid pid =>
      cpu.kernel (.bpfTaskFromPid pid ret)
        (if ret = 0 then .check call none else .body call (.taskRegister ret))
  | .taskRegister task =>
      cpu.register .ownedTaskStruct task fun idx =>
        .check call (some (.ownedTaskStruct task idx))
  | .taskDeregister kptr cleanupIdx =>
      cpu.deregister cleanupIdx (.body call (.taskRelease kptr))
  | .taskRelease kptr => cpu.kernel (.bpfTaskRelease kptr) (.check call none)
  | .ringbufReserve kptr size =>
      cpu.kernel (.bpfRingbufReserve kptr size ret)
        (.check call (if ret = 0 then none else some (.ringBufEntry ret size)))
  | .ringbufSubmit data flags =>
      cpu.kernel (.bpfRingbufSubmit data flags) (.check call none)
  | .ringbufDiscard data flags =>
      cpu.kernel (.bpfRingbufDiscard data flags) (.check call none)
  | .helper => cpu.kernel .other (.check call none)

def advance (cpu : Cpu) (ret : Ptr) : Option Cpu :=
  match cpu.pc with
  | .program | .landingpad | .returned => none
  | .enter call =>
      some { cpu with terminationState := 1, pc := .body call call.body }
  | .body call stage => some (cpu.runBody call ret stage)
  | .check call value =>
      if cpu.terminationState = 2 then
        some { cpu with pc := .handleTimeout }
      else
        some { cpu with pc := .reset call value }
  | .reset call value =>
      some { cpu with
        terminationState := 0
        objects := value.toList ++ cpu.objects
        pc := call.after }
  | .forget _ => some { cpu with pc := .program }
  | .handleTimeout => some { cpu with pc := .panic }
  | .panic => some { cpu with terminationState := 1, pc := .cleanup 0 }
  | .cleanup idx =>
      if inRange : idx < entriesSize then
        some { cpu with
          log := cpu.log ++
            cpu.entries[idx].cleanup.map CleanupCall.panicCleanup
          pc := .invalidate ⟨idx, inRange⟩ }
      else
        some { cpu with pc := .format }
  | .invalidate idx =>
      some { cpu with
        entries := cpu.entries.invalidate idx
        pc := .cleanup (idx + 1) }
  | .format => some { cpu with pc := .landingpad }

/-- The kernel timer: it diverts program code at once, and leaves a mark for a
wrapper to notice. -/
def timer (cpu : Cpu) : Option Cpu :=
  if cpu.pc = .landingpad ∨ cpu.pc = .returned then
    none
  else if cpu.terminationState = 0 then
    some { cpu with pc := .handleTimeout }
  else if cpu.terminationState = 1 then
    some { cpu with terminationState := 2, marked := true }
  else
    some cpu

/-- Program code may panic at any point, and so may the code that formats the
panic message.  It returns once everything it owns has been dropped. -/
def step (cpu : Cpu) : Action → Option Cpu
  | .call call => if cpu.pc = .program then cpu.invoke call else none
  | .step ret => cpu.advance ret
  | .panic =>
      if cpu.pc = .program ∨ cpu.pc = .format then
        some { cpu with pc := .panic }
      else
        none
  | .ret =>
      if cpu.pc = .program ∧ cpu.objects = [] then
        some { cpu with pc := .returned }
      else
        none
  | .timer => cpu.timer

end Cpu

end Rex
