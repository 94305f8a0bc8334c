import PrjOS.Scheduler
import PrjOS.Syscall.Messages
import PrjOS.Syscall.Events
import PrjOS.Syscall.Calls

namespace PrjOS

open ByteMemory Function

inductive SyscallNumber
  | getTid | getParentTid | yield | threadexit | create | changepriority | send | receive | reply
  | whoisns | registerns | receiveNonblock | awaitEvent | createMicrotask | metaInfo
  | monotonicMicros
  deriving DecidableEq, Repr

namespace SyscallNumber

def code : SyscallNumber → Word
  | getTid => 1
  | getParentTid => 2
  | yield => 3
  | threadexit => 4
  | create => 5
  | changepriority => 6
  | send => 8
  | receive => 9
  | reply => 10
  | whoisns => 11
  | registerns => 12
  | receiveNonblock => 13
  | awaitEvent => 14
  | createMicrotask => 15
  | metaInfo => 16
  | monotonicMicros => 17

def decode (w : Word) : Option SyscallNumber :=
  match w.toNat with
  | 1 => some getTid
  | 2 => some getParentTid
  | 3 => some yield
  | 4 => some threadexit
  | 5 => some create
  | 6 => some changepriority
  | 8 => some send
  | 9 => some receive
  | 10 => some reply
  | 11 => some whoisns
  | 12 => some registerns
  | 13 => some receiveNonblock
  | 14 => some awaitEvent
  | 15 => some createMicrotask
  | 16 => some metaInfo
  | 17 => some monotonicMicros
  | _ => none

theorem decode_eq_some {w : Word} {c : SyscallNumber} : decode w = some c ↔ w = c.code := by
  constructor
  · intro h
    unfold decode at h
    apply BitVec.eq_of_toNat_eq
    split at h <;> cases h <;> assumption
  · rintro rfl
    cases c <;> rfl

end SyscallNumber

def TaskDescriptor.call (td : TaskDescriptor) : Option SyscallNumber :=
  SyscallNumber.decode td.systemCall.syscall

/-- The shared part of `SYSCALL_CREATE` and `SYSCALL_CREATE_MICROTASK`. -/
def createAndAdd (k : KernelData) (t : TdPtr) (checked : Except Word TaskCreateParameters) :
    Result KernelData :=
  match checked with
  | .error r => .ok (k.setReturnValue t r)
  | .ok params =>
    match createTask k.tds k.memory params with
    | none => .ok (k.setReturnValue t errCreateNoSpace)
    | some (theNewTask, tds, memory) => do
      let k := { k with tds := tds, memory := memory }
      let s ← schedulerAdd k.schedulerStructure k.tds (some theNewTask)
      let k := { k with schedulerStructure := s }
      .ok ((k.setReturnValue t (k.tds theNewTask).taskId).setTaskReady t)

def handleSyscall (k : KernelData) (t : TdPtr) : Result KernelData :=
  if (k.tds t).state ≠ .syscallBlk then .ok k
  else
    match (k.tds t).call with
    | none => .ok k
    | some .getTid => .ok (storeResult t (sysGetTid t k))
    | some .getParentTid => .ok (storeResult t (sysGetParentTid t k))
    | some .yield => .ok (storeResult t (sysYield t k))
    | some .threadexit => .ok (storeResult t (sysExit t k))
    | some .send => do .ok (storeResult t (← sysSend t k))
    | some .receive => .ok (storeResult t (sysReceive t k true))
    | some .receiveNonblock => .ok (storeResult t (sysReceive t k false))
    | some .reply => .ok (storeResult t (sysReply t k))
    | some .awaitEvent => sysAwaitEvent t k
    | some .create => createAndAdd k t (sysCreate t k)
    | some .createMicrotask => createAndAdd k t (sysCreateMicroTask t k)
    | some .changepriority => .ok (storeResult t (sysChangePriority t k))
    | some .whoisns => .ok (storeResult t (sysWhoIsNs t k))
    | some .registerns => .ok (storeResult t (sysRegisterNs t k))
    | some .metaInfo => .ok (storeResult t (sysMetaInfo t k))
    | some .monotonicMicros => .ok (storeResult t (sysGetMonotonicMicros t k))

def kernelTasks (k : KernelData) (activeTask : TdPtr) (preemptionReason : Word) :
    Result KernelData :=
  if preemptionReason = 0 then handleSyscall k activeTask
  else handleInterrupt k preemptionReason

/-- How a dispatched task comes back to the kernel: the stack pointer saved
for it, and either the SVC immediate with the parameter words or the number
of the exception that interrupted it. -/
inductive Preemption
  | svc (sp : Word) (number : Byte) (param1 param2 param3 param4 param5 param6 : Word)
  | interrupt (sp ipsr : Word)

/-- What happens outside the kernel during one pass of the loop: timer ticks
before each reading of the clock, the kernel's stack pointer, the memory as
the dispatched task leaves it, and how that task comes back. -/
structure Iteration where
  headTicks : Nat
  dispatchTicks : Nat
  taskTicks : Nat
  kernelTicks : Nat
  kernelSp : Word
  memory : Memory
  preemption : Preemption

/-- `systemTimerISR`, `n` times: 100 microseconds for each tick. -/
def tick (k : KernelData) (n : Nat) : KernelData :=
  { k with systemMicroCount := k.systemMicroCount + BitVec.ofNat 64 (100 * n) }

/-- What the context switch leaves in the descriptor of a task that came back
to the kernel. -/
def Preemption.enter (td : TaskDescriptor) : Preemption → TaskDescriptor
  | .svc sp number p1 p2 p3 p4 p5 p6 => { td with
      stackPointer := sp
      systemCall := ⟨number.setWidth 32, 0, p1, p2, p3, p4, p5, p6⟩
      state := .syscallBlk }
  | .interrupt sp _ => { td with
      stackPointer := sp
      systemCall := { td.systemCall with syscall := 0 }
      state := .hwint }

/-- The value of `prjTaskSwitch`: 0 for a system call, else the exception
number, or -1 in its place if that is 0. -/
def Preemption.reason : Preemption → Word
  | .svc .. => 0
  | .interrupt _ ipsr => if ipsr = 0 then -1 else ipsr

def prjTaskSwitch (k : KernelData) (t : TdPtr) (p : Preemption) : KernelData × Word :=
  (k.modify t p.enter, p.reason)

def chargeSystemTime (k : KernelData) (currentTask : Option TdPtr) : KernelData :=
  match currentTask with
  | none => k
  | some t =>
    if (k.tds t).systemTimeEntryMicros ≠ 0 then
      k.modify t fun td ↦ { td with
        systemTimeMicros := td.systemTimeMicros + (k.systemMicroCount - td.systemTimeEntryMicros) }
    else k

def enterUser (k : KernelData) (t : TdPtr) : KernelData :=
  k.modify t fun td ↦ { td with
    userTimeEntryMicros := k.systemMicroCount
    contextSwitchCount := td.contextSwitchCount + 1 }

def leaveUser (k : KernelData) (t : TdPtr) (preemptionReason : Word) : KernelData :=
  k.modify t fun td ↦ { td with
    userTimeMicros := td.userTimeMicros + (k.systemMicroCount - td.userTimeEntryMicros)
    systemTimeEntryMicros := if preemptionReason = 0 then k.systemMicroCount else 0 }

def checkKernelStack (k : KernelData) (sp : Word) : Result Unit :=
  if kernelStackSize < k.stackBase - sp then .error .kernelStack else .ok ()

/-- From the dispatch of `t` to the overflow check after it came back. -/
def runTask (it : Iteration) (k : KernelData) (t : TdPtr) : KernelData × Word :=
  let k := enterUser (tick k it.dispatchTicks) t
  let (k, preemptionReason) := prjTaskSwitch { k with memory := it.memory } t it.preemption
  let k := leaveUser (tick k it.taskTicks) t preemptionReason
  let k := if taskStackOverflow (k.tds t) then k.taskKill t else k
  (tick k it.kernelTicks, preemptionReason)

def dispatch (it : Iteration) (k : KernelData) (t : TdPtr) : Result KernelData := do
  checkKernelStack k it.kernelSp
  let (k, preemptionReason) := runTask it k t
  if hasExited (k.tds t) then .ok k
  else
    let k ← kernelTasks k t preemptionReason
    let s ← schedulerAdd k.schedulerStructure k.tds (some t)
    .ok { k with schedulerStructure := s }

/-- The state at the head of the loop in `rtos_main`. -/
structure RtosMain where
  kernel : KernelData
  currentTask : Option TdPtr

def afterSchedule (it : Iteration) (k : KernelData) (s : SchedulerStructure)
    (currentTask : Option TdPtr) : Result RtosMain := do
  let k := { k with schedulerStructure := s }
  match currentTask with
  | none => .ok ⟨k, none⟩
  | some t => .ok ⟨← dispatch it k t, some t⟩

def loopHead (it : Iteration) (s : RtosMain) : KernelData :=
  chargeSystemTime (tick s.kernel it.headTicks) s.currentTask

def loopBody (it : Iteration) (s : RtosMain) : Result RtosMain := do
  let k := loopHead it s
  let (sched, currentTask) ← schedule k.schedulerStructure k.tds
  afterSchedule it k sched currentTask

structure Boot where
  stackTop : Word
  initTask : Word
  firstTaskFn : Word
  memory : Memory

def kernelInit (b : Boot) : KernelData where
  tds := initializeTds b.stackTop
  schedulerStructure := schedulerInit
  nameserverTid := 0
  eventData := ⟨fun _ ↦ ⟨0, none, .invalid, 0⟩, fun _ ↦ none, fun _ ↦ none⟩
  systemMicroCount := 0
  stackBase := b.stackTop
  memory := b.memory

def createFirstTask (k : KernelData) (initTask firstTaskFn : Word) : Result KernelData :=
  let params := { setupDefaultCreateParameters initTask with parentId := 0, priority := 0 }
  match createTask k.tds k.memory params with
  | none => .error .nullPointer
  | some (td, tds, memory) => do
    let k := { k with tds := tds, memory := memory }.setReturnValue td firstTaskFn
    let s ← schedulerAdd k.schedulerStructure k.tds (some td)
    .ok { k with schedulerStructure := s }

def boot (b : Boot) : Result RtosMain := do
  .ok ⟨← createFirstTask (kernelInit b) b.initTask b.firstTaskFn, none⟩

end PrjOS
