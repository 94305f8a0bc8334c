import PrjOS.Library.Memory
import Mathlib.Data.List.FinRange

namespace PrjOS

open ByteMemory Function

/-- A task descriptor is named by its place in the kernel's array. A null
pointer is `none`. -/
abbrev TdPtr := Fin 16

instance instNeZeroTds : NeZero 16 := ⟨by decide⟩

def kernelStackSize : Word := 0x2000#32
def kernelNumberOfTasks : Nat := 8
def kernelNumberOfMicrotasks : Nat := 8
def kernelTaskDefaultStackSize : Word := 0x900#32
def kernelMicrotaskDefaultStackSize : Word := 0x200#32
def tasksMaxPriority : Nat := 7

def tasksIdGenerationMask : Word := 0xFFFFF000#32
def tasksIdGenerationIncrement : Word := 0x00001000#32
def tasksIdGenerationShiftbits : Nat := 12
def tasksIdIndexMask : Word := 0x00000FFF#32
def tasksIdInvalid : Word := 0#32

inductive TaskState
  | invalid | running | exited | rcvdBlk | sendBlk | rplyBlk | evtBlk | syscallBlk | hwint | killed
  deriving DecidableEq, Repr

/-- The number that `TaskDescriptor.state` holds in memory. -/
def TaskState.code : TaskState → Word
  | invalid => 0
  | running => 1
  | exited => 2
  | rcvdBlk => 3
  | sendBlk => 4
  | rplyBlk => 5
  | evtBlk => 6
  | syscallBlk => 7
  | hwint => 8
  | killed => 9

/-- `unset` is what `memset` leaves until `reinitializeTd` has run. -/
inductive TaskType
  | unset | regular | micro
  deriving DecidableEq, Repr

def TaskType.code : TaskType → Word
  | unset => 0
  | regular => 1
  | micro => 2

structure SystemCall where
  syscall : Word
  returnValue : Word
  param1 : Word
  param2 : Word
  param3 : Word
  param4 : Word
  param5 : Word
  param6 : Word
  deriving DecidableEq

structure TaskDescriptor where
  taskId : Word
  parentId : Word
  stackPointer : Word
  systemCall : SystemCall
  state : TaskState
  priority : Word
  taskType : TaskType
  sendQueueNext : Option TdPtr
  sendQueueHead : Option TdPtr
  sendQueueTail : Option TdPtr
  stackBase : Word
  maxStackSize : Word
  contextSwitchCount : BitVec 64
  systemTimeMicros : BitVec 64
  systemTimeEntryMicros : BitVec 64
  userTimeMicros : BitVec 64
  userTimeEntryMicros : BitVec 64
  deriving DecidableEq

/-- What `memset(td, 0, sizeof(TaskDescriptor))` leaves. -/
def TaskDescriptor.zero : TaskDescriptor where
  taskId := 0
  parentId := 0
  stackPointer := 0
  systemCall := ⟨0, 0, 0, 0, 0, 0, 0, 0⟩
  state := .invalid
  priority := 0
  taskType := .unset
  sendQueueNext := none
  sendQueueHead := none
  sendQueueTail := none
  stackBase := 0
  maxStackSize := 0
  contextSwitchCount := 0
  systemTimeMicros := 0
  systemTimeEntryMicros := 0
  userTimeMicros := 0
  userTimeEntryMicros := 0

structure TaskCpuCreateParameters where
  regs : Fin 13 → Word
  startFunction : Word
  exceptionReturn : Word
  iapsr : Word

structure TaskCreateParameters where
  parentId : Word
  stackPointer : Word
  priority : Word
  taskType : TaskType
  cpuSpecific : TaskCpuCreateParameters

def cpuSetupTaskDefaultParameters (startFunction : Word) : TaskCpuCreateParameters where
  regs := fun r ↦ BitVec.ofNat 32 r
  startFunction := startFunction
  exceptionReturn := 0xFFFFFFFD#32
  iapsr := 0

def setupDefaultCreateParameters (taskEntry : Word) : TaskCreateParameters where
  parentId := 0
  stackPointer := 0
  priority := 0
  taskType := .regular
  cpuSpecific := cpuSetupTaskDefaultParameters taskEntry

def alignWord (a : Word) : Word := a &&& ~~~3#32

/-- `*(--newStack) = w` -/
def pushWord (s : Word × Memory) (w : Word) : Word × Memory :=
  (s.1 - 4#32, writeWord s.2 (s.1 - 4#32) w)

/-- The first frame of a task: six dummy words, then the exception frame and
the registers that the context switch pops. -/
def cpuCreateTask (stackLocation : Word) (m : Memory) (parms : TaskCreateParameters) :
    Word × Memory :=
  let cpu := parms.cpuSpecific
  [0, 0, 0, 0, 0, 0, 0x01000000#32, cpu.startFunction, 0xFFFFFFFF#32, cpu.regs 12, cpu.regs 3,
    cpu.regs 2, cpu.regs 1, cpu.regs 0, cpu.exceptionReturn, cpu.regs 11, cpu.regs 10, cpu.regs 9,
    cpu.regs 8, cpu.regs 7, cpu.regs 6, cpu.regs 5, cpu.regs 4].foldl pushWord
      (alignWord stackLocation, m)

def stackSizeOf : TaskType → Word
  | .regular => kernelTaskDefaultStackSize
  | .micro => kernelMicrotaskDefaultStackSize
  | .unset => 0

/-- The stack area that `reinitializeTd` gives to the descriptor with index
`idx`, below the kernel's own stack. -/
def stackArea (idx : Nat) (stackBase : Word) : TaskType × Word × Word :=
  if idx < kernelNumberOfTasks then
    (.regular, alignWord (stackBase -
      (kernelStackSize + BitVec.ofNat 32 idx * kernelTaskDefaultStackSize)),
      kernelTaskDefaultStackSize)
  else
    (.micro, alignWord (stackBase - (kernelStackSize +
      BitVec.ofNat 32 kernelNumberOfTasks * kernelTaskDefaultStackSize +
      BitVec.ofNat 32 (idx - kernelNumberOfTasks) * kernelMicrotaskDefaultStackSize)),
      kernelMicrotaskDefaultStackSize)

def reinitializeTd (td : TaskDescriptor) (stackBase : Word) : TaskDescriptor :=
  let area := if stackBase ≠ 0 then stackArea (td.taskId &&& tasksIdIndexMask).toNat stackBase
    else (td.taskType, td.stackBase, stackSizeOf td.taskType)
  { TaskDescriptor.zero with
    taskType := area.1
    taskId := td.taskId
    stackPointer := area.2.1
    stackBase := area.2.1
    maxStackSize := area.2.2
    state := .invalid }

def initializeTds (stackBase : Word) : TdPtr → TaskDescriptor := fun i ↦
  reinitializeTd { TaskDescriptor.zero with taskId := BitVec.ofNat 32 i } stackBase

def isTaskReady (td : TaskDescriptor) : Bool :=
  match td.state with
  | .running | .hwint => true
  | _ => false

def isTdAvailable (td : TaskDescriptor) : Bool :=
  match td.state with
  | .invalid | .exited | .killed => true
  | _ => false

def hasExited (td : TaskDescriptor) : Bool :=
  match td.state with
  | .exited | .killed => true
  | _ => false

def taskStackOverflow (td : TaskDescriptor) : Bool :=
  decide (td.maxStackSize < td.stackBase - td.stackPointer)

def findTd (tid : Word) (tdList : TdPtr → TaskDescriptor) : Option TdPtr :=
  let tdIndex := (tid &&& tasksIdIndexMask).toNat
  if h : tdIndex < 16 then
    if (tdList ⟨tdIndex, h⟩).taskId = tid then some ⟨tdIndex, h⟩ else none
  else none

def typeRange : TaskType → TdPtr → Bool
  | .regular, i => decide (i.val ≤ kernelNumberOfTasks - 1)
  | .micro, i => decide (kernelNumberOfTasks ≤ i.val ∧
      i.val ≤ kernelNumberOfMicrotasks + kernelNumberOfTasks - 1)
  | .unset, _ => false

def findAvailable (tds : TdPtr → TaskDescriptor) (taskType : TaskType) : Option TdPtr :=
  (List.finRange 16).find? (fun i ↦ typeRange taskType i && isTdAvailable (tds i))

def newTask (td : TaskDescriptor) (m : Memory) (parms : TaskCreateParameters) :
    TaskDescriptor × Memory :=
  let td := reinitializeTd td 0
  let stackPointer := if parms.stackPointer ≠ 0 then parms.stackPointer else td.stackPointer
  let frame := cpuCreateTask stackPointer m parms
  ({ td with
      taskId := td.taskId + tasksIdGenerationIncrement
      parentId := parms.parentId
      stackPointer := frame.1
      state := .running
      priority := parms.priority }, frame.2)

def createTask (tds : TdPtr → TaskDescriptor) (m : Memory) (parms : TaskCreateParameters) :
    Option (TdPtr × (TdPtr → TaskDescriptor) × Memory) :=
  (findAvailable tds parms.taskType).map fun i ↦
    (i, update tds i (newTask (tds i) m parms).1, (newTask (tds i) m parms).2)

def getNumRegularTasks (tdList : TdPtr → TaskDescriptor) : Nat :=
  (List.finRange 16).countP (fun i ↦ decide (i.val < kernelNumberOfTasks) &&
    !isTdAvailable (tdList i))

def getNumMicroTasks (tdList : TdPtr → TaskDescriptor) : Nat :=
  (List.finRange 16).countP (fun i ↦ decide (kernelNumberOfTasks ≤ i.val) &&
    !isTdAvailable (tdList i))

theorem findTd_eq_some {tid : Word} {tds : TdPtr → TaskDescriptor} {i : TdPtr} :
    findTd tid tds = some i ↔
      (tds i).taskId = tid ∧ (tid &&& tasksIdIndexMask).toNat = i.val := by
  unfold findTd
  simp only
  split
  · rename_i h
    split
    · rename_i hid
      constructor
      · intro he
        obtain rfl := Option.some.inj he
        exact ⟨hid, rfl⟩
      · rintro ⟨_, hi⟩
        exact congrArg some (Fin.ext hi)
    · rename_i hid
      refine ⟨fun he ↦ by simp at he, fun ⟨hid', hi⟩ ↦ absurd ?_ hid⟩
      rwa [show (⟨_, h⟩ : TdPtr) = i from Fin.ext hi]
  · rename_i h
    refine ⟨fun he ↦ by simp at he, fun ⟨_, hi⟩ ↦ absurd ?_ h⟩
    rw [hi]; exact i.isLt

theorem findAvailable_some {tds : TdPtr → TaskDescriptor} {taskType : TaskType} {i : TdPtr}
    (h : findAvailable tds taskType = some i) :
    typeRange taskType i = true ∧ isTdAvailable (tds i) = true := by
  simpa only [Bool.and_eq_true] using List.find?_some h

/-- A task in a call does not get its own descriptor for a new task. -/
theorem findAvailable_ne {tds : TdPtr → TaskDescriptor} {taskType : TaskType} {i t : TdPtr}
    (h : findAvailable tds taskType = some i) (ht : (tds t).state = .syscallBlk) : i ≠ t := by
  rintro rfl
  have havailable := (findAvailable_some h).2
  rw [isTdAvailable, ht] at havailable
  exact absurd havailable (by decide)

theorem findAvailable_none {tds : TdPtr → TaskDescriptor} {taskType : TaskType} :
    findAvailable tds taskType = none ↔
      ∀ i, typeRange taskType i = true → isTdAvailable (tds i) = false := by
  simp [findAvailable, List.find?_eq_none]

/-- Slot `i` keeps index `i` in its id, whatever its generation. -/
def IdsIndexed (tds : TdPtr → TaskDescriptor) : Prop :=
  ∀ i, ((tds i).taskId &&& tasksIdIndexMask).toNat = i.val

theorem IdsIndexed.find {tds : TdPtr → TaskDescriptor} (h : IdsIndexed tds) {tid : Word}
    {i : TdPtr} : findTd tid tds = some i ↔ (tds i).taskId = tid := by
  rw [findTd_eq_some]
  refine ⟨And.left, fun he ↦ ⟨he, ?_⟩⟩
  rw [← he]; exact h i

theorem IdsIndexed.inj {tds : TdPtr → TaskDescriptor} (h : IdsIndexed tds) {i j : TdPtr}
    (he : (tds i).taskId = (tds j).taskId) : i = j := by
  have hi := h i
  rw [he, h j] at hi
  exact (Fin.ext hi).symm

theorem index_toNat (w : Word) : (w &&& tasksIdIndexMask).toNat = w.toNat % 4096 := by
  rw [BitVec.toNat_and]
  exact Nat.and_two_pow_sub_one_eq_mod w.toNat 12

theorem next_generation_index (w : Word) :
    (w + tasksIdGenerationIncrement &&& tasksIdIndexMask).toNat =
      (w &&& tasksIdIndexMask).toNat := by
  rw [index_toNat, index_toNat, BitVec.toNat_add]
  simp only [tasksIdGenerationIncrement, BitVec.toNat_ofNat]
  omega

theorem newTask_taskId (td : TaskDescriptor) (m : Memory) (parms : TaskCreateParameters) :
    (newTask td m parms).1.taskId = td.taskId + tasksIdGenerationIncrement := rfl

theorem reinitializeTd_zero (td : TaskDescriptor) : reinitializeTd td 0 =
    { TaskDescriptor.zero with
      taskType := td.taskType
      taskId := td.taskId
      stackPointer := td.stackBase
      stackBase := td.stackBase
      maxStackSize := stackSizeOf td.taskType } := by
  simp [reinitializeTd, TaskDescriptor.zero]

/-- What a new task takes over from its descriptor. -/
theorem newTask_kept (td : TaskDescriptor) (m : Memory) (parms : TaskCreateParameters) :
    (newTask td m parms).1.taskType = td.taskType ∧
      (newTask td m parms).1.stackBase = td.stackBase ∧
      (newTask td m parms).1.maxStackSize = stackSizeOf td.taskType := by
  rw [newTask, reinitializeTd_zero]
  exact ⟨rfl, rfl, rfl⟩

theorem createTask_eq_some {tds tds' : TdPtr → TaskDescriptor} {m m' : Memory}
    {parms : TaskCreateParameters} {i : TdPtr} (h : createTask tds m parms = some (i, tds', m')) :
    findAvailable tds parms.taskType = some i ∧
      tds' = update tds i (newTask (tds i) m parms).1 ∧ m' = (newTask (tds i) m parms).2 := by
  unfold createTask at h
  cases ha : findAvailable tds parms.taskType with
  | none => simp [ha] at h
  | some j =>
    simp only [ha, Option.map_some, Option.some.injEq, Prod.mk.injEq] at h
    obtain ⟨rfl, rfl, rfl⟩ := h
    exact ⟨rfl, rfl, rfl⟩

theorem initializeTds_indexed (stackBase : Word) : IdsIndexed (initializeTds stackBase) := by
  intro i
  have hi := i.isLt
  simp only [initializeTds, reinitializeTd, index_toNat, BitVec.toNat_ofNat]
  omega

end PrjOS
