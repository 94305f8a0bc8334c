import PrjOS.KernelData

namespace PrjOS

open ByteMemory Function

def errCreateInvalPriority : Word := -1
def errCreateNoSpace : Word := -2

def sysGetTid (active : TdPtr) (k : KernelData) : KernelData × Word :=
  (k.setTaskReady active, (k.tds active).taskId)

def sysGetParentTid (active : TdPtr) (k : KernelData) : KernelData × Word :=
  (k.setTaskReady active, (k.tds active).parentId)

def sysYield (active : TdPtr) (k : KernelData) : KernelData × Word :=
  (k.setTaskReady active, 0)

def sysExit (active : TdPtr) (k : KernelData) : KernelData × Word :=
  (k.taskExit active, 0)

/-- The range check that both kinds of creation make: no unsigned number is
below zero, so it never fails. -/
def checkPriority (priority : Word) (params : TaskCreateParameters) :
    Except Word TaskCreateParameters :=
  if priority < 0 ∧ tasksMaxPriority ≤ priority.toNat then .error errCreateInvalPriority
  else .ok { params with priority := priority }

def sysCreate (active : TdPtr) (k : KernelData) : Except Word TaskCreateParameters :=
  checkPriority (k.tds active).systemCall.param1
    { setupDefaultCreateParameters (k.tds active).systemCall.param2 with
      parentId := (k.tds active).taskId
      taskType := .regular }

/-- Microtasks inherit the priority of their creator. -/
def sysCreateMicroTask (active : TdPtr) (k : KernelData) : Except Word TaskCreateParameters :=
  checkPriority (k.tds active).priority
    { setupDefaultCreateParameters (k.tds active).systemCall.param1 with
      parentId := (k.tds active).taskId
      taskType := .micro }

def sysChangePriority (active : TdPtr) (k : KernelData) : KernelData × Word :=
  let k := k.setTaskReady active
  let newPriority := (k.tds active).systemCall.param1
  let k := if newPriority.toNat < tasksMaxPriority then
      k.modify active fun td ↦ { td with priority := newPriority }
    else k
  (k, (k.tds active).priority)

def sysWhoIsNs (active : TdPtr) (k : KernelData) : KernelData × Word :=
  (k.setTaskReady active, k.nameserverTid)

def sysRegisterNs (active : TdPtr) (k : KernelData) : KernelData × Word :=
  let k := k.setTaskReady active
  ({ k with nameserverTid := (k.tds active).systemCall.param1 }, 0)

def writeHalf (m : Memory) (a : Word) (v : Nat) : Memory :=
  store m a 2 (byteOf (BitVec.ofNat 32 v))

def writeByte (m : Memory) (a : Word) (v : Word) : Memory := store m a 1 (byteOf v)

def writeDouble (m : Memory) (a : Word) (v : BitVec 64) : Memory :=
  writeWord (writeWord m a (v.extractLsb' 0 32)) (a + 4#32) (v.extractLsb' 32 32)

def metaRequestTasksInfo : Word := 1
def metaRequestTotalRam : Word := 2
def metaRequestUsedRam : Word := 3
def metaRequestTaskInfo : Word := 4

/-- `_meta_ram_start` and `_meta_ram_end` of the linker script. -/
def metaRamStart : Word := 0x20000000#32
def metaRamEnd : Word := 0x20008000#32

def taskField {n : Nat} (tds : TdPtr → TaskDescriptor) (tid : Word)
    (f : TaskDescriptor → BitVec n) : BitVec n :=
  match findTd tid tds with
  | none => 0
  | some i => f (tds i)

def writeTasksInfo (m : Memory) (tds : TdPtr → TaskDescriptor) (result : Word) : Memory :=
  let m := writeHalf m (result + 14#32) kernelNumberOfMicrotasks
  let m := writeHalf m (result + 12#32) kernelNumberOfTasks
  let m := writeWord m (result + 8#32) kernelMicrotaskDefaultStackSize
  let m := writeWord m (result + 4#32) kernelTaskDefaultStackSize
  let m := writeHalf m (result + 2#32) (getNumMicroTasks tds)
  writeHalf m result (getNumRegularTasks tds)

def writeTaskInfo (m : Memory) (tds : TdPtr → TaskDescriptor) (result taskId : Word) : Memory :=
  let m := writeWord m result taskId
  let m := writeWord m (result + 16#32) (taskField tds taskId fun td ↦ td.parentId)
  let m := writeWord m (result + 4#32) (taskField tds taskId fun td ↦ td.stackBase)
  let m := writeWord m (result + 8#32) (taskField tds taskId fun td ↦ td.stackPointer)
  let m := writeByte m (result + 12#32) (taskField tds taskId fun td ↦ td.state.code)
  let m := writeByte m (result + 20#32) (taskField tds taskId fun td ↦ td.taskType.code)
  let m := writeDouble m (result + 24#32) (taskField tds taskId fun td ↦ td.contextSwitchCount)
  let m := writeDouble m (result + 32#32) (taskField tds taskId fun td ↦ td.systemTimeMicros)
  writeDouble m (result + 40#32) (taskField tds taskId fun td ↦ td.userTimeMicros)

def sysMetaInfo (active : TdPtr) (k : KernelData) : KernelData × Word :=
  let k := k.setTaskReady active
  let request := (k.tds active).systemCall.param1
  let requestType := readWord k.memory request
  let taskId := readWord k.memory (request + 4#32)
  let extendedResult := readWord k.memory (request + 8#32)
  if requestType = metaRequestTasksInfo then
    ({ k with memory := writeTasksInfo k.memory k.tds extendedResult }, 0)
  else if requestType = metaRequestTaskInfo then
    ({ k with memory := writeTaskInfo k.memory k.tds extendedResult taskId }, -1)
  else if requestType = metaRequestTotalRam then (k, metaRamEnd - metaRamStart)
  else if requestType = metaRequestUsedRam then
    (k, BitVec.ofNat 32 (getNumRegularTasks k.tds) * kernelTaskDefaultStackSize +
      BitVec.ofNat 32 (getNumMicroTasks k.tds) * kernelMicrotaskDefaultStackSize)
  else (k, -1)

def sysGetMonotonicMicros (active : TdPtr) (k : KernelData) : KernelData × Word :=
  let k := k.setTaskReady active
  let timeDest := (k.tds active).systemCall.param1
  ({ k with memory := writeDouble k.memory timeDest k.systemMicroCount }, 0)

end PrjOS
