import PrjOS.Task
import PrjOS.Library.LinkedQueue

namespace PrjOS

open ByteMemory Function LinkedQueue

/-- Ways in which the kernel stops making progress: a hardware fault, an
index outside an array, or one of its own endless loops. -/
inductive Fault
  | nullPointer
  | queueIndex (pri : Nat)
  | unknownTask
  | scheduleSpin
  | kernelStack
  deriving DecidableEq, Repr

abbrev Result := Except Fault

abbrev Priority := Fin 7

instance instNeZeroPriority : NeZero 7 := ⟨by decide⟩

/-- A place in `SchedulerStructure.allTasks`. -/
abbrev NodePtr := Fin 16

structure SchedulerTask where
  td : TdPtr
  next : Option NodePtr
  deriving DecidableEq

structure SchedulerStructure where
  queueHeads : Priority → Option NodePtr
  queueTails : Priority → Option NodePtr
  allTasks : NodePtr → SchedulerTask

def eventsNumEvents : Nat := 8
def eventsNumTypes : Nat := 8

abbrev EventId := Fin 8

instance instNeZeroEvents : NeZero 8 := ⟨by decide⟩

/-- A place in `EventData.eventList`. -/
abbrev QueryPtr := Fin 8

inductive EventState
  | invalid | valid
  deriving DecidableEq, Repr

structure EventQuery where
  waitingTid : Word
  nextQuery : Option QueryPtr
  state : EventState
  eventId : EventId
  deriving DecidableEq

structure EventData where
  eventList : QueryPtr → EventQuery
  eventQueueHead : EventId → Option QueryPtr
  eventQueueTail : EventId → Option QueryPtr

/-- The kernel's data and the memory of the tasks. Tasks do not reach the
kernel's data. -/
structure KernelData where
  tds : TdPtr → TaskDescriptor
  schedulerStructure : SchedulerStructure
  nameserverTid : Word
  eventData : EventData
  systemMicroCount : BitVec 64
  stackBase : Word
  memory : Memory

namespace KernelData

def modify (k : KernelData) (i : TdPtr) (f : TaskDescriptor → TaskDescriptor) : KernelData :=
  { k with tds := update k.tds i (f (k.tds i)) }

def setState (k : KernelData) (i : TdPtr) (s : TaskState) : KernelData :=
  k.modify i fun td ↦ { td with state := s }

def setReturnValue (k : KernelData) (i : TdPtr) (v : Word) : KernelData :=
  k.modify i fun td ↦ { td with systemCall := { td.systemCall with returnValue := v } }

def setTaskReady (k : KernelData) (i : TdPtr) : KernelData := k.setState i .running

def taskExit (k : KernelData) (i : TdPtr) : KernelData := k.setState i .exited

def taskKill (k : KernelData) (i : TdPtr) : KernelData := k.setState i .killed

def copy (k : KernelData) (dest src size : Word) : KernelData :=
  { k with memory := memcpy k.memory dest src size.toNat }

def write (k : KernelData) (a w : Word) : KernelData :=
  { k with memory := writeWord k.memory a w }

@[simp] theorem modify_self (k : KernelData) (i : TdPtr) (f : TaskDescriptor → TaskDescriptor) :
    (k.modify i f).tds i = f (k.tds i) := update_self ..

@[simp] theorem modify_of_ne (k : KernelData) {i j : TdPtr} (f : TaskDescriptor → TaskDescriptor)
    (h : j ≠ i) : (k.modify i f).tds j = k.tds j := update_of_ne h ..

@[simp] theorem modify_memory (k : KernelData) (i : TdPtr) (f : TaskDescriptor → TaskDescriptor) :
    (k.modify i f).memory = k.memory := rfl

@[simp] theorem modify_eventData (k : KernelData) (i : TdPtr)
    (f : TaskDescriptor → TaskDescriptor) : (k.modify i f).eventData = k.eventData := rfl

@[simp] theorem modify_schedulerStructure (k : KernelData) (i : TdPtr)
    (f : TaskDescriptor → TaskDescriptor) :
    (k.modify i f).schedulerStructure = k.schedulerStructure := rfl

theorem ne_of_state {k : KernelData} {i j : TdPtr} {s s' : TaskState}
    (hi : (k.tds i).state = s) (hj : (k.tds j).state = s') (h : s ≠ s') : i ≠ j := by
  rintro rfl
  exact h (hi.symm.trans hj)

theorem modify_modify (k : KernelData) (i : TdPtr) (f g : TaskDescriptor → TaskDescriptor) :
    (k.modify i f).modify i g = k.modify i (fun td ↦ g (f td)) := by
  simp [modify]

theorem modify_comm (k : KernelData) {i j : TdPtr} (h : i ≠ j)
    (f g : TaskDescriptor → TaskDescriptor) :
    (k.modify i f).modify j g = (k.modify j g).modify i f := by
  simp [modify, update_of_ne h, update_of_ne h.symm, update_comm h]

def sendQueues (k : KernelData) : Queues TdPtr TdPtr where
  head := fun i ↦ (k.tds i).sendQueueHead
  tail := fun i ↦ (k.tds i).sendQueueTail
  next := fun i ↦ (k.tds i).sendQueueNext

def withSendQueues (k : KernelData) (q : Queues TdPtr TdPtr) : KernelData :=
  { k with tds := fun i ↦ { k.tds i with
      sendQueueHead := q.head i
      sendQueueTail := q.tail i
      sendQueueNext := q.next i } }

@[simp] theorem sendQueues_withSendQueues (k : KernelData) (q : Queues TdPtr TdPtr) :
    (k.withSendQueues q).sendQueues = q := rfl

end KernelData

def EventData.queues (e : EventData) : Queues EventId QueryPtr where
  head := e.eventQueueHead
  tail := e.eventQueueTail
  next := fun x ↦ (e.eventList x).nextQuery

def SchedulerStructure.queues (s : SchedulerStructure) : Queues Priority NodePtr where
  head := s.queueHeads
  tail := s.queueTails
  next := fun x ↦ (s.allTasks x).next

end PrjOS
