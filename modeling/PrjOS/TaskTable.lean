import PrjOS.Syscall.Calls
import PrjOS.Library.Transition

namespace PrjOS

open ByteMemory Function Transition

structure TaskTable where
  tds : TdPtr → TaskDescriptor
  memory : Memory

/-- What uses and frees descriptors: the two calls that create a task, with
the caller's id, the priority and the entry point of the new task, `Exit`, and
the kill for a stack overflow. -/
inductive TaskOp
  | create (parentId priority entryPoint : Word)
  | createMicroTask (parentId priority entryPoint : Word)
  | exit (i : TdPtr)
  | kill (i : TdPtr)

def TaskOp.params : TaskOp → Option TaskCreateParameters
  | .create parentId priority entryPoint => some
    { setupDefaultCreateParameters entryPoint with
      parentId := parentId
      taskType := .regular
      priority := priority }
  | .createMicroTask parentId priority entryPoint => some
    { setupDefaultCreateParameters entryPoint with
      parentId := parentId
      taskType := .micro
      priority := priority }
  | .exit _ => none
  | .kill _ => none

namespace TaskTable

def initial (stackBase : Word) (memory : Memory) : TaskTable :=
  ⟨initializeTds stackBase, memory⟩

def setState (s : TaskTable) (i : TdPtr) (state : TaskState) : TaskTable :=
  { s with tds := update s.tds i { s.tds i with state := state } }

def create (s : TaskTable) (params : TaskCreateParameters) : TaskTable :=
  match createTask s.tds s.memory params with
  | none => s
  | some (_, tds, memory) => ⟨tds, memory⟩

def apply (s : TaskTable) (op : TaskOp) : TaskTable :=
  match op with
  | .exit i => s.setState i .exited
  | .kill i => s.setState i .killed
  | op => match op.params with
    | none => s
    | some params => s.create params

def Step (s : TaskTable) (op : TaskOp) (s' : TaskTable) : Prop := s' = s.apply op

end TaskTable

theorem sysCreate_params (k : KernelData) (active : TdPtr) :
    (sysCreate active k).toOption =
      (TaskOp.create (k.tds active).taskId (k.tds active).systemCall.param1
        (k.tds active).systemCall.param2).params := by
  simp [sysCreate, checkPriority, TaskOp.params, Except.toOption]

theorem sysCreateMicroTask_params (k : KernelData) (active : TdPtr) :
    (sysCreateMicroTask active k).toOption =
      (TaskOp.createMicroTask (k.tds active).taskId (k.tds active).priority
        (k.tds active).systemCall.param1).params := by
  simp [sysCreateMicroTask, checkPriority, TaskOp.params, Except.toOption]

/-- What an operation does: it puts a new task into an available descriptor,
or changes no more than the state of a descriptor. -/
inductive Applied (s : TaskTable) (op : TaskOp) : TaskTable → Prop
  | creates (params : TaskCreateParameters) (i : TdPtr) (tds : TdPtr → TaskDescriptor)
      (memory : Memory) : op.params = some params →
      createTask s.tds s.memory params = some (i, tds, memory) → Applied s op ⟨tds, memory⟩
  | keeps (s' : TaskTable) :
      (∀ params, op.params = some params → createTask s.tds s.memory params = none) →
      s'.memory = s.memory → (∀ i, ∃ state, s'.tds i = { s.tds i with state := state }) →
      Applied s op s'

theorem TaskTable.create_applied (s : TaskTable) {op : TaskOp} {params : TaskCreateParameters}
    (hp : op.params = some params) : Applied s op (s.create params) := by
  unfold TaskTable.create
  cases hc : createTask s.tds s.memory params with
  | none =>
    refine .keeps s (fun params' hp' ↦ ?_) rfl fun i ↦ ⟨_, rfl⟩
    rw [← Option.some.inj (hp.symm.trans hp')]
    exact hc
  | some r => exact .creates params _ _ _ hp hc

theorem TaskTable.setState_applied (s : TaskTable) {op : TaskOp} (hp : op.params = none)
    (i : TdPtr) (state : TaskState) : Applied s op (s.setState i state) := by
  refine .keeps _ (fun params hp' ↦ by simp [hp] at hp') rfl fun j ↦ ?_
  by_cases hj : j = i
  · subst hj
    exact ⟨state, update_self ..⟩
  · exact ⟨_, update_of_ne hj ..⟩

theorem TaskTable.apply_applied (s : TaskTable) (op : TaskOp) : Applied s op (s.apply op) := by
  cases op with
  | create parentId priority entryPoint => exact s.create_applied rfl
  | createMicroTask parentId priority entryPoint => exact s.create_applied rfl
  | exit i => exact s.setState_applied rfl i .exited
  | kill i => exact s.setState_applied rfl i .killed

end PrjOS
