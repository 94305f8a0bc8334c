import PrjOS.KernelData

namespace PrjOS

open ByteMemory Function LinkedQueue

def schedulerInit : SchedulerStructure where
  queueHeads := fun _ ↦ none
  queueTails := fun _ ↦ none
  allTasks := fun i ↦ ⟨i, none⟩

def getSchedulerTask (s : SchedulerStructure) (td : TdPtr) : Result NodePtr :=
  match (List.finRange 16).find? (fun i ↦ (s.allTasks i).td = td) with
  | some node => .ok node
  | none => .error .unknownTask

namespace SchedulerStructure

def setNext (s : SchedulerStructure) (node : NodePtr) (next : Option NodePtr) :
    SchedulerStructure :=
  { s with allTasks := update s.allTasks node { s.allTasks node with next := next } }

def setHead (s : SchedulerStructure) (i : Priority) (node : Option NodePtr) : SchedulerStructure :=
  { s with queueHeads := update s.queueHeads i node }

def setTail (s : SchedulerStructure) (i : Priority) (node : Option NodePtr) : SchedulerStructure :=
  { s with queueTails := update s.queueTails i node }

def append (s : SchedulerStructure) (i : Priority) (node : NodePtr) : SchedulerStructure :=
  let s := s.setNext node none
  match s.queueTails i with
  | none => (s.setHead i (some node)).setTail i (some node)
  | some tail => (s.setNext tail (some node)).setTail i (some node)

def unlink (s : SchedulerStructure) (i : Priority) (last : Option NodePtr) (current : NodePtr) :
    SchedulerStructure :=
  let next := (s.allTasks current).next
  match last with
  | none =>
    let s := s.setHead i next
    if next = none then s.setTail i none else s
  | some last =>
    let s := s.setNext last next
    if next = none then s.setTail i (some last) else s

end SchedulerStructure

/-- The priority is narrowed to `uint8_t` before it is used as an index. -/
def schedulerAdd (s : SchedulerStructure) (tds : TdPtr → TaskDescriptor) (td : Option TdPtr) :
    Result SchedulerStructure :=
  match td with
  | none => .ok s
  | some td => do
    let pri := (tds td).priority.toNat % 256
    let schedTask ← getSchedulerTask s td
    if h : pri < 7 then .ok (s.append ⟨pri, h⟩ schedTask) else .error (.queueIndex pri)

/-- The inner loop of `schedule`: the first ready node and the node before
it. The loop runs at most `fuel` times. -/
def searchQueue (s : SchedulerStructure) (tds : TdPtr → TaskDescriptor) :
    Nat → Option NodePtr → Option NodePtr → Result (Option (Option NodePtr × NodePtr))
  | _, _, none => .ok none
  | 0, _, some _ => .error .scheduleSpin
  | fuel + 1, last, some current =>
    if isTaskReady (tds (s.allTasks current).td) then .ok (some (last, current))
    else searchQueue s tds fuel (some current) (s.allTasks current).next

def scheduleFrom (s : SchedulerStructure) (tds : TdPtr → TaskDescriptor) :
    List Priority → Result (SchedulerStructure × Option TdPtr)
  | [] => .ok (s, none)
  | i :: rest =>
    match searchQueue s tds 16 none (s.queueHeads i) with
    | .error e => .error e
    | .ok none => scheduleFrom s tds rest
    | .ok (some (last, current)) =>
      .ok (s.unlink i last current, some (s.allTasks current).td)

def schedule (s : SchedulerStructure) (tds : TdPtr → TaskDescriptor) :
    Result (SchedulerStructure × Option TdPtr) :=
  scheduleFrom s tds (List.finRange 7)

/-- Each place in `allTasks` is for the descriptor with the same index. -/
def SchedulerStructure.Nodes (s : SchedulerStructure) : Prop := ∀ i, (s.allTasks i).td = i

namespace SchedulerStructure

variable {s : SchedulerStructure}

theorem Nodes.setNext (h : s.Nodes) (node : NodePtr) (next : Option NodePtr) :
    (s.setNext node next).Nodes := by
  intro i
  by_cases hi : i = node
  · subst hi
    simpa [SchedulerStructure.setNext] using h i
  · simpa [SchedulerStructure.setNext, hi] using h i

theorem Nodes.append (h : s.Nodes) (i : Priority) (node : NodePtr) : (s.append i node).Nodes := by
  unfold SchedulerStructure.append
  simp only
  split
  · exact h.setNext node none
  · exact (h.setNext node none).setNext _ _

theorem Nodes.unlink (h : s.Nodes) (i : Priority) (last : Option NodePtr) (current : NodePtr) :
    (s.unlink i last current).Nodes := by
  unfold SchedulerStructure.unlink
  simp only
  split
  · split_ifs <;> exact h
  · split_ifs <;> exact h.setNext _ _

end SchedulerStructure

theorem getSchedulerTask_eq {s : SchedulerStructure} (h : s.Nodes) (td : TdPtr) :
    getSchedulerTask s td = .ok td := by
  have hfind : ∀ td : Fin 16, (List.finRange 16).find? (fun i ↦ i = td) = some td := by decide
  unfold getSchedulerTask
  simp only [h _, hfind]

/-- The only way in which `schedulerAdd` can fail. -/
theorem schedulerAdd_eq {s : SchedulerStructure} (h : s.Nodes) (tds : TdPtr → TaskDescriptor)
    (td : TdPtr) : schedulerAdd s tds (some td) =
      if h : (tds td).priority.toNat % 256 < 7 then .ok (s.append ⟨_, h⟩ td)
      else .error (.queueIndex ((tds td).priority.toNat % 256)) := by
  simp only [schedulerAdd, getSchedulerTask_eq h, bind, Except.bind]

theorem scheduleFrom_nodes {s s' : SchedulerStructure} {tds : TdPtr → TaskDescriptor}
    {is : List Priority} {t : Option TdPtr} (hn : s.Nodes)
    (h : scheduleFrom s tds is = .ok (s', t)) : s'.Nodes := by
  induction is with
  | nil =>
    simp only [scheduleFrom, Except.ok.injEq, Prod.mk.injEq] at h
    exact h.1 ▸ hn
  | cons i is ih =>
    rw [scheduleFrom] at h
    split at h
    · simp at h
    · exact ih h
    · simp only [Except.ok.injEq, Prod.mk.injEq] at h
      exact h.1 ▸ hn.unlink _ _ _

theorem schedule_nodes {s s' : SchedulerStructure} {tds : TdPtr → TaskDescriptor}
    {t : Option TdPtr} (hn : s.Nodes) (h : schedule s tds = .ok (s', t)) : s'.Nodes :=
  scheduleFrom_nodes hn h

theorem searchQueue_ready {s : SchedulerStructure} {tds : TdPtr → TaskDescriptor} {fuel : Nat}
    {last node last' : Option NodePtr} {current : NodePtr}
    (h : searchQueue s tds fuel last node = .ok (some (last', current))) :
    isTaskReady (tds (s.allTasks current).td) = true := by
  induction fuel generalizing last node with
  | zero => cases node <;> simp [searchQueue] at h
  | succ fuel ih =>
    cases node with
    | none => simp [searchQueue] at h
    | some node =>
      rw [searchQueue] at h
      split_ifs at h with hready
      · simp only [Except.ok.injEq, Option.some.injEq, Prod.mk.injEq] at h
        obtain ⟨-, rfl⟩ := h
        exact hready
      · exact ih h

theorem scheduleFrom_ready {s s' : SchedulerStructure} {tds : TdPtr → TaskDescriptor}
    {is : List Priority} {t : TdPtr} (h : scheduleFrom s tds is = .ok (s', some t)) :
    isTaskReady (tds t) = true := by
  induction is with
  | nil => simp [scheduleFrom] at h
  | cons i is ih =>
    rw [scheduleFrom] at h
    split at h
    · simp at h
    · exact ih h
    · rename_i hsearch
      simp only [Except.ok.injEq, Prod.mk.injEq, Option.some.injEq] at h
      obtain ⟨-, rfl⟩ := h
      exact searchQueue_ready hsearch

theorem schedule_ready {s s' : SchedulerStructure} {tds : TdPtr → TaskDescriptor} {t : TdPtr}
    (h : schedule s tds = .ok (s', some t)) : isTaskReady (tds t) = true :=
  scheduleFrom_ready h

end PrjOS
