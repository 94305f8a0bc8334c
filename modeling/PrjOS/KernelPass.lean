import PrjOS.SyscallEffect
import PrjOS.Library.Transition

namespace PrjOS

open ByteMemory Function Transition

/-- A descriptor without its time accounting. -/
def TaskDescriptor.core (td : TaskDescriptor) : TaskDescriptor :=
  { td with
    contextSwitchCount := 0
    systemTimeMicros := 0
    systemTimeEntryMicros := 0
    userTimeMicros := 0
    userTimeEntryMicros := 0 }

/-- Kernels with the same tasks and events: the clock, the time accounting,
the ready queues and the tasks' memory may differ. -/
structure SameTasks (k k' : KernelData) : Prop where
  core : ∀ i, (k'.tds i).core = (k.tds i).core
  eventData : k'.eventData = k.eventData

theorem SameTasks.refl (k : KernelData) : SameTasks k k := ⟨fun _ ↦ rfl, rfl⟩

theorem SameTasks.trans {k k' k'' : KernelData} (h : SameTasks k k') (h' : SameTasks k' k'') :
    SameTasks k k'' :=
  ⟨fun i ↦ (h'.core i).trans (h.core i), h'.eventData.trans h.eventData⟩

/-- The descriptor of a task that came back to the kernel, after the check
of its stack. -/
def Preemption.result (p : Preemption) (td : TaskDescriptor) : TaskDescriptor :=
  if taskStackOverflow (p.enter td) then { p.enter td with state := .killed } else p.enter td

theorem modify_core {k : KernelData} {t : TdPtr} {f : TaskDescriptor → TaskDescriptor}
    (h : ∀ td, (f td).core = td.core) : SameTasks k (k.modify t f) := by
  refine ⟨fun i ↦ ?_, rfl⟩
  by_cases hi : i = t
  · subst hi
    rw [KernelData.modify_self, h]
  · rw [KernelData.modify_of_ne _ _ hi]

theorem tick_same (k : KernelData) (n : Nat) : SameTasks k (tick k n) := ⟨fun _ ↦ rfl, rfl⟩

theorem enterUser_same (k : KernelData) (t : TdPtr) : SameTasks k (enterUser k t) :=
  modify_core fun _ ↦ rfl

theorem leaveUser_same (k : KernelData) (t : TdPtr) (reason : Word) :
    SameTasks k (leaveUser k t reason) := modify_core fun _ ↦ rfl

theorem chargeSystemTime_same (k : KernelData) (currentTask : Option TdPtr) :
    SameTasks k (chargeSystemTime k currentTask) := by
  unfold chargeSystemTime
  split
  · exact .refl k
  · split_ifs
    · exact modify_core fun _ ↦ rfl
    · exact .refl k

theorem loopHead_same (it : Iteration) (s : RtosMain) : SameTasks s.kernel (loopHead it s) :=
  (tick_same _ _).trans (chargeSystemTime_same _ _)

theorem loopHead_scheduler (it : Iteration) (s : RtosMain) :
    (loopHead it s).schedulerStructure = s.kernel.schedulerStructure := by
  unfold loopHead chargeSystemTime
  split
  · rfl
  · split_ifs <;> rfl

theorem Preemption.enter_core {td td' : TaskDescriptor} (p : Preemption)
    (h : td.core = td'.core) : (p.enter td).core = (p.enter td').core := by
  cases td; cases td'; cases p <;> simp_all [TaskDescriptor.core, Preemption.enter]

theorem taskStackOverflow_core {td td' : TaskDescriptor} (h : td.core = td'.core) :
    taskStackOverflow td = taskStackOverflow td' := by
  cases td; cases td'; simp_all [TaskDescriptor.core, taskStackOverflow]

theorem setState_core {td td' : TaskDescriptor} (s : TaskState) (h : td.core = td'.core) :
    ({ td with state := s } : TaskDescriptor).core = ({ td' with state := s }).core := by
  cases td; cases td'; simp_all [TaskDescriptor.core]

theorem Preemption.result_core {td td' : TaskDescriptor} (p : Preemption)
    (h : td.core = td'.core) : (p.result td).core = (p.result td').core := by
  have he := p.enter_core h
  unfold Preemption.result
  rw [taskStackOverflow_core he]
  split_ifs
  · exact setState_core .killed he
  · exact he

theorem SameTasks.modify {k k' : KernelData} (h : SameTasks k k') (t : TdPtr)
    {f : TaskDescriptor → TaskDescriptor}
    (hf : ∀ {td td' : TaskDescriptor}, td.core = td'.core → (f td).core = (f td').core) :
    SameTasks (k.modify t f) (k'.modify t f) := by
  refine ⟨fun i ↦ ?_, h.eventData⟩
  by_cases hi : i = t
  · subst hi
    simp only [KernelData.modify_self]
    exact hf (h.core i)
  · simp only [KernelData.modify_of_ne _ _ hi]
    exact h.core i

/-- Dispatching a task changes only its own descriptor: the context switch
fills it in and the overflow check may kill the task. -/
theorem runTask_same (it : Iteration) (k : KernelData) (t : TdPtr) :
    SameTasks (k.modify t it.preemption.result) (runTask it k t).1 := by
  have hin : SameTasks k { enterUser (tick k it.dispatchTicks) t with memory := it.memory } :=
    (tick_same _ _).trans ((enterUser_same _ _).trans ⟨fun _ ↦ rfl, rfl⟩)
  have hback := ((hin.modify t it.preemption.enter_core).trans (tick_same _ it.taskTicks)).trans
    (leaveUser_same _ t it.preemption.reason)
  have hself := hback.core t
  rw [KernelData.modify_self] at hself
  have hover := taskStackOverflow_core hself
  unfold runTask
  simp only
  split_ifs with h
  · have hkill := hback.modify t (f := fun td ↦ { td with state := .killed }) (setState_core _)
    rw [KernelData.modify_modify] at hkill
    have he : k.modify t it.preemption.result =
        k.modify t fun td ↦ { it.preemption.enter td with state := .killed } := by
      simp [KernelData.modify, Preemption.result, hover.symm.trans h]
    rw [he]
    exact hkill.trans (tick_same _ _)
  · have he : k.modify t it.preemption.result = k.modify t it.preemption.enter := by
      simp only [KernelData.modify, Preemption.result]
      rw [if_neg (by rw [← hover]; exact h)]
    rw [he]
    exact hback.trans (tick_same _ _)

theorem runTask_reason (it : Iteration) (k : KernelData) (t : TdPtr) :
    (runTask it k t).2 = it.preemption.reason := rfl

theorem runTask_scheduler (it : Iteration) (k : KernelData) (t : TdPtr) :
    (runTask it k t).1.schedulerStructure = k.schedulerStructure := by
  unfold runTask
  simp only
  split_ifs <;> rfl

/-- One pass of the kernel's loop: what happens around it, the task that is
dispatched and the ready queues at that moment. -/
structure Pass where
  iteration : Iteration
  picked : Option TdPtr
  scheduler : SchedulerStructure
  nodes : scheduler.Nodes

/-- The kernel in which the task `t` is dispatched and comes back, just
before `kernelTasks`. -/
def Pass.entry (c : Pass) (s : RtosMain) (t : TdPtr) : KernelData :=
  (runTask c.iteration { loopHead c.iteration s with schedulerStructure := c.scheduler } t).1

/-- A pass in which any ready task may be dispatched, whatever the ready
queues say. -/
def passStep (s : RtosMain) (c : Pass) (s' : RtosMain) : Prop :=
  (∀ t, c.picked = some t → isTaskReady ((loopHead c.iteration s).tds t) = true) ∧
    afterSchedule c.iteration (loopHead c.iteration s) c.scheduler c.picked = .ok s'

def Pass.run (c : Pass) (s : RtosMain) : Option RtosMain :=
  if ∀ t ∈ c.picked, isTaskReady ((loopHead c.iteration s).tds t) = true then
    (afterSchedule c.iteration (loopHead c.iteration s) c.scheduler c.picked).toOption
  else none

theorem Pass.run_step (s : RtosMain) (c : Pass) (s' : RtosMain) (h : c.run s = some s') :
    passStep s c s' := by
  unfold Pass.run at h
  split_ifs at h with hready
  refine ⟨fun t ht ↦ hready t ht, ?_⟩
  generalize afterSchedule c.iteration (loopHead c.iteration s) c.scheduler c.picked = r at h
  cases r with
  | error e => simp [Except.toOption] at h
  | ok s'' => exact congrArg Except.ok (Option.some.inj h)

inductive PassOutcome (s : RtosMain) (c : Pass) (s' : RtosMain) : Prop
  | idle : c.picked = none → SameTasks s.kernel s'.kernel → PassOutcome s c s'
  | stopped (t : TdPtr) : c.picked = some t → ((c.entry s t).tds t).state = .killed →
      s'.kernel = c.entry s t → PassOutcome s c s'
  | called (t : TdPtr) (k : KernelData) : c.picked = some t →
      ((c.entry s t).tds t).state = .syscallBlk → handleSyscall (c.entry s t) t = .ok k →
      SameTasks k s'.kernel → PassOutcome s c s'
  | interrupted (t : TdPtr) (k : KernelData) : c.picked = some t →
      ((c.entry s t).tds t).state = .hwint →
      handleInterrupt (c.entry s t) c.iteration.preemption.reason = .ok k →
      SameTasks k s'.kernel → PassOutcome s c s'

theorem entry_same (c : Pass) (s : RtosMain) (t : TdPtr) :
    SameTasks ((loopHead c.iteration s).modify t c.iteration.preemption.result) (c.entry s t) := by
  have hsched : SameTasks (loopHead c.iteration s)
      { loopHead c.iteration s with schedulerStructure := c.scheduler } := ⟨fun _ ↦ rfl, rfl⟩
  exact (hsched.modify t c.iteration.preemption.result_core).trans (runTask_same _ _ _)

theorem entry_nodes (c : Pass) (s : RtosMain) (t : TdPtr) :
    (c.entry s t).schedulerStructure.Nodes := by
  rw [Pass.entry, runTask_scheduler]
  exact c.nodes

theorem core_state {td td' : TaskDescriptor} (h : td.core = td'.core) : td.state = td'.state :=
  (congrArg TaskDescriptor.state h :)

theorem core_taskId {td td' : TaskDescriptor} (h : td.core = td'.core) : td.taskId = td'.taskId :=
  (congrArg TaskDescriptor.taskId h :)

theorem Preemption.result_state (p : Preemption) (td : TaskDescriptor) :
    (p.result td).state = .killed ∨ ((p.result td).state = .syscallBlk ∧ p.reason = 0) ∨
      ((p.result td).state = .hwint ∧ p.reason ≠ 0) := by
  unfold Preemption.result
  split_ifs
  · exact .inl rfl
  · cases p with
    | svc => exact .inr (.inl ⟨rfl, rfl⟩)
    | interrupt sp ipsr =>
      refine .inr (.inr ⟨rfl, ?_⟩)
      simp only [Preemption.reason]
      split_ifs with h
      · decide
      · exact h

theorem entry_state (c : Pass) (s : RtosMain) (t : TdPtr) :
    ((c.entry s t).tds t).state = .killed ∨
      (((c.entry s t).tds t).state = .syscallBlk ∧ c.iteration.preemption.reason = 0) ∨
      (((c.entry s t).tds t).state = .hwint ∧ c.iteration.preemption.reason ≠ 0) := by
  have he := core_state ((entry_same c s t).core t)
  rw [KernelData.modify_self] at he
  rw [he]
  exact c.iteration.preemption.result_state _

theorem dispatch_eq_ok {it : Iteration} {k k' : KernelData} {t : TdPtr}
    (h : dispatch it k t = .ok k') :
    (hasExited ((runTask it k t).1.tds t) = true ∧ k' = (runTask it k t).1) ∨
      (hasExited ((runTask it k t).1.tds t) = false ∧
        ∃ k₁ s, kernelTasks (runTask it k t).1 t it.preemption.reason = .ok k₁ ∧
          schedulerAdd k₁.schedulerStructure k₁.tds (some t) = .ok s ∧
          k' = { k₁ with schedulerStructure := s }) := by
  unfold dispatch at h
  cases hc : checkKernelStack k it.kernelSp with
  | error e => simp [hc, bind, Except.bind] at h
  | ok u =>
    simp only [hc, bind, Except.bind] at h
    split_ifs at h with hex
    · exact .inl ⟨hex, (Except.ok.inj h).symm⟩
    · refine .inr ⟨by simpa using hex, ?_⟩
      rw [runTask_reason] at h
      cases hk : kernelTasks (runTask it k t).1 t it.preemption.reason with
      | error e => simp [hk] at h
      | ok k₁ =>
        simp only [hk] at h
        cases hs : schedulerAdd k₁.schedulerStructure k₁.tds (some t) with
        | error e => simp [hs] at h
        | ok s =>
          simp only [hs, Except.ok.injEq] at h
          exact ⟨k₁, s, rfl, hs, h.symm⟩

theorem dispatch_eq_error {it : Iteration} {k : KernelData} {t : TdPtr} {f : Fault}
    (h : dispatch it k t = .error f) :
    f = .kernelStack ∨ (hasExited ((runTask it k t).1.tds t) = false ∧
      (kernelTasks (runTask it k t).1 t it.preemption.reason = .error f ∨
        ∃ k₁, kernelTasks (runTask it k t).1 t it.preemption.reason = .ok k₁ ∧
          schedulerAdd k₁.schedulerStructure k₁.tds (some t) = .error f)) := by
  unfold dispatch at h
  by_cases hc : kernelStackSize < k.stackBase - it.kernelSp
  · rw [checkKernelStack, if_pos hc] at h
    exact .inl (Except.error.inj h).symm
  · rw [checkKernelStack, if_neg hc] at h
    simp only [bind, Except.bind] at h
    split_ifs at h with hex
    refine .inr ⟨by simpa using hex, ?_⟩
    rw [runTask_reason] at h
    cases hk : kernelTasks (runTask it k t).1 t it.preemption.reason with
    | error e =>
      simp only [hk] at h
      exact .inl h
    | ok k₁ =>
      simp only [hk] at h
      refine .inr ⟨k₁, rfl, ?_⟩
      cases hs : schedulerAdd k₁.schedulerStructure k₁.tds (some t) with
      | error e =>
        simp only [hs, Except.error.injEq] at h
        rw [h]
      | ok s => simp [hs] at h

theorem hasExited_killed {td : TaskDescriptor} (h : td.state = .killed) : hasExited td = true := by
  rw [hasExited, h]

theorem hasExited_entered {td : TaskDescriptor} (h : td.state = .syscallBlk ∨ td.state = .hwint) :
    hasExited td = false := by
  rcases h with h | h <;> rw [hasExited, h]

/-- The inversion of a dispatch. -/
theorem dispatch_outcome {s : RtosMain} {c : Pass} {t : TdPtr} {k' : KernelData}
    (h : dispatch c.iteration { loopHead c.iteration s with schedulerStructure := c.scheduler } t =
      .ok k') :
    (((c.entry s t).tds t).state = .killed ∧ k' = c.entry s t) ∨
      ∃ k sched, k' = { k with schedulerStructure := sched } ∧
        ((((c.entry s t).tds t).state = .syscallBlk ∧ handleSyscall (c.entry s t) t = .ok k) ∨
          (((c.entry s t).tds t).state = .hwint ∧
            handleInterrupt (c.entry s t) c.iteration.preemption.reason = .ok k)) := by
  have hstate := entry_state c s t
  rcases dispatch_eq_ok h with ⟨hexited, rfl⟩ | ⟨hexited, k, sched, htasks, -, rfl⟩
  · refine .inl ⟨hstate.resolve_right fun hst ↦ ?_, rfl⟩
    have hlive := hasExited_entered (hst.imp And.left And.left)
    exact absurd (hexited.symm.trans hlive) (by decide)
  · refine .inr ⟨k, sched, rfl, ?_⟩
    rcases hstate with hst | ⟨hst, hreason⟩ | ⟨hst, hreason⟩
    · exact absurd (hexited.symm.trans (hasExited_killed hst)) (by decide)
    · rw [kernelTasks, if_pos hreason] at htasks
      exact .inl ⟨hst, htasks⟩
    · rw [kernelTasks, if_neg hreason] at htasks
      exact .inr ⟨hst, htasks⟩

theorem passStep_cases {s s' : RtosMain} {c : Pass} (h : passStep s c s') :
    (c.picked = none ∧ s' = ⟨{ loopHead c.iteration s with schedulerStructure := c.scheduler },
      none⟩) ∨
    ∃ t, c.picked = some t ∧ s'.currentTask = some t ∧
      dispatch c.iteration { loopHead c.iteration s with schedulerStructure := c.scheduler } t =
        .ok s'.kernel := by
  obtain ⟨-, h⟩ := h
  unfold afterSchedule at h
  cases hp : c.picked with
  | none =>
    simp only [hp, Except.ok.injEq] at h
    exact .inl ⟨rfl, h.symm⟩
  | some t =>
    simp only [hp] at h
    cases hd : dispatch c.iteration
        { loopHead c.iteration s with schedulerStructure := c.scheduler } t with
    | error e => simp [hd, bind, Except.bind] at h
    | ok k =>
      simp only [hd, bind, Except.bind, Except.ok.injEq] at h
      subst h
      exact .inr ⟨t, rfl, rfl, hd⟩

theorem passStep_outcome {s s' : RtosMain} {c : Pass} (h : passStep s c s') :
    PassOutcome s c s' := by
  rcases passStep_cases h with ⟨hp, rfl⟩ | ⟨t, hp, -, hd⟩
  · exact .idle hp ((loopHead_same _ _).trans ⟨fun _ ↦ rfl, rfl⟩)
  · rcases dispatch_outcome hd with ⟨hst, hk⟩ | ⟨k, sched, hk, ⟨hst, hcall⟩ | ⟨hst, hwake⟩⟩
    · exact .stopped t hp hst hk
    · exact .called t k hp hst hcall (hk ▸ ⟨fun _ ↦ rfl, rfl⟩)
    · exact .interrupted t k hp hst hwake (hk ▸ ⟨fun _ ↦ rfl, rfl⟩)

theorem entry_other (c : Pass) (s : RtosMain) {t i : TdPtr} (hi : i ≠ t) :
    ((c.entry s t).tds i).core = (s.kernel.tds i).core := by
  rw [(entry_same c s t).core i, KernelData.modify_of_ne _ _ hi, (loopHead_same _ _).core i]

/-- What accounting and dispatch preserve holds when a task is back in the
kernel. -/
theorem entry_invariant {P : KernelData → Prop} (hsame : ∀ {k k'}, SameTasks k k' → P k → P k')
    (henter : ∀ {k t} (p : Preemption), isTaskReady (k.tds t) = true → P k →
      P (k.modify t p.result))
    {s : RtosMain} {c : Pass} {t : TdPtr}
    (hready : isTaskReady ((loopHead c.iteration s).tds t) = true) (hp : P s.kernel) :
    P (c.entry s t) := by
  have hsched : SameTasks (loopHead c.iteration s)
      { loopHead c.iteration s with schedulerStructure := c.scheduler } := ⟨fun _ ↦ rfl, rfl⟩
  have hk := hsame ((loopHead_same c.iteration s).trans hsched) hp
  exact hsame (runTask_same _ _ _) (henter _ hready hk)

/-- The states that the loop of `rtos_main` can be in, for any behaviour of
the tasks and any order of dispatching them. -/
def Reachable (b : Boot) (s : RtosMain) : Prop :=
  ∃ s₀ cs, boot b = .ok s₀ ∧ Run passStep s₀ cs s

theorem Reachable.next {b : Boot} {s s' : RtosMain} {c : Pass} (h : Reachable b s)
    (hs : passStep s c s') : Reachable b s' := by
  obtain ⟨s₀, cs, h₀, hr⟩ := h
  exact ⟨s₀, _, h₀, hr.snoc hs⟩

/-- One pass of the loop as it is, the ready queues included. -/
def loopStep (s : RtosMain) (it : Iteration) (s' : RtosMain) : Prop := loopBody it s = .ok s'

theorem loopBody_eq_ok {s s' : RtosMain} {it : Iteration} (h : loopBody it s = .ok s') :
    ∃ sched t, schedule (loopHead it s).schedulerStructure (loopHead it s).tds = .ok (sched, t) ∧
      afterSchedule it (loopHead it s) sched t = .ok s' := by
  unfold loopBody at h
  simp only at h
  cases hs : schedule (loopHead it s).schedulerStructure (loopHead it s).tds with
  | error e => simp [hs, bind, Except.bind] at h
  | ok r =>
    simp only [hs, bind, Except.bind] at h
    exact ⟨r.1, r.2, rfl, h⟩

theorem loopStep_pass {s s' : RtosMain} {it : Iteration}
    (hn : s.kernel.schedulerStructure.Nodes) (h : loopStep s it s') :
    ∃ c : Pass, c.iteration = it ∧ passStep s c s' ∧
      schedule (loopHead it s).schedulerStructure (loopHead it s).tds =
        .ok (c.scheduler, c.picked) := by
  obtain ⟨sched, t, hs, ha⟩ := loopBody_eq_ok h
  have hn' : sched.Nodes := schedule_nodes (by rwa [loopHead_scheduler]) hs
  refine ⟨⟨it, t, sched, hn'⟩, rfl, ⟨fun x hx ↦ ?_, ha⟩, hs⟩
  have ht : t = some x := hx
  rw [ht] at hs
  exact schedule_ready hs

def firstTaskParams (b : Boot) : TaskCreateParameters :=
  { setupDefaultCreateParameters b.initTask with parentId := 0, priority := 0 }

/-- What `boot` leaves: one task, in the first slot. -/
def booted (b : Boot) : RtosMain :=
  let td := newTask (initializeTds b.stackTop 0) b.memory (firstTaskParams b)
  let k := { kernelInit b with
    tds := update (initializeTds b.stackTop) 0 td.1
    memory := td.2
    schedulerStructure := schedulerInit.append 0 0 }
  ⟨k.setReturnValue 0 b.firstTaskFn, none⟩

theorem boot_eq (b : Boot) : boot b = .ok (booted b) := rfl

theorem Reachable.invariant {b : Boot} {P : RtosMain → Prop} (h₀ : P (booted b))
    (hs : ∀ s c s', P s → passStep s c s' → P s') {s : RtosMain} (h : Reachable b s) : P s := by
  obtain ⟨s₀, cs, hb, hr⟩ := h
  rw [boot_eq] at hb
  obtain rfl := Except.ok.inj hb
  exact hr.invariant h₀ hs

theorem booted_state (b : Boot) (i : TdPtr) :
    ((booted b).kernel.tds i).state = if i = 0 then .running else .invalid := by
  by_cases hi : i = 0
  · subst hi; rfl
  · simp [booted, KernelData.setReturnValue, hi, initializeTds, reinitializeTd]

def sampleBoot : Boot := ⟨0x20008000#32, 0x100#32, 0x200#32, fun _ ↦ 0⟩

/-- A pass during which no time goes by and the memory stays empty. -/
def Preemption.iteration (p : Preemption) : Iteration :=
  ⟨0, 0, 0, 0, 0x20008000#32, fun _ ↦ 0, p⟩

def callBy (t : TdPtr) (number : Byte) (param1 param2 param3 param4 param5 param6 : Word) :
    Preemption :=
  .svc (stackArea t.val sampleBoot.stackTop).2.1 number param1 param2 param3 param4 param5 param6

def Preemption.pass (p : Preemption) (t : TdPtr) : Pass :=
  ⟨p.iteration, some t, schedulerInit, fun _ ↦ rfl⟩

/-- The first task creates a second one, which waits for a message. -/
def waitingPasses : List Pass :=
  [(callBy 0 5 0 0x300#32 0 0 0 0).pass 0, (callBy 1 9 0x20005300#32 0x20005310#32 8 0 0 0).pass 1]

def messagePass : Pass := (callBy 0 8 0x1001#32 0x20005c00#32 4 0x20005c10#32 4 0).pass 0

def handOffPasses : List Pass := waitingPasses ++ [messagePass]

end PrjOS
