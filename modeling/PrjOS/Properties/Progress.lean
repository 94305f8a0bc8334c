import PrjOS.Properties.Fairness

namespace PrjOS

open ByteMemory Function LinkedQueue Transition

def KernelStackFits (s : RtosMain) (it : Iteration) : Prop :=
  s.kernel.stackBase - it.kernelSp ≤ kernelStackSize

/-- The task that a `Create` makes, if there is a descriptor for it, gets a
ready queue. -/
def NewTaskIndexed (k : KernelData) (t : TdPtr) : Prop :=
  (k.tds t).state = .syscallBlk → (k.tds t).call = some .create →
    findAvailable k.tds .regular ≠ none → (k.tds t).systemCall.param1.toNat % 256 < tasksMaxPriority

instance (s : RtosMain) (it : Iteration) : Decidable (KernelStackFits s it) :=
  inferInstanceAs (Decidable (_ ≤ _))

instance (k : KernelData) (t : TdPtr) : Decidable (NewTaskIndexed k t) :=
  inferInstanceAs (Decidable (_ → _ → _ → _))

variable {k k' : KernelData} {q : TdPtr → List TdPtr} {t : TdPtr}

theorem schedulerAdd_nodes {s s' : SchedulerStructure} {tds : TdPtr → TaskDescriptor} {td : TdPtr}
    (hn : s.Nodes) (h : schedulerAdd s tds (some td) = .ok s') : s'.Nodes := by
  rw [schedulerAdd_eq hn] at h
  split_ifs at h
  exact Except.ok.inj h ▸ hn.append _ _

theorem SyscallEffect.nodes (h : SyscallEffect k t k') (hq : SendInvariant k q)
    (hstate : (k.tds t).state = .syscallBlk) (hn : k.schedulerStructure.Nodes) :
    k'.schedulerStructure.Nodes := by
  cases h with
  | returns _ hc | exits _ hc | stuck _ hc | waits _ _ _ hc => exact hc.scheduler ▸ hn
  | hands r hcall ht hr =>
    rw [storeResult, handOff_eq k (KernelData.ne_of_state hstate hr (by decide))]
    exact hn
  | queues r links hcall ht hr hp => exact hn
  | takes s blocking hcall hb hs =>
    rw [receive_eq k (hq.head_ne hstate hs) hs hb]
    exact hn
  | replies s hcall hl hs =>
    rw [storeResult, deliverReply_eq]
    exact hn
  | awaits x e links hcall he hx hp => exact hn
  | creates c params j s hcall hp hj hs => exact schedulerAdd_nodes hn hs

theorem InterruptEffect.nodes {w : Word} (h : InterruptEffect k w k')
    (hn : k.schedulerStructure.Nodes) : k'.schedulerStructure.Nodes := by
  cases h <;> exact hn

/-- Each entry that the kernel takes from an event queue names a task. -/
theorem handleInterrupt_ok (hk : KernelInvariant k) (w : Word) :
    ∃ k', handleInterrupt k w = .ok k' := by
  rw [handleInterrupt_eq]
  cases eventOf w with
  | none => exact ⟨k, rfl⟩
  | some e =>
    simp only [sysEventHappened_eq]
    cases hx : k.eventData.eventQueueHead e with
    | none => exact ⟨k, rfl⟩
    | some x =>
      obtain ⟨i, hi, -⟩ := hk.events.wakes hk.ids hx
      simp only [hi]
      exact ⟨_, rfl⟩

theorem createParams_priority (k : KernelData) (t : TdPtr) {params : TaskCreateParameters}
    (h : createParams k t .create = some params) :
    params.priority = (k.tds t).systemCall.param1 ∧ params.taskType = .regular := by
  rw [createParams, sysCreate, checkPriority_eq] at h
  obtain rfl := Option.some.inj h
  exact ⟨rfl, rfl⟩

theorem handleSyscall_index (hn : k.schedulerStructure.Nodes) (h : ¬ NewTaskIndexed k t) :
    ∃ pri, handleSyscall k t = .error (.queueIndex pri) := by
  simp only [NewTaskIndexed, Classical.not_imp] at h
  obtain ⟨hstate, hcall, hfree, hi⟩ := h
  obtain ⟨params, hp, -⟩ := createParams_create k t
  obtain ⟨hpri, htype⟩ := createParams_priority k t hp
  rw [← htype] at hfree
  rw [← hpri] at hi
  obtain ⟨j, hj⟩ := Option.ne_none_iff_exists'.mp hfree
  rw [(handleSyscall_creates hstate hcall hp).1, createAndAdd_error hn hj hi]
  exact ⟨_, rfl⟩

theorem handleSyscall_ok_iff (hk : KernelInvariant k) (hn : k.schedulerStructure.Nodes)
    (hr : PrioritiesInRange k) (hstate : (k.tds t).state = .syscallBlk) :
    (∃ k', handleSyscall k t = .ok k') ↔ NewTaskIndexed k t := by
  constructor
  · rintro ⟨k', hk'⟩
    by_contra hi
    obtain ⟨pri, he⟩ := handleSyscall_index hn hi
    rw [hk'] at he
    cases he
  · intro h
    by_cases hc : Completes k t
    · refine handleSyscall_ok hk hn hstate fun c params hcall hp ↦ ?_
      cases c
      case create =>
        obtain ⟨hpri, htype⟩ := createParams_priority k t hp
        have hfree := (handleSyscall_creates hstate hcall hp).2.mp hc
        rw [htype] at hfree
        rw [hpri]
        exact h hstate hcall hfree
      case createMicrotask =>
        refine createsInRange hr hstate (fun _ hcreate ↦ ?_) .createMicrotask params hcall hp
        rw [hcall] at hcreate
        cases hcreate
      all_goals simp [createParams] at hp
    · obtain ⟨k', hk', -⟩ := handleSyscall_stuck hstate hc
      exact ⟨k', hk'⟩

/-- A task that was served has a ready queue to go back to. -/
theorem resume_ok {k₁ : KernelData} (hn : k₁.schedulerStructure.Nodes)
    (hpri : (k₁.tds t).priority.toNat < tasksMaxPriority) :
    ∃ sched, schedulerAdd k₁.schedulerStructure k₁.tds (some t) = .ok sched := by
  have hi : (k₁.tds t).priority.toNat % 256 < 7 := (indexFaithful_of_lt hpri).1
  rw [schedulerAdd_eq hn, dif_pos hi]
  exact ⟨_, rfl⟩

theorem kernelTasks_ok_iff {s : RtosMain} {c : Pass} (hk : KernelInvariant (c.entry s t))
    (hr : PrioritiesInRange (c.entry s t)) (hex : hasExited ((c.entry s t).tds t) = false) :
    (∃ k₁ sched, kernelTasks (c.entry s t) t c.iteration.preemption.reason = .ok k₁ ∧
      schedulerAdd k₁.schedulerStructure k₁.tds (some t) = .ok sched) ↔
    NewTaskIndexed (c.entry s t) t := by
  obtain ⟨q, hq⟩ := hk.send
  have hn := entry_nodes c s t
  unfold kernelTasks
  rcases entry_state c s t with hst | ⟨hst, hreason⟩ | ⟨hst, hreason⟩
  · rw [hasExited_killed hst] at hex
    cases hex
  · rw [if_pos hreason, ← handleSyscall_ok_iff hk hn hr hst]
    refine ⟨fun ⟨k₁, _, hk₁, _⟩ ↦ ⟨k₁, hk₁⟩, fun ⟨k₁, hk₁⟩ ↦ ?_⟩
    have heff := handleSyscall_effect hst hk₁
    have hpri := (heff.caller hq hst).priority (hr t (by simp [isTdAvailable, hst]))
    obtain ⟨sched, hs⟩ := resume_ok (heff.nodes hq hst hn) hpri
    exact ⟨k₁, sched, hk₁, hs⟩
  · rw [if_neg hreason]
    refine ⟨fun _ hcall ↦ absurd (hst.symm.trans hcall) (by decide), fun _ ↦ ?_⟩
    obtain ⟨k₁, hk₁⟩ := handleInterrupt_ok hk c.iteration.preemption.reason
    have heff := handleInterrupt_effect hk₁
    have hpri : (k₁.tds t).priority.toNat < tasksMaxPriority := by
      rw [heff.priority t]
      exact hr t (by simp [isTdAvailable, hst])
    obtain ⟨sched, hs⟩ := resume_ok (heff.nodes hn) hpri
    exact ⟨k₁, sched, hk₁, hs⟩

theorem dispatch_ok {it : Iteration} :
    (∃ k', dispatch it k t = .ok k') ↔ k.stackBase - it.kernelSp ≤ kernelStackSize ∧
      (hasExited ((runTask it k t).1.tds t) = false →
        ∃ k₁ sched, kernelTasks (runTask it k t).1 t it.preemption.reason = .ok k₁ ∧
          schedulerAdd k₁.schedulerStructure k₁.tds (some t) = .ok sched) := by
  by_cases hfit : kernelStackSize < k.stackBase - it.kernelSp
  · have herror : dispatch it k t = .error .kernelStack := by
      rw [dispatch, checkKernelStack, if_pos hfit]
      rfl
    simp [herror, BitVec.not_le.mpr hfit]
  constructor
  · rintro ⟨k', h⟩
    refine ⟨BitVec.not_lt.mp hfit, fun hex ↦ ?_⟩
    rcases dispatch_eq_ok h with ⟨hex', -⟩ | ⟨-, k₁, sched, hk₁, hs, -⟩
    · rw [hex] at hex'
      cases hex'
    · exact ⟨k₁, sched, hk₁, hs⟩
  · rintro ⟨-, h⟩
    rw [dispatch, checkKernelStack, if_neg hfit]
    simp only [bind, Except.bind]
    split_ifs with hex
    · exact ⟨_, rfl⟩
    · obtain ⟨k₁, sched, hk₁, hs⟩ := h (by simpa using hex)
      simp only [runTask_reason, hk₁, hs]
      exact ⟨_, rfl⟩

theorem loopHead_stackBase (it : Iteration) (s : RtosMain) :
    (loopHead it s).stackBase = s.kernel.stackBase := by
  unfold loopHead chargeSystemTime
  split
  · rfl
  · split_ifs <;> rfl

theorem entry_ok_iff {s : RtosMain} {c : Pass} (hk : KernelInvariant (c.entry s t))
    (hr : PrioritiesInRange (c.entry s t)) :
    (∃ k', dispatch c.iteration
      { loopHead c.iteration s with schedulerStructure := c.scheduler } t = .ok k') ↔
    KernelStackFits s c.iteration ∧ NewTaskIndexed (c.entry s t) t := by
  rw [dispatch_ok]
  refine and_congr (by rw [KernelStackFits, ← loopHead_stackBase c.iteration s]) ?_
  change (hasExited ((c.entry s t).tds t) = false →
    ∃ k₁ sched, kernelTasks (c.entry s t) t _ = .ok k₁ ∧ _) ↔ _
  cases hex : hasExited ((c.entry s t).tds t) with
  | true =>
    refine ⟨fun _ hst ↦ ?_, fun _ h ↦ by cases h⟩
    rw [hasExited_entered (.inl hst)] at hex
    cases hex
  | false =>
    rw [← kernelTasks_ok_iff hk hr hex]
    exact ⟨fun h ↦ h rfl, fun h _ ↦ h⟩

/-- The faults of a dispatch are those that its conditions exclude. -/
theorem entry_error {s : RtosMain} {c : Pass} {f : Fault} (hk : KernelInvariant (c.entry s t))
    (hr : PrioritiesInRange (c.entry s t))
    (h : dispatch c.iteration
      { loopHead c.iteration s with schedulerStructure := c.scheduler } t = .error f) :
    f = .kernelStack ∨ ∃ pri, f = .queueIndex pri := by
  refine (dispatch_eq_error h).imp id ?_
  change hasExited ((c.entry s t).tds t) = false ∧ (kernelTasks (c.entry s t) t _ = _ ∨
    ∃ k₁, kernelTasks (c.entry s t) t _ = _ ∧ _) → _
  rintro ⟨hex, he⟩
  have hn := entry_nodes c s t
  by_cases hi : NewTaskIndexed (c.entry s t) t
  · obtain ⟨k₁, sched, hk₁, hs⟩ := (kernelTasks_ok_iff hk hr hex).mpr hi
    rcases he with he | ⟨k₂, hk₂, he⟩
    · rw [hk₁] at he
      cases he
    · obtain rfl := Except.ok.inj (hk₁.symm.trans hk₂)
      rw [hs] at he
      cases he
  · obtain ⟨pri, herror⟩ := handleSyscall_index hn hi
    have hreason : c.iteration.preemption.reason = 0 := by
      rcases entry_state c s t with hst | ⟨-, hreason⟩ | ⟨hst, -⟩
      · rw [hasExited_killed hst] at hex
        cases hex
      · exact hreason
      · exact absurd (fun h ↦ absurd (hst.symm.trans h) (by decide)) hi
    rw [kernelTasks, if_pos hreason, herror] at he
    rcases he with he | ⟨k₂, hk₂, -⟩
    · exact ⟨pri, (Except.error.inj he).symm⟩
    · cases hk₂

/-- On well-formed queues the search of `schedule` gives a pass to run. -/
theorem ReadyQueues.schedules {s : RtosMain} {ls : Priority → List TdPtr}
    (h : ReadyQueues s.kernel ls none) (it : Iteration) : ∃ c : Pass, c.iteration = it ∧
      schedule (loopHead it s).schedulerStructure (loopHead it s).tds =
        .ok (c.scheduler, c.picked) := by
  have hhead := h.same (loopHead_same it s) (loopHead_scheduler it s)
  obtain ⟨⟨sched, picked⟩, hs, -⟩ := schedule_spec hhead.nodes hhead.exact (loopHead it s).tds
  exact ⟨⟨it, picked, sched, schedule_nodes hhead.nodes hs⟩, rfl, hs⟩

theorem loopBody_of_schedule {s : RtosMain} {c : Pass}
    (hs : schedule (loopHead c.iteration s).schedulerStructure (loopHead c.iteration s).tds =
      .ok (c.scheduler, c.picked)) :
    loopBody c.iteration s =
      afterSchedule c.iteration (loopHead c.iteration s) c.scheduler c.picked := by
  unfold loopBody
  simp only [hs, bind, Except.bind]

end PrjOS
