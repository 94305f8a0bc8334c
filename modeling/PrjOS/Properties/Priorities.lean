import PrjOS.Properties.Stranding
import PrjOS.Invariants.Priorities

namespace PrjOS

open ByteMemory Function LinkedQueue Transition

variable {k k' : KernelData} {q : TdPtr → List TdPtr} {t : TdPtr}

/-- The index that `schedulerAdd` takes for `td` is its priority and lies in
the arrays. -/
def IndexFaithful (tds : TdPtr → TaskDescriptor) (td : TdPtr) : Prop :=
  (tds td).priority.toNat % 256 < tasksMaxPriority ∧
    (tds td).priority.toNat % 256 = (tds td).priority.toNat

/-- What the pass that serves `t` must do about priorities: both calls of
`schedulerAdd` use the task's priority, and a creation out of range is refused
and creates nothing. -/
structure ChecksPriorities (k : KernelData) (t : TdPtr) (preemptionReason : Word) : Prop where
  added : ∀ k', serve k t preemptionReason = .ok k' → hasExited (k.tds t) = false →
    IndexFaithful k'.tds t
  created : (k.tds t).state = .syscallBlk → ∀ c params j, (k.tds t).call = some c →
    createParams k t c = some params → findAvailable k.tds params.taskType = some j →
    IndexFaithful (update k.tds j (newTask (k.tds j) k.memory params).1) j
  refused : (k.tds t).state = .syscallBlk → (k.tds t).call = some .create →
    tasksMaxPriority ≤ (k.tds t).systemCall.param1.toNat →
    ∃ k', handleSyscall k t = .ok k' ∧ (k'.tds t).state = .running ∧
      (k'.tds t).systemCall.returnValue = errCreateInvalPriority ∧
      ∀ i, i ≠ t → k'.tds i = k.tds i

theorem indexFaithful_of_lt {tds : TdPtr → TaskDescriptor} {td : TdPtr}
    (h : (tds td).priority.toNat < tasksMaxPriority) : IndexFaithful tds td := by
  unfold tasksMaxPriority at h
  refine ⟨?_, Nat.mod_eq_of_lt (by omega)⟩
  rw [Nat.mod_eq_of_lt (by omega)]
  exact h

/-- A task that has come back and was not killed has a priority in range, and
so it has when it was served. -/
theorem serve_priority {reason : Word} (h : PrioritiesInRange k) (hq : SendInvariant k q)
    (hstate : (k.tds t).state = .killed ∨ ((k.tds t).state = .syscallBlk ∧ reason = 0) ∨
      ((k.tds t).state = .hwint ∧ reason ≠ 0))
    (hex : hasExited (k.tds t) = false) (hs : serve k t reason = .ok k') :
    (k'.tds t).priority.toNat < tasksMaxPriority := by
  rw [serve, if_neg (by simp [hex]), kernelTasks] at hs
  rcases hstate with hst | ⟨hst, hr⟩ | ⟨hst, hr⟩
  · simp [hasExited, hst] at hex
  · rw [if_pos hr] at hs
    exact ((handleSyscall_effect hst hs).caller hq hst).priority
      (h t (by simp [isTdAvailable, hst]))
  · rw [if_neg hr] at hs
    rw [(handleInterrupt_effect hs).priority t]
    exact h t (by simp [isTdAvailable, hst])

theorem checksPriorities_of_asksInRange {reason : Word} (h : PrioritiesInRange k)
    (hq : SendInvariant k q)
    (hstate : (k.tds t).state = .killed ∨ ((k.tds t).state = .syscallBlk ∧ reason = 0) ∨
      ((k.tds t).state = .hwint ∧ reason ≠ 0))
    (ha : AsksInRange k t) : ChecksPriorities k t reason where
  added k' hs hex := indexFaithful_of_lt (serve_priority h hq hstate hex hs)
  created hst c params j hc hp hj := by
    refine indexFaithful_of_lt ?_
    rw [update_self]
    exact createParams_inRange h hst ha hc hp
  refused hst hc hp := by
    have := ha hst hc
    omega

/-- A `Create` out of range is never refused as it should be. -/
theorem asksInRange_of_checksPriorities {reason : Word} (hn : k.schedulerStructure.Nodes)
    (h : ChecksPriorities k t reason) : AsksInRange k t := by
  intro hst hc
  by_contra hp
  obtain ⟨k', hk', hrun, -, hother⟩ := h.refused hst hc (by omega)
  obtain ⟨params, hparams, htype⟩ := createParams_create k t
  obtain ⟨he, hcompletes⟩ := handleSyscall_creates hst hc hparams
  cases hf : findAvailable k.tds params.taskType with
  | none =>
    obtain ⟨k'', hk'', hs⟩ := handleSyscall_stuck hst (fun hc ↦ hcompletes.mp hc hf)
    obtain rfl := Except.ok.inj (hk'.symm.trans hk'')
    simp [hs] at hrun
  | some j =>
    by_cases hi : params.priority.toNat % 256 < tasksMaxPriority
    · obtain ⟨s, hs⟩ := createAndAdd_created (t := t) hn hf hi
      obtain rfl := Except.ok.inj (hk'.symm.trans (he.trans hs))
      have hja := (findAvailable_some hf).2
      have hjt : j ≠ t := findAvailable_ne hf hst
      have hsame := hother j hjt
      rw [created_new k params s hjt] at hsame
      rw [← hsame] at hja
      simp [isTdAvailable, newTask] at hja
    · rw [he, createAndAdd_error hn hf hi] at hk'
      simp at hk'

theorem createsInRange (h : PrioritiesInRange k) (hstate : (k.tds t).state = .syscallBlk)
    (ha : AsksInRange k t) : CreatesInRange k t := by
  intro c params hc hp
  have hlt := createParams_inRange h hstate ha hc hp
  unfold tasksMaxPriority at hlt ⊢
  omega

theorem schedulerAdd_ne {s : SchedulerStructure} {tds : TdPtr → TaskDescriptor} {td : TdPtr}
    (h : (tds td).priority.toNat < tasksMaxPriority) (pri : Nat) :
    schedulerAdd s tds (some td) ≠ .error (.queueIndex pri) := by
  have hi : (tds td).priority.toNat % 256 < 7 := (indexFaithful_of_lt h).1
  simp only [schedulerAdd, dif_pos hi, getSchedulerTask]
  split <;> simp_all [bind, Except.bind]

theorem handleInterrupt_ne (k : KernelData) (isrNumber : Word) (pri : Nat) :
    handleInterrupt k isrNumber ≠ .error (.queueIndex pri) := by
  rw [handleInterrupt_eq]
  cases eventOf isrNumber with
  | none => simp
  | some e =>
    simp only [sysEventHappened_eq]
    split
    · simp
    · split <;> simp

/-- A pass between priorities in range never uses an index outside the
arrays. -/
theorem pass_index {s : RtosMain} {c : Pass} {t : TdPtr} (ht : c.picked = some t)
    (hk : KernelInvariant (c.entry s t)) (hr : PrioritiesInRange (c.entry s t))
    (ha : AsksInRange (c.entry s t) t) (pri : Nat) :
    afterSchedule c.iteration (loopHead c.iteration s) c.scheduler c.picked ≠
      .error (.queueIndex pri) := by
  obtain ⟨q, hq⟩ := hk.send
  have hstate := entry_state c s t
  intro h
  unfold afterSchedule at h
  rw [ht] at h
  cases hd : dispatch c.iteration
      { loopHead c.iteration s with schedulerStructure := c.scheduler } t with
  | ok k' => simp [hd, bind, Except.bind] at h
  | error f =>
    simp only [hd, bind, Except.bind, Except.error.injEq] at h
    subst h
    obtain ⟨hex, he⟩ := (dispatch_eq_error hd).resolve_left (by simp)
    have hserve : serve (c.entry s t) t c.iteration.preemption.reason =
        kernelTasks (c.entry s t) t c.iteration.preemption.reason := by
      rw [serve, if_neg (by rw [Pass.entry, hex]; simp)]
    rcases he with he | ⟨k₁, hk₁, he⟩
    · change kernelTasks (c.entry s t) t c.iteration.preemption.reason = _ at he
      rcases hstate with hst | ⟨hst, hreason⟩ | ⟨hst, hreason⟩
      · exact absurd (hex.symm.trans (hasExited_killed hst)) (by decide)
      · obtain ⟨k', hk'⟩ := handleSyscall_ok hk (entry_nodes c s t) hst (createsInRange hr hst ha)
        rw [kernelTasks, if_pos hreason, hk'] at he
        simp at he
      · rw [kernelTasks, if_neg hreason] at he
        exact handleInterrupt_ne _ _ pri he
    · exact schedulerAdd_ne (serve_priority hr hq hstate hex (hserve.trans hk₁)) pri he

/-- Over any run: priorities stay in range and index the ready queues, and
bad ones are refused, exactly when no task asks for one in `Create`. -/
theorem priorities_inRange_iff (b : Boot) (cs : List Pass) :
    (Throughout passStep (booted b) cs (fun s ↦ PrioritiesInRange s.kernel) ∧
      EachStep passStep (booted b) cs fun s c ↦ ∀ t, c.picked = some t →
        isTaskReady ((loopHead c.iteration s).tds t) = true →
        ChecksPriorities (c.entry s t) t c.iteration.preemption.reason ∧
        ∀ pri, afterSchedule c.iteration (loopHead c.iteration s) c.scheduler c.picked ≠
          .error (.queueIndex pri)) ↔
    EachStep passStep (booted b) cs fun s c ↦ ∀ t, c.picked = some t →
      isTaskReady ((loopHead c.iteration s).tds t) = true → AsksInRange (c.entry s t) t := by
  have hentry {pre : List Pass} {s : RtosMain} {c : Pass} {t : TdPtr}
      (hr : Run passStep (booted b) pre s)
      (hready : isTaskReady ((loopHead c.iteration s).tds t) = true) :
      KernelInvariant (c.entry s t) :=
    Reachable.entry ⟨booted b, pre, boot_eq b, hr⟩ hready
  constructor
  · rintro ⟨-, hc⟩ pre c hpre s hr t ht hready
    exact asksInRange_of_checksPriorities (entry_nodes c s t) (hc pre c hpre s hr t ht hready).1
  · intro ha
    have hinv : Throughout passStep (booted b) cs fun s ↦
        KernelInvariant s.kernel ∧ PrioritiesInRange s.kernel := by
      refine throughout_of_eachStep ⟨(Reachable.boot b).kernelInvariant, .boot b⟩ ?_ ha
      rintro s c s' ⟨hk, h⟩ hstep hasks
      exact ⟨hk.pass hstep, priorities_pass hk h hstep fun t ht ↦ hasks t ht (hstep.1 t ht)⟩
    refine ⟨fun pre hpre s hr ↦ (hinv pre hpre s hr).2, fun pre c hpre s hr t ht hready ↦ ?_⟩
    obtain ⟨-, h⟩ := hinv pre ((List.prefix_append _ _).trans hpre) s hr
    have hin : PrioritiesInRange (c.entry s t) :=
      entry_invariant (fun hs h ↦ h.same hs) (fun p hr h ↦ h.enter p hr) hready h
    have hk := hentry hr hready
    obtain ⟨q, hq⟩ := hk.send
    have hasks := ha pre c hpre s hr t ht hready
    exact ⟨checksPriorities_of_asksInRange hin hq (entry_state c s t) hasks,
      pass_index ht hk hin hasks⟩

/-- The first task creates one with priority 256, which is a live task in the
first ready queue; asking for 7 leaves the arrays. -/
def badPriorityPass (priority : Word) : Pass := (callBy 0 5 priority 0x300#32 0 0 0 0).pass 0

theorem badPriority_created : (∃ s, Run passStep (booted sampleBoot) [badPriorityPass 256] s ∧
      ¬ PrioritiesInRange s.kernel) ∧
    afterSchedule (badPriorityPass 7).iteration
      (loopHead (badPriorityPass 7).iteration (booted sampleBoot)) schedulerInit (some 0) =
        .error (.queueIndex 7) := by
  refine ⟨?_, rfl⟩
  have hrun := exists_run Pass.run_step (booted sampleBoot) [badPriorityPass 256]
    (fun s ↦ decide (isTdAvailable (s.kernel.tds 1) = false ∧ (s.kernel.tds 1).priority = 256))
    (by decide +kernel)
  obtain ⟨s, hr, hp⟩ := hrun
  obtain ⟨hlive, hpri⟩ := of_decide_eq_true hp
  refine ⟨s, hr, fun h ↦ ?_⟩
  have hlt := h 1 hlive
  rw [hpri] at hlt
  exact absurd hlt (by decide)

end PrjOS
