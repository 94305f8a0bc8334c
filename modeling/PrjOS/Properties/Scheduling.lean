import PrjOS.Invariants.ReadyQueues
import PrjOS.Properties.Priorities
import PrjOS.Library.FirstIndex

namespace PrjOS

open ByteMemory Function LinkedQueue Transition FirstIndex

/-- The links of the ready queues spell out the lists `ls`, which partition
the tasks that are not available by priority. -/
structure WellQueued (k : KernelData) (ls : Priority → List NodePtr) : Prop where
  nodes : ∀ i, (k.schedulerStructure.allTasks i).td = i
  chain : ∀ p, Chain (fun x ↦ (k.schedulerStructure.allTasks x).next)
    (k.schedulerStructure.queueHeads p) (ls p)
  tail : ∀ p, k.schedulerStructure.queueTails p = (ls p).getLast?
  nodup : ∀ p, (ls p).Nodup
  disjoint : ∀ {p p' x}, x ∈ ls p → x ∈ ls p' → p = p'
  live : ∀ i, isTdAvailable (k.tds i) = false → ∃ p, i ∈ ls p ∧ (k.tds i).priority.toNat = p.val
  dead : ∀ p, ∀ i ∈ ls p, isTdAvailable (k.tds i) = false

/-- The search of `schedule` ends, whatever the clock reads. -/
def SearchEnds (s : RtosMain) : Prop :=
  ∀ it, ∃ r, schedule (loopHead it s).schedulerStructure (loopHead it s).tds = .ok r

/-- The task that a pass of the loop dispatches, and the kernel when that
task has come back. -/
def dispatched (s : RtosMain) (it : Iteration) : Option (TdPtr × KernelData) :=
  match schedule (loopHead it s).schedulerStructure (loopHead it s).tds with
  | .ok (sched, some t) =>
    some (t, (runTask it { loopHead it s with schedulerStructure := sched } t).1)
  | _ => none

def Exits (k : KernelData) (t : TdPtr) : Prop :=
  (k.tds t).state = .syscallBlk ∧ (k.tds t).call = some .threadexit

instance (k : KernelData) (t : TdPtr) : Decidable (AsksInRange k t) :=
  inferInstanceAs (Decidable (_ → _ → _))

instance (k : KernelData) (t : TdPtr) : Decidable (Exits k t) := inferInstanceAs (Decidable (_ ∧ _))

variable {k k' : KernelData} {t : TdPtr} {ls : Priority → List TdPtr}

theorem WellQueued.readyQueues (h : WellQueued k ls) : ReadyQueues k ls none := by
  refine ⟨h.nodes, .of_tail h.chain h.tail h.disjoint, fun p i ↦ ⟨fun hi ↦ ⟨by simp, ?_⟩, ?_⟩⟩
  · have hl := h.dead p i hi
    obtain ⟨p', hi', hp⟩ := h.live i hl
    obtain rfl := h.disjoint hi hi'
    exact ⟨hl, hp⟩
  · rintro ⟨-, hl, hp⟩
    obtain ⟨p', hi, hp'⟩ := h.live i hl
    obtain rfl : p' = p := Fin.ext (hp'.symm.trans hp)
    exact hi

theorem ReadyQueues.wellQueued (h : ReadyQueues k ls none) (hr : PrioritiesInRange k) :
    WellQueued k ls where
  nodes := h.nodes
  chain := h.exact.chain
  tail := h.exact.tail_eq
  nodup := h.exact.nodup
  disjoint := h.exact.disjoint
  live i hi := ⟨⟨_, hr i hi⟩, (h.mem _ i).mpr ⟨by simp, hi, rfl⟩, rfl⟩
  dead p i hi := ((h.mem p i).mp hi).2.1

theorem ReadyQueues.searchEnds {s : RtosMain} (h : ReadyQueues s.kernel ls none) :
    SearchEnds s := by
  intro it
  rw [loopHead_scheduler]
  obtain ⟨r, hr, -⟩ := schedule_spec h.nodes h.exact (loopHead it s).tds
  exact ⟨r, hr⟩

/-- What `schedule` does with the lists `ls`: nothing if no task is ready,
else it takes out the first ready task of the first priority that has one. -/
inductive Picked (tds : TdPtr → TaskDescriptor) (ls : Priority → List TdPtr) :
    Option TdPtr → (Priority → List TdPtr) → Prop
  | idle : (∀ p, ∀ x ∈ ls p, isTaskReady (tds x) = false) → Picked tds ls none ls
  | task {p : Priority} {pre post : List TdPtr} {x : TdPtr} : ls p = pre ++ x :: post →
      isTaskReady (tds x) = true → (∀ y ∈ pre, isTaskReady (tds y) = false) →
      (∀ p' < p, ∀ y ∈ ls p', isTaskReady (tds y) = false) →
      Picked tds ls (some x) (update ls p (pre ++ post))

/-- The task that `schedule` returns is the only one that leaves its queue. -/
theorem ReadyQueues.pick (h : ReadyQueues k ls none) {sched : SchedulerStructure}
    {picked : Option TdPtr} (hs : schedule k.schedulerStructure k.tds = .ok (sched, picked)) :
    ∃ ls', ReadyQueues { k with schedulerStructure := sched } ls' picked ∧
      Picked k.tds ls picked ls' := by
  obtain ⟨r, hr, hspec⟩ := schedule_spec h.nodes h.exact k.tds
  obtain rfl := Except.ok.inj (hr.symm.trans hs)
  cases hspec with
  | idle hl => exact ⟨ls, ⟨h.nodes, h.exact, h.mem⟩, .idle fun p ↦ hl p (List.mem_finRange p)⟩
  | picked before after i pre post x his hi hx hpre hb =>
    refine ⟨update ls i (pre ++ post), ⟨h.nodes.unlink _ _ _, ?_, fun p y ↦ ?_⟩,
      .task hi hx hpre fun p hp ↦ hb p ((finRange_split his).mpr hp)⟩
    · rw [SchedulerStructure.unlink_queues]
      exact h.exact.unlink hi
    · rw [h.exact.mem_unlink hi, h.mem p y]
      simp

theorem handleSyscall_live (hk : handleSyscall k t = .ok k') {q : TdPtr → List TdPtr}
    (hq : SendInvariant k q) (hstate : (k.tds t).state = .syscallBlk) (he : ¬ Exits k t) :
    isTdAvailable (k'.tds t) = false := by
  have hex : hasExited (k'.tds t) = false := by
    by_contra hex
    exact he ⟨hstate, handleSyscall_ends hk hq hstate (by simpa using hex)⟩
  have hinv : (k'.tds t).state ≠ .invalid := by
    have hc := (handleSyscall_effect hstate hk).caller hq hstate
    generalize k'.tds t = td at hc
    cases hc with
    | intro s p v head tail next hs hp => exact hs
  unfold hasExited at hex
  unfold isTdAvailable
  split <;> simp_all

theorem InterruptEffect.live {w : Word} (h : InterruptEffect k w k')
    (hstate : (k.tds t).state = .hwint) : isTdAvailable (k'.tds t) = false := by
  have hlive : isTdAvailable (k.tds t) = false := by simp [isTdAvailable, hstate]
  cases h with
  | ignored => exact hlive
  | lost => exact hlive
  | wakes e x i he hx hi =>
    rw [woken_tds]
    by_cases hti : t = i
    · rw [hti, KernelData.modify_self]
      rfl
    · rwa [KernelData.modify_of_ne _ _ hti]

/-- A task that came back is served and joins the queue of its priority, or
it was killed. -/
theorem ReadyQueues.serve {s : RtosMain} {c : Pass}
    (h : ReadyQueues (c.entry s t) ls (some t)) (hk : KernelInvariant (c.entry s t))
    (hr : PrioritiesInRange (c.entry s t)) (ha : AsksInRange (c.entry s t) t)
    (he : ¬ Exits (c.entry s t) t)
    (hd : dispatch c.iteration
      { loopHead c.iteration s with schedulerStructure := c.scheduler } t = .ok k') :
    ∃ ls', ReadyQueues k' ls' none ∧ ∀ p, ls p <+: ls' p := by
  obtain ⟨q, hq⟩ := hk.send
  rcases dispatch_eq_ok hd with ⟨hex, rfl⟩ | ⟨hex, k₁, sched, hk₁, hs, rfl⟩
  · refine ⟨ls, ReadyQueues.drop (k := c.entry s t) h ?_, fun _ ↦ List.prefix_rfl⟩
    change hasExited ((c.entry s t).tds t) = true at hex
    unfold hasExited at hex
    unfold isTdAvailable
    split at hex <;> simp_all
  · change hasExited ((c.entry s t).tds t) = false at hex
    change kernelTasks (c.entry s t) t _ = _ at hk₁
    rcases entry_state c s t with hst | ⟨hst, hreason⟩ | ⟨hst, hreason⟩
    · simp [hasExited, hst] at hex
    · rw [kernelTasks, if_pos hreason] at hk₁
      have heff := handleSyscall_effect hst hk₁
      obtain ⟨ls₁, h₁, hjoin⟩ := h.call heff hq hr ha hst
      have hlive := handleSyscall_live hk₁ hq hst he
      obtain ⟨ls₂, h₂, hjoin'⟩ := h₁.resume hlive (hr.call heff hq hst ha t hlive) hs
      exact ⟨ls₂, h₂, fun p ↦ (hjoin p).trans (hjoin' p)⟩
    · rw [kernelTasks, if_neg hreason] at hk₁
      have heff := handleInterrupt_effect hk₁
      have hlive := heff.live hst
      exact (h.interrupt hk heff).resume hlive (hr.interrupt hk heff t hlive) hs

theorem dispatched_eq {s : RtosMain} {c : Pass}
    (hs : schedule (loopHead c.iteration s).schedulerStructure (loopHead c.iteration s).tds =
      .ok (c.scheduler, c.picked)) :
    dispatched s c.iteration = c.picked.map fun t ↦ (t, c.entry s t) := by
  unfold dispatched
  rw [hs]
  cases c.picked <;> rfl

theorem ReadyQueues.entry {s : RtosMain} {c : Pass}
    (h : ReadyQueues { loopHead c.iteration s with schedulerStructure := c.scheduler } ls (some t)) :
    ReadyQueues (c.entry s t) ls (some t) :=
  (h.modify c.iteration.preemption.result).same (runTask_same _ _ t) (runTask_scheduler _ _ t)

/-- What one pass of the loop does with the ready queues, if the task that it
dispatches does not exit: one task leaves, and tasks join at the ends. -/
theorem ReadyQueues.step {s s' : RtosMain} {it : Iteration} (h : ReadyQueues s.kernel ls none)
    (hk : KernelInvariant s.kernel) (hr : PrioritiesInRange s.kernel) (hstep : loopStep s it s')
    (ha : ∀ r ∈ dispatched s it, AsksInRange r.2 r.1)
    (he : ∀ r ∈ dispatched s it, ¬ Exits r.2 r.1) :
    ∃ ls₁ ls', Picked (loopHead it s).tds ls ((dispatched s it).map Prod.fst) ls₁ ∧
      (∀ p, ls₁ p <+: ls' p) ∧ ReadyQueues s'.kernel ls' none := by
  obtain ⟨c, rfl, hpass, hs⟩ := loopStep_pass h.nodes hstep
  have hdisp {t : TdPtr} (ht : c.picked = some t) : (t, c.entry s t) ∈ dispatched s c.iteration := by
    rw [dispatched_eq hs, ht]
    rfl
  have hfst : (dispatched s c.iteration).map Prod.fst = c.picked := by
    rw [dispatched_eq hs]
    cases c.picked <;> rfl
  rw [hfst]
  obtain ⟨ls₁, h₁, hpicked⟩ :=
    (h.same (loopHead_same c.iteration s) (loopHead_scheduler _ _)).pick hs
  suffices hq : ∃ ls', ReadyQueues s'.kernel ls' none ∧ ∀ p, ls₁ p <+: ls' p by
    obtain ⟨ls', h', hjoin⟩ := hq
    exact ⟨ls₁, ls', hpicked, hjoin, h'⟩
  rcases passStep_cases hpass with ⟨hp, rfl⟩ | ⟨t, hp, -, hd⟩
  · rw [hp] at h₁
    exact ⟨ls₁, h₁, fun _ ↦ List.prefix_rfl⟩
  · rw [hp] at h₁
    have hentry : KernelInvariant (c.entry s t) ∧ PrioritiesInRange (c.entry s t) :=
      entry_invariant (P := fun k ↦ KernelInvariant k ∧ PrioritiesInRange k)
        (fun hs h ↦ ⟨h.1.same hs, h.2.same hs⟩) (fun p hr h ↦ ⟨h.1.enter p hr, h.2.enter p hr⟩)
        (hpass.1 t hp) ⟨hk, hr⟩
    exact h₁.entry.serve hentry.1 hentry.2 (ha _ (hdisp hp)) (he _ (hdisp hp)) hd

/-- One pass of the loop keeps the ready queues, if the task that it
dispatches does not exit. -/
theorem readyQueues_loop {s s' : RtosMain} {it : Iteration} (hk : KernelInvariant s.kernel)
    (hr : PrioritiesInRange s.kernel) (h : ReadyQueues s.kernel ls none) (hstep : loopStep s it s')
    (ha : ∀ r ∈ dispatched s it, AsksInRange r.2 r.1)
    (he : ∀ r ∈ dispatched s it, ¬ Exits r.2 r.1) :
    KernelInvariant s'.kernel ∧ PrioritiesInRange s'.kernel ∧
      ∃ ls', ReadyQueues s'.kernel ls' none := by
  obtain ⟨-, ls', -, -, h'⟩ := h.step hk hr hstep ha he
  obtain ⟨c, rfl, hpass, hs⟩ := loopStep_pass h.nodes hstep
  refine ⟨hk.pass hpass, priorities_pass hk hr hpass fun t ht ↦ ha (t, c.entry s t) ?_, ls', h'⟩
  rw [dispatched_eq hs, ht]
  rfl

/-- A task that exits is put back into a ready queue. -/
theorem not_wellQueued_of_exits {s s' : RtosMain} {it : Iteration}
    (h : ReadyQueues s.kernel ls none) (hstep : loopStep s it s') {r : TdPtr × KernelData}
    (hr : r ∈ dispatched s it) (he : Exits r.2 r.1) (ls' : Priority → List TdPtr) :
    ¬ WellQueued s'.kernel ls' := by
  obtain ⟨c, rfl, hpass, hs⟩ := loopStep_pass h.nodes hstep
  obtain ⟨ls₁, h₁, -⟩ := (h.same (loopHead_same c.iteration s) (loopHead_scheduler _ _)).pick hs
  rw [dispatched_eq hs, Option.mem_def, Option.map_eq_some_iff] at hr
  obtain ⟨t, hp, rfl⟩ := hr
  obtain ⟨hst, hcall⟩ : Exits (c.entry s t) t := he
  have hafter := hpass.2
  unfold afterSchedule at hafter
  rw [hp] at h₁ hafter
  cases hd : dispatch c.iteration
      { loopHead c.iteration s with schedulerStructure := c.scheduler } t with
  | error e => simp [hd, bind, Except.bind] at hafter
  | ok k' =>
    simp only [hd, bind, Except.bind, Except.ok.injEq] at hafter
    subst hafter
    rcases dispatch_eq_ok hd with ⟨hex, -⟩ | ⟨-, k₁, sched, hk₁, hadd, rfl⟩
    · change hasExited ((c.entry s t).tds t) = true at hex
      simp [hasExited, hst] at hex
    · change kernelTasks (c.entry s t) t _ = _ at hk₁
      have hreason : c.iteration.preemption.reason = 0 := by
        rcases entry_state c s t with hs | ⟨-, hreason⟩ | ⟨hs, -⟩
        · simp [hst] at hs
        · exact hreason
        · simp [hst] at hs
      have hk : handleSyscall (c.entry s t) t =
          .ok (storeResult t (sysExit t (c.entry s t))) := by
        unfold handleSyscall
        rw [if_neg (by simp [hst])]
        simp only [hcall]
      rw [kernelTasks, if_pos hreason, hk] at hk₁
      obtain rfl := Except.ok.inj hk₁
      have hexit : CallerOnly (c.entry s t) (storeResult t (sysExit t (c.entry s t))) t .exited :=
        callerOnly_storeResult (c.entry s t) t .exited 0
      have h₂ := h₁.entry.callerOnly hexit
      rw [schedulerAdd_eq h₂.nodes] at hadd
      split_ifs at hadd with hi
      obtain rfl := Except.ok.inj hadd
      intro hw
      have hlists := (h₂.exact.append ⟨_, hi⟩ h₂.not_mem).unique
        (SchedulerStructure.append_queues _ _ _ ▸ hw.readyQueues.exact.toRepresents)
      have hdead := hw.dead ⟨_, hi⟩ t (by rw [← hlists, update_self]; simp)
      simp [isTdAvailable, hexit.state] at hdead

theorem ReadyQueues.boot (b : Boot) : ∃ ls, ReadyQueues (booted b).kernel ls none := by
  have hinit : Exact schedulerInit.queues fun _ ↦ [] := .nil _
  refine ⟨update (fun _ ↦ []) 0 [0], fun i ↦ (show schedulerInit.Nodes from fun _ ↦ rfl).append 0 0 i,
    ?_, fun p i ↦ ?_⟩
  · change Exact (schedulerInit.append 0 0).queues _
    rw [SchedulerStructure.append_queues]
    exact hinit.append 0 (x := (0 : TdPtr)) (by simp)
  · rw [show i ∈ update (fun _ ↦ []) 0 [0] p ↔ i ∈ [] ∨ p = 0 ∧ i = 0 from mem_update_append]
    have hs := booted_state b i
    by_cases hi : i = 0
    · subst hi
      have hpri : ((booted b).kernel.tds 0).priority = 0 := rfl
      simp only [TaskDescriptor.LiveAt, isTdAvailable, hs, hpri]
      refine ⟨fun h ↦ ⟨by simp, rfl, ?_⟩, fun h ↦ .inr ⟨Fin.ext h.2.2.symm, trivial⟩⟩
      obtain rfl : p = 0 := by simpa using h
      rfl
    · rw [if_neg hi] at hs
      simp [TaskDescriptor.LiveAt, isTdAvailable, hs, hi]

/-- Over any run of the loop, with priorities in range: the ready queues are
as they should be whenever `schedule` is called, exactly when no task exits. -/
theorem wellQueued_iff {b : Boot} {its : List Iteration} {s : RtosMain}
    (h : Run loopStep (booted b) its s)
    (ha : EachStep loopStep (booted b) its fun s it ↦ ∀ r ∈ dispatched s it, AsksInRange r.2 r.1) :
    (Throughout loopStep (booted b) its fun s ↦
        (∃ ls, WellQueued s.kernel ls) ∧ SearchEnds s) ↔
      EachStep loopStep (booted b) its fun s it ↦ ∀ r ∈ dispatched s it, ¬ Exits r.2 r.1 := by
  constructor
  · rintro hw pre it ⟨post, rfl⟩ s₁ hr r hd hex
    obtain ⟨s₂, hr₂, -⟩ := h.split
    obtain ⟨s₁', hr₁, hstep⟩ := hr₂.unsnoc
    obtain rfl := hr₁.unique (fun h h' ↦ Except.ok.inj (h.symm.trans h')) hr
    obtain ⟨⟨ls, hls⟩, -⟩ := hw pre ((List.prefix_append _ _).trans (List.prefix_append _ _)) _ hr₁
    obtain ⟨⟨ls', hls'⟩, -⟩ := hw _ (List.prefix_append _ _) _ hr₂
    exact not_wellQueued_of_exits hls.readyQueues hstep hd hex ls' hls'
  · intro he
    have hinv : Throughout loopStep (booted b) its fun s ↦ KernelInvariant s.kernel ∧
        PrioritiesInRange s.kernel ∧ ∃ ls, ReadyQueues s.kernel ls none := by
      refine throughout_of_eachStep (Q := fun s it ↦ (∀ r ∈ dispatched s it, AsksInRange r.2 r.1) ∧
        ∀ r ∈ dispatched s it, ¬ Exits r.2 r.1)
        ⟨(Reachable.boot b).kernelInvariant, .boot b, ReadyQueues.boot b⟩ ?_
        fun pre it hpre s hr ↦ ⟨ha pre it hpre s hr, he pre it hpre s hr⟩
      rintro s it s' ⟨hk, hr, ls, hls⟩ hstep ⟨ha, he⟩
      exact readyQueues_loop hk hr hls hstep ha he
    intro pre hpre s hr
    obtain ⟨-, hpri, ls, hls⟩ := hinv pre hpre s hr
    exact ⟨⟨ls, hls.wellQueued hpri⟩, hls.searchEnds⟩

def loopNext (s : RtosMain) (it : Iteration) : Option RtosMain := (loopBody it s).toOption

theorem loopNext_eq_some (s : RtosMain) (it : Iteration) (s' : RtosMain) :
    loopNext s it = some s' ↔ loopStep s it s' := by
  unfold loopNext loopStep
  cases loopBody it s <;> simp [Except.toOption]

/-- The first task creates two others and then waits for a message. -/
def creationIterations : List Iteration :=
  [(callBy 0 5 1 0x300#32 0 0 0 0).iteration, (callBy 0 5 1 0x300#32 0 0 0 0).iteration,
    (callBy 0 9 0x20005c00#32 0x20005c10#32 8 0 0 0).iteration]

theorem eachStep_of_decide (its : List Iteration) (Q : RtosMain → Iteration → Bool)
    (h : checkEach loopNext Q (booted sampleBoot) its = true) :
    EachStep loopStep (booted sampleBoot) its fun s it ↦ Q s it = true :=
  eachStep_of_checkEach (fun s it s' ↦ (loopNext_eq_some s it s').mpr) h

theorem wellQueued_creations : ∃ s, Run loopStep (booted sampleBoot) creationIterations s ∧
    ∃ ls, WellQueued s.kernel ls := by
  have hrun := exists_run (fun s it s' ↦ (loopNext_eq_some s it s').mp) (booted sampleBoot)
    creationIterations
    (fun _ ↦ true) (by decide +kernel)
  obtain ⟨s, hr, -⟩ := hrun
  have ha := eachStep_of_decide creationIterations
    (fun s it ↦ decide (∀ r ∈ dispatched s it, AsksInRange r.2 r.1)) (by decide +kernel)
  have he := eachStep_of_decide creationIterations
    (fun s it ↦ decide (∀ r ∈ dispatched s it, ¬ Exits r.2 r.1)) (by decide +kernel)
  simp only [decide_eq_true_eq] at ha he
  exact ⟨s, hr, ((wellQueued_iff hr ha).mpr he _ (List.prefix_refl _) s hr).1⟩

/-- Of two more tasks one exits and one sends, and the first task creates
another one, in the place of the first of the two. -/
def exitIterations : List Iteration := creationIterations ++
  [(callBy 1 4 0 0 0 0 0 0).iteration,
    (callBy 2 8 0x1000#32 0x20005400#32 4 0x20005410#32 4 0).iteration,
    (callBy 0 5 1 0x300#32 0 0 0 0).iteration]

/-- A task that only waits for a reply is in no queue any more. -/
theorem exit_drops_task : ∃ s, Run loopStep (booted sampleBoot) exitIterations s ∧
    (EachStep loopStep (booted sampleBoot) exitIterations fun s it ↦
      ∀ r ∈ dispatched s it, AsksInRange r.2 r.1) ∧
    (s.kernel.tds 2).state = .rplyBlk ∧ ∀ ls, ¬ WellQueued s.kernel ls := by
  have ha := eachStep_of_decide exitIterations
    (fun s it ↦ decide (∀ r ∈ dispatched s it, AsksInRange r.2 r.1)) (by decide +kernel)
  simp only [decide_eq_true_eq] at ha
  have hrun := exists_run (fun s it s' ↦ (loopNext_eq_some s it s').mp) (booted sampleBoot)
    exitIterations (fun s ↦ decide ((s.kernel.tds 2).state = .rplyBlk ∧
      (s.kernel.tds 2).priority = 1 ∧ s.kernel.schedulerStructure.queueHeads 1 = some 1 ∧
      (s.kernel.schedulerStructure.allTasks 1).next = none)) (by decide +kernel)
  obtain ⟨s, hr, hp⟩ := hrun
  obtain ⟨hstate, hpri, hhead, hnext⟩ := of_decide_eq_true hp
  refine ⟨s, hr, ha, hstate, fun ls hw ↦ ?_⟩
  have hc := hw.chain 1
  rw [hhead] at hc
  have hlist : ls 1 = [1] := hc.unique (.cons (by rw [hnext]; exact .nil))
  obtain ⟨p, hmem, hat⟩ := hw.live 2 (by simp [isTdAvailable, hstate])
  obtain rfl : p = 1 := Fin.ext (by rw [← hat, hpri]; rfl)
  simp [hlist] at hmem

end PrjOS
