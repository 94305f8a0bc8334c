import PrjOS.Properties.Scheduling
import PrjOS.Library.Overtaking

namespace PrjOS

open ByteMemory Function LinkedQueue Transition Overtaking

structure Turn where
  task : TdPtr
  priority : Word
  deriving DecidableEq

/-- The task that a pass of the loop dispatches, and the priority that it has
then. -/
def turn (s : RtosMain) (it : Iteration) : Option Turn :=
  (dispatched s it).map fun r ↦ ⟨r.1, (s.kernel.tds r.1).priority⟩

def taskTurns (s : RtosMain) (its : List Iteration) : List Turn := turns loopNext turn s its

variable {k k' : KernelData} {q : TdPtr → List TdPtr} {t i : TdPtr} {ls : Priority → List TdPtr}

def ReadyAt (k : KernelData) (i : TdPtr) (p : Word) : Prop :=
  isTaskReady (k.tds i) = true ∧ (k.tds i).priority = p

theorem ready_core {td td' : TaskDescriptor} (h : td.core = td'.core) :
    isTaskReady td = isTaskReady td' := by
  unfold isTaskReady
  rw [core_state h]

theorem ReadyAt.same {p : Word} (h : ReadyAt k i p) (hs : SameTasks k k') : ReadyAt k' i p :=
  ⟨(ready_core (hs.core i)).trans h.1, (core_priority (hs.core i)).trans h.2⟩

theorem ReadyAt.congr {p : Word} (h : ReadyAt k i p) (hs : k'.tds i = k.tds i) :
    ReadyAt k' i p := by
  rwa [ReadyAt, hs]

theorem not_available_of_ready {td : TaskDescriptor} (h : isTaskReady td = true) :
    isTdAvailable td = false := by
  unfold isTaskReady at h
  unfold isTdAvailable
  split at h <;> simp_all

/-- No call takes a ready task out of its queue. -/
theorem OtherChange.readyAt {td : TaskDescriptor} {p : Word} (h : OtherChange k t i td)
    (hq : SendInvariant k q) (hr : ReadyAt k i p) :
    isTaskReady td = true ∧ td.priority = p := by
  have hnot {s : TaskState} (hs : (k.tds i).state = s) (hn : s ≠ .running ∧ s ≠ .hwint) :
      False := by
    have hready := hr.1
    unfold isTaskReady at hready
    split at hready <;> simp_all
  cases h with
  | kept => exact hr
  | handed v hcall ht hs => exact (hnot hs (by decide)).elim
  | received v blocking hcall hs => exact (hnot (hq.head_blocked hs) (by decide)).elim
  | replied v hcall hl hs => exact (hnot hs (by decide)).elim
  | created c params hcall hp hj =>
    have hlive := not_available_of_ready hr.1
    rw [(findAvailable_some hj).2] at hlive
    cases hlive

theorem InterruptEffect.readyAt {w p : Word} (h : InterruptEffect k w k') (hk : KernelInvariant k)
    (hr : ReadyAt k i p) : ReadyAt k' i p := by
  cases h with
  | ignored => exact hr
  | lost => exact hr
  | wakes e x j he hx hj =>
    refine hr.congr ?_
    obtain ⟨j', hj', hb⟩ := hk.events.wakes hk.ids hx
    obtain rfl := Option.some.inj (hj.symm.trans hj')
    rw [woken_tds]
    refine KernelData.modify_of_ne _ _ ?_
    rintro rfl
    have hready := hr.1
    simp [isTaskReady, hb] at hready

/-- A ready task stays ready until it is dispatched. -/
theorem ReadyAt.pass {s s' : RtosMain} {c : Pass} {p : Word} (h : ReadyAt s.kernel i p)
    (hk : KernelInvariant s.kernel) (hstep : passStep s c s') (hi : c.picked ≠ some i) :
    ReadyAt s'.kernel i p := by
  have hentry {x : TdPtr} (hx : c.picked = some x) : i ≠ x ∧ ReadyAt (c.entry s x) i p := by
    have hne : i ≠ x := fun hix ↦ hi (hix ▸ hx)
    have hhead := h.same (loopHead_same c.iteration s)
    exact ⟨hne, (hhead.congr (KernelData.modify_of_ne _ _ hne)).same (entry_same c s x)⟩
  have hinv {x : TdPtr} (hx : c.picked = some x) : KernelInvariant (c.entry s x) :=
    entry_invariant (fun hs h ↦ h.same hs) (fun p hr h ↦ h.enter p hr) (hstep.1 x hx) hk
  rcases passStep_outcome hstep with ⟨-, hs⟩ | ⟨x, hx, -, hs⟩ | ⟨x, k, hx, hst, hcall, hs⟩ |
    ⟨x, k, hx, -, hwake, hs⟩
  · exact h.same hs
  · rw [hs]
    exact (hentry hx).2
  · obtain ⟨hne, hr⟩ := hentry hx
    obtain ⟨q, hq⟩ := (hinv hx).send
    have hother := (handleSyscall_effect hst hcall).other hq hst hne
    exact ReadyAt.same (hother.readyAt hq hr) hs
  · exact ((handleInterrupt_effect hwake).readyAt (hinv hx) (hentry hx).2).same hs

/-- Task `i` is ready at priority `p`, and the tasks in `waiting` are before it
in its queue. -/
structure Waits (i : TdPtr) (p : Word) (s : RtosMain) (waiting : List TdPtr) : Prop where
  kernel : KernelInvariant s.kernel
  priorities : PrioritiesInRange s.kernel
  ready : ReadyAt s.kernel i p
  queue : ∃ ls, ReadyQueues s.kernel ls none ∧ ∃ j : Priority, p.toNat = j.val ∧
    i ∈ ls j ∧ ahead i (ls j) = waiting

theorem ReadyQueues.mem_of_readyAt {s : RtosMain} {p : Word} (h : ReadyQueues s.kernel ls none)
    (hr : ReadyAt s.kernel i p) {j : Priority} (hj : p.toNat = j.val) : i ∈ ls j :=
  (h.mem j i).mpr ⟨by simp, not_available_of_ready hr.1, by rw [hr.2, hj]⟩

theorem ReadyAt.waits {s : RtosMain} {p : Word} (h : ReadyAt s.kernel i p)
    (hk : KernelInvariant s.kernel) (hr : PrioritiesInRange s.kernel)
    (hls : ReadyQueues s.kernel ls none) {j : Priority} (hj : p.toNat = j.val) :
    Waits i p s (ahead i (ls j)) :=
  ⟨hk, hr, h, ls, hls, j, hj, hls.mem_of_readyAt h hj, rfl⟩

/-- As long as a ready task is not dispatched, each pass dispatches one of the
tasks before it in its queue or a task that is more important. -/
theorem Waits.step {s s' : RtosMain} {it : Iteration} {p : Word} {waiting : List TdPtr}
    (h : Waits i p s waiting)
    (ha : ∀ r ∈ dispatched s it, AsksInRange r.2 r.1 ∧ ¬ Exits r.2 r.1)
    (hi : ∀ u ∈ turn s it, u.task ≠ i) (hstep : loopStep s it s') :
    ∃ u waiting', turn s it = some u ∧ u.priority.toNat ≤ p.toNat ∧ Waits i p s' waiting' ∧
      (([u].filter fun u ↦ decide (u.priority = p)).map Turn.task ++ waiting').Subperm waiting := by
  obtain ⟨hk, hr, hready, ls, hls, j, hj, hmem, rfl⟩ := h
  have hasks := fun r hr ↦ (ha r hr).1
  have hstays := fun r hr ↦ (ha r hr).2
  obtain ⟨ls₁, ls', hpicked, hjoin, hls'⟩ := hls.step hk hr hstep hasks hstays
  obtain ⟨hk', hr', -⟩ := readyQueues_loop hk hr hls hstep hasks hstays
  have hhead : isTaskReady ((loopHead it s).tds i) = true :=
    (ready_core ((loopHead_same it s).core i)).trans hready.1
  cases hd : dispatched s it with
  | none =>
    rw [hd] at hpicked
    cases hpicked with
    | idle hl => simp [hl j i hmem] at hhead
  | some r =>
    obtain ⟨x, k'⟩ := r
    have hturn : turn s it = some ⟨x, (s.kernel.tds x).priority⟩ := by rw [turn, hd]; rfl
    have hxi : x ≠ i := hi _ hturn
    have hready' : ReadyAt s'.kernel i p := by
      obtain ⟨c, rfl, hpass, hs⟩ := loopStep_pass hls.nodes hstep
      refine hready.pass hk hpass fun hc ↦ hxi ?_
      rw [dispatched_eq hs, hc] at hd
      exact (congrArg Prod.fst (Option.some.inj hd)).symm
    refine ⟨_, ahead i (ls' j), hturn, ?_⟩
    rw [hd] at hpicked
    cases hpicked with
    | @task j' pre post _ hsplit hx hpre hbefore =>
      have hxmem : x ∈ ls j' := by simp [hsplit]
      have hxj' : (s.kernel.tds x).priority.toNat = j'.val := ((hls.mem j' x).mp hxmem).2.2
      have hle : j' ≤ j := by
        refine not_lt.mp fun hlt ↦ ?_
        simp [hbefore j hlt i hmem] at hhead
      refine ⟨by rw [hxj', hj]; exact hle, hready'.waits hk' hr' hls' hj, ?_⟩
      have hjoin := hjoin j
      by_cases hjj' : j' = j
      · -- one of the tasks before `i` is gone
        subst hjj'
        rw [update_self] at hjoin
        have hipre : i ∉ pre := fun hip ↦ by simp [hpre i hip] at hhead
        have hipost : i ∈ pre ++ post := by
          rw [hsplit] at hmem
          simpa [Ne.symm hxi] using hmem
        have hp : (s.kernel.tds x).priority = p := BitVec.eq_of_toNat_eq (hxj'.trans hj.symm)
        rw [ahead_of_append hjoin hipost, hsplit]
        simpa [hp] using (ahead_remove hipre hxi).subperm
      · rw [update_of_ne (Ne.symm hjj')] at hjoin
        have hp : (s.kernel.tds x).priority ≠ p := by
          rintro rfl
          exact hjj' (Fin.ext (hxj'.symm.trans hj))
        rw [ahead_of_append hjoin hmem]
        simpa [hp] using List.Subperm.refl _

theorem readyQueues_run {b : Boot} {its pre : List Iteration} {s : RtosMain}
    (ha : EachStep loopStep (booted b) its fun s it ↦
      ∀ r ∈ dispatched s it, AsksInRange r.2 r.1 ∧ ¬ Exits r.2 r.1)
    (hpre : pre <+: its) (h : Run loopStep (booted b) pre s) :
    KernelInvariant s.kernel ∧ PrioritiesInRange s.kernel ∧
      ∃ ls, ReadyQueues s.kernel ls none := by
  have hinv : Throughout loopStep (booted b) its fun s ↦ KernelInvariant s.kernel ∧
      PrioritiesInRange s.kernel ∧ ∃ ls, ReadyQueues s.kernel ls none := by
    refine throughout_of_eachStep
      ⟨(Reachable.boot b).kernelInvariant, .boot b, ReadyQueues.boot b⟩ ?_ ha
    rintro s it s' ⟨hk, hr, ls, hls⟩ hstep hd
    exact readyQueues_loop hk hr hls hstep (fun r hr ↦ (hd r hr).1) fun r hr ↦ (hd r hr).2
  exact hinv pre hpre s h

theorem loopNext_of_step (s : RtosMain) (it : Iteration) (s' : RtosMain) (h : loopStep s it s') :
    loopNext s it = some s' := (loopNext_eq_some s it s').mpr h

/-- Task `x` comes before task `i` in the ready queue of `i`. -/
def AheadOf (k : KernelData) (i x : TdPtr) : Prop :=
  ∃ ls, ReadyQueues k ls none ∧
    ∃ j : Priority, (k.tds i).priority.toNat = j.val ∧ i ∈ ls j ∧ x ∈ ahead i (ls j)

/-- Over any run of the loop in which priorities stay in range and no task
exits: as long as a ready task is not dispatched, every pass dispatches a task
that is at least as important, and the tasks of its own priority have at most
one turn each, those that come to this priority later or that are behind it in
its queue none. -/
theorem ready_task_overtaken_once {b : Boot} {its rest : List Iteration} {s s' : RtosMain}
    {t : TdPtr} (h : Run loopStep (booted b) its s) (h' : Run loopStep s rest s')
    (ha : EachStep loopStep (booted b) (its ++ rest) fun s it ↦
      ∀ r ∈ dispatched s it, AsksInRange r.2 r.1 ∧ ¬ Exits r.2 r.1)
    (ht : isTaskReady (s.kernel.tds t) = true) (hwait : ∀ u ∈ taskTurns s rest, u.task ≠ t) :
    (taskTurns s rest).length = rest.length ∧
      (∀ u ∈ taskTurns s rest, u.priority.toNat ≤ (s.kernel.tds t).priority.toNat) ∧
      (((taskTurns s rest).filter fun u ↦
        decide (u.priority = (s.kernel.tds t).priority)).map Turn.task).Nodup ∧
      ∀ u ∈ taskTurns s rest, u.priority = (s.kernel.tds t).priority →
        isTdAvailable (s.kernel.tds u.task) = false ∧
          (s.kernel.tds u.task).priority = (s.kernel.tds t).priority ∧
          AheadOf s.kernel t u.task := by
  obtain ⟨hk, hr, ls, hls⟩ := readyQueues_run ha (List.prefix_append _ _) h
  have hpri := hr t (not_available_of_ready ht)
  have hready : ReadyAt s.kernel t (s.kernel.tds t).priority := ⟨ht, rfl⟩
  have hplace := hready.waits hk hr hls (j := ⟨_, hpri⟩) rfl
  obtain ⟨hlength, hall, hsub⟩ := turns_of_run
    (fun u ↦ decide (u.priority = (s.kernel.tds t).priority)) Turn.task loopNext_of_step
    (fun s it s' waiting hplace hd hturn hstep ↦ hplace.step hd hturn hstep) h'
    (ha.after h) hwait hplace
  refine ⟨hlength, hall, nodup_of_subperm hsub (ahead_nodup (hls.exact.nodup _) t), ?_⟩
  intro u hu hp
  have hahead : u.task ∈ ahead t (ls ⟨_, hpri⟩) :=
    hsub.subset (List.mem_map_of_mem (List.mem_filter.mpr ⟨hu, decide_eq_true hp⟩))
  obtain ⟨-, hlive, hat⟩ := (hls.mem _ _).mp (ahead_subset t _ hahead)
  exact ⟨hlive, BitVec.eq_of_toNat_eq hat, ls, hls, _, rfl, hls.mem_of_readyAt hready rfl, hahead⟩

/-- Of two tasks with the same priority the first one yields. -/
def yieldIteration : Iteration := (callBy 1 3 0 0 0 0 0 0).iteration

theorem ready_task_overtaken_once_yield : ∃ s,
    Run loopStep (booted sampleBoot) creationIterations s ∧
    isTaskReady (s.kernel.tds 2) = true ∧ taskTurns s [yieldIteration] = [⟨1, 1⟩] ∧
    (taskTurns s [yieldIteration]).length = 1 ∧
    isTdAvailable (s.kernel.tds 1) = false ∧
    (s.kernel.tds 1).priority = (s.kernel.tds 2).priority ∧ AheadOf s.kernel 2 1 := by
  have hrun := exists_run (fun s it s' ↦ (loopNext_eq_some s it s').mp) (booted sampleBoot)
    creationIterations (fun s ↦ decide (isTaskReady (s.kernel.tds 2) = true ∧
      taskTurns s [yieldIteration] = [⟨1, 1⟩] ∧ (s.kernel.tds 2).priority = 1) &&
      (execute loopNext s [yieldIteration]).any fun _ ↦ true) (by decide +kernel)
  obtain ⟨s, hr, hs⟩ := hrun
  rw [Bool.and_eq_true] at hs
  obtain ⟨hready, hturns, hpri⟩ := of_decide_eq_true hs.1
  obtain ⟨s', hr', -⟩ := exists_run (fun s it s' ↦ (loopNext_eq_some s it s').mp) s _ _ hs.2
  have ha := eachStep_of_decide (creationIterations ++ [yieldIteration])
    (fun s it ↦ decide (∀ r ∈ dispatched s it, AsksInRange r.2 r.1 ∧ ¬ Exits r.2 r.1))
    (by decide +kernel)
  simp only [decide_eq_true_eq] at ha
  obtain ⟨hlength, -, -, hlive⟩ :=
    ready_task_overtaken_once hr hr' ha hready (by rw [hturns]; decide)
  exact ⟨s, hr, hready, hturns, hlength, hlive ⟨1, 1⟩ (by rw [hturns]; simp) hpri.symm⟩

end PrjOS
