import PrjOS.ReadyLists
import PrjOS.Invariants.Priorities

namespace PrjOS

open ByteMemory Function LinkedQueue Transition

def TaskDescriptor.LiveAt (td : TaskDescriptor) (p : Nat) : Prop :=
  isTdAvailable td = false ∧ td.priority.toNat = p

/-- The ready queues hold the live tasks in the lists `ls`, each in the list
of its own priority, but for the task that is running. -/
structure ReadyQueues (k : KernelData) (ls : Priority → List TdPtr) (running : Option TdPtr) :
    Prop where
  nodes : k.schedulerStructure.Nodes
  exact : Exact k.schedulerStructure.queues ls
  mem : ∀ p i, i ∈ ls p ↔ some i ≠ running ∧ (k.tds i).LiveAt p.val

variable {k k' : KernelData} {q : TdPtr → List TdPtr} {t : TdPtr} {ls : Priority → List TdPtr}
  {running : Option TdPtr}

theorem ReadyQueues.congr (h : ReadyQueues k ls running)
    (hs : k'.schedulerStructure = k.schedulerStructure)
    (hl : ∀ i p, some i ≠ running → ((k'.tds i).LiveAt p ↔ (k.tds i).LiveAt p)) :
    ReadyQueues k' ls running := by
  refine ⟨hs ▸ h.nodes, hs ▸ h.exact, fun p i ↦ ?_⟩
  rw [h.mem p i]
  exact and_congr_right fun hi ↦ (hl i p hi).symm

theorem liveAt_core {td td' : TaskDescriptor} (h : td.core = td'.core) (p : Nat) :
    td.LiveAt p ↔ td'.LiveAt p := by
  unfold TaskDescriptor.LiveAt isTdAvailable
  rw [core_state h, core_priority h]

theorem ReadyQueues.same (h : ReadyQueues k ls running) (hs : SameTasks k k')
    (hsched : k'.schedulerStructure = k.schedulerStructure) : ReadyQueues k' ls running :=
  h.congr hsched fun i p _ ↦ liveAt_core (hs.core i) p

theorem ReadyQueues.modify (h : ReadyQueues k ls (some t)) (f : TaskDescriptor → TaskDescriptor) :
    ReadyQueues (k.modify t f) ls (some t) :=
  h.congr rfl fun i p hi ↦ by rw [KernelData.modify_of_ne _ _ (by simpa using hi)]

theorem ReadyQueues.not_mem (h : ReadyQueues k ls (some t)) (p : Priority) : t ∉ ls p :=
  fun ht ↦ ((h.mem p t).mp ht).1 rfl

/-- A task that comes back from a kill is in no queue, as it should. -/
theorem ReadyQueues.drop (h : ReadyQueues k ls (some t))
    (ht : isTdAvailable (k.tds t) = true) : ReadyQueues k ls none := by
  refine ⟨h.nodes, h.exact, fun p i ↦ ?_⟩
  rw [h.mem p i]
  refine ⟨fun hi ↦ ⟨by simp, hi.2⟩, fun hi ↦ ⟨?_, hi.2⟩⟩
  rintro ⟨rfl⟩
  simp [TaskDescriptor.LiveAt, ht] at hi

theorem ReadyQueues.append (h : ReadyQueues k ls running) {x : TdPtr} {p : Priority}
    {running' : Option TdPtr} (hx : ∀ p, x ∉ ls p)
    (hs : k'.schedulerStructure = k.schedulerStructure.append p x)
    (hl : ∀ p' i, (some i ≠ running' ∧ (k'.tds i).LiveAt p'.val) ↔
      i ∈ ls p' ∨ (p' = p ∧ i = x)) :
    ∃ ls', ReadyQueues k' ls' running' ∧ ∀ p, ls p <+: ls' p := by
  refine ⟨update ls p (ls p ++ [x]), ⟨hs ▸ h.nodes.append p x, ?_, fun p' i ↦ ?_⟩,
    prefix_update_append⟩
  · rw [hs, SchedulerStructure.append_queues]
    exact h.exact.append p hx
  · rw [mem_update_append, hl p' i]

theorem liveAt_inj {td : TaskDescriptor} {p p' : Priority} (h : td.LiveAt p.val)
    (h' : td.LiveAt p'.val) : p = p' := Fin.ext (h.2.symm.trans h'.2)

theorem ReadyQueues.resume (h : ReadyQueues k ls (some t))
    (hlive : isTdAvailable (k.tds t) = false) (hpri : (k.tds t).priority.toNat < tasksMaxPriority)
    {s : SchedulerStructure} (hs : schedulerAdd k.schedulerStructure k.tds (some t) = .ok s) :
    ∃ ls', ReadyQueues { k with schedulerStructure := s } ls' none ∧ ∀ p, ls p <+: ls' p := by
  have hmod : (k.tds t).priority.toNat % 256 = (k.tds t).priority.toNat :=
    Nat.mod_eq_of_lt (by unfold tasksMaxPriority at hpri; omega)
  rw [schedulerAdd_eq h.nodes] at hs
  split_ifs at hs with hi
  have hat : (k.tds t).LiveAt (⟨_, hi⟩ : Priority).val := ⟨hlive, hmod.symm⟩
  refine h.append (p := ⟨_, hi⟩) h.not_mem (Except.ok.inj hs).symm fun p i ↦ ?_
  rw [h.mem p i]
  by_cases hit : i = t
  · subst hit
    simp only [ne_eq, not_true_eq_false, false_and, false_or, and_true, reduceCtorEq,
      not_false_eq_true, true_and]
    exact ⟨fun hp ↦ liveAt_inj hp hat, fun hp ↦ hp ▸ hat⟩
  · simp [hit]

theorem ReadyQueues.create (h : ReadyQueues k ls (some t)) {j : TdPtr}
    {params : TaskCreateParameters} {s : SchedulerStructure} (hjt : j ≠ t)
    (hj : isTdAvailable (k.tds j) = true) (hpri : params.priority.toNat < tasksMaxPriority)
    (hs : schedulerAdd k.schedulerStructure
      (update k.tds j (newTask (k.tds j) k.memory params).1) (some j) = .ok s) :
    ∃ ls', ReadyQueues (created k t j params s) ls' (some t) ∧ ∀ p, ls p <+: ls' p := by
  have hmod : params.priority.toNat % 256 = params.priority.toNat :=
    Nat.mod_eq_of_lt (by unfold tasksMaxPriority at hpri; omega)
  rw [schedulerAdd_eq h.nodes, update_self] at hs
  split_ifs at hs with hi
  have hi' : params.priority.toNat % 256 < 7 := hi
  have hfree (p : Priority) : j ∉ ls p := by
    intro hm
    simpa [TaskDescriptor.LiveAt, hj] using ((h.mem p j).mp hm).2
  have hat : (newTask (k.tds j) k.memory params).1.LiveAt (⟨_, hi'⟩ : Priority).val :=
    ⟨rfl, hmod.symm⟩
  refine h.append (p := ⟨_, hi'⟩) hfree (Except.ok.inj hs).symm fun p i ↦ ?_
  by_cases hij : i = j
  · subst hij
    rw [created_new k params s hjt]
    have hne : some i ≠ some t := by simpa using hjt
    refine ⟨fun hp ↦ .inr ⟨liveAt_inj hp.2 hat, rfl⟩, fun hp ↦ ⟨hne, ?_⟩⟩
    rcases hp with hp | ⟨rfl, -⟩
    · exact absurd hp (hfree p)
    · exact hat
  · rw [h.mem p i]
    by_cases hit : i = t
    · simp [hit, Ne.symm hjt]
    · simp [hij, hit, created_other k params s hij hit]

theorem OtherChange.liveAt {i : TdPtr} {td : TaskDescriptor} (h : OtherChange k t i td)
    (hq : SendInvariant k q) (hc : ∀ c, (k.tds t).call = some c → createParams k t c = none)
    (p : Nat) : td.LiveAt p ↔ (k.tds i).LiveAt p := by
  unfold TaskDescriptor.LiveAt
  cases h with
  | kept => rfl
  | handed v hcall ht hs => simp [TaskDescriptor.resume, TaskDescriptor.relink, isTdAvailable, hs]
  | received v blocking hcall hs =>
    have hb := hq.head_blocked hs
    simp [TaskDescriptor.resume, TaskDescriptor.relink, isTdAvailable, hb]
  | replied v hcall hl hs => simp [TaskDescriptor.resume, isTdAvailable, hs]
  | created c params hcall hp hj => simp [hc c hcall] at hp

/-- The calls that create no task leave the ready queues and what belongs
there alone. -/
theorem ReadyQueues.keep (h : ReadyQueues k ls (some t)) (hs : SyscallEffect k t k')
    (hq : SendInvariant k q) (hstate : (k.tds t).state = .syscallBlk)
    (hsched : k'.schedulerStructure = k.schedulerStructure)
    (hc : ∀ c, (k.tds t).call = some c → createParams k t c = none) :
    ReadyQueues k' ls (some t) :=
  h.congr hsched fun _ p hi ↦ (hs.other hq hstate (by simpa using hi)).liveAt hq hc p

theorem ReadyQueues.callerOnly {s : TaskState} (h : ReadyQueues k ls (some t))
    (hc : CallerOnly k k' t s) : ReadyQueues k' ls (some t) :=
  h.congr hc.scheduler fun i p hi ↦ by rw [hc.other i (by simpa using hi)]

theorem ReadyQueues.call (h : ReadyQueues k ls (some t)) (hs : SyscallEffect k t k')
    (hq : SendInvariant k q) (hr : PrioritiesInRange k) (ha : AsksInRange k t)
    (hstate : (k.tds t).state = .syscallBlk) :
    ∃ ls', ReadyQueues k' ls' (some t) ∧ ∀ p, ls p <+: ls' p := by
  have hno {c : SyscallNumber} (hcall : (k.tds t).call = some c)
      (hc : createParams k t c = none) (c' : SyscallNumber)
      (hcall' : (k.tds t).call = some c') : createParams k t c' = none := by
    obtain rfl := Option.some.inj (hcall.symm.trans hcall')
    exact hc
  have hstay (h' : ReadyQueues k' ls (some t)) :
      ∃ ls', ReadyQueues k' ls' (some t) ∧ ∀ p, ls p <+: ls' p :=
    ⟨ls, h', fun _ ↦ List.prefix_rfl⟩
  have heff := hs
  cases hs with
  | returns _ hc => exact hstay (h.callerOnly hc)
  | exits _ hc => exact hstay (h.callerOnly hc)
  | stuck _ hc => exact hstay (h.callerOnly hc)
  | waits _ _ _ hc => exact hstay (h.callerOnly hc)
  | hands r hcall ht hr =>
    have hne : t ≠ r := KernelData.ne_of_state hstate hr (by decide)
    refine hstay (h.keep heff hq hstate ?_ (hno hcall rfl))
    rw [storeResult, handOff_eq k hne]
    rfl
  | queues r links hcall ht hr hp => exact hstay (h.keep heff hq hstate rfl (hno hcall rfl))
  | takes s blocking hcall hb hs =>
    have hne : t ≠ s := hq.head_ne hstate hs
    refine hstay (h.keep heff hq hstate ?_ (hno hcall ?_))
    · rw [receive_eq k hne hs hb]
    · cases blocking <;> rfl
  | replies s hcall hl hs =>
    refine hstay (h.keep heff hq hstate ?_ (hno hcall rfl))
    rw [storeResult, deliverReply_eq]
    rfl
  | awaits x e links hcall he hx hp => exact hstay (h.keep heff hq hstate rfl (hno hcall rfl))
  | creates c params j s hcall hp hj hs =>
    have hja := (findAvailable_some hj).2
    have hjt : j ≠ t := findAvailable_ne hj hstate
    exact h.create hjt hja (createParams_inRange hr hstate ha hcall hp) hs

theorem ReadyQueues.interrupt {w : Word} (h : ReadyQueues k ls (some t)) (hk : KernelInvariant k)
    (hs : InterruptEffect k w k') : ReadyQueues k' ls (some t) := by
  cases hs with
  | ignored => exact h
  | lost => exact h
  | wakes e x i he hx hi =>
    obtain ⟨i', hi', hb⟩ := hk.events.wakes hk.ids hx
    obtain rfl := Option.some.inj (hi.symm.trans hi')
    refine h.congr rfl fun j p _ ↦ ?_
    rw [woken_tds]
    by_cases hji : j = i
    · subst hji
      rw [KernelData.modify_self]
      simp [TaskDescriptor.LiveAt, TaskDescriptor.awake, isTdAvailable, hb]
    · rw [KernelData.modify_of_ne _ _ hji]

end PrjOS
