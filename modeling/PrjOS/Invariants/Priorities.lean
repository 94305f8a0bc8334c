import PrjOS.Invariants.Kernel

namespace PrjOS

open ByteMemory Function LinkedQueue Transition

variable {k k' : KernelData} {q : TdPtr → List TdPtr} {t : TdPtr}

def PrioritiesInRange (k : KernelData) : Prop :=
  ∀ i, isTdAvailable (k.tds i) = false → (k.tds i).priority.toNat < tasksMaxPriority

/-- The call of `t`, if it is a `Create`, asks for a priority in range. -/
def AsksInRange (k : KernelData) (t : TdPtr) : Prop :=
  (k.tds t).state = .syscallBlk → (k.tds t).call = some .create →
    (k.tds t).systemCall.param1.toNat < tasksMaxPriority

theorem core_priority {td td' : TaskDescriptor} (h : td.core = td'.core) :
    td.priority = td'.priority := (congrArg TaskDescriptor.priority h :)

theorem PrioritiesInRange.same (h : PrioritiesInRange k) (hs : SameTasks k k') :
    PrioritiesInRange k' := by
  intro i hi
  rw [core_priority (hs.core i)]
  refine h i ?_
  rwa [isTdAvailable, core_state (hs.core i)] at hi

theorem PrioritiesInRange.enter (h : PrioritiesInRange k) (p : Preemption)
    (hr : isTaskReady (k.tds t) = true) : PrioritiesInRange (k.modify t p.result) := by
  have hpri : (p.result (k.tds t)).priority = (k.tds t).priority := by
    unfold Preemption.result
    split_ifs <;> cases p <;> rfl
  intro i hi
  by_cases hit : i = t
  · subst hit
    rw [KernelData.modify_self, hpri]
    refine h i ?_
    unfold isTaskReady at hr
    unfold isTdAvailable
    split at hr <;> simp_all
  · rw [KernelData.modify_of_ne _ _ hit] at hi ⊢
    exact h i hi

theorem createParams_inRange {c : SyscallNumber} {params : TaskCreateParameters}
    (h : PrioritiesInRange k) (hstate : (k.tds t).state = .syscallBlk) (ha : AsksInRange k t)
    (hc : (k.tds t).call = some c) (hp : createParams k t c = some params) :
    params.priority.toNat < tasksMaxPriority := by
  cases c
  case create =>
    rw [createParams, sysCreate, checkPriority_eq] at hp
    obtain rfl := Option.some.inj hp
    exact ha hstate hc
  case createMicrotask =>
    rw [createParams, sysCreateMicroTask, checkPriority_eq] at hp
    obtain rfl := Option.some.inj hp
    exact h t (by simp [isTdAvailable, hstate])
  all_goals simp [createParams] at hp

theorem OtherChange.priority {i : TdPtr} {td : TaskDescriptor} (h : OtherChange k t i td)
    (hq : SendInvariant k q) (hr : PrioritiesInRange k) (hstate : (k.tds t).state = .syscallBlk)
    (ha : AsksInRange k t) (hi : isTdAvailable td = false) :
    td.priority.toNat < tasksMaxPriority := by
  cases h with
  | kept => exact hr i hi
  | handed v hc ht hs => exact hr i (by simp [isTdAvailable, hs])
  | received v blocking hc hs =>
    exact hr i (by simp [isTdAvailable, hq.head_blocked hs])
  | replied v hc hl hs => exact hr i (by simp [isTdAvailable, hs])
  | created c params hc hp hj => exact createParams_inRange hr hstate ha hc hp

theorem CallerChange.priority {td : TaskDescriptor} (h : CallerChange k t td)
    (hr : (k.tds t).priority.toNat < tasksMaxPriority) :
    td.priority.toNat < tasksMaxPriority := by
  cases h with
  | intro s p v head tail next hs hp =>
    rcases hp with rfl | hp
    · exact hr
    · exact hp

theorem PrioritiesInRange.call (h : PrioritiesInRange k) (hs : SyscallEffect k t k')
    (hq : SendInvariant k q) (hstate : (k.tds t).state = .syscallBlk) (ha : AsksInRange k t) :
    PrioritiesInRange k' := by
  intro i hi
  by_cases hit : i = t
  · subst hit
    exact (hs.caller hq hstate).priority (h i (by simp [isTdAvailable, hstate]))
  · exact (hs.other hq hstate hit).priority hq h hstate ha hi

theorem PrioritiesInRange.interrupt {w : Word} (h : PrioritiesInRange k) (hk : KernelInvariant k)
    (hs : InterruptEffect k w k') : PrioritiesInRange k' := by
  cases hs with
  | ignored => exact h
  | lost => exact h
  | wakes e x i he hx hi =>
    obtain ⟨i', hi', hb⟩ := hk.events.wakes hk.ids hx
    obtain rfl := Option.some.inj (hi.symm.trans hi')
    intro j hj
    rw [woken_tds] at hj ⊢
    by_cases hji : j = i
    · subst hji
      rw [KernelData.modify_self]
      exact h j (by simp [isTdAvailable, hb])
    · rw [KernelData.modify_of_ne _ _ hji] at hj ⊢
      exact h j hj

theorem InterruptEffect.priority {w : Word} (hs : InterruptEffect k w k') (i : TdPtr) :
    (k'.tds i).priority = (k.tds i).priority := by
  cases hs with
  | ignored => rfl
  | lost => rfl
  | wakes e x j he hx hj =>
    rw [woken_tds]
    by_cases hij : i = j
    · subst hij
      rw [KernelData.modify_self]
      rfl
    · rw [KernelData.modify_of_ne _ _ hij]

theorem priorities_pass {s s' : RtosMain} {c : Pass} (hk : KernelInvariant s.kernel)
    (h : PrioritiesInRange s.kernel) (hstep : passStep s c s')
    (ha : ∀ t, c.picked = some t → AsksInRange (c.entry s t) t) : PrioritiesInRange s'.kernel := by
  have hentry (t : TdPtr) (ht : c.picked = some t) :
      KernelInvariant (c.entry s t) ∧ PrioritiesInRange (c.entry s t) :=
    entry_invariant (P := fun k ↦ KernelInvariant k ∧ PrioritiesInRange k)
      (fun hs h ↦ ⟨h.1.same hs, h.2.same hs⟩) (fun p hr h ↦ ⟨h.1.enter p hr, h.2.enter p hr⟩)
      (hstep.1 t ht) ⟨hk, h⟩
  rcases passStep_outcome hstep with ⟨_, he⟩ | ⟨t, ht, hst, he⟩ | ⟨t, k, ht, hst, hk', he⟩ |
    ⟨t, k, ht, hst, hk', he⟩
  · exact h.same he
  · rw [he]
    exact (hentry t ht).2
  · obtain ⟨q, hq⟩ := (hentry t ht).1.send
    exact ((hentry t ht).2.call (handleSyscall_effect hst hk') hq hst (ha t ht)).same he
  · exact ((hentry t ht).2.interrupt (hentry t ht).1 (handleInterrupt_effect hk')).same he

theorem PrioritiesInRange.boot (b : Boot) : PrioritiesInRange (booted b).kernel := by
  intro i hi
  have hs := booted_state b i
  by_cases h0 : i = 0
  · subst h0
    exact (by decide : (0 : Nat) < tasksMaxPriority)
  · rw [if_neg h0] at hs
    simp [isTdAvailable, hs] at hi

end PrjOS
