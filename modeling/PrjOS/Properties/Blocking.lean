import PrjOS.Invariants.EventPool

namespace PrjOS

open ByteMemory Function LinkedQueue Transition

variable {k k' : KernelData} {q : TdPtr → List TdPtr} {w : EventId → List QueryPtr} {t : TdPtr}

/-- The ways in which a pass that dispatches `t` may change the state or the
return value of another task, from `old` to `new`. The kernel is `k` when `t`
is back. -/
inductive Discipline (k : KernelData) (isrNumber : Word) (t i : TdPtr)
    (old new : TaskDescriptor) : Prop
  | kept : new.state = old.state → new.systemCall.returnValue = old.systemCall.returnValue →
      Discipline k isrNumber t i old new
  | sent : old.state = .sendBlk → new.state = .running → (k.tds t).state = .syscallBlk →
      (k.tds t).call = some .send → sendTarget k t = .ok i →
      (k.tds t).systemCall.param1 = old.taskId → Discipline k isrNumber t i old new
  | received : old.state = .rcvdBlk → new.state = .rplyBlk → (k.tds t).state = .syscallBlk →
      (k.tds t).call = some .receive ∨ (k.tds t).call = some .receiveNonblock →
      old.systemCall.param1 = (k.tds t).taskId → Discipline k isrNumber t i old new
  | replied : old.state = .rplyBlk → new.state = .running → (k.tds t).state = .syscallBlk →
      (k.tds t).call = some .reply → (k.tds t).systemCall.param1 = old.taskId →
      Discipline k isrNumber t i old new
  | woken (e : EventId) : old.state = .evtBlk → new.state = .running →
      (k.tds t).state = .hwint → eventOf isrNumber = some e →
      old.systemCall.param1.toNat = e.val → Discipline k isrNumber t i old new
  | created (params : TaskCreateParameters) : isTdAvailable old = true → new.state = .running →
      (k.tds t).state = .syscallBlk →
      (k.tds t).call = some .create ∨ (k.tds t).call = some .createMicrotask →
      findAvailable k.tds params.taskType = some i → Discipline k isrNumber t i old new

/-- Descriptors that agree in what tasks and the kernel tell each other. -/
structure SameCall (td td' : TaskDescriptor) : Prop where
  taskId : td'.taskId = td.taskId
  state : td'.state = td.state
  systemCall : td'.systemCall = td.systemCall
  stackPointer : td'.stackPointer = td.stackPointer

theorem sameCall_of_core {td td' : TaskDescriptor} (h : td'.core = td.core) : SameCall td td' :=
  ⟨(congrArg TaskDescriptor.taskId h :), (congrArg TaskDescriptor.state h :),
    (congrArg TaskDescriptor.systemCall h :), (congrArg TaskDescriptor.stackPointer h :)⟩

theorem Discipline.congr {isrNumber : Word} {i : TdPtr} {old old' new new' : TaskDescriptor}
    (h : Discipline k isrNumber t i old new) (ho : SameCall old old') (hn : SameCall new new') :
    Discipline k isrNumber t i old' new' := by
  have havail : isTdAvailable old' = isTdAvailable old := by simp only [isTdAvailable, ho.state]
  cases h with
  | kept hs hv =>
    exact .kept (by rw [hn.state, hs, ho.state]) (by rw [hn.systemCall, hv, ho.systemCall])
  | sent hs hs' hst hc ht hp =>
    exact .sent (ho.state.trans hs) (hn.state.trans hs') hst hc ht (hp.trans ho.taskId.symm)
  | received hs hs' hst hc hp =>
    exact .received (ho.state.trans hs) (hn.state.trans hs') hst hc (by rw [ho.systemCall, hp])
  | replied hs hs' hst hc hp =>
    exact .replied (ho.state.trans hs) (hn.state.trans hs') hst hc (hp.trans ho.taskId.symm)
  | woken e hs hs' hst he hp =>
    exact .woken e (ho.state.trans hs) (hn.state.trans hs') hst he (by rw [ho.systemCall, hp])
  | created params ha hs' hst hc hf =>
    exact .created params (havail.trans ha) (hn.state.trans hs') hst hc hf

theorem OtherChange.discipline {i : TdPtr} {td : TaskDescriptor} (h : OtherChange k t i td)
    (hq : SendInvariant k q) (hstate : (k.tds t).state = .syscallBlk) (isrNumber : Word) :
    Discipline k isrNumber t i (k.tds i) td := by
  cases h with
  | kept => exact .kept rfl rfl
  | handed v hc ht hs => exact .sent hs rfl hstate hc ht (sendTarget_eq_ok ht).2
  | received v blocking hc hs =>
    rw [hq.head_eq] at hs
    have hm := List.mem_of_mem_head? hs
    refine .received (hq.blocked hm) rfl hstate ?_ (hq.target hm)
    cases blocking
    · exact .inr hc
    · exact .inl hc
  | replied v hc hl hs =>
    exact .replied hs rfl hstate hc (findTd_eq_some.mp (lookupTask_eq_ok.mp hl).2).1.symm
  | created c params hc hp hj =>
    refine .created params (findAvailable_some hj).2 rfl hstate ?_ hj
    cases c
    case create => exact .inl hc
    case createMicrotask => exact .inr hc
    all_goals simp [createParams] at hp

theorem InterruptEffect.discipline {isrNumber : Word} (h : InterruptEffect k isrNumber k')
    (hw : EventPool k w) (hids : IdsIndexed k.tds) (hstate : (k.tds t).state = .hwint)
    (i : TdPtr) : Discipline k isrNumber t i (k.tds i) (k'.tds i) := by
  cases h with
  | ignored => exact .kept rfl rfl
  | lost => exact .kept rfl rfl
  | wakes e x j he hx hj =>
    rw [woken_tds]
    by_cases hij : i = j
    · subst hij
      have hm : x ∈ w e := List.mem_of_mem_head? ((hw.queues.head_eq e).symm.trans hx)
      obtain ⟨hused, hev⟩ := hw.linked hm
      obtain ⟨i', hi', hs, hp⟩ := hw.owner x hused
      obtain rfl := hids.inj (hi'.trans (hids.find.mp hj).symm)
      rw [KernelData.modify_self]
      exact .woken e hs rfl hstate he (by rw [hp, hev])
    · rw [KernelData.modify_of_ne _ _ hij]
      exact .kept rfl rfl

theorem Discipline.ready {isrNumber : Word} {i : TdPtr} {old new : TaskDescriptor}
    (h : Discipline k isrNumber t i old new) (hr : isTaskReady old = true) :
    new.state = old.state ∧ new.systemCall.returnValue = old.systemCall.returnValue := by
  cases h with
  | kept hs hv => exact ⟨hs, hv⟩
  | sent hs => simp [isTaskReady, hs] at hr
  | received hs => simp [isTaskReady, hs] at hr
  | replied hs => simp [isTaskReady, hs] at hr
  | woken e hs => simp [isTaskReady, hs] at hr
  | created params ha =>
    unfold isTaskReady at hr
    unfold isTdAvailable at ha
    split at hr <;> simp_all

theorem OtherChange.stackPointer {i : TdPtr} {td : TaskDescriptor} (h : OtherChange k t i td)
    (hr : isTaskReady (k.tds i) = true) : td.stackPointer = (k.tds i).stackPointer := by
  cases h with
  | kept => rfl
  | handed => rfl
  | received => rfl
  | replied => rfl
  | created c params hc hp hj =>
    have ha := (findAvailable_some hj).2
    unfold isTaskReady at hr
    unfold isTdAvailable at ha
    split at hr <;> simp_all

theorem InterruptEffect.stackPointer {isrNumber : Word} (h : InterruptEffect k isrNumber k')
    (i : TdPtr) : (k'.tds i).stackPointer = (k.tds i).stackPointer := by
  cases h with
  | ignored => rfl
  | lost => rfl
  | wakes e x j he hx hj =>
    rw [woken_tds]
    by_cases hij : i = j
    · subst hij
      rw [KernelData.modify_self]
      rfl
    · rw [KernelData.modify_of_ne _ _ hij]

theorem passStep_others {s s' : RtosMain} {c : Pass} (hstep : passStep s c s')
    (hk : KernelInvariant s.kernel) (hi : IdsIssued s.kernel) (hw : EventPool s.kernel w)
    (ht : c.picked = some t) {i : TdPtr} (hne : i ≠ t) :
    Discipline (c.entry s t) c.iteration.preemption.reason t i (s.kernel.tds i)
        (s'.kernel.tds i) ∧
      (isTaskReady (s.kernel.tds i) = true →
        (s'.kernel.tds i).stackPointer = (s.kernel.tds i).stackPointer) := by
  have hold := sameCall_of_core (entry_other c s hne)
  have hold' := sameCall_of_core (entry_other c s hne).symm
  have hready (hr : isTaskReady (s.kernel.tds i) = true) :
      isTaskReady ((c.entry s t).tds i) = true := by
    simpa only [isTaskReady, hold.state] using hr
  have hentry : KernelInvariant (c.entry s t) := hk.entry (hstep.1 t ht)
  obtain ⟨-, hw', -⟩ := entry_pool (hstep.1 t ht) hi hw
  obtain ⟨q, hq⟩ := hentry.send
  rcases passStep_outcome hstep with ⟨hp, -⟩ | ⟨t', ht', -, he⟩ | ⟨t', k, ht', hst, hk', he⟩ |
    ⟨t', k, ht', hst, hk', he⟩
  · simp [ht] at hp
  all_goals obtain rfl := Option.some.inj (ht.symm.trans ht')
  · rw [he]
    exact ⟨.kept hold.state (by rw [hold.systemCall]), fun _ ↦ hold.stackPointer⟩
  · have hnew := sameCall_of_core (he.core i)
    have hother := (handleSyscall_effect hst hk').other hq hst hne
    refine ⟨(hother.discipline hq hst _).congr hold' hnew, fun hr ↦ ?_⟩
    rw [hnew.stackPointer, hother.stackPointer (hready hr), hold.stackPointer]
  · have hnew := sameCall_of_core (he.core i)
    have hk' := handleInterrupt_effect hk'
    refine ⟨(hk'.discipline hw' hentry.ids hst i).congr hold' hnew, fun hr ↦ ?_⟩
    rw [hnew.stackPointer, hk'.stackPointer, hold.stackPointer]

/-- A task other than the running one changes its state or its return value
only in the ways of `Discipline`, and a ready one not at all. -/
theorem blocked_discipline {b : Boot} {cs : List Pass} {s s' : RtosMain} {c : Pass}
    (h : Run growStep (booted b) cs s) (hstep : passStep s c s') {i : TdPtr}
    (hi : c.picked ≠ some i) :
    (∀ t, c.picked = some t → Discipline (c.entry s t) c.iteration.preemption.reason t i
      (s.kernel.tds i) (s'.kernel.tds i)) ∧
    (c.picked = none ∨ isTaskReady (s.kernel.tds i) = true →
      (s'.kernel.tds i).state = (s.kernel.tds i).state ∧
      (s'.kernel.tds i).systemCall.returnValue = (s.kernel.tds i).systemCall.returnValue ∧
      (s'.kernel.tds i).stackPointer = (s.kernel.tds i).stackPointer) := by
  obtain ⟨log, hlog⟩ := h.logged (fun s c ↦ c.eventEvents s) []
  obtain ⟨hreach, hissued, w, hw, -⟩ := eventLog_invariant hlog
  have hothers (t : TdPtr) (ht : c.picked = some t) :=
    passStep_others hstep hreach.kernelInvariant hissued hw ht
      (show i ≠ t by rintro rfl; exact hi ht)
  refine ⟨fun t ht ↦ (hothers t ht).1, fun hr ↦ ?_⟩
  cases ht : c.picked with
  | none =>
    rcases passStep_outcome hstep with ⟨-, he⟩ | ⟨t, ht', -⟩ | ⟨t, k, ht', -⟩ | ⟨t, k, ht', -⟩
    · have hs := sameCall_of_core (he.core i)
      exact ⟨hs.state, by rw [hs.systemCall], hs.stackPointer⟩
    all_goals simp [ht] at ht'
  | some t =>
    have hr' := hr.resolve_left (by simp [ht])
    obtain ⟨hd, hsp⟩ := hothers t ht
    exact ⟨(hd.ready hr').1, (hd.ready hr').2, hsp hr'⟩

theorem blocked_discipline_handOff : ∃ s s',
    Run growStep (booted sampleBoot) waitingPasses s ∧ passStep s messagePass s' ∧
      (s.kernel.tds 1).state = .sendBlk ∧ (s'.kernel.tds 1).state = .running ∧
      Discipline (messagePass.entry s 0) 0 0 1 (s.kernel.tds 1) (s'.kernel.tds 1) := by
  have hrun := exists_run Pass.growRun_step (booted sampleBoot, []) waitingPasses
    (fun sl ↦ decide ((sl.1.kernel.tds 1).state = .sendBlk ∧
      (messagePass.run sl.1).map (fun s ↦ (s.kernel.tds 1).state) = some .running))
    (by decide +kernel)
  obtain ⟨⟨s, log⟩, hr, hp⟩ := hrun
  obtain ⟨hold, hnew⟩ := of_decide_eq_true hp
  obtain ⟨s', hs, hstate⟩ := Option.map_eq_some_iff.mp hnew
  have hstep := Pass.run_step _ _ _ hs
  exact ⟨s, s', hr.forget, hstep, hold, hstate,
    (blocked_discipline hr.forget hstep (i := 1) (by decide)).1 0 rfl⟩

end PrjOS
