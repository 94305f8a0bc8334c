import PrjOS.Invariants.EventLinks

namespace PrjOS

open ByteMemory Function LinkedQueue Transition

variable {k k' : KernelData} {q : TdPtr → List TdPtr} {t : TdPtr}

theorem OtherChange.taskId {i : TdPtr} {td : TaskDescriptor} (h : OtherChange k t i td) :
    td.taskId = (k.tds i).taskId ∨
      (isTdAvailable (k.tds i) = true ∧ td.state = .running ∧
        td.taskId = (k.tds i).taskId + tasksIdGenerationIncrement) := by
  cases h with
  | kept => exact .inl rfl
  | handed => exact .inl rfl
  | received => exact .inl rfl
  | replied => exact .inl rfl
  | created c params hc hp hj => exact .inr ⟨(findAvailable_some hj).2, rfl, rfl⟩

theorem CallerChange.taskId {td : TaskDescriptor} (h : CallerChange k t td) :
    td.taskId = (k.tds t).taskId := by
  cases h; rfl

theorem SyscallEffect.taskId (h : SyscallEffect k t k') (hq : SendInvariant k q)
    (hstate : (k.tds t).state = .syscallBlk) (i : TdPtr) :
    (k'.tds i).taskId = (k.tds i).taskId ∨
      (isTdAvailable (k.tds i) = true ∧ (k'.tds i).state = .running ∧
        (k'.tds i).taskId = (k.tds i).taskId + tasksIdGenerationIncrement) := by
  by_cases hi : i = t
  · subst hi
    exact .inl (h.caller hq hstate).taskId
  · exact (h.other hq hstate hi).taskId

def senders (k : KernelData) (q : TdPtr → List TdPtr) : TdPtr → List Word := fun r ↦
  (q r).map fun s ↦ (k.tds s).taskId

theorem senders_update {i : TdPtr} {l : List TdPtr}
    (h : ∀ j, ∀ s ∈ update q i l j, (k'.tds s).taskId = (k.tds s).taskId) :
    senders k' (update q i l) = update (senders k q) i (l.map fun s ↦ (k.tds s).taskId) := by
  funext j
  have hj : senders k' (update q i l) j = (update q i l j).map fun s ↦ (k.tds s).taskId :=
    List.map_congr_left (h j)
  rw [hj]
  by_cases he : j = i
  · subst he; simp only [update_self]
  · simp only [update_of_ne he, senders]

theorem senders_congr (h : ∀ j, ∀ s ∈ q j, (k'.tds s).taskId = (k.tds s).taskId) :
    senders k' q = senders k q :=
  funext fun j ↦ List.map_congr_left (h j)

/-- A call keeps the invariant of the send queues and does to them what
`sendEvents` says. -/
theorem SyscallEffect.send (h : SyscallEffect k t k') (hq : SendInvariant k q)
    (hstate : (k.tds t).state = .syscallBlk) : ∃ q', SendInvariant k' q' ∧
      Run Fifo.Step (senders k q) (sendEvents k t) (senders k' q') := by
  have hid {i : TdPtr} (hi : isTdAvailable (k.tds i) = false) :
      (k'.tds i).taskId = (k.tds i).taskId := by
    refine (h.taskId hq hstate i).resolve_right fun he ↦ ?_
    simp [hi] at he
  have hmem {r s : TdPtr} (hs : s ∈ q r) : (k'.tds s).taskId = (k.tds s).taskId :=
    hid (by simp [isTdAvailable, hq.blocked hs])
  have hself : (k'.tds t).taskId = (k.tds t).taskId := hid (by simp [isTdAvailable, hstate])
  have hstay (hq' : SendInvariant k' q) (he : sendEvents k t = []) : ∃ q', SendInvariant k' q' ∧
      Run Fifo.Step (senders k q) (sendEvents k t) (senders k' q') := by
    refine ⟨q, hq', ?_⟩
    rw [he, senders_congr fun _ _ hs ↦ hmem hs]
    exact .nil
  cases h with
  | returns hquiet hc => exact hstay (hq.callerOnly hc hstate (by simp)) hquiet.1
  | exits hcall hc =>
    exact hstay (hq.callerOnly hc hstate (by simp)) (by simp [sendEvents, hcall, createParams])
  | stuck hn hc =>
    exact hstay (hq.callerOnly hc hstate (by simp)) (quiet_of_not_completes hn).1
  | waits hcall hh hb hc =>
    refine hstay (hq.callerOnly hc hstate fun _ ↦ ?_) (by simp [sendEvents, hcall, hh])
    exact hq.queues.head_none.mp hh
  | hands r hcall ht hr =>
    refine ⟨q, hq.hands hstate hr, ?_⟩
    have hempty : senders k q r = [] := by rw [senders, hq.waiting r hr]; rfl
    have hev : sendEvents k t = [.put r (k.tds t).taskId, .get r (k.tds t).taskId] := by
      simp [sendEvents, hcall, ht, hr]
    rw [hev, senders_congr fun _ _ hs ↦ hmem hs]
    have hput := Fifo.Run.single (Fifo.Step.put (l := senders k q) r (k.tds t).taskId)
    have hget := Fifo.Step.get (l := update (senders k q) r (senders k q r ++ [(k.tds t).taskId]))
      r (k.tds t).taskId [] (by simp [hempty])
    have hback : update (update (senders k q) r (senders k q r ++ [(k.tds t).taskId])) r [] =
        senders k q := by
      rw [update_idem, ← hempty, update_eq_self]
    rw [hback] at hget
    exact hput.snoc hget
  | queues r links hcall ht hr hp =>
    refine ⟨_, hq.queue hstate ht hr hp, ?_⟩
    have hev : sendEvents k t = [.put r (k.tds t).taskId] := by
      simp [sendEvents, hcall, ht, hr]
    rw [hev, senders_update fun j s hs ↦ ?_, List.map_append]
    · exact Fifo.Run.single (.put r _)
    · rcases mem_update_append.mp hs with hs | ⟨-, rfl⟩
      · exact hmem hs
      · exact hself
  | takes s blocking hcall hb hs =>
    obtain ⟨rest, hrest⟩ : ∃ rest, q t = s :: rest := by
      rw [hq.head_eq] at hs
      exact List.head?_eq_some_iff.mp hs
    refine ⟨_, hq.take blocking hstate hrest hb, ?_⟩
    have hev : sendEvents k t = [.get t (k.tds s).taskId] := by
      cases blocking <;> simpa [sendEvents, hcall, hs] using hb
    have hsub : ∀ y ∈ rest, y ∈ q t := fun y hy ↦ by rw [hrest]; exact List.mem_cons_of_mem _ hy
    rw [hev, senders_update fun j y hy ↦ hmem (mem_update_of_subset hsub hy)]
    exact Fifo.Run.single (.get t _ _ (by rw [senders, hrest, List.map_cons]))
  | replies s hcall hl hs =>
    exact hstay (hq.replies hstate hs) (by simp [sendEvents, hcall, createParams])
  | awaits x e links hcall he hx hp =>
    exact hstay (hq.awaits _ hstate) (by simp [sendEvents, hcall, createParams])
  | creates c params j s hcall hp hj hs =>
    refine ⟨_, hq.create hstate (findAvailable_some hj).2, ?_⟩
    have hev : sendEvents k t = [.reset j] := by
      cases c <;> simp_all [sendEvents, createParams]
    have hsub : ∀ y ∈ ([] : List TdPtr), y ∈ q j := by simp
    rw [hev, senders_update fun i y hy ↦ hmem (mem_update_of_subset hsub hy)]
    exact Fifo.Run.single (.reset j)

/-- A descriptor that was never used has an id that `sys_send` refuses. -/
def UnusedIds (k : KernelData) : Prop :=
  ∀ i, (k.tds i).state = .invalid → generationId (k.tds i).taskId = 0

/-- The invariant that every reachable state of the kernel has, whatever the
tasks do. -/
structure KernelInvariant (k : KernelData) : Prop where
  ids : IdsIndexed k.tds
  unused : UnusedIds k
  send : ∃ q, SendInvariant k q
  events : EventInvariant k

theorem KernelInvariant.same (h : KernelInvariant k) (hs : SameTasks k k') :
    KernelInvariant k' := by
  have hf {β : Type} (f : TaskDescriptor → β) (hf : ∀ td, f td.core = f td) (i : TdPtr) :
      f (k'.tds i) = f (k.tds i) := by rw [← hf, hs.core, hf]
  obtain ⟨q, hq⟩ := h.send
  refine ⟨fun i ↦ ?_, fun i hi ↦ ?_, ⟨q, hq.same hs.core⟩,
    h.events.congr hs.eventData fun i hi ↦ ?_⟩
  · rw [hf TaskDescriptor.taskId fun _ ↦ rfl]
    exact h.ids i
  · rw [core_taskId (hs.core i)]
    exact h.unused i (core_state (hs.core i) ▸ hi)
  · exact ⟨(hf TaskDescriptor.state (fun _ ↦ rfl) i).trans hi, hf _ (fun _ ↦ rfl) i⟩

theorem Preemption.result_taskId (p : Preemption) (td : TaskDescriptor) :
    (p.result td).taskId = td.taskId := by
  unfold Preemption.result
  split_ifs <;> cases p <;> rfl

theorem KernelInvariant.enter (h : KernelInvariant k) (p : Preemption)
    (hr : isTaskReady (k.tds t) = true) : KernelInvariant (k.modify t p.result) := by
  obtain ⟨q, hq⟩ := h.send
  refine ⟨fun i ↦ ?_, fun i hi ↦ ?_, ⟨q, hq.enter p hr⟩, h.events.congr rfl fun i hi ↦ ?_⟩
  · by_cases hi : i = t
    · subst hi
      rw [KernelData.modify_self, p.result_taskId]
      exact h.ids i
    · rw [KernelData.modify_of_ne _ _ hi]
      exact h.ids i
  · have hne : i ≠ t := by
      rintro rfl
      rw [KernelData.modify_self] at hi
      have hs := p.result_state (k.tds i)
      simp [hi] at hs
    rw [KernelData.modify_of_ne _ _ hne] at hi ⊢
    exact h.unused i hi
  · have hne : i ≠ t := by rintro rfl; simp [isTaskReady, hi] at hr
    rw [KernelData.modify_of_ne _ _ hne]
    exact ⟨hi, rfl⟩

theorem OtherChange.evtBlk {i : TdPtr} {td : TaskDescriptor} (h : OtherChange k t i td)
    (hq : SendInvariant k q) (hi : (k.tds i).state = .evtBlk) :
    td.state = .evtBlk ∧ td.taskId = (k.tds i).taskId ∧ td.systemCall = (k.tds i).systemCall := by
  cases h with
  | kept => exact ⟨hi, rfl, rfl⟩
  | handed v hc ht hs => simp [hi] at hs
  | received v blocking hc hs =>
    have hb := hq.head_blocked hs
    simp [hi] at hb
  | replied v hc hl hs => simp [hi] at hs
  | created c params hc hp hj =>
    have := (findAvailable_some hj).2
    simp [isTdAvailable, hi] at this

theorem OtherChange.of_evtBlk {i : TdPtr} {td : TaskDescriptor} (h : OtherChange k t i td)
    (hi : td.state = .evtBlk) : (k.tds i).state = .evtBlk := by
  cases h with
  | kept => exact hi
  | handed => simp [TaskDescriptor.resume] at hi
  | received => simp [TaskDescriptor.resume] at hi
  | replied => simp [TaskDescriptor.resume] at hi
  | created => simp [newTask] at hi

theorem SyscallEffect.ids (h : SyscallEffect k t k') (hq : SendInvariant k q)
    (hstate : (k.tds t).state = .syscallBlk) (hids : IdsIndexed k.tds) : IdsIndexed k'.tds := by
  intro i
  rcases h.taskId hq hstate i with he | ⟨-, -, he⟩
  · rw [he]; exact hids i
  · rw [he, next_generation_index]; exact hids i

theorem OtherChange.unused {i : TdPtr} {td : TaskDescriptor} (h : OtherChange k t i td)
    (hi : td.state = .invalid) :
    (k.tds i).state = .invalid ∧ td.taskId = (k.tds i).taskId := by
  cases h with
  | kept => exact ⟨hi, rfl⟩
  | handed => simp [TaskDescriptor.resume] at hi
  | received => simp [TaskDescriptor.resume] at hi
  | replied => simp [TaskDescriptor.resume] at hi
  | created => simp [newTask] at hi

theorem CallerChange.state_ne {td : TaskDescriptor} (h : CallerChange k t td) :
    td.state ≠ .invalid := by
  cases h with
  | intro s p v head tail next hs => exact hs

theorem SyscallEffect.unused (h : SyscallEffect k t k') (hq : SendInvariant k q)
    (hstate : (k.tds t).state = .syscallBlk) (hu : UnusedIds k) : UnusedIds k' := by
  intro i hi
  have hit : i ≠ t := by
    rintro rfl
    exact (h.caller hq hstate).state_ne hi
  obtain ⟨hi', he⟩ := (h.other hq hstate hit).unused hi
  rw [he]
  exact hu i hi'

/-- A call leaves the events alone, or it puts its caller in the pool. -/
theorem SyscallEffect.eventData (h : SyscallEffect k t k') (hq : SendInvariant k q)
    (hstate : (k.tds t).state = .syscallBlk) :
    (k'.eventData = k.eventData ∧ awaitEvents k t = [] ∧ (k'.tds t).state ≠ .evtBlk) ∨
      ∃ x e links, (k.tds t).call = some .awaitEvent ∧
        (k.tds t).systemCall.param1.toNat = e.val ∧ vacantQuery k.eventData = some x ∧
        (k.eventData.setQuery x ⟨(k.tds t).taskId, none, .valid, e⟩).queues.push e x =
          some links ∧ k' = { k with eventData := awaiting k t x e links }.setState t .evtBlk := by
  cases h with
  | returns hquiet hc => exact .inl ⟨hc.eventData, hquiet.2, by simp [hc.state]⟩
  | exits hcall hc =>
    exact .inl ⟨hc.eventData, awaitEvents_of_call (by simp [hcall]), by simp [hc.state]⟩
  | stuck hn hc => exact .inl ⟨hc.eventData, (quiet_of_not_completes hn).2, by simp [hc.state]⟩
  | waits hcall _ _ hc =>
    exact .inl ⟨hc.eventData, awaitEvents_of_call (by simp [hcall]), by simp [hc.state]⟩
  | hands r hcall ht hr =>
    have hne : t ≠ r := KernelData.ne_of_state hstate hr (by decide)
    rw [storeResult, handOff_eq k hne]
    exact .inl ⟨rfl, awaitEvents_of_call (by simp [hcall]), by simp [KernelData.setReturnValue]⟩
  | queues r links hcall ht hr hp =>
    refine .inl ⟨rfl, awaitEvents_of_call (by simp [hcall]), ?_⟩
    simp [storeResult, KernelData.setReturnValue, KernelData.withSendQueues, KernelData.setState]
  | takes s blocking hcall hb hs =>
    have hne : t ≠ s := hq.head_ne hstate hs
    rw [receive_eq k hne hs hb]
    refine .inl ⟨rfl, awaitEvents_of_call ?_, by simp⟩
    cases blocking <;> simp [hcall]
  | replies s hcall hl hr =>
    rw [storeResult, deliverReply_eq]
    refine .inl ⟨rfl, awaitEvents_of_call (by simp [hcall]), ?_⟩
    simp [KernelData.setReturnValue, KernelData.setState]
  | awaits x e links hcall he hx hp => exact .inr ⟨x, e, links, hcall, he, hx, hp, rfl⟩
  | creates c params j s hcall hp hj hs =>
    refine .inl ⟨rfl, awaitEvents_of_call ?_, ?_⟩
    · cases c <;> simp_all [createParams]
    · simp [created, KernelData.setTaskReady, KernelData.setState]

theorem KernelInvariant.call (h : KernelInvariant k) (hs : SyscallEffect k t k')
    (hstate : (k.tds t).state = .syscallBlk) : KernelInvariant k' := by
  obtain ⟨q, hq⟩ := h.send
  obtain ⟨q', hq', -⟩ := hs.send hq hstate
  refine ⟨hs.ids hq hstate h.ids, hs.unused hq hstate h.unused, ⟨q', hq'⟩, ?_⟩
  have hkeep (i : TdPtr) (hi : (k.tds i).state = .evtBlk) :
      (k'.tds i).state = .evtBlk ∧ (k'.tds i).taskId = (k.tds i).taskId := by
    have hi' := (hs.other hq hstate (by rintro rfl; simp [hi] at hstate)).evtBlk hq hi
    exact ⟨hi'.1, hi'.2.1⟩
  rcases hs.eventData hq hstate with ⟨he, -⟩ | ⟨x, e, links, -, -, hx, hp, rfl⟩
  · exact h.events.congr he hkeep
  · exact h.events.awaits h.ids hstate (vacantQuery_free hx) hp

theorem KernelInvariant.interrupt {w : Word} (h : KernelInvariant k)
    (hs : InterruptEffect k w k') : KernelInvariant k' := by
  cases hs with
  | ignored => exact h
  | lost => exact h
  | wakes e x i he hx hi =>
    obtain ⟨j, hj, hw⟩ := h.events.wakes h.ids hx
    obtain rfl := Option.some.inj (hi.symm.trans hj)
    obtain ⟨q, hq⟩ := h.send
    refine ⟨fun j ↦ ?_, fun j hj ↦ ?_, ⟨q, hq.wake e x hw⟩, h.events.wake h.ids hx hi⟩
    · rw [woken_tds]
      by_cases hji : j = i
      · subst hji
        rw [KernelData.modify_self]
        exact h.ids j
      · rw [KernelData.modify_of_ne _ _ hji]
        exact h.ids j
    · have hji : j ≠ i := by
        rintro rfl
        rw [woken_tds, KernelData.modify_self] at hj
        simp [TaskDescriptor.awake] at hj
      rw [woken_tds, KernelData.modify_of_ne _ _ hji] at hj ⊢
      exact h.unused j hj

theorem booted_ids (b : Boot) : IdsIndexed (booted b).kernel.tds := by
  intro i
  by_cases hi : i = 0
  · subst hi
    have he : ((booted b).kernel.tds 0).taskId =
        (initializeTds b.stackTop 0).taskId + tasksIdGenerationIncrement := rfl
    rw [he, next_generation_index]
    exact initializeTds_indexed b.stackTop 0
  · have he : (booted b).kernel.tds i = initializeTds b.stackTop i := by
      simp [booted, KernelData.setReturnValue, hi]
    rw [he]
    exact initializeTds_indexed b.stackTop i

theorem booted_unused (b : Boot) : UnusedIds (booted b).kernel := by
  intro i hi
  rw [booted_state] at hi
  have hi0 : i ≠ 0 := by rintro rfl; simp at hi
  have he : ((booted b).kernel.tds i).taskId = BitVec.ofNat 32 i := by
    simp [booted, KernelData.setReturnValue, hi0, initializeTds, reinitializeTd]
  have hgen : ∀ i : TdPtr, generationId (BitVec.ofNat 32 i) = 0 := by decide
  rw [he, hgen]

theorem KernelInvariant.entry {s : RtosMain} {c : Pass} (hs : KernelInvariant s.kernel)
    (hr : isTaskReady ((loopHead c.iteration s).tds t) = true) : KernelInvariant (c.entry s t) :=
  entry_invariant (fun hs h ↦ h.same hs) (fun p hr h ↦ h.enter p hr) hr hs

theorem KernelInvariant.pass {s s' : RtosMain} {c : Pass} (hs : KernelInvariant s.kernel)
    (hp : passStep s c s') : KernelInvariant s'.kernel := by
  have hentry (t : TdPtr) (ht : c.picked = some t) : KernelInvariant (c.entry s t) :=
    hs.entry (hp.1 t ht)
  rcases passStep_outcome hp with ⟨_, he⟩ | ⟨t, ht, -, he⟩ | ⟨t, k, ht, hst, hk, he⟩ |
    ⟨t, k, ht, -, hk, he⟩
  · exact hs.same he
  · rw [he]; exact hentry t ht
  · exact ((hentry t ht).call (handleSyscall_effect hst hk) hst).same he
  · exact ((hentry t ht).interrupt (handleInterrupt_effect hk)).same he

theorem Reachable.kernelInvariant {b : Boot} {s : RtosMain} (h : Reachable b s) :
    KernelInvariant s.kernel := by
  have h₀ : KernelInvariant (booted b).kernel :=
    ⟨booted_ids b, booted_unused b, ⟨_, .boot b⟩, .boot b⟩
  exact h.invariant (P := fun s ↦ KernelInvariant s.kernel) h₀ fun s c s' hs hp ↦ hs.pass hp

theorem Reachable.entry {b : Boot} {s : RtosMain} (h : Reachable b s) {c : Pass} {t : TdPtr}
    (hr : isTaskReady ((loopHead c.iteration s).tds t) = true) : KernelInvariant (c.entry s t) :=
  h.kernelInvariant.entry hr

theorem entry_send {s : RtosMain} {c : Pass} (hq : SendInvariant s.kernel q)
    (hr : isTaskReady ((loopHead c.iteration s).tds t) = true) : SendInvariant (c.entry s t) q :=
  entry_invariant (P := fun k ↦ SendInvariant k q) (fun hs h ↦ h.same hs.core)
    (fun p hr h ↦ h.enter p hr) hr hq

end PrjOS
