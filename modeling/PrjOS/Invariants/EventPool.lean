import PrjOS.Invariants.Kernel

namespace PrjOS

open ByteMemory Function LinkedQueue Transition

/-- A pass in which no task id wraps around. -/
def growStep (s : RtosMain) (c : Pass) (s' : RtosMain) : Prop :=
  passStep s c s' ∧ ∀ i, (s.kernel.tds i).taskId ≤ (s'.kernel.tds i).taskId

/-- Every descriptor that was ever used has an id from `createTask`. -/
def IdsIssued (k : KernelData) : Prop :=
  ∀ i, (k.tds i).state ≠ .invalid → (k.tds i).taskId ≠ tasksIdInvalid

/-- The lists `w` are the event queues, and the entries, the queues and the
tasks that wait for events tell the same story. -/
structure EventPool (k : KernelData) (w : EventId → List QueryPtr) : Prop where
  queues : Represents k.eventData.queues w
  linked : ∀ {e x}, x ∈ w e → (k.eventData.eventList x).waitingTid ≠ tasksIdInvalid ∧
    (k.eventData.eventList x).eventId = e
  used : ∀ x, (k.eventData.eventList x).waitingTid ≠ tasksIdInvalid →
    x ∈ w (k.eventData.eventList x).eventId
  distinct : ∀ x y, (k.eventData.eventList x).waitingTid = (k.eventData.eventList y).waitingTid →
    (k.eventData.eventList x).waitingTid ≠ tasksIdInvalid → x = y
  owner : ∀ x, (k.eventData.eventList x).waitingTid ≠ tasksIdInvalid →
    ∃ i, (k.tds i).taskId = (k.eventData.eventList x).waitingTid ∧ (k.tds i).state = .evtBlk ∧
      (k.tds i).systemCall.param1.toNat = (k.eventData.eventList x).eventId.val
  waiting : ∀ i, (k.tds i).state = .evtBlk → (k.tds i).taskId ≠ tasksIdInvalid ∧
    ∃ x, (k.eventData.eventList x).waitingTid = (k.tds i).taskId

variable {k k' : KernelData} {q : TdPtr → List TdPtr} {w : EventId → List QueryPtr} {t : TdPtr}

/-- Changes that leave the entries and the tasks that wait for events alone. -/
theorem EventPool.congr (h : EventPool k w) (he : k'.eventData = k.eventData)
    (hkeep : ∀ i, (k.tds i).state = .evtBlk → (k'.tds i).state = .evtBlk ∧
      (k'.tds i).taskId = (k.tds i).taskId ∧
      (k'.tds i).systemCall.param1 = (k.tds i).systemCall.param1)
    (hnew : ∀ i, (k'.tds i).state = .evtBlk → (k.tds i).state = .evtBlk) : EventPool k' w where
  queues := he ▸ h.queues
  linked := by rw [he]; exact h.linked
  used := by rw [he]; exact h.used
  distinct := by rw [he]; exact h.distinct
  owner x hx := by
    rw [he] at hx ⊢
    obtain ⟨i, hi, hs, hp⟩ := h.owner x hx
    obtain ⟨hs', hi', hp'⟩ := hkeep i hs
    exact ⟨i, hi'.trans hi, hs', by rw [hp', hp]⟩
  waiting i hi := by
    rw [he, (hkeep i (hnew i hi)).2.1]
    exact h.waiting i (hnew i hi)

theorem EventPool.same (h : EventPool k w) (hs : SameTasks k k') : EventPool k' w := by
  have hf {β : Type} (f : TaskDescriptor → β) (hf : ∀ td, f td.core = f td) (i : TdPtr) :
      f (k'.tds i) = f (k.tds i) := by rw [← hf, hs.core, hf]
  have hstate := hf TaskDescriptor.state fun _ ↦ rfl
  exact h.congr hs.eventData
    (fun i hi ↦ ⟨(hstate i).trans hi, hf _ (fun _ ↦ rfl) i,
      hf (fun td ↦ td.systemCall.param1) (fun _ ↦ rfl) i⟩)
    (fun i hi ↦ (hstate i).symm.trans hi)

theorem EventPool.enter (h : EventPool k w) (p : Preemption)
    (hr : isTaskReady (k.tds t) = true) : EventPool (k.modify t p.result) w := by
  have hs := p.result_state (k.tds t)
  refine h.congr rfl (fun i hi ↦ ?_) (fun i hi ↦ ?_)
  · have hne : i ≠ t := by rintro rfl; simp [isTaskReady, hi] at hr
    rw [KernelData.modify_of_ne _ _ hne]
    exact ⟨hi, rfl, rfl⟩
  · by_cases hit : i = t
    · subst hit
      rw [KernelData.modify_self] at hi
      simp [hi] at hs
    · rwa [KernelData.modify_of_ne _ _ hit] at hi

def waiters (k : KernelData) (w : EventId → List QueryPtr) : EventId → List Word := fun e ↦
  (w e).map fun x ↦ (k.eventData.eventList x).waitingTid

theorem waiters_same (h : k'.eventData = k.eventData) : waiters k' w = waiters k w := by
  unfold waiters
  rw [h]

theorem woken_eventId (k : KernelData) (e : EventId) (x y : QueryPtr) (i : TdPtr) :
    ((woken k e x i).eventData.eventList y).eventId = (k.eventData.eventList y).eventId := by
  by_cases hy : y = x <;>
    simp [woken, hy, EventData.withQueues, EventData.setQuery, KernelData.setTaskReady,
      KernelData.setState, KernelData.setReturnValue]

theorem EventPool.wake (h : EventPool k w) (hids : IdsIndexed k.tds) {e : EventId} {x : QueryPtr}
    {rest : List QueryPtr} (hx : w e = x :: rest) {i : TdPtr}
    (hi : (k.tds i).taskId = (k.eventData.eventList x).waitingTid) :
    EventPool (woken k e x i) (update w e rest) ∧
      Run Fifo.Step (waiters k w) [.get e (k.tds i).taskId]
        (waiters (woken k e x i) (update w e rest)) := by
  have hxe : x ∈ w e := by rw [hx]; simp
  have hused := (h.linked hxe).1
  have hsub : ∀ y ∈ rest, y ∈ w e := fun y hy ↦ by rw [hx]; exact List.mem_cons_of_mem _ hy
  have hnot : ∀ j, x ∉ update w e rest j := by
    have hd := h.queues.nodup e
    rw [hx, List.nodup_cons] at hd
    intro j hj
    by_cases hje : j = e
    · subst hje; rw [update_self] at hj; exact hd.1 hj
    · rw [update_of_ne hje] at hj
      exact hje (h.queues.disjoint hj hxe)
  have hother {y : QueryPtr} (hy : y ≠ x) : ((woken k e x i).eventData.eventList y).waitingTid =
      (k.eventData.eventList y).waitingTid := by rw [woken_waitingTid, if_neg hy]
  have hne {y : QueryPtr} (hy : ((woken k e x i).eventData.eventList y).waitingTid ≠
      tasksIdInvalid) : y ≠ x := by
    rintro rfl
    exact hy (by rw [woken_waitingTid, if_pos rfl])
  have hkeep {j : TdPtr} (hj : j ≠ i) : (woken k e x i).tds j = k.tds j := by
    rw [woken_tds, KernelData.modify_of_ne _ _ hj]
  refine ⟨⟨?_, fun {e' y} hy ↦ ?_, fun y hy ↦ ?_, fun y z he hy ↦ ?_, fun y hy ↦ ?_,
    fun j hj ↦ ?_⟩, ?_⟩
  · rw [woken_queues]
    exact h.queues.pop hx
  · have hyx : y ≠ x := by rintro rfl; exact hnot _ hy
    rw [hother hyx, woken_eventId]
    exact h.linked (mem_update_of_subset hsub hy)
  · have hyx := hne hy
    rw [hother hyx] at hy
    rw [woken_eventId]
    have hm := h.used y hy
    by_cases he : (k.eventData.eventList y).eventId = e
    · rw [he, update_self]
      rw [he, hx] at hm
      exact (List.mem_cons.mp hm).resolve_left hyx
    · rwa [update_of_ne he]
  · have hz := hne (he ▸ hy)
    have hyx := hne hy
    rw [hother hyx, hother hz] at he
    rw [hother hyx] at hy
    exact h.distinct y z he hy
  · have hyx := hne hy
    rw [hother hyx] at hy
    obtain ⟨j, hj, hs⟩ := h.owner y hy
    have hji : j ≠ i := by
      rintro rfl
      exact hyx (h.distinct y x (hj.symm.trans hi) hy)
    rw [hother hyx, woken_eventId]
    exact ⟨j, by rw [hkeep hji, hj], by rw [hkeep hji]; exact hs⟩
  · have hji : j ≠ i := by
      rintro rfl
      rw [woken_tds, KernelData.modify_self] at hj
      simp [TaskDescriptor.awake] at hj
    rw [hkeep hji] at hj ⊢
    obtain ⟨hnz, y, hy⟩ := h.waiting j hj
    have hyx : y ≠ x := by
      rintro rfl
      exact hji (hids.inj (hy.symm.trans hi.symm))
    exact ⟨hnz, y, by rw [hother hyx, hy]⟩
  · have hw : waiters (woken k e x i) (update w e rest) = update (waiters k w) e
        (rest.map fun y ↦ (k.eventData.eventList y).waitingTid) := by
      funext e'
      have hmap : waiters (woken k e x i) (update w e rest) e' =
          (update w e rest e').map fun y ↦ (k.eventData.eventList y).waitingTid :=
        List.map_congr_left fun y hy ↦ hother (by rintro rfl; exact hnot _ hy)
      rw [hmap]
      by_cases he : e' = e
      · subst he; simp only [update_self]
      · simp only [update_of_ne he, waiters]
    rw [hw, hi]
    exact Fifo.Run.single (.get e _ _ (by rw [waiters, hx, List.map_cons]))

theorem EventPool.await (h : EventPool k w) (hids : IdsIndexed k.tds) {e : EventId} {x : QueryPtr}
    {links : Queues EventId QueryPtr} (hstate : (k.tds t).state = .syscallBlk)
    (hid : (k.tds t).taskId ≠ tasksIdInvalid) (hparam : (k.tds t).systemCall.param1.toNat = e.val)
    (hx : (k.eventData.eventList x).waitingTid = tasksIdInvalid)
    (hp : (k.eventData.setQuery x ⟨(k.tds t).taskId, none, .valid, e⟩).queues.push e x =
      some links) :
    EventPool ({ k with eventData := awaiting k t x e links }.setState t .evtBlk)
        (update w e (w e ++ [x])) ∧
      Run Fifo.Step (waiters k w) [.put e (k.tds t).taskId]
        (waiters ({ k with eventData := awaiting k t x e links }.setState t .evtBlk)
          (update w e (w e ++ [x]))) := by
  generalize hk : { k with eventData := awaiting k t x e links }.setState t .evtBlk = k'
  have htid (y : QueryPtr) : (k'.eventData.eventList y).waitingTid =
      if y = x then (k.tds t).taskId else (k.eventData.eventList y).waitingTid := by
    rw [← hk]
    exact awaiting_waitingTid k t x y e links
  have heid (y : QueryPtr) : (k'.eventData.eventList y).eventId =
      if y = x then e else (k.eventData.eventList y).eventId := by
    rw [← hk]
    by_cases hy : y = x <;>
      simp [KernelData.setState, awaiting, EventData.withQueues, EventData.setQuery, hy]
  have hself : (k'.tds t).state = .evtBlk ∧ (k'.tds t).taskId = (k.tds t).taskId ∧
      (k'.tds t).systemCall = (k.tds t).systemCall := by
    simp [← hk, KernelData.setState]
  have hkeep {i : TdPtr} (hi : i ≠ t) : k'.tds i = k.tds i := by
    simp [← hk, KernelData.setState, hi]
  have hfree (e' : EventId) : x ∉ w e' := fun hm ↦ (h.linked hm).1 hx
  have hrep : Represents (k.eventData.setQuery x ⟨(k.tds t).taskId, none, .valid, e⟩).queues w := by
    refine ⟨fun i ↦ (h.queues.chain i).congr fun y hy ↦ ?_, h.queues.tail, h.queues.disjoint⟩
    have hyx : y ≠ x := by rintro rfl; exact hfree i hy
    simp [EventData.queues, hyx]
  obtain ⟨links', hp', hrep'⟩ := hrep.push e hfree
  obtain rfl := Option.some.inj (hp.symm.trans hp')
  have hqueues : k'.eventData.queues = links := by rw [← hk]; rfl
  have hne {e' : EventId} {y : QueryPtr} (hy : y ∈ w e') : y ≠ x := by
    rintro rfl; exact hfree e' hy
  have hfresh {y : QueryPtr} (hy : (k.eventData.eventList y).waitingTid ≠ tasksIdInvalid) :
      (k.eventData.eventList y).waitingTid ≠ (k.tds t).taskId := by
    obtain ⟨i, hi, hs, -⟩ := h.owner y hy
    intro he
    obtain rfl := hids.inj (hi.trans he)
    simp [hstate] at hs
  refine ⟨⟨hqueues ▸ hrep', fun {e' y} hy ↦ ?_, fun y hy ↦ ?_, fun y z he hy ↦ ?_, fun y hy ↦ ?_,
    fun j hj ↦ ?_⟩, ?_⟩
  · rw [htid, heid]
    rcases mem_update_append.mp hy with hy | ⟨rfl, rfl⟩
    · simp only [if_neg (hne hy)]
      exact h.linked hy
    · simpa using hid
  · rw [htid] at hy
    rw [heid, mem_update_append]
    split_ifs at hy ⊢ with hyx
    · exact .inr ⟨rfl, hyx⟩
    · exact .inl (h.used y hy)
  · rw [htid] at hy
    rw [htid, htid] at he
    split_ifs at hy he with hyx hzx hzx
    · rw [hyx, hzx]
    · exact absurd he.symm (hfresh (he ▸ hy))
    · exact absurd he (hfresh hy)
    · exact h.distinct y z he hy
  · rw [htid] at hy ⊢
    rw [heid]
    split_ifs at hy ⊢ with hyx
    · exact ⟨t, hself.2.1, hself.1, by rw [hself.2.2, hparam]⟩
    · obtain ⟨i, hi, hs⟩ := h.owner y hy
      have hit : i ≠ t := by rintro rfl; simp [hstate] at hs
      exact ⟨i, by rw [hkeep hit, hi], by rw [hkeep hit]; exact hs⟩
  · by_cases hjt : j = t
    · subst hjt
      exact ⟨hself.2.1 ▸ hid, x, by rw [htid, if_pos rfl, hself.2.1]⟩
    · rw [hkeep hjt] at hj ⊢
      obtain ⟨hnz, y, hy⟩ := h.waiting j hj
      have hyx : y ≠ x := by rintro rfl; exact hnz (hy.symm.trans hx)
      exact ⟨hnz, y, by rw [htid, if_neg hyx, hy]⟩
  · have hold (e' : EventId) : ((w e').map fun y ↦ (k'.eventData.eventList y).waitingTid) =
        waiters k w e' :=
      List.map_congr_left fun y hy ↦ by rw [htid, if_neg (hne hy)]
    have hw : waiters k' (update w e (w e ++ [x])) =
        update (waiters k w) e (waiters k w e ++ [(k.tds t).taskId]) := by
      funext e'
      by_cases he : e' = e
      · subst he
        simp only [waiters, update_self, List.map_append, List.map_cons, List.map_nil, htid x,
          if_true]
        exact congrArg (· ++ [(k.tds t).taskId]) (hold e')
      · simp only [waiters, update_of_ne he]
        exact hold e'
    rw [hw]
    exact Fifo.Run.single (.put e _)

theorem SyscallEffect.await (h : SyscallEffect k t k') (hq : SendInvariant k q)
    (hw : EventPool k w) (hids : IdsIndexed k.tds) (hid : (k.tds t).taskId ≠ tasksIdInvalid)
    (hstate : (k.tds t).state = .syscallBlk) : ∃ w', EventPool k' w' ∧
      Run Fifo.Step (waiters k w) (awaitEvents k t) (waiters k' w') := by
  rcases h.eventData hq hstate with ⟨he, hev, hne⟩ | ⟨x, e, links, hc, hp, hx, hpush, rfl⟩
  · refine ⟨w, hw.congr he (fun i hi ↦ ?_) (fun i hi ↦ ?_), ?_⟩
    · have hit : i ≠ t := KernelData.ne_of_state hi hstate (by decide)
      obtain ⟨hs, hid, hcall⟩ := (h.other hq hstate hit).evtBlk hq hi
      exact ⟨hs, hid, by rw [hcall]⟩
    · have hit : i ≠ t := by rintro rfl; exact hne hi
      exact (h.other hq hstate hit).of_evtBlk hi
    · rw [hev, waiters_same he]
      exact .nil
  · have hev : awaitEvents k t = [.put e (k.tds t).taskId] := by
      simp [awaitEvents, hc, hx, hp]
    rw [hev]
    obtain ⟨hw', hr⟩ := hw.await hids hstate hid hp (vacantQuery_free hx) hpush
    exact ⟨_, hw', hr⟩

def wakeEvents (k : KernelData) (isrNumber : Word) : List (Fifo.Event EventId Word) :=
  match eventOf isrNumber with
  | none => []
  | some e =>
    match k.eventData.eventQueueHead e with
    | none => []
    | some x => [.get e (k.eventData.eventList x).waitingTid]

theorem InterruptEffect.wake {isrNumber : Word} (h : InterruptEffect k isrNumber k')
    (hw : EventPool k w) (hids : IdsIndexed k.tds) : ∃ w', EventPool k' w' ∧
      Run Fifo.Step (waiters k w) (wakeEvents k isrNumber) (waiters k' w') := by
  cases h with
  | ignored he => exact ⟨w, hw, by rw [wakeEvents, he]; exact .nil⟩
  | lost e he hx => exact ⟨w, hw, by simp only [wakeEvents, he, hx]; exact .nil⟩
  | wakes e x i he hx hi =>
    have hid := hids.find.mp hi
    obtain ⟨rest, hrest⟩ : ∃ rest, w e = x :: rest :=
      List.head?_eq_some_iff.mp ((hw.queues.head_eq e).symm.trans hx)
    obtain ⟨hw', hr⟩ := hw.wake hids hrest hid
    refine ⟨_, hw', ?_⟩
    simp only [wakeEvents, he, hx, ← hid]
    exact hr

theorem grown_ne_zero {a : Word} (h : a ≤ a + tasksIdGenerationIncrement) :
    a + tasksIdGenerationIncrement ≠ tasksIdInvalid := by
  unfold tasksIdGenerationIncrement tasksIdInvalid at *
  bv_omega

theorem OtherChange.of_invalid {i : TdPtr} {td : TaskDescriptor} (h : OtherChange k t i td)
    (hq : SendInvariant k q) (hi : (k.tds i).state = .invalid) :
    td.state = .invalid ∨ td.taskId = (k.tds i).taskId + tasksIdGenerationIncrement := by
  cases h with
  | kept => exact .inl hi
  | handed v hc ht hs => simp [hi] at hs
  | received v blocking hc hs =>
    have hb := hq.head_blocked hs
    simp [hi] at hb
  | replied v hc hl hs => simp [hi] at hs
  | created => exact .inr rfl

theorem SyscallEffect.issued (h : SyscallEffect k t k') (hq : SendInvariant k q)
    (hstate : (k.tds t).state = .syscallBlk) (hi : IdsIssued k)
    (hgrow : ∀ i, (k.tds i).taskId ≤ (k'.tds i).taskId) : IdsIssued k' := by
  intro i hs
  rcases h.taskId hq hstate i with he | ⟨-, -, he⟩
  · by_cases hinv : (k.tds i).state = .invalid
    · have hit : i ≠ t := KernelData.ne_of_state hinv hstate (by decide)
      have hnew := ((h.other hq hstate hit).of_invalid hq hinv).resolve_left hs
      have hg := hgrow i
      rw [hnew] at hg ⊢
      exact grown_ne_zero hg
    · rw [he]
      exact hi i hinv
  · have hg := hgrow i
    rw [he] at hg ⊢
    exact grown_ne_zero hg

theorem IdsIssued.same (h : IdsIssued k) (hs : SameTasks k k') : IdsIssued k' := by
  intro i hi
  rw [core_taskId (hs.core i)]
  exact h i (core_state (hs.core i) ▸ hi)

theorem IdsIssued.enter (h : IdsIssued k) (p : Preemption) (hr : isTaskReady (k.tds t) = true) :
    IdsIssued (k.modify t p.result) := by
  intro i hi
  by_cases hit : i = t
  · subst hit
    rw [KernelData.modify_self, p.result_taskId]
    exact h i (fun he ↦ by simp [isTaskReady, he] at hr)
  · rw [KernelData.modify_of_ne _ _ hit] at hi ⊢
    exact h i hi

def Pass.eventEvents (c : Pass) (s : RtosMain) : List (Fifo.Event EventId Word) :=
  match c.picked with
  | none => []
  | some t =>
    match ((c.entry s t).tds t).state with
    | .syscallBlk => awaitEvents (c.entry s t) t
    | .hwint => wakeEvents (c.entry s t) c.iteration.preemption.reason
    | _ => []

def eventLog : RtosMain × List (Fifo.Event EventId Word) → Pass →
    RtosMain × List (Fifo.Event EventId Word) → Prop :=
  Logged growStep fun s c ↦ c.eventEvents s

theorem entry_pool {s : RtosMain} {c : Pass}
    (hready : isTaskReady ((loopHead c.iteration s).tds t) = true)
    (hi : IdsIssued s.kernel) (hw : EventPool s.kernel w) :
    IdsIssued (c.entry s t) ∧ EventPool (c.entry s t) w ∧
      waiters (c.entry s t) w = waiters s.kernel w ∧
      ∀ i, ((c.entry s t).tds i).taskId = (s.kernel.tds i).taskId := by
  refine entry_invariant (P := fun k ↦ IdsIssued k ∧ EventPool k w ∧
      waiters k w = waiters s.kernel w ∧ ∀ i, (k.tds i).taskId = (s.kernel.tds i).taskId)
    (fun hs h ↦ ⟨h.1.same hs, h.2.1.same hs, (waiters_same hs.eventData).trans h.2.2.1,
      fun i ↦ (core_taskId (hs.core i)).trans (h.2.2.2 i)⟩)
    (fun {k t} p hr h ↦ ⟨h.1.enter p hr, h.2.1.enter p hr, h.2.2.1, fun i ↦ ?_⟩) hready
    ⟨hi, hw, rfl, fun _ ↦ rfl⟩
  by_cases hit : i = t
  · subst hit
    rw [KernelData.modify_self, p.result_taskId]
    exact h.2.2.2 i
  · rw [KernelData.modify_of_ne _ _ hit]
    exact h.2.2.2 i

theorem growStep_pool {s s' : RtosMain} {c : Pass} (h : growStep s c s')
    (hk : KernelInvariant s.kernel) (hi : IdsIssued s.kernel) (hw : EventPool s.kernel w) :
    IdsIssued s'.kernel ∧ ∃ w', EventPool s'.kernel w' ∧
      Run Fifo.Step (waiters s.kernel w) (c.eventEvents s) (waiters s'.kernel w') := by
  obtain ⟨hstep, hgrow⟩ := h
  have hentry (t : TdPtr) (ht : c.picked = some t) : KernelInvariant (c.entry s t) :=
    hk.entry (hstep.1 t ht)
  rcases passStep_outcome hstep with ⟨hp, he⟩ | ⟨t, ht, hst, he⟩ | ⟨t, k, ht, hst, hk', he⟩ |
    ⟨t, k, ht, hst, hk', he⟩
  · refine ⟨hi.same he, w, hw.same he, ?_⟩
    rw [show c.eventEvents s = [] by simp [Pass.eventEvents, hp], waiters_same he.eventData]
    exact .nil
  · obtain ⟨hi', hw', hl, -⟩ := entry_pool (hstep.1 t ht) hi hw
    rw [he]
    refine ⟨hi', w, hw', ?_⟩
    rw [show c.eventEvents s = [] by simp [Pass.eventEvents, ht, hst], hl]
    exact .nil
  · obtain ⟨hi', hw', hl, hids⟩ := entry_pool (hstep.1 t ht) hi hw
    obtain ⟨q, hq⟩ := (hentry t ht).send
    have hk' := handleSyscall_effect hst hk'
    have hissued : IdsIssued k := by
      refine hk'.issued hq hst hi' fun i ↦ ?_
      have hg := hgrow i
      rwa [← hids i, core_taskId (he.core i)] at hg
    have hid := hi' t (by simp [hst])
    obtain ⟨w', hw'', hr⟩ := hk'.await hq hw' (hentry t ht).ids hid hst
    refine ⟨hissued.same he, w', hw''.same he, ?_⟩
    have hev : c.eventEvents s = awaitEvents (c.entry s t) t := by
      simp [Pass.eventEvents, ht, hst]
    rw [hev, waiters_same he.eventData, ← hl]
    exact hr
  · obtain ⟨hi', hw', hl, -⟩ := entry_pool (hstep.1 t ht) hi hw
    have hk' := handleInterrupt_effect hk'
    obtain ⟨w', hw'', hr⟩ := hk'.wake hw' (hentry t ht).ids
    have hev : c.eventEvents s = wakeEvents (c.entry s t) c.iteration.preemption.reason := by
      simp [Pass.eventEvents, ht, hst]
    refine ⟨IdsIssued.same ?_ he, w', hw''.same he, ?_⟩
    · cases hk' with
      | ignored => exact hi'
      | lost => exact hi'
      | wakes e x i hev hx hf =>
        obtain ⟨j, hj, hb⟩ := (hentry t ht).events.wakes (hentry t ht).ids hx
        obtain rfl := Option.some.inj (hf.symm.trans hj)
        intro j hj
        rw [woken_tds] at hj ⊢
        by_cases hji : j = i
        · subst hji
          rw [KernelData.modify_self]
          exact hi' j (by simp [hb])
        · rw [KernelData.modify_of_ne _ _ hji] at hj ⊢
          exact hi' j hj
    · rw [hev, waiters_same he.eventData, ← hl]
      exact hr

theorem EventPool.boot (b : Boot) : EventPool (booted b).kernel fun _ ↦ [] := by
  refine ⟨Represents.empty _ _, fun h ↦ by simp at h, fun x hx ↦ absurd rfl hx,
    fun x _ _ hx ↦ absurd rfl hx, fun x hx ↦ absurd rfl hx, fun i hi ↦ ?_⟩
  rw [booted_state] at hi
  split_ifs at hi

theorem IdsIssued.boot (b : Boot) : IdsIssued (booted b).kernel := by
  intro i hi
  rw [booted_state] at hi
  by_cases h0 : i = 0
  · subst h0
    exact (by decide : (0#32 + tasksIdGenerationIncrement) ≠ tasksIdInvalid)
  · simp [h0] at hi

/-- The states of the runs in which no id wraps around, with the history of
the event queues. -/
theorem eventLog_invariant {b : Boot} {cs : List Pass} {s : RtosMain}
    {log : List (Fifo.Event EventId Word)} (h : Run eventLog (booted b, []) cs (s, log)) :
    Reachable b s ∧ IdsIssued s.kernel ∧ ∃ w, EventPool s.kernel w ∧
      Run Fifo.Step (fun _ ↦ []) log (waiters s.kernel w) := by
  refine h.invariant (P := fun sl ↦ Reachable b sl.1 ∧ IdsIssued sl.1.kernel ∧
    ∃ w, EventPool sl.1.kernel w ∧ Run Fifo.Step (fun _ ↦ []) sl.2 (waiters sl.1.kernel w))
    ⟨⟨booted b, [], boot_eq b, .nil⟩, .boot b, _, .boot b, .nil⟩ ?_
  rintro ⟨s, log⟩ c ⟨s', log'⟩ ⟨hreach, hi, w, hw, hlog⟩ ⟨hstep, rfl⟩
  obtain ⟨hi', w', hw', hr⟩ := growStep_pool hstep hreach.kernelInvariant hi hw
  exact ⟨hreach.next hstep.1, hi', w', hw', hlog.trans hr⟩

def Pass.growRun (c : Pass) (sl : RtosMain × List (Fifo.Event EventId Word)) :
    Option (RtosMain × List (Fifo.Event EventId Word)) :=
  (c.run sl.1).bind fun s ↦
    if ∀ i, (sl.1.kernel.tds i).taskId ≤ (s.kernel.tds i).taskId then
      some (s, sl.2 ++ c.eventEvents sl.1)
    else none

theorem Pass.growRun_step (sl : RtosMain × List (Fifo.Event EventId Word)) (c : Pass)
    (sl' : RtosMain × List (Fifo.Event EventId Word)) (h : c.growRun sl = some sl') :
    eventLog sl c sl' := by
  unfold Pass.growRun at h
  obtain ⟨s, hs, h⟩ := Option.bind_eq_some_iff.mp h
  split_ifs at h with hgrow
  obtain rfl := Option.some.inj h
  exact ⟨⟨Pass.run_step _ _ _ hs, hgrow⟩, rfl⟩

end PrjOS
