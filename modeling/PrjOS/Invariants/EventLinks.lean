import PrjOS.Invariants.Changes
import PrjOS.Library.PoolLinks

namespace PrjOS

open ByteMemory Function LinkedQueue

/-- The first task, once its id has wrapped around to `TASKS_ID_INVALID`,
waits for an event. Its entry then looks free. -/
def ZeroWaits (k : KernelData) : Prop :=
  (k.tds 0).taskId = tasksIdInvalid ∧ (k.tds 0).state = .evtBlk

/-- No entry that the event queues lead to is free, but for the one that
`ZeroWaits` speaks of. -/
def EntriesUsed (k : KernelData) : Prop :=
  (∃ L, Linked k.eventData.queues L none ∧
    ∀ x ∈ L, (k.eventData.eventList x).waitingTid ≠ tasksIdInvalid) ∨
  (ZeroWaits k ∧ ∃ L m, Linked k.eventData.queues L
      (if (k.eventData.eventList m).waitingTid = tasksIdInvalid then none else some m) ∧
    ∀ x ∈ L, (k.eventData.eventList x).waitingTid = tasksIdInvalid → x = m)

structure EventInvariant (k : KernelData) : Prop where
  owner : ∀ x, (k.eventData.eventList x).waitingTid ≠ tasksIdInvalid →
    ∃ i, (k.tds i).taskId = (k.eventData.eventList x).waitingTid ∧ (k.tds i).state = .evtBlk
  distinct : ∀ x y, (k.eventData.eventList x).waitingTid = (k.eventData.eventList y).waitingTid →
    (k.eventData.eventList x).waitingTid ≠ tasksIdInvalid → x = y
  tailed : Tailed k.eventData.queues
  used : EntriesUsed k

variable {k k' : KernelData} {t : TdPtr}

theorem EventInvariant.congr (h : EventInvariant k) (he : k'.eventData = k.eventData)
    (hkeep : ∀ i, (k.tds i).state = .evtBlk →
      (k'.tds i).state = .evtBlk ∧ (k'.tds i).taskId = (k.tds i).taskId) : EventInvariant k' where
  owner x hx := by
    rw [he] at hx ⊢
    obtain ⟨i, hi, hs⟩ := h.owner x hx
    exact ⟨i, (hkeep i hs).2.trans hi, (hkeep i hs).1⟩
  distinct := by rw [he]; exact h.distinct
  tailed := he ▸ h.tailed
  used := by
    unfold EntriesUsed
    rw [he]
    exact h.used.imp_right fun ⟨hz, hl⟩ ↦ ⟨⟨(hkeep 0 hz.2).2.trans hz.1, (hkeep 0 hz.2).1⟩, hl⟩

theorem zero_of_taskId (hids : IdsIndexed k.tds) {i : TdPtr}
    (h : (k.tds i).taskId = tasksIdInvalid) : i = 0 := by
  have hi := hids i
  rw [h] at hi
  exact Fin.ext hi.symm

/-- The first entry of a queue belongs to a task that waits for an event. -/
theorem EventInvariant.wakes (h : EventInvariant k) (hids : IdsIndexed k.tds) {e : EventId}
    {x : QueryPtr} (hx : k.eventData.eventQueueHead e = some x) :
    ∃ i, findTd (k.eventData.eventList x).waitingTid k.tds = some i ∧
      (k.tds i).state = .evtBlk := by
  by_cases h0 : (k.eventData.eventList x).waitingTid = tasksIdInvalid
  · rcases h.used with ⟨L, hl, hu⟩ | ⟨hz, -⟩
    · exact absurd h0 (hu x (hl.closed (a := .inl e) trivial hx))
    · exact ⟨0, by rw [h0]; exact hids.find.mpr hz.1, hz.2⟩
  · obtain ⟨i, hi, hs⟩ := h.owner x h0
    exact ⟨i, hids.find.mpr hi, hs⟩

theorem woken_queues (k : KernelData) (e : EventId) (x : QueryPtr) (i : TdPtr) :
    (woken k e x i).eventData.queues = k.eventData.queues.pop e x := by
  simp only [EventData.queues, Queues.pop, Queues.mk.injEq]
  refine ⟨rfl, rfl, funext fun y ↦ ?_⟩
  by_cases hy : y = x <;>
    simp [woken, hy, Queues.pop, EventData.withQueues, EventData.setQuery, EventData.queues,
      KernelData.setTaskReady, KernelData.setState, KernelData.setReturnValue]

theorem woken_waitingTid (k : KernelData) (e : EventId) (x y : QueryPtr) (i : TdPtr) :
    ((woken k e x i).eventData.eventList y).waitingTid =
      if y = x then tasksIdInvalid else (k.eventData.eventList y).waitingTid := by
  by_cases hy : y = x <;>
    simp [woken, hy, EventData.withQueues, EventData.setQuery, KernelData.setTaskReady,
      KernelData.setState, KernelData.setReturnValue]

theorem EventInvariant.wake (h : EventInvariant k) (hids : IdsIndexed k.tds) {e : EventId}
    {x : QueryPtr} (hx : k.eventData.eventQueueHead e = some x) {i : TdPtr}
    (hi : findTd (k.eventData.eventList x).waitingTid k.tds = some i) :
    EventInvariant (woken k e x i) := by
  have hid := hids.find.mp hi
  have hkeep (j : TdPtr) (hj : (k.tds j).taskId ≠ (k.eventData.eventList x).waitingTid) :
      (woken k e x i).tds j = k.tds j := by
    rw [woken_tds, KernelData.modify_of_ne]
    rintro rfl
    exact hj hid
  have hother {y : QueryPtr} (hy : ((woken k e x i).eventData.eventList y).waitingTid ≠
      tasksIdInvalid) : y ≠ x ∧ ((woken k e x i).eventData.eventList y).waitingTid =
        (k.eventData.eventList y).waitingTid := by
    rw [woken_waitingTid] at hy ⊢
    split_ifs at hy ⊢ with hyx
    · exact absurd rfl hy
    · exact ⟨hyx, rfl⟩
  refine ⟨fun y hy ↦ ?_, fun y z he hy ↦ ?_, ?_, ?_⟩
  · obtain ⟨hyx, he⟩ := hother hy
    rw [he] at hy ⊢
    obtain ⟨j, hj, hs⟩ := h.owner y hy
    have hne : (k.tds j).taskId ≠ (k.eventData.eventList x).waitingTid := by
      rw [hj]
      exact fun he ↦ hyx (h.distinct y x he hy)
    exact ⟨j, by rw [hkeep j hne, hj], by rw [hkeep j hne, hs]⟩
  · have hz := hother (he ▸ hy)
    rw [(hother hy).2, hz.2] at he
    exact h.distinct y z he ((hother hy).2 ▸ hy)
  · rw [woken_queues]
    exact h.tailed.pop hx
  · unfold EntriesUsed
    simp only [woken_queues, woken_waitingTid]
    rcases h.used with ⟨L, hl, hu⟩ | ⟨hz, L, m, hl, hu⟩
    · refine .inl ⟨L \ {x}, hl.pop_free hx (by simp), fun y hy ↦ ?_⟩
      rw [if_neg (show y ≠ x from hy.2)]
      exact hu y hy.1
    · by_cases h0 : (k.eventData.eventList x).waitingTid = tasksIdInvalid
      · have hxm := hu x (hl.closed (a := .inl e) trivial hx) h0
        subst hxm
        rw [if_pos h0] at hl
        refine .inl ⟨L \ {x}, hl.pop_free hx (by simp), fun y hy ↦ ?_⟩
        rw [if_neg (show y ≠ x from hy.2)]
        exact fun h0 ↦ hy.2 (hu y hy.1 h0)
      · have hz' : ZeroWaits (woken k e x i) := by
          unfold ZeroWaits
          rw [hkeep 0 (by rw [hz.1]; exact Ne.symm h0)]
          exact hz
        by_cases hxm : x = m
        · subst hxm
          rw [if_neg h0] at hl
          refine .inr ⟨hz', L, x, ?_, fun y hy hy0 ↦ ?_⟩
          · simpa using hl.pop_shared hx
          · by_contra hyx
            rw [if_neg hyx] at hy0
            exact hyx (hu y hy hy0)
        · refine .inr ⟨hz', L \ {x}, m, ?_, fun y hy hy0 ↦ ?_⟩
          · rw [if_neg (Ne.symm hxm)]
            refine hl.pop_free hx ?_
            split_ifs
            · simp
            · simpa using Ne.symm hxm
          · rw [if_neg (show y ≠ x from hy.2)] at hy0
            exact hu y hy.1 hy0

def awaiting (k : KernelData) (t : TdPtr) (x : QueryPtr) (e : EventId)
    (q : Queues EventId QueryPtr) : EventData :=
  (k.eventData.setQuery x ⟨(k.tds t).taskId, none, .valid, e⟩).withQueues q

theorem awaiting_waitingTid (k : KernelData) (t : TdPtr) (x y : QueryPtr) (e : EventId)
    (q : Queues EventId QueryPtr) : ((awaiting k t x e q).eventList y).waitingTid =
      if y = x then (k.tds t).taskId else (k.eventData.eventList y).waitingTid := by
  by_cases hy : y = x <;> simp [awaiting, EventData.withQueues, EventData.setQuery, hy]

theorem vacantQuery_free {d : EventData} {x : QueryPtr} (h : vacantQuery d = some x) :
    (d.eventList x).waitingTid = tasksIdInvalid := by
  simpa using List.find?_some h

theorem EventInvariant.awaits (h : EventInvariant k) (hids : IdsIndexed k.tds) {e : EventId}
    {x : QueryPtr} {q : Queues EventId QueryPtr} (hstate : (k.tds t).state = .syscallBlk)
    (hx : (k.eventData.eventList x).waitingTid = tasksIdInvalid)
    (hp : (k.eventData.setQuery x ⟨(k.tds t).taskId, none, .valid, e⟩).queues.push e x = some q) :
    EventInvariant ({ k with eventData := awaiting k t x e q }.setState t .evtBlk) := by
  generalize hk : { k with eventData := awaiting k t x e q }.setState t .evtBlk = k'
  have htid (y : QueryPtr) : (k'.eventData.eventList y).waitingTid =
      if y = x then (k.tds t).taskId else (k.eventData.eventList y).waitingTid := by
    rw [← hk]
    exact awaiting_waitingTid k t x y e q
  have hqueues : k'.eventData.queues = q := by rw [← hk]; rfl
  have hself : (k'.tds t).state = .evtBlk ∧ (k'.tds t).taskId = (k.tds t).taskId := by
    simp [← hk, KernelData.setState]
  have hkeep {i : TdPtr} (hi : (k.tds i).state = .evtBlk) : i ≠ t ∧ k'.tds i = k.tds i := by
    have hne : i ≠ t := by rintro rfl; simp [hstate] at hi
    exact ⟨hne, by simp [← hk, KernelData.setState, hne]⟩
  have hcut {L : Set QueryPtr} {shared : Option QueryPtr} (hl : Linked k.eventData.queues L shared) :
      Linked (k.eventData.setQuery x ⟨(k.tds t).taskId, none, .valid, e⟩).queues L shared := by
    refine hl.mono fun a y hy ↦ ?_
    cases a with
    | inl j => exact hy
    | inr z => by_cases hz : z = x <;> simp_all [Queues.link, EventData.queues]
  refine ⟨fun y hy ↦ ?_, fun y z he hy ↦ ?_, ?_, ?_⟩
  · rw [htid] at hy ⊢
    split_ifs at hy ⊢ with hyx
    · exact ⟨t, hself.2, hself.1⟩
    · obtain ⟨i, hi, hs⟩ := h.owner y hy
      exact ⟨i, by rw [(hkeep hs).2, hi], by rw [(hkeep hs).2, hs]⟩
  · have hfresh {y : QueryPtr} (hy : (k.eventData.eventList y).waitingTid ≠ tasksIdInvalid) :
        (k.eventData.eventList y).waitingTid ≠ (k.tds t).taskId := by
      obtain ⟨i, hi, hs⟩ := h.owner y hy
      exact fun he ↦ (hkeep hs).1 (hids.inj (hi.trans he))
    rw [htid] at hy
    rw [htid, htid] at he
    split_ifs at hy he with hyx hzx hzx
    · rw [hyx, hzx]
    · exact absurd he.symm (hfresh (he ▸ hy))
    · exact absurd he (hfresh hy)
    · exact h.distinct y z he hy
  · rw [hqueues]
    exact Tailed.push (show Tailed (k.eventData.setQuery x _).queues from h.tailed) hp
  · unfold EntriesUsed
    simp only [hqueues, htid]
    rcases h.used with ⟨L, hl, hu⟩ | ⟨hz, L, m, hl, hu⟩
    · have hxL : x ∉ L := fun hm ↦ hu x hm hx
      have hl' := (hcut hl).push_free hxL hp
      by_cases h0 : (k.tds t).taskId = tasksIdInvalid
      · obtain rfl := zero_of_taskId hids h0
        refine .inr ⟨⟨hself.2.trans h0, hself.1⟩, insert x L, x, by simpa [h0] using hl',
          fun y hy hy0 ↦ ?_⟩
        by_contra hyx
        rw [if_neg hyx] at hy0
        exact hu y (hy.resolve_left hyx) hy0
      · refine .inl ⟨insert x L, hl', fun y hy ↦ ?_⟩
        split_ifs with hyx
        · exact h0
        · exact hu y (hy.resolve_left hyx)
    · have h0 : (k.tds t).taskId ≠ tasksIdInvalid := fun h0 ↦
        (hkeep hz.2).1 (zero_of_taskId hids h0).symm
      have hz' : ZeroWaits k' := by
        unfold ZeroWaits
        rw [(hkeep hz.2).2]
        exact hz
      by_cases hxm : x = m
      · subst hxm
        rw [if_pos hx] at hl
        have hused {y : QueryPtr} (hy : y ∈ insert x L) (hy0 : (if y = x then (k.tds t).taskId
            else (k.eventData.eventList y).waitingTid) = tasksIdInvalid) : y = x := by
          by_contra hyx
          rw [if_neg hyx] at hy0
          exact hyx (hu y (hy.resolve_left hyx) hy0)
        by_cases hxL : x ∈ L
        · refine .inr ⟨hz', L, x, ?_, fun y hy ↦ hused (Set.mem_insert_of_mem x hy)⟩
          simpa [h0] using (hcut hl).push_shared hxL hp
        · refine .inr ⟨hz', insert x L, x, ?_, fun y hy ↦ hused hy⟩
          simpa [h0] using ((hcut hl).push_free hxL hp).share (some x)
      · have hxL : x ∉ L := fun hm ↦ hxm (hu x hm hx)
        refine .inr ⟨hz', insert x L, m, ?_, fun y hy hy0 ↦ ?_⟩
        · rw [if_neg (Ne.symm hxm)]
          exact (hcut hl).push_free hxL hp
        · split_ifs at hy0 with hyx
          · exact absurd hy0 h0
          · exact hu y (hy.resolve_left hyx) hy0

theorem sysAwaitEvent_ok (h : Tailed k.eventData.queues) : ∃ k', sysAwaitEvent t k = .ok k' := by
  unfold sysAwaitEvent
  simp only
  split_ifs with he
  · cases hv : vacantQuery k.eventData with
    | none => exact ⟨_, rfl⟩
    | some x =>
      obtain ⟨links, hp⟩ := Tailed.exists_push
        (q := (k.eventData.setQuery x ⟨(k.tds t).taskId, none, .valid, ⟨_, he⟩⟩).queues)
        h ⟨_, he⟩ x
      simp only [pushEvent_eq, EventData.setQuery_self, hp, bind, Except.bind]
      exact ⟨_, rfl⟩
  · exact ⟨_, rfl⟩

theorem EventInvariant.boot (b : Boot) : EventInvariant (booted b).kernel := by
  refine ⟨fun x hx ↦ absurd rfl hx, fun x _ _ hx ↦ absurd rfl hx, fun e he ↦ absurd rfl he, ?_⟩
  exact .inl ⟨∅, Linked.empty _ _, fun x hx ↦ absurd hx (Set.notMem_empty x)⟩

end PrjOS
