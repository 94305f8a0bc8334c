import PrjOS.KernelPass

namespace PrjOS

open ByteMemory Function LinkedQueue

/-- The lists `q` are the send queues, and whoever is on one is blocked on a
send to the task it belongs to. -/
structure SendInvariant (k : KernelData) (q : TdPtr → List TdPtr) : Prop where
  queues : Represents k.sendQueues q
  blocked : ∀ {r s}, s ∈ q r → (k.tds s).state = .rcvdBlk
  target : ∀ {r s}, s ∈ q r → (k.tds s).systemCall.param1 = (k.tds r).taskId
  waiting : ∀ r, (k.tds r).state = .sendBlk → q r = []
  unlinked : ∀ s, (k.tds s).state ≠ .rcvdBlk → (k.tds s).sendQueueNext = none
  generation : ∀ r, q r ≠ [] → generationId (k.tds r).taskId ≠ 0

variable {k k' : KernelData} {q : TdPtr → List TdPtr} {t : TdPtr}

theorem SendInvariant.not_mem (h : SendInvariant k q) {s : TdPtr}
    (hs : (k.tds s).state ≠ .rcvdBlk) (r : TdPtr) : s ∉ q r := fun hm ↦ hs (h.blocked hm)

theorem SendInvariant.head_eq (h : SendInvariant k q) (r : TdPtr) :
    (k.tds r).sendQueueHead = (q r).head? := h.queues.head_eq r

theorem SendInvariant.head_blocked (h : SendInvariant k q) {r s : TdPtr}
    (hs : (k.tds r).sendQueueHead = some s) : (k.tds s).state = .rcvdBlk := by
  rw [h.head_eq] at hs
  exact h.blocked (List.mem_of_mem_head? hs)

theorem SendInvariant.head_ne (h : SendInvariant k q) {r s : TdPtr}
    (hstate : (k.tds t).state = .syscallBlk) (hs : (k.tds r).sendQueueHead = some s) : t ≠ s := by
  rintro rfl
  have hrcvd := h.head_blocked hs
  rw [hstate] at hrcvd
  cases hrcvd

/-- Changes that leave the links, the ids and the blocked senders alone. -/
theorem SendInvariant.congr (h : SendInvariant k q) (hq : k'.sendQueues = k.sendQueues)
    (hid : ∀ i, (k'.tds i).taskId = (k.tds i).taskId)
    (hkeep : ∀ i, (k.tds i).state = .rcvdBlk → (k'.tds i).state = .rcvdBlk ∧
      (k'.tds i).systemCall.param1 = (k.tds i).systemCall.param1)
    (hwait : ∀ i, (k'.tds i).state = .sendBlk → q i = []) : SendInvariant k' q where
  queues := hq ▸ h.queues
  blocked hs := (hkeep _ (h.blocked hs)).1
  target hs := by rw [(hkeep _ (h.blocked hs)).2, hid, h.target hs]
  waiting := hwait
  unlinked s hs := by
    have hn := congrFun (congrArg Queues.next hq) s
    simp only [KernelData.sendQueues] at hn
    rw [hn]
    exact h.unlinked s (fun hb ↦ hs (hkeep s hb).1)
  generation r hr := by rw [hid]; exact h.generation r hr

theorem sendQueues_of_links (hl : ∀ i, (k'.tds i).sendQueueHead = (k.tds i).sendQueueHead ∧
    (k'.tds i).sendQueueTail = (k.tds i).sendQueueTail ∧
    (k'.tds i).sendQueueNext = (k.tds i).sendQueueNext) : k'.sendQueues = k.sendQueues := by
  simp only [KernelData.sendQueues, Queues.mk.injEq]
  exact ⟨funext fun i ↦ (hl i).1, funext fun i ↦ (hl i).2.1, funext fun i ↦ (hl i).2.2⟩

theorem SendInvariant.same (h : SendInvariant k q)
    (hs : ∀ i, (k'.tds i).core = (k.tds i).core) : SendInvariant k' q := by
  have hf {β : Type} (f : TaskDescriptor → β) (hf : ∀ td, f td.core = f td) (i : TdPtr) :
      f (k'.tds i) = f (k.tds i) := by rw [← hf, hs, hf]
  have hstate := hf TaskDescriptor.state fun _ ↦ rfl
  refine h.congr (sendQueues_of_links fun i ↦ ⟨hf _ (fun _ ↦ rfl) i, hf _ (fun _ ↦ rfl) i,
    hf _ (fun _ ↦ rfl) i⟩) (hf _ fun _ ↦ rfl) (fun i hi ↦ ?_) (fun i hi ↦ ?_)
  · exact ⟨(hstate i).trans hi, hf (fun td ↦ td.systemCall.param1) (fun _ ↦ rfl) i⟩
  · exact h.waiting i ((hstate i).symm.trans hi)

/-- Only the descriptor of `t` changes, which is not on a queue and whose
links and id stay. -/
theorem SendInvariant.modify (h : SendInvariant k q) {f : TaskDescriptor → TaskDescriptor}
    (hlinks : (f (k.tds t)).sendQueueHead = (k.tds t).sendQueueHead ∧
      (f (k.tds t)).sendQueueTail = (k.tds t).sendQueueTail ∧
      (f (k.tds t)).sendQueueNext = (k.tds t).sendQueueNext)
    (hid : (f (k.tds t)).taskId = (k.tds t).taskId) (hfree : (k.tds t).state ≠ .rcvdBlk)
    (hwait : (f (k.tds t)).state = .sendBlk → q t = []) : SendInvariant (k.modify t f) q := by
  refine h.congr (sendQueues_of_links fun i ↦ ?_) (fun i ↦ ?_) (fun i hb ↦ ?_) (fun i hw ↦ ?_)
  all_goals by_cases hi : i = t
  · subst hi; rwa [KernelData.modify_self]
  · rw [KernelData.modify_of_ne _ _ hi]; exact ⟨rfl, rfl, rfl⟩
  · subst hi; rwa [KernelData.modify_self]
  · rw [KernelData.modify_of_ne _ _ hi]
  · exact absurd (hi ▸ hb) hfree
  · rw [KernelData.modify_of_ne _ _ hi]; exact ⟨hb, rfl⟩
  · subst hi; rw [KernelData.modify_self] at hw; exact hwait hw
  · rw [KernelData.modify_of_ne _ _ hi] at hw; exact h.waiting i hw

theorem SendInvariant.boot (b : Boot) : SendInvariant (booted b).kernel fun _ ↦ [] := by
  have hlinks (i : TdPtr) : ((booted b).kernel.tds i).sendQueueHead = none ∧
      ((booted b).kernel.tds i).sendQueueNext = none := by
    by_cases hi : i = 0
    · subst hi; exact ⟨rfl, rfl⟩
    · simp [booted, KernelData.setReturnValue, hi, initializeTds, reinitializeTd,
        TaskDescriptor.zero]
  refine ⟨⟨fun i ↦ ?_, fun _ h ↦ absurd rfl h, fun h _ ↦ by simp at h⟩, fun h ↦ by simp at h,
    fun h ↦ by simp at h, fun _ _ ↦ rfl, fun s _ ↦ (hlinks s).2, fun _ h ↦ absurd rfl h⟩
  have hh : (booted b).kernel.sendQueues.head i = none := (hlinks i).1
  rw [hh]
  exact .nil

theorem ready_not_rcvdBlk {td : TaskDescriptor} (h : isTaskReady td = true) :
    td.state ≠ .rcvdBlk := by
  intro hs
  simp [isTaskReady, hs] at h

theorem SendInvariant.enter (h : SendInvariant k q) (p : Preemption)
    (hr : isTaskReady (k.tds t) = true) : SendInvariant (k.modify t p.result) q := by
  have hs := p.result_state (k.tds t)
  refine h.modify ?_ ?_ (ready_not_rcvdBlk hr) (fun hw ↦ ?_)
  · unfold Preemption.result
    split_ifs <;> cases p <;> exact ⟨rfl, rfl, rfl⟩
  · unfold Preemption.result
    split_ifs <;> cases p <;> rfl
  · simp [hw] at hs

theorem SendInvariant.callerOnly {s : TaskState} (h : SendInvariant k q)
    (hc : CallerOnly k k' t s) (hstate : (k.tds t).state = .syscallBlk)
    (hwait : s = .sendBlk → q t = []) : SendInvariant k' q := by
  obtain ⟨p, v, -, htd⟩ := hc.caller
  have hm := h.modify (t := t) (f := fun td ↦ { td with
    state := s, priority := p, systemCall := { td.systemCall with returnValue := v } })
    ⟨rfl, rfl, rfl⟩ rfl (by simp [hstate]) hwait
  refine hm.same fun i ↦ ?_
  by_cases hi : i = t
  · subst hi; rw [KernelData.modify_self, htd]
  · rw [KernelData.modify_of_ne _ _ hi, hc.other i hi]

theorem SendInvariant.hands (h : SendInvariant k q) {r : TdPtr}
    (hstate : (k.tds t).state = .syscallBlk) (hr : (k.tds r).state = .sendBlk) :
    SendInvariant (storeResult t (handOff k t r)) q := by
  have hne : t ≠ r := KernelData.ne_of_state hstate hr (by decide)
  have hhead : (k.tds r).sendQueueHead = none := by rw [h.head_eq, h.waiting r hr]; rfl
  rw [storeResult, handOff_eq k hne]
  refine h.congr (sendQueues_of_links fun i ↦ ?_) (fun i ↦ ?_) (fun i hb ↦ ?_) (fun i hw ↦ ?_)
  all_goals by_cases hi : i = t
  all_goals by_cases hi' : i = r
  all_goals simp_all [KernelData.setReturnValue, KernelData.modify, h.waiting]

theorem SendInvariant.replies (h : SendInvariant k q) {s : TdPtr}
    (hstate : (k.tds t).state = .syscallBlk) (hs : (k.tds s).state = .rplyBlk) :
    SendInvariant (storeResult t ((deliverReply k t s).1.setState t .running,
      (deliverReply k t s).2)) q := by
  have hne : t ≠ s := KernelData.ne_of_state hstate hs (by decide)
  rw [storeResult, deliverReply_eq]
  refine h.congr (sendQueues_of_links fun i ↦ ?_) (fun i ↦ ?_) (fun i hb ↦ ?_) (fun i hw ↦ ?_)
  all_goals by_cases hi : i = t
  all_goals by_cases hi' : i = s
  all_goals simp_all [KernelData.setReturnValue, KernelData.setState, h.waiting]

theorem SendInvariant.awaits (h : SendInvariant k q) (e : EventData)
    (hstate : (k.tds t).state = .syscallBlk) :
    SendInvariant ({ k with eventData := e }.setState t .evtBlk) q := by
  have hs : SendInvariant { k with eventData := e } q := h.same fun _ ↦ rfl
  exact hs.modify ⟨rfl, rfl, rfl⟩ rfl (by simp [hstate]) (by simp)

theorem SendInvariant.wake (h : SendInvariant k q) (e : EventId) (x : QueryPtr)
    (hstate : (k.tds t).state = .evtBlk) : SendInvariant (woken k e x t) q := by
  have hm := h.modify (t := t) (f := TaskDescriptor.awake) ⟨rfl, rfl, rfl⟩ rfl (by simp [hstate])
    (by simp [TaskDescriptor.awake])
  exact hm.same fun i ↦ by rw [woken_tds]

theorem push_next_of_not_mem (h : SendInvariant k q) {r s : TdPtr} {links : Queues TdPtr TdPtr}
    (hp : k.sendQueues.push r t = some links) (hs : s ∉ q r) (hst : s ≠ t) :
    links.next s = (k.tds s).sendQueueNext := by
  unfold Queues.push at hp
  split at hp
  · obtain rfl := Option.some.inj hp
    exact update_of_ne hst ..
  · rename_i hhead
    split at hp
    · simp at hp
    · rename_i last htail
      obtain rfl := Option.some.inj hp
      have hne : q r ≠ [] := by
        intro he
        rw [h.queues.head_none.mpr he] at hhead
        simp at hhead
      have hl : last ∈ q r := by
        have ht := h.queues.tail r hne
        rw [htail] at ht
        exact List.mem_of_getLast? ht.symm
      exact (update_of_ne hst ..).trans (update_of_ne (by rintro rfl; exact hs hl) ..)

theorem SendInvariant.queue (h : SendInvariant k q) {r : TdPtr} {links : Queues TdPtr TdPtr}
    (hstate : (k.tds t).state = .syscallBlk) (ht : sendTarget k t = .ok r)
    (hr : (k.tds r).state ≠ .sendBlk) (hp : k.sendQueues.push r t = some links) :
    SendInvariant (storeResult t ((k.setState t .rcvdBlk).withSendQueues links, 0))
      (update q r (q r ++ [t])) := by
  have hfree : ∀ j, t ∉ q j := h.not_mem (by simp [hstate])
  obtain ⟨links', hp', hrep⟩ := h.queues.push r hfree
  obtain rfl := Option.some.inj (hp.symm.trans hp')
  obtain ⟨hg, hid⟩ := sendTarget_eq_ok ht
  generalize hk : storeResult t ((k.setState t .rcvdBlk).withSendQueues links, 0) = k'
  have hqueues : k'.sendQueues = links := by
    rw [← hk]
    refine (sendQueues_of_links fun i ↦ ?_).trans
      (KernelData.sendQueues_withSendQueues (k.setState t .rcvdBlk) links)
    by_cases hi : i = t <;> simp [storeResult, KernelData.setReturnValue, hi]
  have hself : (k'.tds t).state = .rcvdBlk := by
    simp [← hk, storeResult, KernelData.setReturnValue, KernelData.withSendQueues,
      KernelData.setState]
  have hother (i : TdPtr) (hi : i ≠ t) : (k'.tds i).state = (k.tds i).state := by
    simp [← hk, storeResult, KernelData.setReturnValue, KernelData.withSendQueues,
      KernelData.setState, hi]
  have hsame (i : TdPtr) : (k'.tds i).taskId = (k.tds i).taskId ∧
      (k'.tds i).systemCall.param1 = (k.tds i).systemCall.param1 := by
    by_cases hi : i = t <;> simp [← hk, storeResult, KernelData.setReturnValue,
      KernelData.withSendQueues, KernelData.setState, hi]
  refine ⟨hqueues ▸ hrep, fun hs ↦ ?_, fun hs ↦ ?_, fun i hw ↦ ?_, fun s hs ↦ ?_, fun i hi ↦ ?_⟩
  · rcases mem_update_append.mp hs with hs' | ⟨-, rfl⟩
    · rw [hother _ (fun he ↦ hfree _ (he ▸ hs')), h.blocked hs']
    · exact hself
  · rw [(hsame _).1, (hsame _).2]
    rcases mem_update_append.mp hs with hs | ⟨rfl, rfl⟩
    · exact h.target hs
    · exact hid
  · have hit : i ≠ t := by rintro rfl; simp [hself] at hw
    rw [hother i hit] at hw
    rw [update_of_ne (by rintro rfl; exact hr hw), h.waiting i hw]
  · have hst : s ≠ t := by rintro rfl; exact hs hself
    rw [hother s hst] at hs
    have hn : (k'.tds s).sendQueueNext = links.next s :=
      congrFun (congrArg Queues.next hqueues) s
    rw [hn, push_next_of_not_mem h hp (h.not_mem hs r) hst]
    exact h.unlinked s hs
  · rw [(hsame i).1]
    by_cases hir : i = r
    · subst hir; rwa [← hid]
    · exact h.generation i (by rwa [update_of_ne hir] at hi)

theorem SendInvariant.take (h : SendInvariant k q) {s : TdPtr} {rest : List TdPtr}
    (blocking : Bool) (hstate : (k.tds t).state = .syscallBlk) (hq : q t = s :: rest)
    (hb : (k.tds t).systemCall.param2 ≠ 0) :
    SendInvariant (storeResult t (sysReceive t k blocking)) (update q t rest) := by
  have hs : (k.tds s).state = .rcvdBlk := h.blocked (by rw [hq]; simp : s ∈ q t)
  have hne : t ≠ s := KernelData.ne_of_state hstate hs (by decide)
  have hhead : (k.tds t).sendQueueHead = some s := by rw [h.head_eq, hq]; rfl
  have hrep := h.queues.pop hq
  have hsub : ∀ y ∈ rest, y ∈ q t := fun y hy ↦ by rw [hq]; exact List.mem_cons_of_mem _ hy
  have hnot : ∀ i, s ∉ update q t rest i := by
    have hd := h.queues.nodup t
    rw [hq, List.nodup_cons] at hd
    intro i hi
    by_cases hit : i = t
    · subst hit; rw [update_self] at hi; exact hd.1 hi
    · rw [update_of_ne hit] at hi
      exact hit (h.queues.disjoint hi (by rw [hq]; simp))
  rw [receive_eq k hne hhead hb blocking]
  generalize hk : ({ k with tds := _, memory := _ } : KernelData) = k'
  have hqueues : k'.sendQueues = k.sendQueues.pop t s := by
    simp only [← hk, KernelData.sendQueues, Queues.pop, Queues.mk.injEq]
    refine ⟨funext fun i ↦ ?_, funext fun i ↦ ?_, funext fun i ↦ ?_⟩ <;>
      by_cases hi : i = t <;> by_cases hi' : i = s <;> simp_all
  have hother (i : TdPtr) (hit : i ≠ t) (his : i ≠ s) : (k'.tds i) = (k.tds i) := by
    simp [← hk, hit, his]
  have ht : (k'.tds t).state = .running := by simp [← hk]
  have hs' : (k'.tds s).state = .rplyBlk := by simp [← hk, hne.symm]
  have hsame (i : TdPtr) : (k'.tds i).taskId = (k.tds i).taskId ∧
      (k'.tds i).systemCall.param1 = (k.tds i).systemCall.param1 := by
    by_cases hi : i = t <;> by_cases hi' : i = s <;> simp_all [← hk]
  refine ⟨hqueues ▸ hrep, fun {r i} hi ↦ ?_, fun {r i} hi ↦ ?_, fun i hw ↦ ?_, fun i hi ↦ ?_,
    fun i hi ↦ ?_⟩
  · have hm := h.blocked (mem_update_of_subset hsub hi)
    rw [hother i (by rintro rfl; simp [hm] at hstate) (by rintro rfl; exact hnot _ hi), hm]
  · rw [(hsame _).1, (hsame _).2, h.target (mem_update_of_subset hsub hi)]
  · have hit : i ≠ t := by rintro rfl; simp [ht] at hw
    have his : i ≠ s := by rintro rfl; simp [hs'] at hw
    rw [update_of_ne hit, h.waiting i (by rw [← hother i hit his]; exact hw)]
  · have hn : (k'.tds i).sendQueueNext = update k.sendQueues.next s none i :=
      congrFun (congrArg Queues.next hqueues) i
    rw [hn]
    by_cases his : i = s
    · subst his; rw [update_self]
    · rw [update_of_ne his]
      by_cases hit : i = t
      · subst hit; exact h.unlinked i (by simp [hstate])
      · exact h.unlinked i (by rw [← hother i hit his]; exact hi)
  · rw [(hsame i).1]
    refine h.generation i (fun he ↦ hi ?_)
    by_cases hit : i = t
    · subst hit; simp [hq] at he
    · rw [update_of_ne hit, he]

theorem available_not_rcvdBlk {td : TaskDescriptor} (h : isTdAvailable td = true) :
    td.state ≠ .rcvdBlk := by
  intro hs
  simp [isTdAvailable, hs] at h

/-- Descriptor `j` is used again: whoever was queued there is forgotten. -/
theorem SendInvariant.create (h : SendInvariant k q) {j : TdPtr}
    {params : TaskCreateParameters} {s : SchedulerStructure}
    (hstate : (k.tds t).state = .syscallBlk) (hj : isTdAvailable (k.tds j) = true) :
    SendInvariant (created k t j params s) (update q j []) := by
  have hne : j ≠ t := by rintro rfl; simp [isTdAvailable, hstate] at hj
  generalize hk : created k t j params s = k'
  have hnew : (k'.tds j).state = .running ∧ (k'.tds j).sendQueueHead = none ∧
      (k'.tds j).sendQueueNext = none := by
    rw [← hk, created_new k params s hne]
    exact ⟨rfl, rfl, rfl⟩
  have hother (i : TdPtr) (hi : i ≠ j) : (k'.tds i).sendQueueHead = (k.tds i).sendQueueHead ∧
      (k'.tds i).sendQueueTail = (k.tds i).sendQueueTail ∧
      (k'.tds i).sendQueueNext = (k.tds i).sendQueueNext ∧
      (k'.tds i).taskId = (k.tds i).taskId ∧
      (k'.tds i).systemCall.param1 = (k.tds i).systemCall.param1 ∧
      ((k'.tds i).state = (k.tds i).state ∨ (k'.tds i).state = .running ∧ i = t) := by
    by_cases hit : i = t
    · subst hit
      rw [← hk, created_caller k params s hne]
      exact ⟨rfl, rfl, rfl, rfl, rfl, .inr ⟨rfl, rfl⟩⟩
    · rw [← hk, created_other k params s hi hit]
      exact ⟨rfl, rfl, rfl, rfl, rfl, .inl rfl⟩
  have hkeep {i : TdPtr} (hi : (k.tds i).state = .rcvdBlk) :
      i ≠ j ∧ (k'.tds i).state = .rcvdBlk := by
    have hij : i ≠ j := by rintro rfl; exact available_not_rcvdBlk hj hi
    refine ⟨hij, ((hother i hij).2.2.2.2.2.resolve_right ?_).trans hi⟩
    rintro ⟨-, rfl⟩
    simp [hi] at hstate
  have hsub : ∀ y ∈ ([] : List TdPtr), y ∈ q j := by simp
  refine ⟨h.queues.clear hnew.2.1 (fun i hi ↦ ⟨(hother i hi).1, (hother i hi).2.1⟩)
    (fun r i hi ↦ (hother i (hkeep (h.blocked hi)).1).2.2.1), fun hi ↦ ?_, fun {r i} hi ↦ ?_,
    fun i hw ↦ ?_, fun i hi ↦ ?_, fun i hi ↦ ?_⟩
  · exact (hkeep (h.blocked (mem_update_of_subset hsub hi))).2
  · have hm := mem_update_of_subset hsub hi
    have hr : r ≠ j := by rintro rfl; simp at hi
    rw [(hother i (hkeep (h.blocked hm)).1).2.2.2.2.1, (hother r hr).2.2.2.1, h.target hm]
  · by_cases hij : i = j
    · subst hij; rw [update_self]
    · rw [update_of_ne hij]
      rcases (hother i hij).2.2.2.2.2 with he | ⟨he, -⟩
      · exact h.waiting i (he ▸ hw)
      · simp [he] at hw
  · by_cases hij : i = j
    · subst hij; exact hnew.2.2
    · rw [(hother i hij).2.2.1]
      exact h.unlinked i (fun hb ↦ hi (hkeep hb).2)
  · have hij : i ≠ j := by rintro rfl; simp at hi
    rw [(hother i hij).2.2.2.1]
    exact h.generation i (by rwa [update_of_ne hij] at hi)

end PrjOS
