import PrjOS.KernelActions
import PrjOS.Properties.Stranding

namespace PrjOS

open ByteMemory Function LinkedQueue Transition

structure PendingSend (k : KernelData) (s r : TdPtr) : Prop where
  state : (k.tds s).state = .syscallBlk
  call : (k.tds s).call = some .send
  target : (k.tds s).systemCall.param1 = (k.tds r).taskId

structure PendingReceive (k : KernelData) (r : TdPtr) : Prop where
  state : (k.tds r).state = .syscallBlk
  call : (k.tds r).call = some .receive

/-- The message of `s`, the buffer of `r` and the place where `r` wants the
sender's id do not overlap. -/
structure BuffersApart (k : KernelData) (s r : TdPtr) : Prop where
  message : Apart (k.tds s).systemCall.param2 (k.tds s).systemCall.param3.toNat
    (k.tds r).systemCall.param2 (k.tds r).systemCall.param3.toNat
  tidMessage : Apart (k.tds r).systemCall.param1 4
    (k.tds s).systemCall.param2 (k.tds s).systemCall.param3.toNat
  tidBuffer : Apart (k.tds r).systemCall.param1 4
    (k.tds r).systemCall.param2 (k.tds r).systemCall.param3.toNat

/-- Kernels that differ at most in the tail of an empty send queue of `r`, and
in the return value of `s` while it waits for a reply. -/
structure SameOutcome (k k' : KernelData) (s r : TdPtr) : Prop where
  others : ∀ i, i ≠ s → i ≠ r → k'.tds i = k.tds i
  sender : ∃ v, k'.tds s = (k.tds s).resume (k.tds s).state v ∧
    ((k.tds s).state ≠ .rplyBlk → v = (k.tds s).systemCall.returnValue)
  receiver : ∃ tail, k'.tds r = { k.tds r with sendQueueTail := tail } ∧
    ((k.tds r).sendQueueHead ≠ none → tail = (k.tds r).sendQueueTail)
  memory : k'.memory = k.memory
  rest : k' = { k with tds := k'.tds, memory := k'.memory }

variable {k k' : KernelData} {q : TdPtr → List TdPtr} {s r x : TdPtr}

theorem SameOutcome.refl (k : KernelData) (s r : TdPtr) : SameOutcome k k s r :=
  ⟨fun _ _ _ ↦ rfl, ⟨_, rfl, fun _ ↦ rfl⟩, ⟨_, rfl, fun _ ↦ rfl⟩, rfl, rfl⟩

/-- What a receive by `r` of a message from `x` does, but for the queues. -/
def deliver (k : KernelData) (r x : TdPtr) : KernelData :=
  let len := (k.tds x).systemCall.param3
  let size := truncateTo (k.tds r).systemCall.param3 len
  { (k.modify x fun td ↦ td.resume .rplyBlk (if size = len then len else errSendIncomplete)).modify
      r fun td ↦ td.resume .running (if size = len then len else errReceiveBufferTooSmall) with
    memory := writeWord
      (memcpy k.memory (k.tds r).systemCall.param2 (k.tds x).systemCall.param2 size.toNat)
      (k.tds r).systemCall.param1 (k.tds x).taskId }

section Deliver

theorem receive_deliver (h : r ≠ x) (hx : (k.tds r).sendQueueHead = some x)
    (hb : (k.tds r).systemCall.param2 ≠ 0) :
    storeResult r (sysReceive r k true) =
      (deliver k r x).withSendQueues (k.sendQueues.pop r x) := by
  rw [receive_eq k h hx hb]
  simp only [deliver, KernelData.withSendQueues, KernelData.modify, KernelData.mk.injEq, and_true]
  funext i
  by_cases ht : truncateTo (k.tds r).systemCall.param3 (k.tds x).systemCall.param3 =
      (k.tds x).systemCall.param3 <;> by_cases hr : i = r <;> by_cases hi : i = x <;>
    simp_all [TaskDescriptor.resume, Queues.pop, KernelData.sendQueues]

theorem deliver_withSendQueues (l : Queues TdPtr TdPtr) :
    deliver (k.withSendQueues l) r x = (deliver k r x).withSendQueues l := by
  simp only [deliver, KernelData.withSendQueues, KernelData.modify, KernelData.mk.injEq, and_true]
  funext i
  by_cases ht : truncateTo (k.tds r).systemCall.param3 (k.tds x).systemCall.param3 =
      (k.tds x).systemCall.param3 <;> by_cases hr : i = r <;> by_cases hi : i = x <;>
    simp_all [TaskDescriptor.resume, update_apply]

theorem deliver_modify (hr : s ≠ r) (hx : s ≠ x) (f : TaskDescriptor → TaskDescriptor) :
    deliver (k.modify s f) r x = (deliver k r x).modify s f := by
  simp only [deliver, KernelData.modify, KernelData.mk.injEq, and_true,
    update_of_ne hr.symm, update_of_ne hx.symm, update_of_ne hr, update_of_ne hx]
  funext i
  by_cases h : i = s <;> by_cases hi : i = r <;> by_cases hi' : i = x <;>
    simp_all [update_apply]

theorem withSendQueues_resume (l : Queues TdPtr TdPtr) (a : TaskState) (v : Word) :
    (k.withSendQueues l).modify s (fun td ↦ td.resume a v) =
      (k.modify s fun td ↦ td.resume a v).withSendQueues l := by
  simp only [KernelData.withSendQueues, KernelData.modify, KernelData.mk.injEq, and_true]
  funext i
  by_cases h : i = s <;> simp_all [TaskDescriptor.resume]

theorem resume_sendQueues (a : TaskState) (v : Word) :
    (k.modify s fun td ↦ td.resume a v).sendQueues = k.sendQueues := by
  refine sendQueues_of_links fun i ↦ ?_
  by_cases h : i = s <;> simp_all [TaskDescriptor.resume]

theorem deliver_of_ne {i : TdPtr} (hr : i ≠ r) (hx : i ≠ x) :
    (deliver k r x).tds i = k.tds i := by
  simp [deliver, hr, hx]

theorem deliver_taskId (i : TdPtr) : ((deliver k r x).tds i).taskId = (k.tds i).taskId := by
  by_cases hr : i = r <;> by_cases hx : i = x <;>
    simp_all [deliver, KernelData.modify, TaskDescriptor.resume, update_apply]

theorem deliver_sendQueues : (deliver k r x).sendQueues = k.sendQueues := by
  refine sendQueues_of_links fun i ↦ ?_
  by_cases hr : i = r <;> by_cases hx : i = x <;>
    simp_all [deliver, KernelData.modify, TaskDescriptor.resume, update_apply]

theorem deliver_state : ((deliver k r x).tds r).state = .running := by
  simp [deliver, KernelData.modify, TaskDescriptor.resume]

theorem resume_taskId (a : TaskState) (v : Word) (i : TdPtr) :
    ((k.modify s fun td ↦ td.resume a v).tds i).taskId = (k.tds i).taskId := by
  by_cases h : i = s <;> simp_all [TaskDescriptor.resume]

end Deliver

section HandOff

variable (hne : s ≠ r)

theorem deliver_resume_receiver (a : TaskState) (v : Word) :
    deliver (k.modify r fun td ↦ td.resume a v) r x = deliver k r x := by
  simp only [deliver, KernelData.modify, KernelData.mk.injEq]
  by_cases hx : x = r
  · subst hx
    simp [TaskDescriptor.resume, update_idem]
  · simp [TaskDescriptor.resume, update_idem, hx, update_comm hx, Ne.symm hx]

theorem pop_push_empty (hh : (k.tds r).sendQueueHead = none)
    (hn : (k.tds s).sendQueueNext = none) :
    Queues.pop ⟨update k.sendQueues.head r (some s), update k.sendQueues.tail r (some s),
      update k.sendQueues.next s none⟩ r s =
    ⟨k.sendQueues.head, update k.sendQueues.tail r (some s), k.sendQueues.next⟩ := by
  simp only [Queues.pop, Queues.mk.injEq, true_and, update_idem, update_self]
  exact ⟨update_eq_self_iff.mpr hh.symm, update_eq_self_iff.mpr hn.symm⟩

include hne

theorem deliver_resume_sender (a : TaskState) (v : Word) :
    deliver (k.modify s fun td ↦ td.resume a v) r s = deliver k r s := by
  simp [deliver, KernelData.modify, TaskDescriptor.resume, update_idem, hne.symm]

theorem BuffersApart.resume {a : TaskState} {v : Word} (hd : BuffersApart k s r) :
    BuffersApart (k.modify r fun td ↦ td.resume a v) s r := by
  obtain ⟨h₁, h₂, h₃⟩ := hd
  constructor <;> simpa [TaskDescriptor.resume, hne]

theorem handOff_deliver (hh : (k.tds r).sendQueueHead = none) (hd : BuffersApart k s r) :
    storeResult s (handOff k s r) =
      (deliver k r s).modify s fun td ↦ td.resume .rplyBlk (k.tds s).systemCall.param3 := by
  have hle {a b : Word} : truncateTo a b < b ↔ truncateTo a b ≠ b := by
    unfold truncateTo
    split_ifs with h
    · exact ⟨fun _ he ↦ by simp [he] at h, fun _ ↦ h⟩
    · simp
  have hcut {a b : Word} : (truncateTo a b).toNat ≤ a.toNat ∧ (truncateTo a b).toNat ≤ b.toNat := by
    unfold truncateTo
    split_ifs with h <;> bv_omega
  have hsize := hcut (a := (k.tds r).systemCall.param3) (b := (k.tds s).systemCall.param3)
  rw [storeResult, handOff_eq k hne]
  simp only [deliver, KernelData.setReturnValue, KernelData.modify, KernelData.mk.injEq,
    true_and]
  refine ⟨?_, ?_⟩
  · funext i
    by_cases ht : truncateTo (k.tds r).systemCall.param3 (k.tds s).systemCall.param3 =
        (k.tds s).systemCall.param3 <;> by_cases hr : i = r <;> by_cases hi : i = s <;>
      simp_all [TaskDescriptor.resume]
  · unfold writeWord
    rw [memcpy_store_comm (by omega) (hd.tidBuffer.mono (by omega) hsize.1)
      (hd.tidMessage.mono (by omega) hsize.2)]

theorem sameOutcome_of_tail (hs : (k.tds s).state = .rplyBlk)
    (hh : (k.tds r).sendQueueHead = none) (v : Word) :
    SameOutcome (k.withSendQueues
      ⟨k.sendQueues.head, update k.sendQueues.tail r (some s), k.sendQueues.next⟩)
      (k.modify s fun td ↦ td.resume .rplyBlk v) s r := by
  refine ⟨fun i hi hir ↦ ?_, ⟨v, ?_, fun h ↦ absurd hs h⟩,
    ⟨(k.tds r).sendQueueTail, ?_, fun h ↦ absurd hh h⟩, rfl, rfl⟩
  · simp [KernelData.withSendQueues, KernelData.sendQueues, hi, hir]
  · simp [KernelData.withSendQueues, KernelData.sendQueues, hne, TaskDescriptor.resume, hs]
  · simp [KernelData.withSendQueues, KernelData.sendQueues, hne.symm]

theorem deliver_sameOutcome (hh : (k.tds r).sendQueueHead = none) (v : Word) :
    SameOutcome ((deliver k r s).withSendQueues
      ⟨k.sendQueues.head, update k.sendQueues.tail r (some s), k.sendQueues.next⟩)
      ((deliver k r s).modify s fun td ↦ td.resume .rplyBlk v) s r := by
  rw [← deliver_sendQueues (r := r) (x := s)]
  refine sameOutcome_of_tail hne ?_ ?_ v
  · simp [deliver, KernelData.modify, TaskDescriptor.resume, hne]
  · exact (congrFun (congrArg Queues.head (deliver_sendQueues (r := r) (x := s))) r).trans hh

end HandOff

section Calls

theorem PendingReceive.handle (h : PendingReceive k r) :
    handleSyscall k r = .ok (storeResult r (sysReceive r k true)) := by
  unfold handleSyscall
  rw [if_neg (by simp [h.state])]
  simp only [h.call]

/-- A receive into a null buffer only leaves an error code. -/
theorem PendingReceive.null (h : PendingReceive k r) (hb : (k.tds r).systemCall.param2 = 0) :
    handleSyscall k r =
      .ok (k.modify r fun td ↦ td.resume .syscallBlk errReceiveBadBuffer) := by
  rw [h.handle]
  simp [storeResult, sysReceive, hb, KernelData.setReturnValue, KernelData.modify,
    TaskDescriptor.resume, h.state]

theorem PendingReceive.waits (h : PendingReceive k r) (hb : (k.tds r).systemCall.param2 ≠ 0)
    (hh : (k.tds r).sendQueueHead = none) :
    handleSyscall k r = .ok (k.modify r fun td ↦ td.resume .sendBlk 0) := by
  have he : sysReceive r k true = (k.setState r .sendBlk, 0) := by
    rw [sysReceive, if_neg hb, pop, hh]
    rfl
  rw [h.handle, he]
  simp [storeResult, KernelData.setReturnValue, KernelData.setState, KernelData.modify,
    TaskDescriptor.resume]

theorem PendingReceive.takes (h : PendingReceive k r) (hne : r ≠ x)
    (hb : (k.tds r).systemCall.param2 ≠ 0) (hx : (k.tds r).sendQueueHead = some x) :
    handleSyscall k r = .ok ((deliver k r x).withSendQueues (k.sendQueues.pop r x)) := by
  rw [h.handle, receive_deliver hne hx hb]

theorem sendTarget_congr (hcall : (k'.tds s).systemCall = (k.tds s).systemCall)
    (hid : ∀ i, (k'.tds i).taskId = (k.tds i).taskId) : sendTarget k' s = sendTarget k s := by
  simp only [sendTarget, lookupTask, findTd, hcall, hid]

theorem PendingSend.refused (h : PendingSend k s r) {e : Word} (ht : sendTarget k s = .error e) :
    handleSyscall k s = .ok (k.modify s fun td ↦ td.resume .running e) := by
  rw [handleSyscall_refused h.state h.call ht]
  simp [storeResult, KernelData.setReturnValue, KernelData.setState, KernelData.modify,
    TaskDescriptor.resume]

theorem PendingSend.queues (h : PendingSend k s r) (ht : sendTarget k s = .ok r)
    (hr : (k.tds r).state ≠ .sendBlk) {l : Queues TdPtr TdPtr} (hp : k.sendQueues.push r s = some l) :
    handleSyscall k s = .ok ((k.modify s fun td ↦ td.resume .rcvdBlk 0).withSendQueues l) := by
  have hl : (k.setState s .rcvdBlk).sendQueues = k.sendQueues := by
    refine sendQueues_of_links fun i ↦ ?_
    by_cases hi : i = s <;> simp [KernelData.setState, hi]
  unfold handleSyscall
  rw [if_neg (by simp [h.state])]
  simp only [h.call, sysSend, ht, if_neg hr, push_eq, hl, hp, bind, Except.bind]
  refine congrArg Except.ok ?_
  simp only [storeResult, KernelData.setReturnValue, KernelData.setState, KernelData.withSendQueues,
    KernelData.modify, KernelData.mk.injEq, and_true]
  funext i
  by_cases hi : i = s <;> simp_all [TaskDescriptor.resume]

theorem PendingSend.hands (h : PendingSend k s r) (ht : sendTarget k s = .ok r)
    (hr : (k.tds r).state = .sendBlk) :
    handleSyscall k s = .ok (storeResult s (handOff k s r)) := by
  unfold handleSyscall
  rw [if_neg (by simp [h.state])]
  simp only [h.call, sysSend, ht, if_pos hr, bind, Except.bind]

/-- Nobody else's call changes what a pending call asks for. -/
theorem PendingSend.congr (h : PendingSend k s r) (hs : (k'.tds s).state = (k.tds s).state)
    (hc : (k'.tds s).systemCall = (k.tds s).systemCall)
    (hid : (k'.tds r).taskId = (k.tds r).taskId) : PendingSend k' s r :=
  ⟨hs.trans h.state, by rw [TaskDescriptor.call, hc]; exact h.call, by rw [hc, hid, h.target]⟩

theorem PendingReceive.congr (h : PendingReceive k r) (hs : (k'.tds r).state = (k.tds r).state)
    (hc : (k'.tds r).systemCall = (k.tds r).systemCall) : PendingReceive k' r :=
  ⟨hs.trans h.state, by rw [TaskDescriptor.call, hc]; exact h.call⟩

end Calls

section Commute

variable (hne : s ≠ r) (hq : SendInvariant k q) (hs : PendingSend k s r) (hr : PendingReceive k r)

include hq in
theorem sender_ne (hx : (k.tds r).sendQueueHead = some x) {i : TdPtr}
    (hi : (k.tds i).state = .syscallBlk) : i ≠ x := by
  have hb : (k.tds x).state = .rcvdBlk :=
    hq.blocked (List.mem_of_mem_head? ((hq.head_eq r).symm.trans hx))
  rintro rfl
  simp [hb] at hi

include hne hq hs hr

theorem commute_refused {e : Word} (ht : sendTarget k s = .error e) : ∃ k₂ k',
    handleSyscall k r = .ok k₂ ∧ handleSyscall k₂ s = .ok k' ∧
      handleSyscall (k.modify s fun td ↦ td.resume .running e) r = .ok k' := by
  have hr' : PendingReceive (k.modify s fun td ↦ td.resume .running e) r :=
    hr.congr (by simp [hne.symm]) (by simp [hne.symm])
  have hself (a : TaskState) (v : Word) :
      (k.modify r fun td ↦ td.resume a v).tds s = k.tds s := k.modify_of_ne _ hne
  have hs' (a : TaskState) (v : Word) :
      handleSyscall (k.modify r fun td ↦ td.resume a v) s =
        .ok ((k.modify r fun td ↦ td.resume a v).modify s fun td ↦ td.resume .running e) :=
    (hs.congr (by rw [hself]) (by rw [hself]) (resume_taskId a v r)).refused
      ((sendTarget_congr (by rw [hself]) (resume_taskId a v)).trans ht)
  by_cases hb : (k.tds r).systemCall.param2 = 0
  · refine ⟨_, _, hr.null hb, hs' _ _, ?_⟩
    rw [hr'.null (by simpa [hne.symm] using hb), k.modify_comm hne]
  · have hb' : ((k.modify s fun td ↦ td.resume .running e).tds r).systemCall.param2 ≠ 0 := by
      simpa [hne.symm] using hb
    cases hh : (k.tds r).sendQueueHead with
    | none =>
      refine ⟨_, _, hr.waits hb hh, hs' _ _, ?_⟩
      rw [hr'.waits hb' (by simpa [hne.symm] using hh), k.modify_comm hne]
    | some x =>
      have hsx := sender_ne hq hh hs.state
      have hrx := sender_ne hq hh hr.state
      have hself : (deliver k r x).tds s = k.tds s := deliver_of_ne hne hsx
      refine ⟨_, _, hr.takes hrx hb hh, PendingSend.refused (hs.congr ?_ ?_ ?_)
        ((sendTarget_congr ?_ ?_).trans ht), ?_⟩
      · exact (congrArg TaskDescriptor.state hself :)
      · exact (congrArg TaskDescriptor.systemCall hself :)
      · exact deliver_taskId r
      · exact (congrArg TaskDescriptor.systemCall hself :)
      · exact deliver_taskId
      · rw [hr'.takes hrx hb' (by simpa [hne.symm] using hh), deliver_modify hne hsx,
          resume_sendQueues, withSendQueues_resume]

/-- A send that is queued and a receive of an earlier message, or a failing
one, commute. -/
theorem commute_queued (ht : sendTarget k s = .ok r)
    (hb : (k.tds r).systemCall.param2 = 0 ∨ (k.tds r).sendQueueHead ≠ none) : ∃ k₁ k₂ k',
    handleSyscall k s = .ok k₁ ∧ handleSyscall k₁ r = .ok k' ∧
      handleSyscall k r = .ok k₂ ∧ handleSyscall k₂ s = .ok k' := by
  have hfree : ∀ j, s ∉ q j := hq.not_mem (by simp [hs.state])
  obtain ⟨l, hl, -⟩ := hq.queues.push r hfree
  have hr' : PendingReceive ((k.modify s fun td ↦ td.resume .rcvdBlk 0).withSendQueues l) r := by
    refine hr.congr ?_ ?_ <;> simp [KernelData.withSendQueues, hne.symm]
  have hparam : (((k.modify s fun td ↦ td.resume .rcvdBlk 0).withSendQueues l).tds
      r).systemCall.param2 = (k.tds r).systemCall.param2 := by
    simp [KernelData.withSendQueues, hne.symm]
  by_cases hnull : (k.tds r).systemCall.param2 = 0
  · have hself : (k.modify r fun td ↦ td.resume .syscallBlk errReceiveBadBuffer).tds s =
        k.tds s := k.modify_of_ne _ hne
    refine ⟨_, _, _, hs.queues ht (by simp [hr.state]) hl, hr'.null (hparam.trans hnull),
      hr.null hnull, ?_⟩
    rw [PendingSend.queues (hs.congr (by rw [hself]) (by rw [hself]) (resume_taskId _ _ r))
      ((sendTarget_congr (by rw [hself]) (resume_taskId _ _)).trans ht)
      (by simp [TaskDescriptor.resume]) (by rw [resume_sendQueues]; exact hl),
      withSendQueues_resume, k.modify_comm hne]
  · obtain ⟨x, hx⟩ := Option.ne_none_iff_exists'.mp (hb.resolve_left hnull)
    have hsx := sender_ne hq hx hs.state
    have hrx := sender_ne hq hx hr.state
    have hself : (deliver k r x).tds s = k.tds s := deliver_of_ne hne hsx
    have hhead : l.head r = some x := by
      unfold Queues.push at hl
      simp only [show k.sendQueues.head r = some x from hx] at hl
      split at hl
      · simp at hl
      · exact Option.some.inj hl ▸ hx
    refine ⟨_, _, _, hs.queues ht (by simp [hr.state]) hl,
      hr'.takes hrx (by rwa [hparam]) hhead, hr.takes hrx hnull hx, ?_⟩
    rw [deliver_withSendQueues, deliver_modify hne hsx]
    have hpush : ((deliver k r x).withSendQueues (k.sendQueues.pop r x)).sendQueues.push r s =
        some (l.pop r x) := hq.queues.push_pop hx hfree hl
    refine (PendingSend.queues (hs.congr ?_ ?_ ?_) ((sendTarget_congr ?_ ?_).trans ht) ?_
      hpush).trans ?_
    · exact (congrArg TaskDescriptor.state hself :)
    · exact (congrArg TaskDescriptor.systemCall hself :)
    · exact deliver_taskId r
    · exact (congrArg TaskDescriptor.systemCall hself :)
    · exact deliver_taskId
    · exact fun h ↦ by simp [deliver_state, KernelData.withSendQueues] at h
    · rw [withSendQueues_resume]
      rfl

/-- The direct hand-off does what queueing and receiving do. -/
theorem commute_handOff (hd : BuffersApart k s r) (ht : sendTarget k s = .ok r)
    (hb : (k.tds r).systemCall.param2 ≠ 0) (hh : (k.tds r).sendQueueHead = none) :
    ∃ k₁ k₁' k₂ k₂', handleSyscall k s = .ok k₁ ∧ handleSyscall k₁ r = .ok k₁' ∧
      handleSyscall k r = .ok k₂ ∧ handleSyscall k₂ s = .ok k₂' ∧ SameOutcome k₁' k₂' s r := by
  have hl : k.sendQueues.push r s = some ⟨update k.sendQueues.head r (some s),
      update k.sendQueues.tail r (some s), update k.sendQueues.next s none⟩ := by
    simp only [Queues.push, show k.sendQueues.head r = none from hh]
  have hr' : PendingReceive ((k.modify s fun td ↦ td.resume .rcvdBlk 0).withSendQueues
      ⟨update k.sendQueues.head r (some s), update k.sendQueues.tail r (some s),
        update k.sendQueues.next s none⟩) r := by
    refine hr.congr ?_ ?_ <;> simp [KernelData.withSendQueues, hne.symm]
  have hself : (k.modify r fun td ↦ td.resume .sendBlk 0).tds s = k.tds s := k.modify_of_ne _ hne
  have hs' : PendingSend (k.modify r fun td ↦ td.resume .sendBlk 0) s r :=
    hs.congr (by rw [hself]) (by rw [hself]) (resume_taskId _ _ r)
  refine ⟨_, _, _, _, hs.queues ht (by simp [hr.state]) hl,
    hr'.takes hne.symm (by simpa [KernelData.withSendQueues, hne.symm] using hb)
      (by simp [KernelData.withSendQueues]), hr.waits hb hh,
    hs'.hands ((sendTarget_congr (by rw [hself]) (resume_taskId _ _)).trans ht)
      (by simp [TaskDescriptor.resume]), ?_⟩
  have hunlinked := hq.unlinked s (by simp [hs.state])
  rw [handOff_deliver hne (by simpa [TaskDescriptor.resume] using hh) (hd.resume hne),
    deliver_resume_receiver, deliver_withSendQueues, deliver_resume_sender hne,
    KernelData.sendQueues_withSendQueues, pop_push_empty hh hunlinked]
  exact deliver_sameOutcome hne hh _

end Commute

def replyValue (k : KernelData) (t s : TdPtr) : Word :=
  let size := truncateTo (k.tds s).systemCall.param5 (k.tds t).systemCall.param3
  if size = (k.tds t).systemCall.param3 then size else errSendIncomplete

/-- From `k` to `k'` the kernel handles a reply of `t` to the waiting task `s`,
which becomes ready with the reply's result. -/
structure RepliedTo (k k' : KernelData) (t s : TdPtr) : Prop where
  waiting : (k.tds s).state = .rplyBlk
  call : (k.tds t).call = some .reply
  target : lookupTask k (k.tds t).systemCall.param1 errReplyTaskidDne errReplyTaskidNotfound = .ok s
  handled : handleSyscall k t = .ok k'
  ready : (k'.tds s).state = .running
  value : (k'.tds s).systemCall.returnValue = replyValue k t s

/-- Whatever happens after `k`, the task `s` only stops to wait for a reply
when one sets what its send returns. -/
def WaitsForReply (k : KernelData) (s : TdPtr) : Prop :=
  ∀ as k', Run actionStep k as k' → (k'.tds s).state ≠ .rplyBlk →
    ∃ pre t post k₁ k₂, as = pre ++ .call t :: post ∧ Run actionStep k pre k₁ ∧
      RepliedTo k₁ k₂ t s ∧ Run actionStep k₂ post k'

theorem repliedTo_of_call {t : TdPtr} (hstate : (k.tds t).state = .syscallBlk)
    (hs : (k.tds s).state = .rplyBlk) (hcall : (k.tds t).call = some .reply)
    (hl : lookupTask k (k.tds t).systemCall.param1 errReplyTaskidDne errReplyTaskidNotfound =
      .ok s) (hk : handleSyscall k t = .ok k') (hs' : (k'.tds s).state ≠ .rplyBlk) :
    RepliedTo k k' t s := by
  have hne : s ≠ t := KernelData.ne_of_state hs hstate (by decide)
  have hreply : k' = storeResult t (sysReply t k) := by
    unfold handleSyscall at hk
    rw [if_neg (by simp [hstate])] at hk
    simp only [hcall, Except.ok.injEq] at hk
    exact hk.symm
  simp only [sysReply, hl] at hreply
  split_ifs at hreply
  · rw [hreply] at hs'
    exact absurd hs (by simpa [storeResult, KernelData.setReturnValue, KernelData.setState, hne]
      using hs')
  · rw [deliverReply_eq] at hreply
    refine ⟨hs, hcall, hl, hk, ?_, ?_⟩
    · simp [hreply, storeResult, KernelData.setReturnValue, KernelData.setState, hne]
    · simp [hreply, storeResult, KernelData.setReturnValue, KernelData.setState, hne, replyValue]

theorem actionStep_reply (hk : KernelInvariant k) {a : Action} (h : actionStep k a k')
    (hs : (k.tds s).state = .rplyBlk) (hs' : (k'.tds s).state ≠ .rplyBlk) :
    ∃ t, a = .call t ∧ RepliedTo k k' t s := by
  cases a with
  | background k₁ =>
    obtain ⟨hsame, rfl⟩ := h
    exact absurd ((core_state (hsame.core s)).trans hs) hs'
  | trap t p =>
    obtain ⟨hready, rfl⟩ := h
    have hst : s ≠ t := by rintro rfl; simp [isTaskReady, hs] at hready
    exact absurd hs (by rwa [KernelData.modify_of_ne _ _ hst] at hs')
  | call t =>
    obtain ⟨hstate, hcall⟩ := h
    obtain ⟨q, hq⟩ := hk.send
    have hst : s ≠ t := KernelData.ne_of_state hs hstate (by decide)
    have hother := (handleSyscall_effect hstate hcall).other hq hstate hst
    refine ⟨t, rfl, ?_⟩
    generalize htd : k'.tds s = td at hother
    cases hother with
    | kept =>
      rw [htd] at hs'
      exact absurd hs hs'
    | handed v hc ht hr => simp [hs] at hr
    | received v blocking hc hx =>
      have hb := hq.head_blocked hx
      simp [hs] at hb
    | replied v hc hl _ => exact repliedTo_of_call hstate hs hc hl hcall hs'
    | created c params hc hp hj =>
      have ha := (findAvailable_some hj).2
      simp [isTdAvailable, hs] at ha
  | interrupt w =>
    have heff := handleInterrupt_effect h
    cases heff with
    | ignored => exact absurd hs hs'
    | lost => exact absurd hs hs'
    | wakes e x i he hx hi =>
      obtain ⟨j, hj, hb⟩ := hk.events.wakes hk.ids hx
      obtain rfl := Option.some.inj (hi.symm.trans hj)
      have hsi : s ≠ i := by rintro rfl; simp [hs] at hb
      rw [woken_tds, KernelData.modify_of_ne _ _ hsi] at hs'
      exact absurd hs hs'

theorem pending_call (hk : KernelInvariant k) {t i : TdPtr} (hstate : (k.tds t).state = .syscallBlk)
    (hc : handleSyscall k t = .ok k') (hi : i ≠ t) (hs : (k.tds i).state = .syscallBlk) :
    (k'.tds i).state = .syscallBlk := by
  obtain ⟨q, hq⟩ := hk.send
  have hother := (handleSyscall_effect hstate hc).other hq hstate hi
  generalize k'.tds i = td at hother ⊢
  cases hother with
  | kept => exact hs
  | handed v hc ht hr => simp [hs] at hr
  | received v blocking hc hx =>
    have hb := hq.head_blocked hx
    simp [hs] at hb
  | replied v hc hl hr => simp [hs] at hr
  | created c params hc hp hj =>
    have ha := (findAvailable_some hj).2
    simp [isTdAvailable, hs] at ha

theorem waitsForReply (hk : KernelInvariant k) (hs : (k.tds s).state = .rplyBlk) :
    WaitsForReply k s := by
  intro as k' hr hs'
  obtain ⟨pre, a, post, k₁, k₂, rfl, hpre, h₁, hstep, h₂, hpost⟩ :=
    hr.leaves (P := fun k ↦ (k.tds s).state = .rplyBlk) hs hs'
  obtain ⟨t, rfl, hreply⟩ := actionStep_reply (actions_invariant hk hpre) hstep h₁ h₂
  exact ⟨pre, t, post, k₁, k₂, rfl, hpre, hreply, hpost⟩

/-- A send and a blocking receive that are both pending have the same outcome
in either order, and what is left of the difference is overwritten by the
reply. -/
theorem send_receive_commute {b : Boot} (h : Served b k) (hne : s ≠ r) (hs : PendingSend k s r)
    (hr : PendingReceive k r) (hd : BuffersApart k s r) : ∃ k₁ k₁' k₂ k₂',
    handleSyscall k s = .ok k₁ ∧ handleSyscall k₁ r = .ok k₁' ∧
      handleSyscall k r = .ok k₂ ∧ handleSyscall k₂ s = .ok k₂' ∧
      SameOutcome k₁' k₂' s r ∧
      ((k₁'.tds s).state = .rplyBlk → WaitsForReply k₁' s) ∧
      ((k₂'.tds s).state = .rplyBlk → WaitsForReply k₂' s) := by
  have hk := h.invariant
  obtain ⟨q, hq⟩ := hk.send
  have hboth : ∃ k₁ k₁' k₂ k₂', handleSyscall k s = .ok k₁ ∧ handleSyscall k₁ r = .ok k₁' ∧
      handleSyscall k r = .ok k₂ ∧ handleSyscall k₂ s = .ok k₂' ∧ SameOutcome k₁' k₂' s r := by
    cases ht : sendTarget k s with
    | error e =>
      obtain ⟨k₂, k', h₂, h₂', h₁'⟩ := commute_refused hne hq hs hr ht
      exact ⟨_, k', k₂, k', hs.refused ht, h₁', h₂, h₂', .refl k' s r⟩
    | ok r' =>
      obtain rfl := hk.ids.inj ((sendTarget_eq_ok ht).2.symm.trans hs.target)
      by_cases hb : (k.tds r').systemCall.param2 = 0 ∨ (k.tds r').sendQueueHead ≠ none
      · obtain ⟨k₁, k₂, k', h₁, h₁', h₂, h₂'⟩ := commute_queued hne hq hs hr ht hb
        exact ⟨k₁, k', k₂, k', h₁, h₁', h₂, h₂', .refl k' s r'⟩
      · push Not at hb
        exact commute_handOff hne hq hs hr hd ht hb.1 hb.2
  obtain ⟨k₁, k₁', k₂, k₂', h₁, h₁', h₂, h₂', hsame⟩ := hboth
  have hcall {k k' : KernelData} {t : TdPtr} (hk : KernelInvariant k)
      (hstate : (k.tds t).state = .syscallBlk) (hc : handleSyscall k t = .ok k') :
      KernelInvariant k' := hk.call (handleSyscall_effect hstate hc) hstate
  refine ⟨k₁, k₁', k₂, k₂', h₁, h₁', h₂, h₂', hsame, ?_, ?_⟩
  · exact waitsForReply (hcall (hcall hk hs.state h₁) (pending_call hk hs.state h₁ hne.symm hr.state) h₁')
  · exact waitsForReply (hcall (hcall hk hr.state h₂) (pending_call hk hr.state h₂ hne hs.state) h₂')

/-- The first task creates another one, which makes a receive, and makes a
send to it. -/
def rendezvousActions : List Action :=
  [.trap 0 (callBy 0 5 0 0x300#32 0 0 0 0), .call 0,
    .trap 1 (callBy 1 9 0x20005300#32 0x20005310#32 8 0 0 0),
    .trap 0 (callBy 0 8 0x1001#32 0x20005c00#32 4 0x20005c10#32 4 0)]

theorem send_receive_commute_rendezvous : ∃ k k₁ k₁' k₂ k₂', Served sampleBoot k ∧
    handleSyscall k 0 = .ok k₁ ∧ handleSyscall k₁ 1 = .ok k₁' ∧
    handleSyscall k 1 = .ok k₂ ∧ handleSyscall k₂ 0 = .ok k₂' ∧ SameOutcome k₁' k₂' 0 1 := by
  have hrun := exists_run actionNext_step (booted sampleBoot).kernel rendezvousActions
    (fun k ↦ decide ((k.tds 0).state = .syscallBlk ∧ (k.tds 0).call = some .send ∧
      (k.tds 0).systemCall.param1 = (k.tds 1).taskId ∧
      (k.tds 1).state = .syscallBlk ∧ (k.tds 1).call = some .receive ∧
      (k.tds 0).systemCall.param2 = 0x20005c00#32 ∧ (k.tds 0).systemCall.param3 = 4 ∧
      (k.tds 1).systemCall.param1 = 0x20005300#32 ∧
      (k.tds 1).systemCall.param2 = 0x20005310#32 ∧ (k.tds 1).systemCall.param3 = 8))
    (by decide +kernel)
  obtain ⟨k, hr, hp⟩ := hrun
  obtain ⟨hs, hc, hid, hs', hc', hmsg, hlen, htid, hbuf, hsize⟩ := of_decide_eq_true hp
  have hd : BuffersApart k 0 1 := by
    constructor <;> simp only [hmsg, hlen, htid, hbuf, hsize] <;>
      exact apart_of_le (by decide) (by decide)
  obtain ⟨k₁, k₁', k₂, k₂', h₁, h₁', h₂, h₂', hsame, -⟩ :=
    send_receive_commute ⟨_, hr⟩ (by decide) ⟨hs, hc, hid⟩ ⟨hs', hc'⟩ hd
  exact ⟨k, k₁, k₁', k₂, k₂', ⟨_, hr⟩, h₁, h₁', h₂, h₂', hsame⟩

end PrjOS
