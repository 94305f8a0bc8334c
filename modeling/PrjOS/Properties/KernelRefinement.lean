import PrjOS.KernelModel
import PrjOS.Library.Refinement
import PrjOS.Properties.Confinement

namespace PrjOS

open ByteMemory Function LinkedQueue Program Rendezvous Transition

variable {k k' : KernelData} {t : TdPtr} {a a' : KernelSystem}

section Ids

def FirstIds (k : KernelData) : Prop :=
  ∀ i, (k.tds i).taskId = if (k.tds i).state = .invalid then BitVec.ofNat 32 i else firstTid i

theorem firstTid_injective : Injective firstTid := by decide

theorem generationId_index (i : TdPtr) : generationId (BitVec.ofNat 32 i) = 0 := by
  revert i
  decide

theorem FirstIds.live (h : FirstIds k) {i : TdPtr} (hi : (k.tds i).state ≠ .invalid) :
    (k.tds i).taskId = firstTid i := by rw [h i, if_neg hi]

theorem FirstIds.begun (h : FirstIds k) {i : TdPtr} (hi : generationId (k.tds i).taskId ≠ 0) :
    (k.tds i).state ≠ .invalid := by
  intro hinv
  rw [h i, if_pos hinv] at hi
  exact hi (generationId_index i)

theorem FirstIds.target (h : FirstIds k) {r : TdPtr} (hr : sendTarget k t = .ok r) :
    (k.tds r).state ≠ .invalid ∧ (k.tds t).systemCall.param1 = firstTid r := by
  obtain ⟨hg, hid⟩ := sendTarget_eq_ok hr
  rw [hid] at hg ⊢
  exact ⟨h.begun hg, h.live (h.begun hg)⟩

theorem FirstIds.congr (h : FirstIds k) (hid : ∀ i, (k'.tds i).taskId = (k.tds i).taskId)
    (hstate : ∀ i, (k'.tds i).state = .invalid ↔ (k.tds i).state = .invalid) : FirstIds k' := by
  intro i
  rw [hid, h i]
  simp only [hstate]

theorem FirstIds.same (h : FirstIds k) (hs : SameTasks k k') : FirstIds k' :=
  h.congr (fun i ↦ core_taskId (hs.core i)) fun i ↦ by rw [core_state (hs.core i)]

theorem FirstIds.enter (h : FirstIds k) (p : Preemption) (hr : isTaskReady (k.tds t) = true) :
    FirstIds (k.modify t p.result) := by
  have hlive : (k.tds t).state ≠ .invalid := by
    intro hi
    simp [isTaskReady, hi] at hr
  refine h.congr (fun i ↦ ?_) fun i ↦ ?_
  all_goals by_cases hi : i = t
  · subst hi
    rw [KernelData.modify_self, p.result_taskId]
  · rw [KernelData.modify_of_ne _ _ hi]
  · subst hi
    rw [KernelData.modify_self]
    have hs := p.result_state (k.tds i)
    constructor
    · intro hinv
      simp [hinv] at hs
    · exact fun hinv ↦ absurd hinv hlive
  · rw [KernelData.modify_of_ne _ _ hi]

theorem FirstIds.call {q : TdPtr → List TdPtr} (h : FirstIds k) (hs : SyscallEffect k t k')
    (hq : SendInvariant k q) (hstate : (k.tds t).state = .syscallBlk)
    (hfresh : ∀ i, (k.tds i).state ≠ .invalid → (k'.tds i).taskId = (k.tds i).taskId) :
    FirstIds k' := by
  have hnext (w : Word) : w + tasksIdGenerationIncrement ≠ w := by
    unfold tasksIdGenerationIncrement
    bv_omega
  intro i
  rcases hs.taskId hq hstate i with hid | ⟨-, hrun, hid⟩
  · rw [hid, h i]
    by_cases hinv : (k.tds i).state = .invalid
    · have hit : i ≠ t := KernelData.ne_of_state hinv hstate (by decide)
      have hsame := ((hs.other hq hstate hit).of_invalid hq hinv).resolve_right fun hnew ↦
        hnext _ (hnew.symm.trans hid)
      rw [if_pos hinv, if_pos hsame]
    · rw [if_neg hinv, if_neg fun hinv' ↦ ?_]
      by_cases hit : i = t
      · subst hit
        exact (hs.caller hq hstate).state_ne hinv'
      · exact hinv ((hs.other hq hstate hit).unused hinv').1
  · have hinv : (k.tds i).state = .invalid := by
      by_contra hinv
      exact hnext _ (hid.symm.trans (hfresh i hinv))
    rw [hid, h i, if_pos hinv, if_neg (by simp [hrun]), firstTid]

theorem FirstIds.interrupt {w : Word} (h : FirstIds k) (hk : KernelInvariant k)
    (hs : InterruptEffect k w k') : FirstIds k' := by
  cases hs with
  | ignored => exact h
  | lost => exact h
  | wakes e x i he hx hi =>
    obtain ⟨j, hj, hw⟩ := hk.events.wakes hk.ids hx
    obtain rfl := Option.some.inj (hi.symm.trans hj)
    refine h.congr (fun j ↦ ?_) fun j ↦ ?_
    all_goals
      rw [woken_tds]
      by_cases hji : j = i
    · subst hji
      rw [KernelData.modify_self]
      rfl
    · rw [KernelData.modify_of_ne _ _ hji]
    · subst hji
      rw [KernelData.modify_self]
      simp [TaskDescriptor.awake, hw]
    · rw [KernelData.modify_of_ne _ _ hji]

theorem FirstIds.boot (b : Boot) : FirstIds (booted b).kernel := by
  intro i
  by_cases hi : i = 0
  · subst hi
    rfl
  · have he : (booted b).kernel.tds i = initializeTds b.stackTop i := by
      simp [booted, KernelData.setReturnValue, hi]
    rw [he]
    exact (if_pos (rfl : (initializeTds b.stackTop i).state = .invalid)).symm

/-- Without reuse, no id wraps around. -/
theorem FirstIds.grows (h : FirstIds k) (h' : FirstIds k')
    (hfresh : ∀ i, (k.tds i).state ≠ .invalid → (k'.tds i).taskId = (k.tds i).taskId) (i : TdPtr) :
    (k.tds i).taskId ≤ (k'.tds i).taskId := by
  by_cases hinv : (k.tds i).state = .invalid
  · have hup : ∀ i : TdPtr, BitVec.ofNat 32 i ≤ firstTid i := by decide
    rw [h i, if_pos hinv, h' i]
    split_ifs
    · exact BitVec.le_refl _
    · exact hup i
  · rw [hfresh i hinv]
    exact BitVec.le_refl _

end Ids

section Frame

structure Kept (td td' : TaskDescriptor) : Prop where
  state : td'.state = td.state
  systemCall : td'.systemCall = td.systemCall
  parentId : td'.parentId = td.parentId

theorem Kept.refl (td : TaskDescriptor) : Kept td td := ⟨rfl, rfl, rfl⟩

theorem Kept.core {td td' : TaskDescriptor} (h : td'.core = td.core) : Kept td td' :=
  ⟨core_state h, (congrArg TaskDescriptor.systemCall h :), (congrArg TaskDescriptor.parentId h :)⟩

def MessagesKept (k k' : KernelData) : Prop :=
  ∀ i, (k.tds i).state = .rcvdBlk → (k'.tds i).state = .rcvdBlk →
    SameOn (k.tds i).systemCall.param2 (k.tds i).systemCall.param3.toNat k.memory k'.memory

theorem MessagesKept.of_memory (h : k'.memory = k.memory) : MessagesKept k k' := by
  intro i _ _
  rw [h]
  exact SameOn.refl _ _ _

theorem TaskDescriptor.Shows.kept {td td' : TaskDescriptor} {m m' : Memory} {i : TdPtr}
    {x : KernelStatus} (h : td.Shows m i x) (hk : Kept td td')
    (hm : td.state = .rcvdBlk →
      SameOn td.systemCall.param2 td.systemCall.param3.toNat m m') : td'.Shows m' i x := by
  unfold TaskDescriptor.Shows at h ⊢
  rw [hk.state, hk.systemCall]
  cases hst : td.state with
  | rcvdBlk =>
    rw [hst] at h
    obtain ⟨j, hj, hx⟩ := h
    exact ⟨j, hj, by rw [bytesAt_congr (hm hst)]; exact hx⟩
  | _ =>
    rw [hst] at h
    exact h

/-- The state that a task seems to be in, for the states with a status of their
own. -/
def statusState : KernelStatus → TaskState
  | .dormant => .invalid
  | .ready _ => .running
  | .receiving .. => .sendBlk
  | .queued .. => .rcvdBlk
  | .awaiting .. => .rplyBlk
  | .waiting .. => .evtBlk
  | .exited => .exited

theorem TaskDescriptor.Shows.statusState {td : TaskDescriptor} {m : Memory} {i : TdPtr}
    {x : KernelStatus} (h : td.Shows m i x) : statusState x = match td.state with
      | .hwint => .running
      | .killed | .syscallBlk => .exited
      | s => s := by
  unfold TaskDescriptor.Shows at h
  cases hst : td.state <;> rw [hst] at h
  case rcvdBlk =>
    obtain ⟨j, -, rfl⟩ := h
    rfl
  case rplyBlk =>
    obtain ⟨j, message, -, rfl⟩ := h
    rfl
  all_goals
    subst h
    rfl

theorem TaskDescriptor.Shows.ne {td : TaskDescriptor} {m : Memory} {i : TdPtr}
    {x y : KernelStatus} (h : td.Shows m i x) (hst : td.state ≠ PrjOS.statusState y)
    (hy : PrjOS.statusState y ∈ [.invalid, .sendBlk, .rplyBlk, .evtBlk]) : x ≠ y := by
  rintro rfl
  have hs := h.statusState
  cases htd : td.state <;> simp_all

theorem TaskDescriptor.Shows.waiting {td : TaskDescriptor} {m : Memory} {i : TdPtr} {event : Word}
    {f : Word → Client TdPtr} (h : td.Shows m i (.waiting event f)) :
    td.state = .evtBlk ∧ td.systemCall.param1 = event := by
  unfold TaskDescriptor.Shows at h
  cases hst : td.state <;> rw [hst] at h
  case evtBlk =>
    cases h
    exact ⟨rfl, rfl⟩
  case rcvdBlk =>
    obtain ⟨j, -, hx⟩ := h
    cases hx
  case rplyBlk =>
    obtain ⟨j, message, -, hx⟩ := h
    cases hx
  all_goals cases h

/-- The message passing, while `t` is in a call that it will only know of when
the kernel serves it. -/
structure Entered (k : KernelData) (t : TdPtr) (a : KernelSystem) : Prop where
  self : a.status t = idle t
  others : ∀ i, i ≠ t → (k.tds i).Shows k.memory i (a.status i)
  queues : SendInvariant k a.queue
  parents : ∀ i, (k.tds i).state ≠ .invalid → (k.tds i).parentId = a.parent i

theorem Entered.mirrors (h : Entered k t a) (hm : MessagesKept k k')
    (hq : SendInvariant k' a'.queue)
    (ht : ∀ i, ((k'.tds i).Shows k'.memory i (a'.status i) ∧ (k'.tds i).parentId = a'.parent i) ∨
      (i ≠ t ∧ a'.status i = a.status i ∧ a'.parent i = a.parent i ∧
        Kept (k.tds i) (k'.tds i))) : Mirrors k' a' := by
  refine ⟨fun i ↦ ?_, hq, fun i hi ↦ ?_⟩
  · rcases ht i with ⟨hs, -⟩ | ⟨hit, hx, -, hk⟩
    · exact hs
    · rw [hx]
      exact (h.others i hit).kept hk fun hb ↦ hm i hb (hk.state.trans hb)
  · rcases ht i with ⟨-, hp⟩ | ⟨hit, -, hp, hk⟩
    · exact hp
    · rw [hp, hk.parentId]
      exact h.parents i (by rwa [← hk.state])

end Frame

section Matched

/-- The message passing can come to what `k'` shows, with the interrupts `es`
and with the notices `os` of the tasks. -/
def Matched (a : KernelSystem) (k' : KernelData) (es : List EventId)
    (os : List (TdPtr × Notice TdPtr)) : Prop :=
  ∃ a', Reaches kernelModel a os a' ∧ Mirrors k' a' ∧ a'.world = a.world ++ es

theorem kernelModel_free : kernelModel.Free := fun _ _ ↦ rfl

theorem Reaches.matched {os : List (TdPtr × Notice TdPtr)} (h : Reaches kernelModel a os a')
    (hw : a'.world = a.world) (hk : Mirrors k' a') : Matched a k' [] os :=
  ⟨a', h, hk, hw.trans (List.append_nil _).symm⟩

end Matched

section Alone

theorem CallerOnly.systemCall {s : TaskState} (h : CallerOnly k k' t s) :
    (k'.tds t).systemCall = { (k.tds t).systemCall with
      returnValue := (k'.tds t).systemCall.returnValue } := by
  obtain ⟨p, v, -, he⟩ := h.caller
  rw [he]

theorem CallerOnly.parentId {s : TaskState} (h : CallerOnly k k' t s) :
    (k'.tds t).parentId = (k.tds t).parentId := by
  obtain ⟨p, v, -, he⟩ := h.caller
  rw [he]

/-- A call that only concerns its caller. -/
theorem Entered.callerOnly (h : Entered k t a) {s : TaskState} (hc : CallerOnly k k' t s)
    (hstate : (k.tds t).state = .syscallBlk) (hm : MessagesKept k k')
    (hwait : s = .sendBlk → a.queue t = []) {x : KernelStatus}
    (hx : (k'.tds t).Shows k'.memory t x) : Mirrors k' (a.set t x) := by
  refine h.mirrors hm (h.queues.callerOnly hc hstate hwait) fun i ↦ ?_
  by_cases hi : i = t
  · subst hi
    refine .inl ⟨?_, ?_⟩
    · rw [System.set_self]
      exact hx
    · rw [hc.parentId]
      exact h.parents i (by simp [hstate])
  · refine .inr ⟨hi, System.set_of_ne _ _ _ hi, rfl, ?_⟩
    rw [hc.other i hi]
    exact .refl _

theorem shows_idle {td : TaskDescriptor} (h : td.state = .running) (m : Memory) (i : TdPtr) :
    td.Shows m i (idle i) := by
  unfold TaskDescriptor.Shows
  rw [h]

theorem Entered.running (h : Entered k t a) (hc : CallerOnly k k' t .running)
    (hstate : (k.tds t).state = .syscallBlk) (hm : MessagesKept k k') : Mirrors k' a := by
  have hk := h.callerOnly hc hstate hm (by simp) (shows_idle hc.state k'.memory t)
  rwa [System.set_idle h.self] at hk

theorem Entered.ends (h : Entered k t a) {s : TaskState} (hc : CallerOnly k k' t s)
    (hstate : (k.tds t).state = .syscallBlk) (hm : MessagesKept k k')
    (hs : s = .exited ∨ s = .syscallBlk) : Matched a k' [] [(t, .ends)] := by
  refine Reaches.matched (reaches_end kernelModel_free h.self) rfl
    (h.callerOnly hc hstate hm (by rintro rfl; simp at hs) ?_)
  unfold TaskDescriptor.Shows
  rw [hc.state]
  rcases hs with rfl | rfl <;> rfl

theorem Entered.waits (h : Entered k t a) (hc : CallerOnly k k' t .sendBlk)
    (hstate : (k.tds t).state = .syscallBlk) (hm : MessagesKept k k')
    (hhead : (k.tds t).sendQueueHead = none) :
    Matched a k' [] [(t, .asks (.receive (k.tds t).systemCall.param3))] := by
  have hempty : a.queue t = [] := h.queues.queues.head_none.mp hhead
  refine Reaches.matched (reaches_listen kernelModel_free h.self hempty
    (k.tds t).systemCall.param3) rfl (h.callerOnly hc hstate hm (fun _ ↦ hempty) ?_)
  unfold TaskDescriptor.Shows
  rw [hc.state, hc.systemCall]

end Alone

section Copies

theorem truncateTo_ne_iff {room len : Word} : truncateTo room len ≠ len ↔ room < len := by
  rw [Ne, truncateTo_eq_iff, BitVec.not_le]

theorem truncateTo_lt_iff {room len : Word} : truncateTo room len < len ↔ room < len := by
  rw [BitVec.lt_def, truncateTo_toNat, BitVec.lt_def]
  omega

/-- The result of a call for a message that may have been cut. -/
theorem truncated {p : Prop} [Decidable p] {room len : Word} (hp : p ↔ room < len) (e : Word) :
    (if p then e else truncateTo room len) = if room < len then e else len := by
  unfold truncateTo
  by_cases h : room < len
  · rw [if_pos (hp.mpr h), if_pos h]
  · rw [if_neg (fun hp' ↦ h (hp.mp hp')), if_neg h, if_neg h]

theorem truncated_eq {α : Type} (room len : Word) (x y : α) :
    (if truncateTo room len = len then x else y) =
      if truncateTo room len ≠ len then y else x := (ite_not ..).symm

/-- What a task finds after a delivery is what the message passing gives it. -/
theorem arrival_eq {r : TdPtr} {m : Memory} {src len room sender : Word}
    (hid : readWord k.memory (k.tds r).systemCall.param1 = sender)
    (hroom : (k.tds r).systemCall.param3 = room)
    (hret : (k.tds r).systemCall.returnValue =
      if room < len then errReceiveBufferTooSmall else len)
    (hbytes : bytesAt k.memory (k.tds r).systemCall.param2 (min len.toNat room.toNat) =
      bytesAt m src (min len.toNat room.toNat)) :
    arrival k r = .of errReceiveBufferTooSmall sender room (bytesAt m src len.toNat) := by
  have hlen : min room.toNat (k.tds r).systemCall.returnValue.toNat =
      min len.toNat room.toNat := by
    rw [hret]
    split_ifs with h
    · rw [BitVec.lt_def] at h
      have hlt := len.isLt
      have hmax : errReceiveBufferTooSmall.toNat = 2 ^ 32 - 1 := rfl
      omega
    · omega
  have hsize : (if room < len then errReceiveBufferTooSmall else len) =
      if room.toNat < (bytesAt m src len.toNat).length then errReceiveBufferTooSmall
      else BitVec.ofNat 32 (bytesAt m src len.toNat).length := by
    simp [BitVec.lt_def]
  simp only [arrival, Incoming.of]
  rw [hid, hroom, hlen, hbytes, hret, hsize, take_bytesAt, min_comm]

end Copies

section Messages

theorem Entered.hands (h : Entered k t a) (hn : FirstIds k)
    (hstate : (k.tds t).state = .syscallBlk) {r : TdPtr} (htarget : sendTarget k t = .ok r)
    (hr : (k.tds r).state = .sendBlk) (hm : MessagesKept k (storeResult t (handOff k t r)))
    (hbuffer : Apart (k.tds r).systemCall.param1 4 (k.tds r).systemCall.param2
      (k.tds r).systemCall.param3.toNat)
    (hmessage : Apart (k.tds r).systemCall.param1 4 (k.tds t).systemCall.param2
      (k.tds t).systemCall.param3.toNat) :
    Matched a (storeResult t (handOff k t r)) [] [(t, .asks (asSend k t)),
      (r, .gets (.received (arrival (storeResult t (handOff k t r)) r)))] := by
  have hne : t ≠ r := KernelData.ne_of_state hstate hr (by decide)
  obtain ⟨-, hid⟩ := hn.target htarget
  have hr' := h.others r hne.symm
  unfold TaskDescriptor.Shows at hr'
  rw [hr] at hr'
  generalize hk : storeResult t (handOff k t r) = k' at hm ⊢
  have hq : SendInvariant k' a.queue := hk ▸ h.queues.hands hstate hr
  rw [storeResult, handOff_eq k hne, truncated truncateTo_lt_iff] at hk
  have hkr : k'.tds r = { k.tds r with
      state := .running
      sendQueueHead := none
      systemCall := { (k.tds r).systemCall with
        returnValue := if (k.tds r).systemCall.param3 < (k.tds t).systemCall.param3
          then errReceiveBufferTooSmall else (k.tds t).systemCall.param3 } } := by
    simp [← hk, KernelData.setReturnValue, hne.symm]
  have hkt : k'.tds t = { k.tds t with
      state := .rplyBlk
      systemCall := { (k.tds t).systemCall with
        returnValue := (k.tds t).systemCall.param3 } } := by
    simp [← hk, KernelData.setReturnValue]
  have hki (i : TdPtr) (hit : i ≠ t) (hir : i ≠ r) : k'.tds i = k.tds i := by
    simp [← hk, KernelData.setReturnValue, hit, hir]
  have hmem : k'.memory = memcpy
      (writeWord k.memory (k.tds r).systemCall.param1 (k.tds t).taskId)
      (k.tds r).systemCall.param2 (k.tds t).systemCall.param2
      (min (k.tds t).systemCall.param3.toNat (k.tds r).systemCall.param3.toNat) := by
    simp [← hk, KernelData.setReturnValue, truncateTo_toNat]
  have harrival : arrival k' r = kernelModel.incoming t (k.tds r).systemCall.param3
      (bytesAt k.memory (k.tds t).systemCall.param2 (k.tds t).systemCall.param3.toNat) := by
    have hlen := (k.tds t).systemCall.param3.isLt
    refine arrival_eq ?_ ?_ ?_ ?_
    · rw [hmem, hkr]
      refine (readWord_store_apart (hbuffer.symm.mono (min_le_right _ _) le_rfl)).trans ?_
      rw [readWord_writeWord, hn.live (by simp [hstate])]
      rfl
    · rw [hkr]
    · rw [hkr]
    · rw [hmem, hkr, bytesAt_memcpy _ _ _ (by omega)]
      exact bytesAt_congr (.store (hmessage.mono le_rfl (min_le_left _ _)) _ _)
  rw [harrival, asSend, hid]
  refine Reaches.matched (reaches_handOff kernelModel_free h.self hne.symm hr' _
    (k.tds t).systemCall.param5) rfl (h.mirrors hm hq fun i ↦ ?_)
  by_cases hir : i = r
  · subst hir
    rw [System.set_self, hkr]
    exact .inl ⟨shows_idle rfl _ _, h.parents i (by simp [hr])⟩
  rw [System.set_of_ne _ _ _ hir]
  by_cases hit : i = t
  · subst hit
    rw [System.set_self, hkt]
    exact .inl ⟨⟨r, _, hid, rfl⟩, h.parents i (by simp [hstate])⟩
  · rw [System.set_of_ne _ _ _ hit, hki i hit hir]
    exact .inr ⟨hit, rfl, rfl, .refl _⟩

theorem Entered.queues_message (h : Entered k t a) (hn : FirstIds k)
    (hstate : (k.tds t).state = .syscallBlk) {r : TdPtr} (htarget : sendTarget k t = .ok r)
    (hr : (k.tds r).state ≠ .sendBlk) {links : Queues TdPtr TdPtr}
    (hp : k.sendQueues.push r t = some links) :
    Matched a (storeResult t ((k.setState t .rcvdBlk).withSendQueues links, 0)) []
      [(t, .asks (asSend k t))] := by
  obtain ⟨hlive, hid⟩ := hn.target htarget
  have hq := h.queues.queue hstate htarget hr hp
  generalize hk : storeResult t ((k.setState t .rcvdBlk).withSendQueues links, 0) = k' at hq ⊢
  have hmem : k'.memory = k.memory := by rw [← hk]; rfl
  have hkt : (k'.tds t).state = .rcvdBlk ∧ (k'.tds t).parentId = (k.tds t).parentId ∧
      (k'.tds t).systemCall = { (k.tds t).systemCall with returnValue := 0 } := by
    simp [← hk, storeResult, KernelData.setReturnValue, KernelData.withSendQueues,
      KernelData.setState]
  have hki (i : TdPtr) (hit : i ≠ t) : Kept (k.tds i) (k'.tds i) := by
    constructor <;> simp [← hk, storeResult, KernelData.setReturnValue,
      KernelData.withSendQueues, KernelData.setState, hit]
  rw [asSend, hid]
  refine Reaches.matched (reaches_enqueue kernelModel_free h.self (j := r) ?_ ?_
    (bytesAt k.memory (k.tds t).systemCall.param2 (k.tds t).systemCall.param3.toNat)
    (k.tds t).systemCall.param5) rfl (h.mirrors (.of_memory hmem) hq fun i ↦ ?_)
  · by_cases hrt : r = t
    · exact .inl hrt
    · exact .inr ((h.others r hrt).ne hlive (by decide))
  · by_cases hrt : r = t
    · exact .inl hrt
    · exact .inr fun _ _ ↦ (h.others r hrt).ne hr (by simp [statusState])
  rw [System.setQueue_status]
  by_cases hit : i = t
  · subst hit
    rw [System.set_self]
    refine .inl ⟨?_, hkt.2.1.trans (h.parents i (by simp [hstate]))⟩
    unfold TaskDescriptor.Shows
    rw [hkt.1, hkt.2.2, hmem]
    exact ⟨r, hid, rfl⟩
  · exact .inr ⟨hit, System.set_of_ne _ _ _ hit, rfl, hki i hit⟩

theorem Entered.takes (h : Entered k t a) (hn : FirstIds k)
    (hstate : (k.tds t).state = .syscallBlk) (blocking : Bool) {s : TdPtr}
    (hb : (k.tds t).systemCall.param2 ≠ 0) (hs : (k.tds t).sendQueueHead = some s)
    (hm : MessagesKept k (storeResult t (sysReceive t k blocking)))
    (hbuffer : Apart (k.tds t).systemCall.param1 4 (k.tds t).systemCall.param2
      (k.tds t).systemCall.param3.toNat) :
    Matched a (storeResult t (sysReceive t k blocking)) []
      [(t, .asks (.receive (k.tds t).systemCall.param3)),
        (t, .gets (.received (arrival (storeResult t (sysReceive t k blocking)) t)))] := by
  have hne : t ≠ s := h.queues.head_ne hstate hs
  obtain ⟨rest, hrest⟩ : ∃ rest, a.queue t = s :: rest := by
    rw [h.queues.head_eq] at hs
    exact List.head?_eq_some_iff.mp hs
  have hsq : s ∈ a.queue t := by rw [hrest]; exact List.mem_cons_self
  have hs' := h.others s hne.symm
  unfold TaskDescriptor.Shows at hs'
  rw [h.queues.blocked hsq] at hs'
  obtain ⟨j, hj, hs'⟩ := hs'
  have hlive : (k.tds t).taskId = firstTid t := hn.live (by simp [hstate])
  obtain rfl : t = j := firstTid_injective (by
    rw [← hj, h.queues.target hsq, hlive])
  have hq := h.queues.take blocking hstate hrest hb
  generalize hk : storeResult t (sysReceive t k blocking) = k' at hm hq ⊢
  rw [receive_eq k hne hs hb, truncated truncateTo_ne_iff, truncated truncateTo_ne_iff] at hk
  have hkt : k'.tds t = { k.tds t with
      state := .running
      sendQueueHead := (k.tds s).sendQueueNext
      systemCall := { (k.tds t).systemCall with
        returnValue := if (k.tds t).systemCall.param3 < (k.tds s).systemCall.param3
          then errReceiveBufferTooSmall else (k.tds s).systemCall.param3 } } := by
    simp [← hk]
  have hks : k'.tds s = { k.tds s with
      state := .rplyBlk
      sendQueueNext := none
      systemCall := { (k.tds s).systemCall with
        returnValue := if (k.tds t).systemCall.param3 < (k.tds s).systemCall.param3
          then errSendIncomplete else (k.tds s).systemCall.param3 } } := by
    simp [← hk, hne.symm]
  have hki (i : TdPtr) (hit : i ≠ t) (his : i ≠ s) : k'.tds i = k.tds i := by
    simp [← hk, hit, his]
  have hmem : k'.memory = writeWord
      (memcpy k.memory (k.tds t).systemCall.param2 (k.tds s).systemCall.param2
        (min (k.tds s).systemCall.param3.toNat (k.tds t).systemCall.param3.toNat))
      (k.tds t).systemCall.param1 (k.tds s).taskId := by
    simp [← hk, truncateTo_toNat]
  have harrival : arrival k' t = kernelModel.incoming s (k.tds t).systemCall.param3
      (bytesAt k.memory (k.tds s).systemCall.param2 (k.tds s).systemCall.param3.toNat) := by
    have hlen := (k.tds s).systemCall.param3.isLt
    refine arrival_eq ?_ ?_ ?_ ?_
    · rw [hmem, hkt, readWord_writeWord, hn.live (by simp [h.queues.blocked hsq])]
      rfl
    · rw [hkt]
    · rw [hkt]
    · rw [hmem, hkt, ← bytesAt_memcpy k.memory _ _ (by omega)]
      exact bytesAt_congr (.store (hbuffer.mono le_rfl (min_le_right _ _)) _ _)
  rw [harrival]
  refine Reaches.matched (reaches_take kernelModel_free h.self hne.symm hrest hs' _) rfl
    (h.mirrors hm hq fun i ↦ ?_)
  rw [System.setQueue_status]
  by_cases hit : i = t
  · subst hit
    rw [System.set_self, hkt]
    exact .inl ⟨shows_idle rfl _ _, h.parents i (by simp [hstate])⟩
  rw [System.set_of_ne _ _ _ hit]
  by_cases his : i = s
  · subst his
    rw [System.set_self, hks]
    exact .inl ⟨⟨t, _, hj, rfl⟩, h.parents i (by simp [h.queues.blocked hsq])⟩
  · rw [System.set_of_ne _ _ _ his, hki i hit his]
    exact .inr ⟨hit, rfl, rfl, .refl _⟩

/-- What a task finds after a reply is what the message passing gives it. -/
theorem response_eq {i : TdPtr} {m : Memory} {src len room : Word}
    (hret : (k.tds i).systemCall.returnValue = if room < len then errSendIncomplete else len)
    (hbytes : bytesAt k.memory (k.tds i).systemCall.param4 (min len.toNat room.toNat) =
      bytesAt m src (min len.toNat room.toNat)) :
    response k i (min len.toNat room.toNat) =
      kernelModel.returned room (bytesAt m src len.toNat) len := by
  simp only [response, Setting.returned, take_bytesAt]
  rw [hret, hbytes, min_comm room.toNat, min_assoc, min_comm room.toNat, ← min_assoc, min_self]
  rfl

theorem Entered.replies (h : Entered k t a) (hn : FirstIds k)
    (hstate : (k.tds t).state = .syscallBlk) {i : TdPtr}
    (hl : lookupTask k (k.tds t).systemCall.param1 errReplyTaskidDne errReplyTaskidNotfound =
      .ok i) (hi : (k.tds i).state = .rplyBlk)
    (hm : MessagesKept k k')
    (hk : k' = storeResult t ((deliverReply k t i).1.setState t .running,
      (deliverReply k t i).2)) :
    Matched a k' [] [(t, .asks (asReply k t)),
      (t, .gets (.replied (k.tds t).systemCall.param1 (k'.tds t).systemCall.returnValue)),
      (i, .gets (.sent (k.tds i).systemCall.param1 (response k' i
        (min (k.tds t).systemCall.param3.toNat (k.tds i).systemCall.param5.toNat))))] := by
  have hne : t ≠ i := KernelData.ne_of_state hstate hi (by decide)
  have hid : (k.tds t).systemCall.param1 = firstTid i := by
    rw [← hn.live (by simp [hi])]
    exact (findTd_eq_some.mp (lookupTask_eq_ok.mp hl).2).1.symm
  have hi' := h.others i hne.symm
  unfold TaskDescriptor.Shows at hi'
  rw [hi] at hi'
  obtain ⟨x, message, hx, hi'⟩ := hi'
  have hq : SendInvariant k' a.queue := hk ▸ h.queues.replies hstate hi
  rw [storeResult, deliverReply_eq, truncated_eq, truncated_eq, truncated truncateTo_ne_iff] at hk
  simp only [truncateTo_ne_iff] at hk
  have hkt : k'.tds t = { k.tds t with
      state := .running
      systemCall := { (k.tds t).systemCall with
        returnValue := if (k.tds i).systemCall.param5 < (k.tds t).systemCall.param3
          then errReplyError else 0 } } := by
    simp [hk, KernelData.setReturnValue, KernelData.setState, hne]
  have hki : k'.tds i = { k.tds i with
      state := .running
      systemCall := { (k.tds i).systemCall with
        returnValue := if (k.tds i).systemCall.param5 < (k.tds t).systemCall.param3
          then errSendIncomplete else (k.tds t).systemCall.param3 } } := by
    simp [hk, KernelData.setReturnValue, KernelData.setState, hne.symm]
  have hkj (j : TdPtr) (hjt : j ≠ t) (hji : j ≠ i) : k'.tds j = k.tds j := by
    simp [hk, KernelData.setReturnValue, KernelData.setState, hjt, hji]
  have hmem : k'.memory = memcpy k.memory (k.tds i).systemCall.param4
      (k.tds t).systemCall.param2
      (min (k.tds t).systemCall.param3.toNat (k.tds i).systemCall.param5.toNat) := by
    simp [hk, KernelData.setReturnValue, KernelData.setState, truncateTo_toNat]
  have hresponse : response k' i
      (min (k.tds t).systemCall.param3.toNat (k.tds i).systemCall.param5.toNat) =
      kernelModel.returned (k.tds i).systemCall.param5
        (bytesAt k.memory (k.tds t).systemCall.param2 (k.tds t).systemCall.param3.toNat)
        (k.tds t).systemCall.param3 := by
    have hlen := (k.tds t).systemCall.param3.isLt
    refine response_eq ?_ ?_
    · rw [hki]
    · rw [hmem, hki]
      exact bytesAt_memcpy _ _ _ (by omega)
  rw [asReply, hresponse, hkt, hid, hx]
  refine Reaches.matched (reaches_reply kernelModel_free h.self hne.symm hi' _ _) rfl
    (h.mirrors hm hq fun j ↦ ?_)
  by_cases hji : j = i
  · subst hji
    rw [System.set_self, hki]
    exact .inl ⟨shows_idle rfl _ _, h.parents j (by simp [hi])⟩
  rw [System.set_of_ne _ _ _ hji]
  by_cases hjt : j = t
  · subst hjt
    rw [h.self, hkt]
    exact .inl ⟨shows_idle rfl _ _, h.parents j (by simp [hstate])⟩
  · rw [hkj j hjt hji]
    exact .inr ⟨hjt, rfl, rfl, .refl _⟩

end Messages

section Others

theorem Entered.awaits (h : Entered k t a) (hstate : (k.tds t).state = .syscallBlk) (d : EventData)
    {e : EventId} (he : (k.tds t).systemCall.param1.toNat = e.val) :
    Matched a ({ k with eventData := d }.setState t .evtBlk) []
      [(t, .asks (.awaitEvent (k.tds t).systemCall.param1))] := by
  have hq := h.queues.awaits d hstate
  generalize hk : { k with eventData := d }.setState t .evtBlk = k' at hq ⊢
  have hkt : k'.tds t = { k.tds t with state := .evtBlk } := by simp [← hk, KernelData.setState]
  have hki (i : TdPtr) (hit : i ≠ t) : k'.tds i = k.tds i := by
    simp [← hk, KernelData.setState, hit]
  have hmem : k'.memory = k.memory := by rw [← hk]; rfl
  have hvalid : kernelModel.validEvent (k.tds t).systemCall.param1 :=
    lt_of_eq_of_lt he e.isLt
  refine Reaches.matched (reaches_await kernelModel_free h.self hvalid) rfl
    (h.mirrors (.of_memory hmem) hq fun i ↦ ?_)
  by_cases hit : i = t
  · subst hit
    rw [System.set_self, hkt]
    exact .inl ⟨rfl, h.parents i (by simp [hstate])⟩
  · rw [System.set_of_ne _ _ _ hit, hki i hit]
    exact .inr ⟨hit, rfl, rfl, .refl _⟩

theorem createParams_parentId {c : SyscallNumber} {params : TaskCreateParameters}
    (h : createParams k t c = some params) : params.parentId = (k.tds t).taskId := by
  cases c
  case create =>
    rw [createParams, sysCreate, checkPriority_eq] at h
    exact Option.some.inj h ▸ rfl
  case createMicrotask =>
    rw [createParams, sysCreateMicroTask, checkPriority_eq] at h
    exact Option.some.inj h ▸ rfl
  all_goals simp [createParams] at h

theorem Entered.creates (h : Entered k t a) (hn : FirstIds k)
    (hstate : (k.tds t).state = .syscallBlk) {c : SyscallNumber} {params : TaskCreateParameters}
    {j : TdPtr} {sched : SchedulerStructure} (hp : createParams k t c = some params)
    (hj : findAvailable k.tds params.taskType = some j) (hinv : (k.tds j).state = .invalid)
    (hm : MessagesKept k (created k t j params sched)) :
    Matched a (created k t j params sched) [] [(t, .asks (.create (.choosing j))),
      (t, .gets (.created ((created k t j params sched).tds t).systemCall.returnValue))] := by
  have hjt : j ≠ t := findAvailable_ne hj hstate
  have hid : (k.tds j).taskId + tasksIdGenerationIncrement = firstTid j := by
    rw [hn j, if_pos hinv, firstTid]
  have hempty : a.queue j = [] := by
    by_contra hne
    exact hn.begun (h.queues.generation j hne) hinv
  have hq : SendInvariant (created k t j params sched) (update a.queue j []) :=
    h.queues.create hstate (findAvailable_some hj).2
  rw [← hempty, update_eq_self] at hq
  have hdormant : a.status j = .dormant := by
    have hs := h.others j hjt
    unfold TaskDescriptor.Shows at hs
    rwa [hinv] at hs
  have hnew := created_new k params sched hjt
  have hcaller := created_caller k params sched hjt
  rw [hcaller, hid]
  refine Reaches.matched (reaches_create kernelModel_free h.self rfl hdormant) rfl
    (h.mirrors hm hq fun i ↦ ?_)
  rw [System.setParent_status]
  by_cases hij : i = j
  · subst hij
    rw [System.set_self, System.setParent_self, hnew]
    refine .inl ⟨shows_idle rfl _ _, ?_⟩
    exact (createParams_parentId hp).trans (hn.live (by simp [hstate]))
  rw [System.set_of_ne _ _ _ hij, System.setParent_of_ne _ _ _ hij]
  by_cases hit : i = t
  · subst hit
    rw [h.self, hcaller]
    exact .inl ⟨shows_idle rfl _ _, h.parents i (by simp [hstate])⟩
  · rw [created_other k params sched hij hit]
    exact .inr ⟨hit, rfl, rfl, .refl _⟩

end Others

section Calls

theorem storeResult_result (t : TdPtr) (r : KernelData × Word) :
    ((storeResult t r).tds t).systemCall.returnValue = r.2 := by
  simp [storeResult, KernelData.setReturnValue]

theorem Entered.stays (h : Mirrors k' a) {os : List (TdPtr × Notice TdPtr)} (ho : os = []) :
    Matched a k' [] os := by
  rw [ho]
  exact Reaches.matched (.refl a) rfl h

def Alive (k' : KernelData) (t : TdPtr) : Prop :=
  (k'.tds t).state ≠ .exited ∧ (k'.tds t).state ≠ .syscallBlk

theorem SyscallEffect.alive {q : TdPtr → List TdPtr} (h : SyscallEffect k t k')
    (hq : SendInvariant k q) (hstate : (k.tds t).state = .syscallBlk) (hc : Completes k t)
    (hx : (k.tds t).call ≠ some .threadexit) : Alive k' t := by
  have hfinished := h.finished hq hstate hc
  constructor <;> intro hs <;> rw [hs] at hfinished
  · exact hx hfinished
  · exact hfinished

theorem CallerOnly.alive (h : CallerOnly k k' t .running) : Alive k' t := by
  constructor <;> simp [h.state]

theorem Alive.notices (h : Alive k' t) {c : Call Unit (Place TdPtr)} (hr : request k t = some c) :
    notices k k' t = (t, .asks c) :: (outcomes k k' t c).map fun o ↦ (o.1, .gets o.2) := by
  simp [PrjOS.notices, h.1, h.2, hr]

theorem Alive.unnoticed (h : Alive k' t) (hr : request k t = none) : PrjOS.notices k k' t = [] := by
  simp [PrjOS.notices, h.1, h.2, hr]

theorem replyTarget_eq_some {i : TdPtr} (h : replyTarget k t = some i) :
    lookupTask k (k.tds t).systemCall.param1 errReplyTaskidDne errReplyTaskidNotfound = .ok i ∧
      ¬ ((k.tds t).systemCall.param2 = 0 ∧ (k.tds t).systemCall.param3 ≠ 0) := by
  unfold replyTarget at h
  simp only at h
  split at h
  · cases h
  · split_ifs at h with hb
    obtain rfl := Option.some.inj h
    exact ⟨‹_›, hb⟩

theorem sysReply_none (h : replyTarget k t = none) :
    ∃ e, sysReply t k = (k.setState t .running, e) := by
  unfold replyTarget at h
  simp only at h
  split at h
  · rename_i e hl
    exact ⟨e, by simp only [sysReply, hl]⟩
  · rename_i i hl
    split_ifs at h with hb
    exact ⟨errReplyError, by simp only [sysReply, hl, if_pos hb]⟩

theorem Entered.replied (h : Entered k t a) (hn : FirstIds k)
    (hstate : (k.tds t).state = .syscallBlk) (hcall : (k.tds t).call = some .reply)
    (hk : k' = storeResult t (sysReply t k)) (hm : MessagesKept k k') (halive : Alive k' t) :
    Matched a k' [] (notices k k' t) := by
  have honly (v : Word) (hk : k' = storeResult t (k.setState t .running, v)) : Mirrors k' a :=
    h.running (hk ▸ callerOnly_storeResult k t .running v) hstate hm
  cases htarget : replyTarget k t with
  | none =>
    obtain ⟨e, he⟩ := sysReply_none htarget
    exact Entered.stays (honly e (he ▸ hk)) (halive.unnoticed (by simp [request, hcall, htarget]))
  | some i =>
    obtain ⟨hl, hb⟩ := replyTarget_eq_some htarget
    simp only [sysReply, hl, if_neg hb] at hk
    rw [halive.notices (c := asReply k t) (by simp [request, hcall, htarget])]
    simp only [outcomes, asReply, htarget]
    by_cases hi : (k.tds i).state = .rplyBlk
    · rw [if_pos hi] at hk ⊢
      exact h.replies hn hstate hl hi hm hk
    · rw [if_neg hi] at hk ⊢
      have hid : (k.tds i).taskId = (k.tds t).systemCall.param1 :=
        (findTd_eq_some.mp (lookupTask_eq_ok.mp hl).2).1
      have hlive := hn.begun (hid ▸ (lookupTask_eq_ok.mp hl).1)
      rw [hk, storeResult_result, ← hk]
      refine Reaches.matched (reaches_unheard kernelModel_free h.self
        (fun j x message room f hj ↦ ?_) _ _) rfl (honly _ hk)
      obtain rfl : j = i := firstTid_injective (hj.trans (hid.symm.trans (hn.live hlive)))
      by_cases hjt : j = t
      · rw [hjt, h.self]
        nofun
      · exact (h.others j hjt).ne hi (by simp [statusState])

theorem sendTarget_notfound (h : sendTarget k t = .error errSendTaskidNotfound) :
    findTd (k.tds t).systemCall.param1 k.tds = none := by
  unfold sendTarget lookupTask at h
  simp only at h
  split at h
  · rename_i e hl
    split_ifs at hl
    · exact absurd (hl.trans h) (by decide)
    · split at hl
      · assumption
      · simp at hl
  · split_ifs at h
    exact absurd (Except.error.inj h) (by decide)

theorem Entered.refused (h : Entered k t a) (hn : FirstIds k) (hids : IdsIndexed k.tds)
    (hstate : (k.tds t).state = .syscallBlk) (hcall : (k.tds t).call = some .send) {e : Word}
    (htarget : sendTarget k t = .error e)
    (hk : k' = storeResult t (k.setState t .running, e)) (hm : MessagesKept k k') :
    Matched a k' [] (notices k k' t) := by
  have honly : CallerOnly k k' t .running := hk ▸ callerOnly_storeResult k t .running e
  have hkept := h.running honly hstate hm
  by_cases he : e = errSendTaskidNotfound
  · rw [honly.alive.notices (c := asSend k t) (by simp [request, hcall, htarget, he])]
    have hresponse : response k' t 0 = ⟨kernelModel.noTask, []⟩ := by
      simp only [response, hk, storeResult_result]
      rw [he]
      rfl
    simp only [outcomes, asSend, htarget, hresponse]
    refine Reaches.matched (reaches_refuse kernelModel_free h.self (fun j hj ↦ ?_) _ _) rfl hkept
    by_contra hne
    have hlive : (k.tds j).state ≠ .invalid := by
      intro hinv
      have hjt : j ≠ t := KernelData.ne_of_state hinv hstate (by decide)
      have hs := h.others j hjt
      unfold TaskDescriptor.Shows at hs
      rw [hinv] at hs
      exact hne hs
    have hnone := sendTarget_notfound (he ▸ htarget)
    rw [hids.find.mpr ((hn.live hlive).trans hj)] at hnone
    cases hnone
  · exact Entered.stays hkept (honly.alive.unnoticed (by simp [request, hcall, htarget, he]))

/-- A receive that takes no message only returns if it is not to block. -/
theorem receive_stops (hstate : (k.tds t).state = .syscallBlk) {b : Bool}
    (hcall : (k.tds t).call = some (if b then .receive else .receiveNonblock))
    (hsend : sendEvents k t = [])
    (hrun : ((storeResult t (sysReceive t k b)).tds t).state = .running) :
    b = false ∧ (k.tds t).sendQueueHead = none := by
  simp only [storeResult, KernelData.setReturnValue, KernelData.modify_self] at hrun
  rw [sysReceive] at hrun
  by_cases hb : (k.tds t).systemCall.param2 = 0
  · rw [if_pos hb, hstate] at hrun
    cases hrun
  rw [if_neg hb] at hrun
  cases hhead : (k.tds t).sendQueueHead with
  | none =>
    refine ⟨?_, rfl⟩
    simp only [pop, hhead] at hrun
    by_contra hblocks
    rw [if_pos (by simpa using hblocks)] at hrun
    simp [KernelData.setState] at hrun
  | some s =>
    have hevents : sendEvents k t = [.get t (k.tds s).taskId] := by
      cases b <;> simp only [sendEvents, hcall, hhead] <;> exact if_neg hb
    rw [hevents] at hsend
    cases hsend

theorem Entered.returns (h : Entered k t a) (hn : FirstIds k) (hids : IdsIndexed k.tds)
    (hstate : (k.tds t).state = .syscallBlk) (hk : handleSyscall k t = .ok k')
    (hm : MessagesKept k k') (hquiet : Quiet k t) (hc : CallerOnly k k' t .running)
    (hreply : (k.tds t).call ≠ some .reply) : Matched a k' [] (notices k k' t) := by
  have hkept := h.running hc hstate hm
  have hquiet' (hr : request k t = none) : Matched a k' [] (notices k k' t) :=
    Entered.stays hkept (hc.alive.unnoticed hr)
  obtain ⟨hsend, hawait⟩ := hquiet
  cases hcall : (k.tds t).call with
  | none => exact hquiet' (by simp [request, hcall])
  | some c =>
    rw [handleSyscall, if_neg (by simp [hstate])] at hk
    cases c <;> simp only [hcall] at hk
    case reply => exact absurd hcall hreply
    case send =>
      cases htarget : sendTarget k t with
      | error e =>
        simp only [sysSend, htarget, bind, Except.bind, Except.ok.injEq] at hk
        exact h.refused hn hids hstate hcall htarget hk.symm hm
      | ok r =>
        simp only [sendEvents, hcall, htarget] at hsend
        split_ifs at hsend
    case receive =>
      obtain ⟨hblocks, -⟩ := receive_stops (b := true) hstate hcall hsend
        (Except.ok.inj hk ▸ hc.state)
      cases hblocks
    case receiveNonblock =>
      obtain ⟨-, hhead⟩ := receive_stops (b := false) hstate hcall hsend
        (Except.ok.inj hk ▸ hc.state)
      exact hquiet' (by simp [request, hcall, hhead])
    case awaitEvent =>
      by_cases he : (k.tds t).systemCall.param1.toNat < eventsNumTypes
      · have he' : (k.tds t).systemCall.param1.toNat < 8 := he
        refine hquiet' ?_
        simp_all [awaitEvents, request]
      · have hresult : (k'.tds t).systemCall.returnValue = errAwaiteventBadEventId := by
          have he' : ¬ (k.tds t).systemCall.param1.toNat < 8 := he
          simp only [sysAwaitEvent, dif_neg he', Except.ok.injEq] at hk
          simp [← hk, KernelData.setTaskReady, KernelData.setState, KernelData.setReturnValue]
        rw [hc.alive.notices (c := .awaitEvent (k.tds t).systemCall.param1)
          (by simp [request, hcall, he])]
        simp only [outcomes, if_neg he, hresult]
        exact Reaches.matched (reaches_badEvent kernelModel_free h.self he) rfl hkept
    case getParentTid =>
      have hresult : (k'.tds t).systemCall.returnValue = a.parent t := by
        rw [← Except.ok.inj hk, storeResult_result]
        exact h.parents t (by simp [hstate])
      rw [hc.alive.notices (c := .getParent) (by simp [request, hcall])]
      simp only [outcomes, hresult]
      exact Reaches.matched (reaches_getParent kernelModel_free h.self) rfl hkept
    case create =>
      obtain ⟨params, hp, htype⟩ := createParams_create k t
      refine hquiet' ?_
      cases hf : findAvailable k.tds .regular <;> simp_all [sendEvents, request]
    case createMicrotask =>
      obtain ⟨params, hp, htype⟩ := createParams_createMicrotask k t
      refine hquiet' ?_
      cases hf : findAvailable k.tds .micro <;> simp_all [sendEvents, request]
    all_goals exact hquiet' (by simp [request, hcall])

/-- A system call is matched by what its caller asks of the message passing. -/
theorem Entered.call (h : Entered k t a) (hn : FirstIds k) (hids : IdsIndexed k.tds)
    (hstate : (k.tds t).state = .syscallBlk) (hk : handleSyscall k t = .ok k')
    (hm : MessagesKept k k')
    (hfresh : ∀ i, (k.tds i).state ≠ .invalid → (k'.tds i).taskId = (k.tds i).taskId)
    (hapart : ∀ i j, .get j (k.tds i).taskId ∈ sendEvents k t →
      Apart (k.tds j).systemCall.param1 4 (k.tds j).systemCall.param2
          (k.tds j).systemCall.param3.toNat ∧
        Apart (k.tds j).systemCall.param1 4 (k.tds i).systemCall.param2
          (k.tds i).systemCall.param3.toNat) :
    Matched a k' [] (notices k k' t) := by
  have heff := handleSyscall_effect hstate hk
  have hends (hs : (k'.tds t).state = .exited ∨ (k'.tds t).state = .syscallBlk) :
      notices k k' t = [(t, .ends)] := if_pos hs
  have halive := heff.alive h.queues hstate
  by_cases hreply : (k.tds t).call = some .reply
  · rw [handleSyscall, if_neg (by simp [hstate])] at hk
    simp only [hreply, Except.ok.injEq] at hk
    exact h.replied hn hstate hreply hk.symm hm
      (halive (by simp [Completes, hreply]) (by simp [hreply]))
  cases heff with
  | returns hquiet hc => exact h.returns hn hids hstate hk hm hquiet hc hreply
  | exits hcall hc =>
    rw [hends (.inl hc.state)]
    exact h.ends hc hstate hm (.inl rfl)
  | stuck hnot hc =>
    rw [hends (.inr hc.state)]
    exact h.ends hc hstate hm (.inr rfl)
  | waits hcall hhead hb hc =>
    replace halive := halive (by simpa [Completes, hcall] using hb) (by simp [hcall])
    rw [halive.notices (c := .receive (k.tds t).systemCall.param3) (by simp [request, hcall])]
    simp only [outcomes, if_pos hhead]
    exact h.waits hc hstate hm hhead
  | hands r hcall htarget hr =>
    replace halive := halive (by simp [Completes, hcall]) (by simp [hcall])
    obtain ⟨hbuffer, hmessage⟩ := hapart t r (by simp [sendEvents, hcall, htarget, hr])
    rw [halive.notices (c := asSend k t) (by simp [request, hcall, htarget])]
    simp only [outcomes, asSend, htarget, if_pos hr]
    exact h.hands hn hstate htarget hr hm hbuffer hmessage
  | queues r links hcall htarget hr hp =>
    replace halive := halive (by simp [Completes, hcall]) (by simp [hcall])
    rw [halive.notices (c := asSend k t) (by simp [request, hcall, htarget])]
    simp only [outcomes, asSend, htarget, if_neg hr]
    exact h.queues_message hn hstate htarget hr hp
  | takes s blocking hcall hb hs =>
    have hget : .get t (k.tds s).taskId ∈ sendEvents k t := by
      cases blocking <;> simpa [sendEvents, hcall, hs] using hb
    replace halive := halive (by cases blocking <;> simpa [Completes, hcall] using hb)
      (by cases blocking <;> simp [hcall])
    rw [halive.notices (c := .receive (k.tds t).systemCall.param3)
      (by cases blocking <;> simp [request, hcall, hs])]
    simp only [outcomes, hs, reduceCtorEq, if_false]
    exact h.takes hn hstate blocking hb hs hm (hapart s t hget).1
  | replies s hcall => exact absurd hcall hreply
  | awaits x e links hcall he hx hp =>
    have hlt : (k.tds t).systemCall.param1.toNat < eventsNumTypes := lt_of_eq_of_lt he e.isLt
    replace halive := halive (by simp [Completes, hcall]) (by simp [hcall])
    rw [halive.notices (c := .awaitEvent (k.tds t).systemCall.param1)
      (by simp [request, hcall, hx])]
    simp only [outcomes, if_pos hlt]
    exact h.awaits hstate _ he
  | creates c params j sched hcall hp hj hs =>
    have hinv : (k.tds j).state = .invalid := by
      by_contra hlive
      have hid := hfresh j hlive
      rw [created_new k params sched (findAvailable_ne hj hstate), newTask_taskId] at hid
      unfold tasksIdGenerationIncrement at hid
      bv_omega
    have hrequest : request k t = some (.create (.choosing j)) := by
      cases c
      case create =>
        obtain ⟨params', hp', htype⟩ := createParams_create k t
        obtain rfl := Option.some.inj (hp.symm.trans hp')
        simp [request, hcall, ← htype, hj]
      case createMicrotask =>
        obtain ⟨params', hp', htype⟩ := createParams_createMicrotask k t
        obtain rfl := Option.some.inj (hp.symm.trans hp')
        simp [request, hcall, ← htype, hj]
      all_goals simp [createParams] at hp
    have hrun : Alive (created k t j params sched) t := by
      constructor <;> simp [created_caller k params sched (findAvailable_ne hj hstate)]
    rw [hrun.notices hrequest]
    exact h.creates hn hstate hp hj hinv hm

end Calls

section Interrupts

theorem Mirrors.congr (h : Mirrors k a) (hk : ∀ i, Kept (k.tds i) (k'.tds i))
    (hm : k'.memory = k.memory) (hq : SendInvariant k' a.queue) : Mirrors k' a := by
  refine ⟨fun i ↦ (h.tasks i).kept (hk i) fun _ ↦ ?_, hq, fun i hi ↦ ?_⟩
  · rw [hm]
    exact SameOn.refl _ _ _
  · rw [(hk i).parentId]
    exact h.parents i (by rwa [← (hk i).state])

theorem Mirrors.same (h : Mirrors k a) (hs : SameTasks k k') (hm : k'.memory = k.memory) :
    Mirrors k' a :=
  h.congr (fun i ↦ .core (hs.core i)) hm (h.queues.same hs.core)

theorem Mirrors.setWorld (h : Mirrors k a) (raised : List EventId) :
    Mirrors k (a.setWorld raised) := ⟨h.tasks, h.queues, h.parents⟩

variable {w : EventId → List QueryPtr}

theorem EventPool.waits_for (h : EventPool k w) (hids : IdsIndexed k.tds) {i : TdPtr}
    (hi : (k.tds i).state = .evtBlk) {e : EventId}
    (he : (k.tds i).systemCall.param1.toNat = e.val) : k.eventData.eventQueueHead e ≠ none := by
  obtain ⟨hid, x, hx⟩ := h.waiting i hi
  have hused := h.used x (hx ▸ hid)
  obtain ⟨j, hj, -, hparam⟩ := h.owner x (hx ▸ hid)
  obtain rfl := hids.inj (hj.trans hx)
  rw [← Fin.ext (he.symm.trans hparam)] at hused
  intro hnone
  have hhead := h.queues.head_eq e
  rw [show k.eventData.queues.head e = none from hnone] at hhead
  rw [List.head?_eq_none_iff.mp hhead.symm] at hused
  cases hused

theorem Mirrors.interrupt (h : Mirrors k a) (hw : EventPool k w) (hids : IdsIndexed k.tds)
    {isrNumber : Word} (hk : InterruptEffect k isrNumber k') :
    Matched a k' (eventOf isrNumber).toList (wokenNotices k k' isrNumber) := by
  have hnumber (e : EventId) : (BitVec.ofNat 32 e.val).toNat = e.val := by
    rw [BitVec.toNat_ofNat]
    exact Nat.mod_eq_of_lt (by omega)
  cases hk with
  | ignored he =>
    simp only [wokenNotices, he, Option.bind_none, Option.toList_none]
    exact Reaches.matched (.refl a) rfl h
  | lost e he hx =>
    simp only [wokenNotices, he, Option.bind_some, hx, Option.toList_some]
    have hno (i : TdPtr) (f : Word → Client TdPtr) :
        a.status i ≠ .waiting (BitVec.ofNat 32 e.val) f := by
      intro hi
      obtain ⟨hst, hparam⟩ := (hi ▸ h.tasks i).waiting
      exact hw.waits_for hids hst (hparam ▸ hnumber e) hx
    exact ⟨_, reaches_unnoticed hno ⟨e, hnumber e, rfl⟩, h.setWorld _, rfl⟩
  | wakes e x i he hx hi =>
    have hmem : x ∈ w e := List.mem_of_mem_head? ((hw.queues.head_eq e).symm.trans hx)
    obtain ⟨hused, hevent⟩ := hw.linked hmem
    obtain ⟨j, hj, hst, hparam⟩ := hw.owner x hused
    obtain rfl : j = i := hids.inj (hj.trans (hids.find.mp hi).symm)
    rw [hevent] at hparam
    have hj' := h.tasks j
    unfold TaskDescriptor.Shows at hj'
    rw [hst] at hj'
    have hkj : (woken k e x j).tds j = (k.tds j).awake := by
      rw [woken_tds, KernelData.modify_self]
    simp only [wokenNotices, he, Option.bind_some, hx, hi, Option.toList_some, hkj]
    refine ⟨_, reaches_interrupt hj' ⟨e, hparam, rfl⟩, .setWorld ?_ _, rfl⟩
    refine ⟨fun i ↦ ?_, h.queues.wake e x hst, fun i hi ↦ ?_⟩
    all_goals by_cases hij : i = j
    · subst hij
      rw [System.set_self, hkj]
      exact shows_idle rfl _ _
    · rw [System.set_of_ne _ _ _ hij, woken_tds, KernelData.modify_of_ne _ _ hij]
      exact h.tasks i
    · subst hij
      rw [hkj]
      exact h.parents i (by simp [hst])
    · rw [woken_tds, KernelData.modify_of_ne _ _ hij] at hi ⊢
      exact h.parents i hi

end Interrupts

section Passes

variable {s s' : RtosMain} {c : Pass}

/-- A task that comes back to the kernel keeps its id and its parent. -/
theorem entry_identity (hready : isTaskReady ((loopHead c.iteration s).tds t) = true) (i : TdPtr) :
    ((c.entry s t).tds i).taskId = (s.kernel.tds i).taskId ∧
      ((c.entry s t).tds i).parentId = (s.kernel.tds i).parentId := by
  refine entry_invariant (P := fun k ↦ (k.tds i).taskId = (s.kernel.tds i).taskId ∧
      (k.tds i).parentId = (s.kernel.tds i).parentId)
    (fun hs h ↦ ⟨(core_taskId (hs.core i)).trans h.1, (Kept.core (hs.core i)).parentId.trans h.2⟩)
    (fun {k t} p _ h ↦ ?_) hready ⟨rfl, rfl⟩
  by_cases hi : i = t
  · subst hi
    rw [KernelData.modify_self, p.result_taskId]
    refine ⟨h.1, Eq.trans ?_ h.2⟩
    unfold Preemption.result
    split_ifs <;> cases p <;> rfl
  · rwa [KernelData.modify_of_ne _ _ hi]

theorem ready_state (hready : isTaskReady ((loopHead c.iteration s).tds t) = true) :
    (s.kernel.tds t).state = .running ∨ (s.kernel.tds t).state = .hwint := by
  rw [← core_state ((loopHead_same c.iteration s).core t)]
  unfold isTaskReady at hready
  split at hready <;> simp_all

theorem entry_live (hready : isTaskReady ((loopHead c.iteration s).tds t) = true) {i : TdPtr}
    (hi : ((c.entry s t).tds i).state ≠ .invalid) : (s.kernel.tds i).state ≠ .invalid := by
  by_cases hit : i = t
  · subst hit
    rcases ready_state hready with hst | hst <;> simp [hst]
  · rwa [← core_state (entry_other c s hit)]

theorem Mirrors.enters (h : Mirrors s.kernel a)
    (hready : isTaskReady ((loopHead c.iteration s).tds t) = true)
    (hkept : ∀ i, (s.kernel.tds i).state = .rcvdBlk →
      SameOn (s.kernel.tds i).systemCall.param2 (s.kernel.tds i).systemCall.param3.toNat
        s.kernel.memory c.iteration.memory) : Entered (c.entry s t) t a := by
  refine ⟨?_, fun i hi ↦ ?_, entry_send h.queues hready, fun i hi ↦ ?_⟩
  · have ht := h.tasks t
    unfold TaskDescriptor.Shows at ht
    rcases ready_state hready with hst | hst <;> rwa [hst] at ht
  · rw [entry_memory]
    exact (h.tasks i).kept (.core (entry_other c s hi)) (hkept i)
  · rw [(entry_identity hready i).2]
    exact h.parents i (entry_live hready hi)

/-- A task that comes back without a call. -/
theorem Entered.interrupted (h : Entered k t a) (hstate : (k.tds t).state = .hwint) :
    Mirrors k a := by
  refine ⟨fun i ↦ ?_, h.queues, h.parents⟩
  by_cases hit : i = t
  · subst hit
    rw [h.self]
    unfold TaskDescriptor.Shows
    rw [hstate]
  · exact h.others i hit

theorem Entered.killed (h : Entered k t a) (hstate : (k.tds t).state = .killed) :
    Matched a k [] [(t, .ends)] := by
  refine Reaches.matched (reaches_end kernelModel_free h.self) rfl
    (h.mirrors (.of_memory rfl) h.queues fun i ↦ ?_)
  by_cases hit : i = t
  · subst hit
    refine .inl ⟨?_, h.parents i (by simp [hstate])⟩
    rw [System.set_self]
    unfold TaskDescriptor.Shows
    rw [hstate]
  · exact .inr ⟨hit, System.set_of_ne _ _ _ hit, rfl, .refl _⟩

theorem FirstIds.entry (h : FirstIds s.kernel)
    (hready : isTaskReady ((loopHead c.iteration s).tds t) = true) : FirstIds (c.entry s t) :=
  entry_invariant (P := FirstIds) (fun hs h ↦ h.same hs) (fun p hr h ↦ h.enter p hr) hready h

theorem FirstIds.pass (h : FirstIds s.kernel) (hk : KernelInvariant s.kernel)
    (hstep : passStep s c s') (hfresh : ∀ i, (s.kernel.tds i).state ≠ .invalid →
      (s'.kernel.tds i).taskId = (s.kernel.tds i).taskId) : FirstIds s'.kernel := by
  rcases passStep_outcome hstep with ⟨-, hs⟩ | ⟨t, ht, -, hs⟩ | ⟨t, k, ht, hst, hcall, hs⟩ |
    ⟨t, k, ht, -, hwake, hs⟩
  · exact h.same hs
  · rw [hs]
    exact h.entry (hstep.1 t ht)
  · have hready := hstep.1 t ht
    obtain ⟨q, hq⟩ := (hk.entry hready).send
    refine ((h.entry hready).call (handleSyscall_effect hst hcall) hq hst fun i hi ↦ ?_).same hs
    rw [← core_taskId (hs.core i), (entry_identity hready i).1]
    exact hfresh i (entry_live hready hi)
  · have hready := hstep.1 t ht
    exact ((h.entry hready).interrupt (hk.entry hready) (handleInterrupt_effect hwake)).same hs

theorem FirstIds.issued (h : FirstIds k) : IdsIssued k := by
  intro i hi
  have hne : ∀ i, firstTid i ≠ tasksIdInvalid := by decide
  rw [h.live hi]
  exact hne i

/-- What is kept between the kernel and the message passing at the head of the
loop. -/
structure Coupled (b : Boot) (s : RtosMain) (a : KernelSystem) : Prop where
  reach : Reachable b s
  ids : FirstIds s.kernel
  events : ∃ w, EventPool s.kernel w
  mirrors : Mirrors s.kernel a

theorem Matched.rescheduled {es : List EventId} {os : List (TdPtr × Notice TdPtr)}
    (h : Matched a k es os) (sched : SchedulerStructure) :
    Matched a { k with schedulerStructure := sched } es os := by
  obtain ⟨a', hreach, hk, hw⟩ := h
  exact ⟨a', hreach, hk.same ⟨fun _ ↦ rfl, rfl⟩ rfl, hw⟩

theorem filterMap_noticed (os : List (TdPtr × Notice TdPtr)) :
    (os.map Seen.noticed).filterMap Seen.event = [] ∧
      (os.map Seen.noticed).filterMap Seen.notice = os := by
  rw [List.filterMap_map, List.filterMap_map]
  exact ⟨List.filterMap_eq_nil_iff.mpr fun _ _ ↦ rfl, List.filterMap_some⟩

theorem filterMap_raised (es : List EventId) :
    (es.map Seen.raised).filterMap Seen.event = es ∧
      (es.map Seen.raised).filterMap Seen.notice = [] := by
  rw [List.filterMap_map, List.filterMap_map]
  exact ⟨List.filterMap_some, List.filterMap_eq_nil_iff.mpr fun _ _ ↦ rfl⟩

theorem Tidy.messagesKept (h : Tidy s c s') (hp : c.picked = some t)
    (hstate : ((c.entry s t).tds t).state = .syscallBlk) {sched : SchedulerStructure}
    (hs : s'.kernel = { k with schedulerStructure := sched }) : MessagesKept (c.entry s t) k := by
  intro i hb hb'
  have hit : i ≠ t := KernelData.ne_of_state hb hstate (by decide)
  have hcore := entry_other c s hit
  have hkept := (h.kept t i hp (core_state hcore ▸ hb)).2 (by rw [hs]; exact hb')
  rw [hs] at hkept
  rw [entry_memory, (Kept.core hcore).systemCall]
  exact hkept

theorem Tidy.entryFresh (h : Tidy s c s')
    (hready : isTaskReady ((loopHead c.iteration s).tds t) = true) {sched : SchedulerStructure}
    (hs : s'.kernel = { k with schedulerStructure := sched }) {i : TdPtr}
    (hi : ((c.entry s t).tds i).state ≠ .invalid) :
    (k.tds i).taskId = ((c.entry s t).tds i).taskId := by
  have hfresh := h.fresh i (entry_live hready hi)
  rw [hs] at hfresh
  rw [(entry_identity hready i).1]
  exact hfresh

/-- One pass of the kernel is a run of the message passing. -/
theorem Coupled.matched {b : Boot} (h : Coupled b s a) (hstep : passStep s c s')
    (htidy : Tidy s c s') :
    Matched a s'.kernel ((c.seen s).filterMap Seen.event) ((c.seen s).filterMap Seen.notice) := by
  rcases passStep_cases hstep with ⟨hp, rfl⟩ | ⟨t, hp, -, hd⟩
  · have hseen : c.seen s = [] := by simp [Pass.seen, hp]
    rw [hseen]
    refine Reaches.matched (.refl a) rfl (h.mirrors.same ((loopHead_same c.iteration s).trans
      ⟨fun _ ↦ rfl, rfl⟩) (loopHead_memory c.iteration s))
  have hready := hstep.1 t hp
  have hk := h.reach.entry (c := c) hready
  have hn := h.ids.entry (c := c) hready
  have hent := h.mirrors.enters (c := c) hready fun i hi ↦ (htidy.kept t i hp hi).1
  rcases dispatch_outcome hd with ⟨hst, hs⟩ | ⟨k, sched, hs, ⟨hst, hcall⟩ | ⟨hst, hwake⟩⟩
  · have hseen : c.seen s = [.noticed (t, .ends)] := by simp [Pass.seen, hp, hst]
    rw [hseen, hs]
    exact hent.killed hst
  · obtain ⟨hevents, hnotices⟩ := filterMap_noticed (notices (c.entry s t) k t)
    have hseen : c.seen s = (notices (c.entry s t) k t).map .noticed := by
      simp [Pass.seen, hp, hst, hcall]
    rw [hseen, hevents, hnotices, hs]
    exact (hent.call hn hk.ids hst hcall (htidy.messagesKept hp hst hs)
      (fun i hi ↦ htidy.entryFresh hready hs hi)
      fun i j hget ↦ htidy.apart t i j hp hst hget).rescheduled sched
  · obtain ⟨w, hw⟩ := h.events
    obtain ⟨-, hw', -⟩ := entry_pool hready h.ids.issued hw
    let reason := c.iteration.preemption.reason
    obtain ⟨hevents, hnotices⟩ := filterMap_noticed (wokenNotices (c.entry s t) k reason)
    obtain ⟨hevents', hnotices'⟩ := filterMap_raised (eventOf reason).toList
    have hseen : c.seen s = (eventOf reason).toList.map .raised ++
        (wokenNotices (c.entry s t) k reason).map .noticed := by
      simp [Pass.seen, hp, hst, hwake, reason]
    rw [hseen, List.filterMap_append, List.filterMap_append, hevents, hnotices, hevents',
      hnotices', List.append_nil, List.nil_append, hs]
    exact ((hent.interrupted hst).interrupt hw' hk.ids
      (handleInterrupt_effect hwake)).rescheduled sched

theorem Coupled.step {b : Boot} (h : Coupled b s a) (hstep : tidyStep s c s') : ∃ a',
    Reaches kernelModel a ((c.seen s).filterMap Seen.notice) a' ∧ Coupled b s' a' ∧
      a'.world = a.world ++ (c.seen s).filterMap Seen.event := by
  obtain ⟨hpass, htidy⟩ := hstep
  obtain ⟨a', hreach, hmirrors, hworld⟩ := h.matched hpass htidy
  have hids := h.ids.pass h.reach.kernelInvariant hpass htidy.fresh
  obtain ⟨w, hw⟩ := h.events
  obtain ⟨-, w', hw', -⟩ := growStep_pool ⟨hpass, h.ids.grows hids htidy.fresh⟩
    h.reach.kernelInvariant h.ids.issued hw
  exact ⟨a', hreach, ⟨h.reach.next hpass, hids, ⟨w', hw'⟩, hmirrors⟩, hworld⟩

theorem kernelLog_refines (b : Boot) : Refines kernelLog (Step kernelModel anything)
    (fun sl a ↦ Coupled b sl.1 a ∧ a.world = sl.2.filterMap Seen.event)
    (fun sl ↦ sl.2.filterMap Seen.notice) shown := by
  rintro ⟨s, log⟩ ⟨s', log'⟩ c a ⟨hcoupled, hworld⟩ ⟨hstep, rfl⟩
  obtain ⟨a', ⟨ls, hrun, hshown⟩, hcoupled', hworld'⟩ := hcoupled.step hstep
  refine ⟨ls, a', hrun, ⟨hcoupled', ?_⟩, ?_⟩
  · rw [hworld', hworld, List.filterMap_append]
  · change (log ++ c.seen s).filterMap Seen.notice = log.filterMap Seen.notice ++ _
    rw [List.filterMap_append, hshown]

theorem Coupled.boot (b : Boot) : Coupled b (booted b) kernelStart := by
  refine ⟨.boot b, .boot b, ⟨_, .boot b⟩, fun i ↦ ?_, .boot b, fun i hi ↦ ?_⟩
  · unfold TaskDescriptor.Shows
    rw [booted_state]
    by_cases hi : i = 0
    · subst hi
      rfl
    · simp [hi, kernelStart]
  · rw [booted_state] at hi
    by_cases h0 : i = 0
    · subst h0
      rfl
    · simp [h0] at hi

def Pass.tidyRun (c : Pass) (sl : RtosMain × List Seen) : Option (RtosMain × List Seen) :=
  (c.run sl.1).bind fun s' ↦
    if (∀ i, (sl.1.kernel.tds i).state ≠ .invalid →
          (s'.kernel.tds i).taskId = (sl.1.kernel.tds i).taskId) ∧
        (∀ i, (sl.1.kernel.tds i).state ≠ .rcvdBlk) ∧
        ∀ t ∈ c.picked, ∀ e ∈ PrjOS.sendEvents (c.entry sl.1 t) t, ∀ i j,
          e = .get j ((c.entry sl.1 t).tds i).taskId →
            let message := ((c.entry sl.1 t).tds i).systemCall
            let buffer := ((c.entry sl.1 t).tds j).systemCall
            (4 ≤ (buffer.param2 - buffer.param1).toNat ∧
                buffer.param3.toNat ≤ (buffer.param1 - buffer.param2).toNat) ∧
              4 ≤ (message.param2 - buffer.param1).toNat ∧
                message.param3.toNat ≤ (buffer.param1 - message.param2).toNat then
      some (s', sl.2 ++ c.seen sl.1)
    else none

theorem Pass.tidyRun_step (sl : RtosMain × List Seen) (c : Pass) (sl' : RtosMain × List Seen)
    (h : c.tidyRun sl = some sl') : kernelLog sl c sl' := by
  unfold Pass.tidyRun at h
  obtain ⟨s', hs, h⟩ := Option.bind_eq_some_iff.mp h
  split_ifs at h with htidy
  obtain ⟨hfresh, hqueued, hapart⟩ := htidy
  obtain rfl := Option.some.inj h
  refine ⟨⟨Pass.run_step _ _ _ hs, hfresh, fun t i _ hi ↦ absurd hi (hqueued i), ?_⟩, rfl⟩
  intro t i j ht _ hget
  obtain ⟨⟨h₁, h₂⟩, h₃, h₄⟩ := hapart t ht _ hget i j rfl
  exact ⟨apart_of_le h₁ h₂, apart_of_le h₃ h₄⟩

end Passes

end PrjOS
