import PrjOS.Properties.ReplyResult

namespace PrjOS

open ByteMemory Function LinkedQueue Transition

variable {k k' : KernelData} {q : TdPtr → List TdPtr} {t s : TdPtr}

def MessageFits (k : KernelData) (s r : TdPtr) : Prop :=
  (k.tds s).systemCall.param3 ≤ (k.tds r).systemCall.param3

instance (k : KernelData) (s r : TdPtr) : Decidable (MessageFits k s r) :=
  inferInstanceAs (Decidable (_ ≤ _))

instance (k : KernelData) (t : TdPtr) : Decidable (GoodReplyBuffer k t) :=
  inferInstanceAs (Decidable (_ → _))

/-- How far the accepted send of a task is: whether its message fitted where it
was received, and what came of the reply. -/
inductive Stage
  | none
  | queued
  | taken (fits : Bool)
  | answered (fits replyFits : Bool) (replyLen : Word)
  deriving DecidableEq

def Stage.answer (replyFits : Bool) (replyLen : Word) : Stage → Stage
  | taken fits => answered fits replyFits replyLen
  | stage => stage

abbrev Stages := TdPtr → Stage

def stagesAfterCall (k : KernelData) (t : TdPtr) (stages : Stages) : Stages :=
  match (k.tds t).call with
  | some .send =>
    match sendTarget k t with
    | .error _ => stages
    | .ok r =>
      if (k.tds r).state = .sendBlk then update stages t (.taken (decide (MessageFits k t r)))
      else update stages t .queued
  | some .receive | some .receiveNonblock =>
    if (k.tds t).systemCall.param2 = 0 then stages
    else
      match (k.tds t).sendQueueHead with
      | none => stages
      | some s => update stages s (.taken (decide (MessageFits k s t)))
  | some .reply =>
    match lookupTask k (k.tds t).systemCall.param1 errReplyTaskidDne errReplyTaskidNotfound with
    | .error _ => stages
    | .ok s =>
      if GoodReplyBuffer k t ∧ (k.tds s).state = .rplyBlk then
        update stages s
          ((stages s).answer (decide (ReplyFits k t s)) (k.tds t).systemCall.param3)
      else stages
  | _ => stages

/-- A send is over when its task runs again. -/
def stagesAfter (k : KernelData) (a : Action) (stages : Stages) : Stages :=
  match a with
  | .trap t _ => update stages t .none
  | .call t => stagesAfterCall k t stages
  | _ => stages

def transferStep (s : KernelData × Stages) (a : Action) (s' : KernelData × Stages) : Prop :=
  actionStep s.1 a s'.1 ∧ s'.2 = stagesAfter s.1 a s.2

def returnedValue (replyFits : Bool) (replyLen : Word) : Word :=
  if replyFits then replyLen else errSendIncomplete

def Stage.Matches (td : TaskDescriptor) : Stage → Prop
  | none => td.state ≠ .rcvdBlk ∧ td.state ≠ .rplyBlk
  | queued => td.state = .rcvdBlk
  | taken _ => td.state = .rplyBlk
  | answered _ replyFits replyLen =>
    td.state = .running ∧ td.systemCall.returnValue = returnedValue replyFits replyLen

def Undisturbed (td td' : TaskDescriptor) : Prop :=
  (td'.state = td.state ∧ td'.systemCall.returnValue = td.systemCall.returnValue) ∨
    (td.state ≠ .rcvdBlk ∧ td.state ≠ .rplyBlk ∧ td.state ≠ .running ∧
      td'.state ≠ .rcvdBlk ∧ td'.state ≠ .rplyBlk)

theorem Undisturbed.matches {td td' : TaskDescriptor} {stage : Stage} (h : Undisturbed td td')
    (hm : stage.Matches td) : stage.Matches td' := by
  rcases h with ⟨hs, hv⟩ | ⟨hrcvd, hrply, hrunning, hrcvd', hrply'⟩
  · cases stage <;> simp only [Stage.Matches, hs, hv] at hm ⊢ <;> exact hm
  · cases stage with
    | none => exact ⟨hrcvd', hrply'⟩
    | queued => exact absurd hm hrcvd
    | taken fits => exact absurd hm hrply
    | answered fits replyFits replyLen => exact absurd hm.1 hrunning

/-- A task in a call has no send under way, and the call leaves none unless it
is a send. -/
theorem undisturbed_caller {td td' : TaskDescriptor} (hstate : td.state = .syscallBlk)
    (hrcvd : td'.state ≠ .rcvdBlk) (hrply : td'.state ≠ .rplyBlk) : Undisturbed td td' := by
  right
  rw [hstate]
  exact ⟨by decide, by decide, by decide, hrcvd, hrply⟩

theorem running_ne_blocked : TaskState.running ≠ .rcvdBlk ∧ TaskState.running ≠ .rplyBlk := by
  decide

theorem undisturbed_running {td td' : TaskDescriptor} (hstate : td.state = .syscallBlk)
    (h : td'.state = .running) : Undisturbed td td' := by
  apply undisturbed_caller hstate
  · rw [h]
    exact running_ne_blocked.1
  · rw [h]
    exact running_ne_blocked.2

theorem CallerOnly.undisturbed {st : TaskState} (h : CallerOnly k k' t st)
    (hstate : (k.tds t).state = .syscallBlk) (hrcvd : st ≠ .rcvdBlk) (hrply : st ≠ .rplyBlk)
    (i : TdPtr) : Undisturbed (k.tds i) (k'.tds i) := by
  by_cases hi : i = t
  · subst hi
    exact undisturbed_caller hstate (by rwa [h.state]) (by rwa [h.state])
  · rw [h.other i hi]
    exact .inl ⟨rfl, rfl⟩

/-- The stages after a change that concerns the send of `s` alone. -/
theorem matches_update {stages : Stages} {stage : Stage} (hself : stage.Matches (k'.tds s))
    (hm : ∀ i, (stages i).Matches (k.tds i))
    (hother : ∀ i, i ≠ s → Undisturbed (k.tds i) (k'.tds i)) (i : TdPtr) :
    (update stages s stage i).Matches (k'.tds i) := by
  by_cases hi : i = s
  · subst hi
    rwa [update_self]
  · rw [update_of_ne hi]
    exact (hother i hi).matches (hm i)

/-- What a call other than a reply does to the task `i`, unless it takes its
message. -/
theorem OtherChange.undisturbed {td : TaskDescriptor} {i : TdPtr} (h : OtherChange k t i td)
    (hreply : (k.tds t).call ≠ some .reply)
    (htaken : (k.tds t).call = some .receive ∨ (k.tds t).call = some .receiveNonblock →
      (k.tds t).sendQueueHead ≠ some i) : Undisturbed (k.tds i) td := by
  cases h with
  | kept head tail next => exact .inl ⟨rfl, rfl⟩
  | handed v hc ht hi =>
    right
    rw [hi]
    exact ⟨by decide, by decide, by decide, running_ne_blocked.1, running_ne_blocked.2⟩
  | received v blocking hc hh =>
    refine absurd hh (htaken ?_)
    cases blocking
    · exact .inr hc
    · exact .inl hc
  | replied v hc => exact absurd hc hreply
  | created c params hc hp hf =>
    right
    have havailable := (findAvailable_some hf).2
    have hrunning : (newTask (k.tds i) k.memory params).1.state = .running := rfl
    refine ⟨?_, ?_, ?_, ?_, ?_⟩
    · rintro he
      simp [isTdAvailable, he] at havailable
    · rintro he
      simp [isTdAvailable, he] at havailable
    · rintro he
      simp [isTdAvailable, he] at havailable
    · rw [hrunning]
      decide
    · rw [hrunning]
      decide

theorem stagesAfterCall_quiet {stages : Stages} (h : sendEvents k t = [])
    (hreply : (k.tds t).call ≠ some .reply) : stagesAfterCall k t stages = stages := by
  unfold stagesAfterCall
  unfold sendEvents at h
  cases hc : (k.tds t).call with
  | none => rfl
  | some c =>
    rw [hc] at h
    cases c with
    | send =>
      cases ht : sendTarget k t with
      | error e => rfl
      | ok r =>
        simp only [ht] at h
        split_ifs at h
    | receive =>
      simp only at h ⊢
      split_ifs at h ⊢
      · rfl
      · cases hh : (k.tds t).sendQueueHead with
        | none => rfl
        | some s => simp [hh] at h
    | receiveNonblock =>
      simp only at h ⊢
      split_ifs at h ⊢
      · rfl
      · cases hh : (k.tds t).sendQueueHead with
        | none => rfl
        | some s => simp [hh] at h
    | reply => exact absurd hc hreply
    | _ => rfl

theorem SyscallEffect.stages {stages : Stages} (h : SyscallEffect k t k') (hq : SendInvariant k q)
    (hstate : (k.tds t).state = .syscallBlk) (hreply : (k.tds t).call ≠ some .reply)
    (hm : ∀ i, (stages i).Matches (k.tds i)) (i : TdPtr) :
    (stagesAfterCall k t stages i).Matches (k'.tds i) := by
  have hsame (hquiet : sendEvents k t = []) (hall : ∀ i, Undisturbed (k.tds i) (k'.tds i)) :
      (stagesAfterCall k t stages i).Matches (k'.tds i) := by
    rw [stagesAfterCall_quiet hquiet hreply]
    exact (hall i).matches (hm i)
  have hothers (htaken : (k.tds t).call = some .receive ∨ (k.tds t).call = some .receiveNonblock →
      False) (i : TdPtr) (hi : i ≠ t) : Undisturbed (k.tds i) (k'.tds i) :=
    (h.other hq hstate hi).undisturbed hreply fun hc ↦ (htaken hc).elim
  cases h with
  | returns hquiet hc => exact hsame hquiet.1 (hc.undisturbed hstate (by decide) (by decide))
  | exits hcall hc =>
    refine hsame ?_ (hc.undisturbed hstate (by decide) (by decide))
    simp [sendEvents, hcall, createParams]
  | stuck hn hc =>
    exact hsame (quiet_of_not_completes hn).1 (hc.undisturbed hstate (by decide) (by decide))
  | waits hcall hh _ hc =>
    exact hsame (by simp [sendEvents, hcall, hh]) (hc.undisturbed hstate (by decide) (by decide))
  | hands r hcall ht hr =>
    have hne : t ≠ r := KernelData.ne_of_state hstate hr (by decide)
    have hafter : stagesAfterCall k t stages =
        update stages t (.taken (decide (MessageFits k t r))) := by
      simp only [stagesAfterCall, hcall, ht, if_pos hr]
    rw [hafter]
    refine matches_update ?_ hm (hothers (by simp [hcall])) i
    rw [storeResult, handOff_eq k hne]
    simp only [Stage.Matches, KernelData.setReturnValue, KernelData.modify_self, update_self]
  | queues r links hcall ht hr hp =>
    have hafter : stagesAfterCall k t stages = update stages t .queued := by
      simp only [stagesAfterCall, hcall, ht, if_neg hr]
    rw [hafter]
    refine matches_update ?_ hm (hothers (by simp [hcall])) i
    simp only [Stage.Matches, storeResult, KernelData.setReturnValue, KernelData.modify_self,
      KernelData.withSendQueues, KernelData.setState]
  | takes s blocking hcall hb hs =>
    have hne : t ≠ s := hq.head_ne hstate hs
    have hafter : stagesAfterCall k t stages =
        update stages s (.taken (decide (MessageFits k s t))) := by
      cases blocking
      · simp only [stagesAfterCall, hcall, Bool.false_eq_true, if_false, if_neg hb, hs]
      · simp only [stagesAfterCall, hcall, if_true, if_neg hb, hs]
    have htds := receive_eq k hne hs hb blocking
    rw [hafter]
    refine matches_update ?_ hm (fun j hj ↦ ?_) i
    · rw [htds]
      simp only [Stage.Matches, update_of_ne hne.symm, update_self]
    · by_cases hjt : j = t
      · subst hjt
        apply undisturbed_running hstate
        rw [htds]
        simp only [update_self]
      · rw [htds]
        simp only [update_of_ne hjt, update_of_ne hj]
        exact .inl ⟨rfl, rfl⟩
  | replies s hcall _ _ => exact absurd hcall hreply
  | awaits x e links hcall he hx hp =>
    refine hsame (by simp [sendEvents, hcall, createParams]) fun j ↦ ?_
    by_cases hj : j = t
    · subst hj
      refine undisturbed_caller hstate ?_ ?_ <;> simp [KernelData.setState]
    · exact hothers (by simp [hcall]) j hj
  | creates c params j s hcall hp hj hs =>
    have hafter : stagesAfterCall k t stages = stages := by
      unfold stagesAfterCall
      rw [hcall]
      cases c <;> first | rfl | cases hp
    have hjt : j ≠ t := findAvailable_ne hj hstate
    rw [hafter]
    refine Undisturbed.matches ?_ (hm i)
    by_cases hi : i = t
    · subst hi
      apply undisturbed_running hstate
      rw [created_caller k params s hjt]
    · refine hothers (fun hc ↦ ?_) i hi
      rcases hc with hc | hc <;> obtain rfl := Option.some.inj (hcall.symm.trans hc) <;> cases hp

theorem replied_sender (hne : s ≠ t) : (replied k t s).tds s = (k.tds s).resume .running
    (returnedValue (decide (ReplyFits k t s)) (k.tds t).systemCall.param3) := by
  have hfits : truncateTo (k.tds s).systemCall.param5 (k.tds t).systemCall.param3 =
      (k.tds t).systemCall.param3 ↔ ReplyFits k t s := truncateTo_eq_iff
  simp only [replied, storeResult, deliverReply_eq, KernelData.setReturnValue, KernelData.setState,
    KernelData.modify_of_ne _ _ hne, update_self, TaskDescriptor.resume, returnedValue,
    decide_eq_true_eq, hfits]
  by_cases h : ReplyFits k t s
  · simp only [if_pos h, hfits.mpr h]
  · simp only [if_neg h]

theorem reply_stages {stages : Stages} (hstate : (k.tds t).state = .syscallBlk)
    (hcall : (k.tds t).call = some .reply) (h : handleSyscall k t = .ok k')
    (hm : ∀ i, (stages i).Matches (k.tds i)) (i : TdPtr) :
    (stagesAfterCall k t stages i).Matches (k'.tds i) := by
  have hreply : storeResult t (sysReply t k) = k' := by
    rw [handleSyscall, if_neg (by simp [hstate]), hcall] at h
    exact Except.ok.inj h
  have hfailed (e : Word) (hk : k' = storeResult t (k.setState t .running, e)) :
      (stages i).Matches (k'.tds i) := by
    rw [hk]
    have hothers := (callerOnly_storeResult k t .running e).undisturbed hstate
      running_ne_blocked.1 running_ne_blocked.2
    exact (hothers i).matches (hm i)
  simp only [stagesAfterCall, hcall]
  simp only [sysReply] at hreply
  cases hl : lookupTask k (k.tds t).systemCall.param1 errReplyTaskidDne errReplyTaskidNotfound with
  | error e =>
    simp only [hl] at hreply
    exact hfailed e hreply.symm
  | ok s =>
    simp only [hl] at hreply ⊢
    by_cases hgood : GoodReplyBuffer k t
    · have hbuffer : ¬ ((k.tds t).systemCall.param2 = 0 ∧ (k.tds t).systemCall.param3 ≠ 0) :=
        fun hb ↦ hb.2 (hgood hb.1)
      rw [if_neg hbuffer] at hreply
      by_cases hs : (k.tds s).state = .rplyBlk
      · simp only [if_pos hs] at hreply
        rw [if_pos ⟨hgood, hs⟩]
        have hne : s ≠ t := KernelData.ne_of_state hs hstate (by decide)
        have hk' : k' = replied k t s := hreply.symm
        refine matches_update ?_ hm (fun j hj ↦ ?_) i
        · have htaken := hm s
          cases hst : stages s with
          | taken fits =>
            rw [hk', replied_sender hne]
            exact ⟨rfl, rfl⟩
          | none => rw [hst] at htaken; exact absurd hs htaken.2
          | queued => rw [hst, Stage.Matches, hs] at htaken; cases htaken
          | answered => rw [hst, Stage.Matches, hs] at htaken; cases htaken.1
        · by_cases hjt : j = t
          · subst hjt
            refine undisturbed_caller hstate ?_ ?_ <;> rw [hk'] <;>
              simp [replied, storeResult, KernelData.setReturnValue, KernelData.setState]
          · rw [hk', (replied_delivered hs hne).other j hjt hj]
            exact .inl ⟨rfl, rfl⟩
      · simp only [if_neg hs] at hreply
        rw [if_neg fun hb ↦ hs hb.2]
        exact hfailed _ hreply.symm
    · have hbuffer : (k.tds t).systemCall.param2 = 0 ∧ (k.tds t).systemCall.param3 ≠ 0 := by
        simpa [GoodReplyBuffer] using hgood
      rw [if_pos hbuffer] at hreply
      rw [if_neg fun hb ↦ hgood hb.1]
      exact hfailed _ hreply.symm

theorem SameTasks.undisturbed (h : SameTasks k k') (i : TdPtr) :
    Undisturbed (k.tds i) (k'.tds i) := by
  have hcore := h.core i
  have hcall : (k'.tds i).systemCall = (k.tds i).systemCall :=
    (congrArg TaskDescriptor.systemCall hcore :)
  exact .inl ⟨core_state hcore, by rw [hcall]⟩

theorem InterruptEffect.undisturbed {w : Word} (h : InterruptEffect k w k')
    (hk : KernelInvariant k) (i : TdPtr) : Undisturbed (k.tds i) (k'.tds i) := by
  cases h with
  | ignored => exact .inl ⟨rfl, rfl⟩
  | lost => exact .inl ⟨rfl, rfl⟩
  | wakes e x j hev hx hj =>
    obtain ⟨j', hj', hw⟩ := hk.events.wakes hk.ids hx
    obtain rfl := Option.some.inj (hj.symm.trans hj')
    rw [woken_tds]
    by_cases hij : i = j
    · subst hij
      rw [KernelData.modify_self]
      right
      rw [hw]
      exact ⟨by decide, by decide, by decide, running_ne_blocked.1, running_ne_blocked.2⟩
    · rw [KernelData.modify_of_ne _ _ hij]
      exact .inl ⟨rfl, rfl⟩

theorem actionStep_stages {stages : Stages} {a : Action} (hk : KernelInvariant k)
    (h : actionStep k a k') (hm : ∀ i, (stages i).Matches (k.tds i)) (i : TdPtr) :
    (stagesAfter k a stages i).Matches (k'.tds i) := by
  cases a with
  | background k₁ =>
    obtain ⟨hsame, rfl⟩ := h
    exact (hsame.undisturbed i).matches (hm i)
  | trap t p =>
    obtain ⟨-, rfl⟩ := h
    refine matches_update ?_ hm (fun j hj ↦ ?_) i
    · rw [KernelData.modify_self]
      rcases p.result_state (k.tds t) with hr | ⟨hr, -⟩ | ⟨hr, -⟩ <;> rw [Stage.Matches, hr] <;>
        exact ⟨by decide, by decide⟩
    · rw [KernelData.modify_of_ne _ _ hj]
      exact .inl ⟨rfl, rfl⟩
  | call t =>
    obtain ⟨hstate, hcall⟩ := h
    by_cases hreply : (k.tds t).call = some .reply
    · exact reply_stages hstate hreply hcall hm i
    · obtain ⟨q, hq⟩ := hk.send
      exact (handleSyscall_effect hstate hcall).stages hq hstate hreply hm i
  | interrupt w => exact ((handleInterrupt_effect h).undisturbed hk i).matches (hm i)

structure TransferInvariant (s : KernelData × Stages) : Prop where
  kernel : KernelInvariant s.1
  stages : ∀ i, (s.2 i).Matches (s.1.tds i)

theorem TransferInvariant.step {s s' : KernelData × Stages} {a : Action}
    (h : TransferInvariant s) (hs : transferStep s a s') : TransferInvariant s' := by
  refine ⟨actionStep_invariant h.kernel hs.1, fun i ↦ ?_⟩
  rw [hs.2]
  exact actionStep_stages h.kernel hs.1 h.stages i

def noSends : Stages := fun _ ↦ .none

theorem booted_stages (b : Boot) (i : TdPtr) : (noSends i).Matches ((booted b).kernel.tds i) := by
  change ((booted b).kernel.tds i).state ≠ _ ∧ ((booted b).kernel.tds i).state ≠ _
  rw [booted_state]
  split_ifs <;> exact ⟨by decide, by decide⟩

theorem transfer_invariant {b : Boot} {as : List Action} {s : KernelData × Stages}
    (h : Run transferStep ((booted b).kernel, noSends) as s) : TransferInvariant s := by
  have hstart : TransferInvariant ((booted b).kernel, noSends) :=
    ⟨booted_invariant b, booted_stages b⟩
  exact h.invariant hstart fun _ _ _ ↦ TransferInvariant.step

/-- A send returns the length of its reply if message and reply were delivered
whole, and `ERR_SEND_INCOMPLETE` if one of them was cut. -/
def SendReports (td : TaskDescriptor) (fits replyFits : Bool) (replyLen : Word) : Prop :=
  td.systemCall.returnValue = if fits ∧ replyFits then replyLen else errSendIncomplete

structure SendsReport (k : KernelData) (stages : Stages) : Prop where
  queued : ∀ s, (k.tds s).state = .rcvdBlk ↔ stages s = .queued
  taken : ∀ s, (k.tds s).state = .rplyBlk ↔ ∃ fits, stages s = .taken fits
  returned : ∀ s fits replyFits replyLen, stages s = .answered fits replyFits replyLen →
    (SendReports (k.tds s) fits replyFits replyLen ↔
      fits = true ∨ replyFits = false ∨ replyLen = errSendIncomplete)
  answered : ∀ t s k', actionStep k (.call t) k' → (k.tds t).call = some .reply →
    ReplyDelivered k k' t s →
    (∃ fits, stages s = .taken fits ∧ stagesAfter k (.call t) stages s =
      .answered fits (decide (ReplyFits k t s)) (k.tds t).systemCall.param3) ∧
    (ReplyFits k t s → ∀ i < (k.tds t).systemCall.param3.toNat,
      k'.memory ((k.tds s).systemCall.param4 + BitVec.ofNat 32 i) =
        k.memory ((k.tds t).systemCall.param2 + BitVec.ofNat 32 i))

theorem sendReports_iff {td : TaskDescriptor} {fits replyFits : Bool} {replyLen : Word}
    (h : (Stage.answered fits replyFits replyLen).Matches td) :
    SendReports td fits replyFits replyLen ↔
      fits = true ∨ replyFits = false ∨ replyLen = errSendIncomplete := by
  rw [SendReports, h.2, returnedValue]
  cases fits <;> cases replyFits <;> simp

/-- The reply that is delivered is at the start of the reply buffer. -/
theorem ReplyDelivered.buffer (h : ReplyDelivered k k' t s) (hfits : ReplyFits k t s) {i : Nat}
    (hi : i < (k.tds t).systemCall.param3.toNat) :
    k'.memory ((k.tds s).systemCall.param4 + BitVec.ofNat 32 i) =
      k.memory ((k.tds t).systemCall.param2 + BitVec.ofNat 32 i) := by
  have hlt := (k.tds t).systemCall.param3.isLt
  have hle : (k.tds t).systemCall.param3.toNat ≤ (k.tds s).systemCall.param5.toNat := hfits
  rw [h.copied, Nat.min_eq_left hle]
  exact store_offset hi (by omega)

theorem Stage.Matches.queued_iff {td : TaskDescriptor} {stage : Stage} (h : stage.Matches td) :
    td.state = .rcvdBlk ↔ stage = .queued := by
  refine ⟨fun hs ↦ ?_, fun hs ↦ by rwa [hs] at h⟩
  cases stage with
  | none => exact absurd hs h.1
  | queued => rfl
  | taken fits => cases hs.symm.trans h
  | answered => cases hs.symm.trans h.1

theorem Stage.Matches.taken_iff {td : TaskDescriptor} {stage : Stage} (h : stage.Matches td) :
    td.state = .rplyBlk ↔ ∃ fits, stage = .taken fits := by
  refine ⟨fun hs ↦ ?_, fun ⟨fits, hs⟩ ↦ by rwa [hs] at h⟩
  cases stage with
  | none => exact absurd hs h.2
  | queued => cases hs.symm.trans h
  | taken fits => exact ⟨fits, rfl⟩
  | answered => cases hs.symm.trans h.1

/-- In every run, a send reports that something was cut exactly when its message
was not, or its reply was cut as well. -/
theorem truncation_reported_iff {b : Boot} {as : List Action} {stages : Stages}
    (h : Run transferStep ((booted b).kernel, noSends) as (k, stages)) : SendsReport k stages := by
  have hinv := transfer_invariant h
  have hmatches : ∀ i, (stages i).Matches (k.tds i) := hinv.stages
  refine ⟨fun s ↦ (hmatches s).queued_iff, fun s ↦ (hmatches s).taken_iff,
    fun s fits replyFits replyLen hs ↦ sendReports_iff (hs ▸ hmatches s), ?_⟩
  rintro t s k' ⟨hstate, hk⟩ hcall hd
  refine ⟨?_, fun hfits i hi ↦ hd.buffer hfits hi⟩
  obtain ⟨fits, hst⟩ := (hmatches s).taken_iff.mp hd.blocked
  obtain ⟨hgood, ha⟩ := ((reply_outcome hstate hcall hk).delivered s).mp hd
  refine ⟨fits, hst, ?_⟩
  simp only [stagesAfter, stagesAfterCall, hcall, repliesTo_iff.mp ha.1]
  rw [if_pos ⟨hgood, ha.2⟩, update_self, hst]
  rfl

def transferNext (s : KernelData × Stages) (a : Action) : Option (KernelData × Stages) :=
  (actionNext s.1 a).map fun k ↦ (k, stagesAfter s.1 a s.2)

theorem transferNext_step (s : KernelData × Stages) (a : Action) (s' : KernelData × Stages)
    (h : transferNext s a = some s') : transferStep s a s' := by
  obtain ⟨k, hk, rfl⟩ := Option.map_eq_some_iff.mp h
  exact ⟨actionNext_step _ _ _ hk, rfl⟩

/-- The first task sends `len` bytes to the second one, which has room for 8,
and gets a reply of 4 bytes. -/
def exchangeActions (len : Word) : List Action :=
  [.trap 0 (callBy 0 5 0 0x300#32 0 0 0 0), .call 0,
    .trap 1 (callBy 1 9 0x20005300#32 0x20005310#32 8 0 0 0), .call 1,
    .trap 0 (callBy 0 8 0x1001#32 0x20005c00#32 len 0x20005c10#32 4 0), .call 0,
    .trap 1 (callBy 1 10 0x1000#32 0x20005320#32 4 0 0 0), .call 1]

theorem truncation_reported_iff_whole : ∃ k stages,
    Run transferStep ((booted sampleBoot).kernel, noSends) (exchangeActions 8) (k, stages) ∧
      stages 0 = .answered true true 4 ∧ SendReports (k.tds 0) true true 4 := by
  have hrun := exists_run transferNext_step ((booted sampleBoot).kernel, noSends)
    (exchangeActions 8) (fun s ↦ decide (s.2 0 = .answered true true 4)) (by decide +kernel)
  obtain ⟨⟨k, stages⟩, hr, hp⟩ := hrun
  have hstage : stages 0 = .answered true true 4 := of_decide_eq_true hp
  exact ⟨k, stages, hr, hstage,
    ((truncation_reported_iff hr).returned 0 true true 4 hstage).mpr (.inl rfl)⟩

/-- A message of 12 bytes is cut, and its send returns the length of the reply. -/
theorem cut_message_unreported : ∃ k stages,
    Run transferStep ((booted sampleBoot).kernel, noSends) (exchangeActions 12) (k, stages) ∧
      stages 0 = .answered false true 4 ∧ (k.tds 0).systemCall.returnValue = 4 ∧
      ¬ SendReports (k.tds 0) false true 4 := by
  have hrun := exists_run transferNext_step ((booted sampleBoot).kernel, noSends)
    (exchangeActions 12) (fun s ↦ decide (s.2 0 = .answered false true 4 ∧
      (s.1.tds 0).systemCall.returnValue = 4)) (by decide +kernel)
  obtain ⟨⟨k, stages⟩, hr, hp⟩ := hrun
  obtain ⟨hstage, hvalue⟩ := of_decide_eq_true hp
  refine ⟨k, stages, hr, hstage, hvalue, fun h ↦ ?_⟩
  rw [SendReports, hvalue] at h
  exact absurd h (by decide)

end PrjOS
