import PrjOS.KernelActions
import PrjOS.Properties.FailingCalls

namespace PrjOS

open ByteMemory Function Transition

variable {k k' : KernelData} {t s : TdPtr}

def RepliesTo (k : KernelData) (t s : TdPtr) : Prop :=
  generationId (k.tds t).systemCall.param1 ≠ 0 ∧
    ((k.tds t).systemCall.param1 &&& tasksIdIndexMask).toNat = s.val ∧
    (k.tds s).taskId = (k.tds t).systemCall.param1

def Awaited (k : KernelData) (t s : TdPtr) : Prop :=
  RepliesTo k t s ∧ (k.tds s).state = .rplyBlk

/-- A reply that has bytes comes from somewhere. -/
def GoodReplyBuffer (k : KernelData) (t : TdPtr) : Prop :=
  (k.tds t).systemCall.param2 = 0 → (k.tds t).systemCall.param3 = 0

def ReplyFits (k : KernelData) (t s : TdPtr) : Prop :=
  (k.tds t).systemCall.param3 ≤ (k.tds s).systemCall.param5

instance (k : KernelData) (t s : TdPtr) : Decidable (ReplyFits k t s) :=
  inferInstanceAs (Decidable (_ ≤ _))

/-- What fits of the reply of `t`, and no other byte, was copied to the start
of the reply buffer of `s`, and `s` was released. -/
structure ReplyDelivered (k k' : KernelData) (t s : TdPtr) : Prop where
  blocked : (k.tds s).state = .rplyBlk
  released : (k'.tds s).state = .running
  copied : k'.memory = memcpy k.memory (k.tds s).systemCall.param4 (k.tds t).systemCall.param2
    (min (k.tds t).systemCall.param3.toNat (k.tds s).systemCall.param5.toNat)
  other : ∀ i, i ≠ t → i ≠ s → k'.tds i = k.tds i

/-- The result of a reply tells what happened, the code for a part of a reply
included. -/
structure ReplyTells (k k' : KernelData) (t : TdPtr) : Prop where
  delivered : ∀ s, ReplyDelivered k k' t s ↔ Awaited k t s
  whole : (k'.tds t).systemCall.returnValue = 0 ↔ ∃ s, ReplyDelivered k k' t s ∧ ReplyFits k t s
  part : (k'.tds t).systemCall.returnValue = errReplyBufferTooSmall ↔
    ∃ s, ReplyDelivered k k' t s ∧ ¬ ReplyFits k t s
  failed : (k'.tds t).systemCall.returnValue ≠ 0 ∧
      (k'.tds t).systemCall.returnValue ≠ errReplyBufferTooSmall ↔ OnlyCallerReturns k k' t

/-- What the result of a reply tells, but for the code after a part of a reply. -/
structure ReplyOutcome (k k' : KernelData) (t : TdPtr) : Prop where
  delivered : ∀ s, ReplyDelivered k k' t s ↔ GoodReplyBuffer k t ∧ Awaited k t s
  whole : (k'.tds t).systemCall.returnValue = 0 ↔ ∃ s, ReplyDelivered k k' t s ∧ ReplyFits k t s
  failed : OnlyCallerReturns k k' t ↔ ¬ ∃ s, ReplyDelivered k k' t s
  code : OnlyCallerReturns k k' t → (k'.tds t).systemCall.returnValue ≠ 0 ∧
    (k'.tds t).systemCall.returnValue ≠ errReplyBufferTooSmall

theorem repliesTo_iff : RepliesTo k t s ↔ lookupTask k (k.tds t).systemCall.param1
    errReplyTaskidDne errReplyTaskidNotfound = .ok s := by
  rw [lookupTask_eq_ok, findTd_eq_some, and_comm (a := (k.tds s).taskId = _)]
  rfl

theorem RepliesTo.unique {s' : TdPtr} (h : RepliesTo k t s) (h' : RepliesTo k t s') : s = s' :=
  Fin.ext (h.2.1.symm.trans h'.2.1)

theorem OnlyCallerReturns.other (h : OnlyCallerReturns k k' t) {i : TdPtr} (hi : i ≠ t) :
    k'.tds i = k.tds i := by
  obtain ⟨st, v, rfl⟩ := h
  exact KernelData.modify_of_ne _ _ hi

/-- A reply that changes its caller alone has released nobody. -/
theorem OnlyCallerReturns.not_delivered (h : OnlyCallerReturns k k' t)
    (hstate : (k.tds t).state = .syscallBlk) : ¬ ReplyDelivered k k' t s := by
  intro hd
  have hne : s ≠ t := KernelData.ne_of_state hd.blocked hstate (by decide)
  have hreleased := hd.released
  rw [h.other hne, hd.blocked] at hreleased
  cases hreleased

theorem replyOutcome_failed {e : Word} (hstate : (k.tds t).state = .syscallBlk)
    (hnot : ∀ s, ¬ (GoodReplyBuffer k t ∧ Awaited k t s))
    (he : e ≠ 0 ∧ e ≠ errReplyBufferTooSmall) :
    ReplyOutcome k (storeResult t (k.setState t .running, e)) t := by
  have honly := onlyCallerReturns_storeResult (k := k) (t := t) .running e
  have hnone : ¬ ∃ s, ReplyDelivered k (storeResult t (k.setState t .running, e)) t s := by
    rintro ⟨s, hd⟩
    exact honly.not_delivered hstate hd
  have hresult : ((storeResult t (k.setState t .running, e)).tds t).systemCall.returnValue = e := by
    simp [storeResult, KernelData.setReturnValue]
  refine ⟨fun s ↦ ⟨fun h ↦ absurd ⟨s, h⟩ hnone, fun h ↦ absurd h (hnot s)⟩, ?_,
    ⟨fun _ ↦ hnone, fun _ ↦ honly⟩, ?_⟩
  · rw [hresult]
    refine ⟨fun h ↦ absurd h he.1, ?_⟩
    rintro ⟨s, hd, -⟩
    exact absurd ⟨s, hd⟩ hnone
  · rw [hresult]
    exact fun _ ↦ he

def replied (k : KernelData) (t s : TdPtr) : KernelData :=
  storeResult t ((deliverReply k t s).1.setState t .running, (deliverReply k t s).2)

theorem replied_result :
    ((replied k t s).tds t).systemCall.returnValue =
      if ReplyFits k t s then 0 else errReplyError := by
  simp only [replied, storeResult, deliverReply_eq, KernelData.setReturnValue,
    KernelData.modify_self, truncateTo_eq_iff]
  rfl

theorem replied_delivered (hs : (k.tds s).state = .rplyBlk) (hne : s ≠ t) :
    ReplyDelivered k (replied k t s) t s := by
  refine ⟨hs, ?_, ?_, fun i hi his ↦ ?_⟩
  · simp [replied, storeResult, deliverReply_eq, KernelData.setReturnValue, KernelData.setState,
      hne]
  · simp only [replied, storeResult, deliverReply_eq, KernelData.setReturnValue,
      KernelData.setState, KernelData.modify_memory, truncateTo_toNat]
  · simp [replied, storeResult, deliverReply_eq, KernelData.setReturnValue, KernelData.setState,
      hi, his]

theorem ReplyDelivered.unique {s' : TdPtr} (hd : ReplyDelivered k k' t s)
    (hd' : ReplyDelivered k k' t s') (hstate : (k.tds t).state = .syscallBlk) : s' = s := by
  by_contra hne
  have hst : s' ≠ t := KernelData.ne_of_state hd'.blocked hstate (by decide)
  have hreleased := hd'.released
  rw [hd.other s' hst hne, hd'.blocked] at hreleased
  cases hreleased

theorem replyOutcome_delivered (hstate : (k.tds t).state = .syscallBlk)
    (hbuffer : GoodReplyBuffer k t) (ha : Awaited k t s) : ReplyOutcome k (replied k t s) t := by
  have hne : s ≠ t := KernelData.ne_of_state ha.2 hstate (by decide)
  have hd := replied_delivered ha.2 hne
  refine ⟨fun s' ↦ ⟨fun hd' ↦ ?_, fun ⟨_, ha'⟩ ↦ ?_⟩, ?_, ⟨fun h ↦ ?_, fun h ↦ ?_⟩, fun h ↦ ?_⟩
  · obtain rfl := hd.unique hd' hstate
    exact ⟨hbuffer, ha⟩
  · obtain rfl := ha.1.unique ha'.1
    exact hd
  · rw [replied_result]
    constructor
    · intro hzero
      refine ⟨s, hd, ?_⟩
      by_contra hfits
      rw [if_neg hfits] at hzero
      exact absurd hzero (by decide)
    · rintro ⟨s', hd', hfits⟩
      obtain rfl := hd.unique hd' hstate
      exact if_pos hfits
  · exact fun ⟨_, hd'⟩ ↦ h.not_delivered hstate hd'
  · exact absurd ⟨s, hd⟩ h
  · exact absurd hd (h.not_delivered hstate)

/-- In every state of the kernel and for every reply, the result tells whether
the reply was delivered and whether it was the whole reply. -/
theorem reply_outcome (hstate : (k.tds t).state = .syscallBlk)
    (hcall : (k.tds t).call = some .reply) (h : handleSyscall k t = .ok k') :
    ReplyOutcome k k' t := by
  rw [handleSyscall, if_neg (by simp [hstate]), hcall] at h
  obtain rfl := Except.ok.inj h
  simp only [sysReply]
  cases hl : lookupTask k (k.tds t).systemCall.param1 errReplyTaskidDne errReplyTaskidNotfound with
  | error e =>
    have hcode : e ≠ 0 ∧ e ≠ errReplyBufferTooSmall := by
      rcases lookupTask_error hl with rfl | rfl <;> decide
    refine replyOutcome_failed hstate ?_ hcode
    rintro s ⟨-, hs, -⟩
    rw [repliesTo_iff, hl] at hs
    cases hs
  | ok s =>
    have hself : RepliesTo k t s := repliesTo_iff.mpr hl
    simp only
    split_ifs with hbuffer hs
    · refine replyOutcome_failed hstate ?_ (by decide)
      exact fun s' hgood ↦ hbuffer.2 (hgood.1 hbuffer.1)
    · exact replyOutcome_delivered hstate (fun hz ↦ by_contra fun hlen ↦ hbuffer ⟨hz, hlen⟩)
        ⟨hself, hs⟩
    · have hcode : errReplyNotReplyBlocked ≠ 0 ∧
          errReplyNotReplyBlocked ≠ errReplyBufferTooSmall := by decide
      refine replyOutcome_failed hstate ?_ hcode
      rintro s' ⟨-, hs', hblocked⟩
      exact hs (hself.unique hs' ▸ hblocked)

/-- The first task waits for a reply of at most 4 bytes from the second one,
which replies with `len` bytes at `buffer`. -/
def replyActions (buffer len : Word) : List Action :=
  [.trap 0 (callBy 0 5 0 0x300#32 0 0 0 0), .call 0,
    .trap 1 (callBy 1 9 0x20005300#32 0x20005310#32 8 0 0 0), .call 1,
    .trap 0 (callBy 0 8 0x1001#32 0x20005c00#32 4 0x20005c10#32 4 0), .call 0,
    .trap 1 (callBy 1 10 0x1000#32 buffer len 0 0 0)]

theorem reply_outcome_part : ∃ k k', Served sampleBoot k ∧ handleSyscall k 1 = .ok k' ∧
    ReplyOutcome k k' 1 ∧ ∃ s, ReplyDelivered k k' 1 s := by
  have hrun := exists_run actionNext_step (booted sampleBoot).kernel (replyActions 0x20005320#32 8)
    (fun k ↦ decide ((k.tds 1).state = .syscallBlk ∧ (k.tds 1).call = some .reply ∧
      (k.tds 1).systemCall.param1 = 0x1000#32 ∧ (k.tds 1).systemCall.param2 = 0x20005320#32 ∧
      (k.tds 0).taskId = 0x1000#32 ∧ (k.tds 0).state = .rplyBlk)) (by decide +kernel)
  obtain ⟨k, hr, hp⟩ := hrun
  obtain ⟨hstate, hcall, htid, hbuffer, hid, hblocked⟩ := of_decide_eq_true hp
  have hcalled : handleSyscall k 1 = .ok (storeResult 1 (sysReply 1 k)) := by
    rw [handleSyscall, if_neg (by simp [hstate]), hcall]
  have houtcome := reply_outcome hstate hcall hcalled
  refine ⟨k, _, ⟨_, hr⟩, hcalled, houtcome, 0,
    (houtcome.delivered 0).mpr ⟨?_, ⟨?_, ?_, ?_⟩, hblocked⟩⟩
  · intro hnull
    rw [hbuffer] at hnull
    exact absurd hnull (by decide)
  · rw [htid]
    decide
  · rw [htid]
    decide
  · rw [hid, htid]

/-- A reply from a null buffer is not delivered although its target waits. -/
theorem nullReply_undelivered : ∃ k k', Served sampleBoot k ∧ (k.tds 1).state = .syscallBlk ∧
    (k.tds 1).call = some .reply ∧ handleSyscall k 1 = .ok k' ∧ ¬ ReplyTells k k' 1 := by
  have hrun := exists_run actionNext_step (booted sampleBoot).kernel (replyActions 0 4)
    (fun k ↦ decide ((k.tds 1).state = .syscallBlk ∧ (k.tds 1).call = some .reply ∧
      (k.tds 1).systemCall.param1 = 0x1000#32 ∧ (k.tds 1).systemCall.param2 = 0 ∧
      (k.tds 1).systemCall.param3 = 4 ∧
      (k.tds 0).taskId = 0x1000#32 ∧ (k.tds 0).state = .rplyBlk)) (by decide +kernel)
  obtain ⟨k, hr, hp⟩ := hrun
  obtain ⟨hstate, hcall, htid, hbuffer, hlen, hid, hblocked⟩ := of_decide_eq_true hp
  have hl : lookupTask k (k.tds 1).systemCall.param1 errReplyTaskidDne errReplyTaskidNotfound =
      .ok 0 := by
    rw [lookupTask_eq_ok, findTd_eq_some, htid, hid]
    decide
  have hcalled : handleSyscall k 1 = .ok (storeResult 1 (k.setState 1 .running, errReplyError)) := by
    rw [handleSyscall, if_neg (by simp [hstate]), hcall]
    simp only [sysReply, hl]
    rw [if_pos ⟨hbuffer, by rw [hlen]; decide⟩]
  refine ⟨k, _, ⟨_, hr⟩, hstate, hcall, hcalled, fun htells ↦ ?_⟩
  have hd := (htells.delivered 0).mpr ⟨repliesTo_iff.mpr hl, hblocked⟩
  exact (onlyCallerReturns_storeResult .running errReplyError).not_delivered hstate hd

end PrjOS
