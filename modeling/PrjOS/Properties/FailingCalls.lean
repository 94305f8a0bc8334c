import PrjOS.Properties.Completion

namespace PrjOS

open ByteMemory Function LinkedQueue Transition

variable {k k' : KernelData} {q : TdPtr → List TdPtr} {t : TdPtr} {e : Word}

/-- The call of `t` came back with the code `e`: its caller does not wait for
anything. -/
structure CameBack (k' : KernelData) (t : TdPtr) (e : Word) : Prop where
  result : (k'.tds t).systemCall.returnValue = e
  unblocked : (k'.tds t).state = .running ∨ (k'.tds t).state = .syscallBlk

def refusals : SyscallNumber → List Word
  | .send => [errSendTaskidDne, errSendTaskidNotfound, errSendBadBuffer]
  | .receive | .receiveNonblock => [errReceiveBadBuffer, errReceiveNosend]
  | .create | .createMicrotask => [errCreateNoSpace]
  | .awaitEvent => [errAwaiteventBufferTooSmall, errAwaiteventBadEventId]
  | _ => []

/-- Nothing but the state and the result of the caller has changed. -/
def OnlyCallerReturns (k k' : KernelData) (t : TdPtr) : Prop :=
  ∃ s v, k' = k.modify t fun td ↦ td.resume s v

theorem onlyCallerReturns_storeResult (s : TaskState) (v : Word) :
    OnlyCallerReturns k (storeResult t (k.setState t s, v)) t := by
  refine ⟨s, v, ?_⟩
  rw [storeResult, KernelData.setReturnValue, KernelData.setState, KernelData.modify_modify]
  rfl

theorem onlyCallerReturns_setReturnValue (v : Word) :
    OnlyCallerReturns k (k.setReturnValue t v) t := by
  refine ⟨(k.tds t).state, v, ?_⟩
  simp only [KernelData.setReturnValue, KernelData.modify, TaskDescriptor.resume]

theorem onlyCallerReturns_setTaskReady (v : Word) :
    OnlyCallerReturns k ((k.setReturnValue t v).setTaskReady t) t := by
  refine ⟨.running, v, ?_⟩
  rw [KernelData.setTaskReady, KernelData.setState, KernelData.setReturnValue,
    KernelData.modify_modify]
  rfl

theorem sysSend_blocks {r : TdPtr} {p : KernelData × Word}
    (hstate : (k.tds t).state = .syscallBlk) (ht : sendTarget k t = .ok r)
    (h : sysSend t k = .ok p) :
    ((storeResult t p).tds t).state = .rplyBlk ∨ ((storeResult t p).tds t).state = .rcvdBlk := by
  simp only [sysSend, ht] at h
  split_ifs at h with hr
  · have hne : t ≠ r := KernelData.ne_of_state hstate hr (by decide)
    cases h
    left
    rw [storeResult, handOff_eq k hne]
    simp only [KernelData.setReturnValue, KernelData.modify_self, update_self]
  · right
    rw [push_eq] at h
    split at h
    · simp [bind, Except.bind] at h
    · simp only [bind, Except.bind, Except.ok.injEq] at h
      subst h
      simp only [storeResult, KernelData.setReturnValue, KernelData.modify_self,
        KernelData.withSendQueues, KernelData.setState]

/-- The id of the target has generation 0, or names no descriptor. -/
def ImpossibleTarget (k : KernelData) (t : TdPtr) : Prop :=
  generationId (k.tds t).systemCall.param1 = 0 ∨
    16 ≤ ((k.tds t).systemCall.param1 &&& tasksIdIndexMask).toNat

def MissingTarget (k : KernelData) (t : TdPtr) : Prop :=
  ∀ i : TdPtr, ((k.tds t).systemCall.param1 &&& tasksIdIndexMask).toNat = i.val →
    (k.tds i).taskId ≠ (k.tds t).systemCall.param1

def BadSendBuffer (k : KernelData) (t : TdPtr) : Prop :=
  (k.tds t).systemCall.param2 = 0 ∨ (k.tds t).systemCall.param4 = 0 ∨
    (k.tds t).systemCall.param5 = 0

theorem findTd_eq_none_iff : findTd (k.tds t).systemCall.param1 k.tds = none ↔
    MissingTarget k t := by
  rw [Option.eq_none_iff_forall_ne_some]
  refine forall_congr' fun i ↦ ?_
  rw [Ne, findTd_eq_some, not_and']

theorem lookupTask_impossible (dne notfound : Word) (h : ImpossibleTarget k t) :
    lookupTask k (k.tds t).systemCall.param1 dne notfound = .error dne := if_pos h

theorem lookupTask_possible (dne notfound : Word) (h : ¬ ImpossibleTarget k t) :
    lookupTask k (k.tds t).systemCall.param1 dne notfound =
      match findTd (k.tds t).systemCall.param1 k.tds with
      | none => .error notfound
      | some task => .ok task := if_neg h

/-- The checks of a send, in their order. -/
theorem sendTarget_cases (k : KernelData) (t : TdPtr) :
    (ImpossibleTarget k t ∧ sendTarget k t = .error errSendTaskidDne) ∨
      (¬ ImpossibleTarget k t ∧ MissingTarget k t ∧
        sendTarget k t = .error errSendTaskidNotfound) ∨
      (¬ ImpossibleTarget k t ∧ ¬ MissingTarget k t ∧ BadSendBuffer k t ∧
        sendTarget k t = .error errSendBadBuffer) ∨
      (¬ ImpossibleTarget k t ∧ ¬ MissingTarget k t ∧ ¬ BadSendBuffer k t ∧
        ∃ r, sendTarget k t = .ok r) := by
  by_cases himpossible : ImpossibleTarget k t
  · left
    simp only [sendTarget, lookupTask_impossible _ _ himpossible]
    exact ⟨himpossible, trivial⟩
  · right
    simp only [sendTarget, lookupTask_possible _ _ himpossible]
    cases hf : findTd (k.tds t).systemCall.param1 k.tds with
    | none => exact .inl ⟨himpossible, findTd_eq_none_iff.mp hf, rfl⟩
    | some r =>
      have hpresent : ¬ MissingTarget k t := by
        rw [← findTd_eq_none_iff, hf]
        exact Option.some_ne_none r
      right
      by_cases hbuffer : BadSendBuffer k t
      · exact .inl ⟨himpossible, hpresent, hbuffer, if_pos hbuffer⟩
      · exact .inr ⟨himpossible, hpresent, hbuffer, r, if_neg hbuffer⟩

def NullReceiveBuffer (k : KernelData) (t : TdPtr) : Prop := (k.tds t).systemCall.param2 = 0

def NoDescriptor (k : KernelData) (taskType : TaskType) : Prop :=
  ∀ i, typeRange taskType i = true → isTdAvailable (k.tds i) = false

def BadEventId (k : KernelData) (t : TdPtr) : Prop :=
  eventsNumTypes ≤ (k.tds t).systemCall.param1.toNat

def PoolFull (k : KernelData) : Prop :=
  ∀ x, (k.eventData.eventList x).waitingTid ≠ tasksIdInvalid

/-- Why a call of `t` is refused, and with which code: what is wrong with the
state in which it is made. -/
def Refuses (k : KernelData) (t : TdPtr) : SyscallNumber → Word → Prop
  | .send, e =>
    (ImpossibleTarget k t ∧ e = errSendTaskidDne) ∨
      (¬ ImpossibleTarget k t ∧ MissingTarget k t ∧ e = errSendTaskidNotfound) ∨
      (¬ ImpossibleTarget k t ∧ ¬ MissingTarget k t ∧ BadSendBuffer k t ∧ e = errSendBadBuffer)
  | .receive, e => NullReceiveBuffer k t ∧ e = errReceiveBadBuffer
  | .receiveNonblock, e =>
    (NullReceiveBuffer k t ∧ e = errReceiveBadBuffer) ∨
      (¬ NullReceiveBuffer k t ∧ (k.tds t).sendQueueHead = none ∧ e = errReceiveNosend)
  | .create, e => NoDescriptor k .regular ∧ e = errCreateNoSpace
  | .createMicrotask, e => NoDescriptor k .micro ∧ e = errCreateNoSpace
  | .awaitEvent, e =>
    (BadEventId k t ∧ e = errAwaiteventBadEventId) ∨
      (¬ BadEventId k t ∧ PoolFull k ∧ e = errAwaiteventBufferTooSmall)
  | _, _ => False

/-- A receive takes a message of `n` bytes, and returns `n`. -/
def TakesMessage (k : KernelData) (t : TdPtr) (c : SyscallNumber) (n : Word) : Prop :=
  (c = .receive ∨ c = .receiveNonblock) ∧ ¬ NullReceiveBuffer k t ∧
    ∃ s, (k.tds t).sendQueueHead = some s ∧ (k.tds s).systemCall.param3 = n ∧
      n ≤ (k.tds t).systemCall.param3

/-- A call has one reason to be refused, and then changes its caller alone, or
it has none, and then a code of a refusal can only be the length of a message. -/
inductive CallOutcome (k k' : KernelData) (t : TdPtr) (c : SyscallNumber) : Prop
  | refused (e : Word) : (∀ e', Refuses k t c e' ↔ e' = e) → (∀ n, ¬ TakesMessage k t c n) →
      CameBack k' t e → OnlyCallerReturns k k' t → CallOutcome k k' t c
  | accepted : (∀ e, ¬ Refuses k t c e) →
      (∀ e ∈ refusals c, CameBack k' t e ↔ TakesMessage k t c e) → CallOutcome k k' t c

theorem CallOutcome.cameBack_iff {c : SyscallNumber} (h : CallOutcome k k' t c)
    (he : e ∈ refusals c) : CameBack k' t e ↔ Refuses k t c e ∨ TakesMessage k t c e := by
  cases h with
  | refused f hcause htakes hreturned honly =>
    rw [hcause, or_iff_left (htakes e)]
    refine ⟨fun h ↦ h.result.symm.trans hreturned.result, fun h ↦ h ▸ hreturned⟩
  | accepted hcause hreturned => rw [hreturned e he, or_iff_right (hcause e)]

theorem CallOutcome.only {c : SyscallNumber} (h : CallOutcome k k' t c)
    (he : Refuses k t c e) : OnlyCallerReturns k k' t := by
  cases h with
  | refused f hcause htakes hreturned honly => exact honly
  | accepted hcause hreturned => exact absurd he (hcause e)

theorem cameBack_storeResult (v : Word) :
    CameBack (storeResult t (k.setState t .running, v)) t v := by
  refine ⟨?_, .inl ?_⟩
  · simp [storeResult, KernelData.setReturnValue]
  · simp [storeResult, KernelData.setReturnValue, KernelData.setState]

theorem cameBack_setReturnValue (hstate : (k.tds t).state = .syscallBlk) (v : Word) :
    CameBack (k.setReturnValue t v) t v := by
  refine ⟨?_, .inr ?_⟩
  · simp [KernelData.setReturnValue]
  · simpa [KernelData.setReturnValue] using hstate

theorem cameBack_setTaskReady (v : Word) :
    CameBack ((k.setReturnValue t v).setTaskReady t) t v := by
  refine ⟨?_, .inl ?_⟩
  · simp [KernelData.setTaskReady, KernelData.setState, KernelData.setReturnValue]
  · simp [KernelData.setTaskReady, KernelData.setState]

theorem takesMessage_call {c : SyscallNumber} {n : Word} (h₁ : c ≠ .receive)
    (h₂ : c ≠ .receiveNonblock) : ¬ TakesMessage k t c n :=
  fun h ↦ h.1.elim h₁ h₂

/-- An accepted call that blocks its caller has not come back. -/
theorem callOutcome_blocked {c : SyscallNumber} {s : TaskState}
    (hcause : ∀ e, ¬ Refuses k t c e) (htakes : ∀ n, ¬ TakesMessage k t c n)
    (hs : (k'.tds t).state = s) (h₁ : s ≠ .running) (h₂ : s ≠ .syscallBlk) :
    CallOutcome k k' t c := by
  refine .accepted hcause fun e _ ↦ ⟨fun h ↦ ?_, fun h ↦ absurd h (htakes e)⟩
  rcases h.unblocked with hu | hu
  · exact absurd (hs.symm.trans hu) h₁
  · exact absurd (hs.symm.trans hu) h₂

theorem send_outcome (hstate : (k.tds t).state = .syscallBlk) (hc : (k.tds t).call = some .send)
    (h : handleSyscall k t = .ok k') : CallOutcome k k' t .send := by
  have htakes (n : Word) : ¬ TakesMessage k t .send n := takesMessage_call (by simp) (by simp)
  unfold handleSyscall at h
  rw [if_neg (by simp [hstate]), hc] at h
  have herror {e : Word} (ht : sendTarget k t = .error e)
      (hcause : ∀ e', Refuses k t .send e' ↔ e' = e) : CallOutcome k k' t .send := by
    simp only [sysSend, ht, bind, Except.bind, Except.ok.injEq] at h
    subst h
    exact .refused e hcause htakes (cameBack_storeResult e) (onlyCallerReturns_storeResult _ _)
  rcases sendTarget_cases k t with ⟨hi, ht⟩ | ⟨hi, hm, ht⟩ | ⟨hi, hm, hb, ht⟩ | ⟨hi, hm, hb, r, ht⟩
  · exact herror ht fun e' ↦ by simp [Refuses, hi]
  · exact herror ht fun e' ↦ by simp [Refuses, hi, hm]
  · exact herror ht fun e' ↦ by simp [Refuses, hi, hm, hb]
  · have hcause (e : Word) : ¬ Refuses k t .send e := by simp [Refuses, hi, hm, hb]
    cases hs : sysSend t k with
    | error f => simp [hs, bind, Except.bind] at h
    | ok p =>
      simp only [hs, bind, Except.bind, Except.ok.injEq] at h
      subst h
      rcases sysSend_blocks hstate ht hs with hb | hb
      · exact callOutcome_blocked hcause htakes hb (by simp) (by simp)
      · exact callOutcome_blocked hcause htakes hb (by simp) (by simp)

theorem receive_outcome (blocking : Bool) (hq : SendInvariant k q)
    (hstate : (k.tds t).state = .syscallBlk) :
    CallOutcome k (storeResult t (sysReceive t k blocking)) t
      (if blocking then .receive else .receiveNonblock) := by
  by_cases hb : (k.tds t).systemCall.param2 = 0
  · have hnull : NullReceiveBuffer k t := hb
    rw [sysReceive, if_pos hb]
    refine .refused errReceiveBadBuffer (fun e' ↦ ?_) (fun n h ↦ h.2.1 hnull)
      (cameBack_setReturnValue hstate _) (onlyCallerReturns_setReturnValue _)
    cases blocking <;> simp [Refuses, hnull]
  · have hbuffer : ¬ NullReceiveBuffer k t := hb
    cases hh : (k.tds t).sendQueueHead with
    | none =>
      have htakes (n : Word) (c : SyscallNumber) : ¬ TakesMessage k t c n := by
        rintro ⟨-, -, s, hs, -⟩
        rw [hh] at hs
        cases hs
      rw [sysReceive, if_neg hb, pop, hh]
      cases blocking
      · refine .refused errReceiveNosend (fun e' ↦ ?_) (fun n ↦ htakes n _)
          (cameBack_storeResult _) (onlyCallerReturns_storeResult _ _)
        simp [Refuses, hbuffer, hh]
      · refine callOutcome_blocked (s := .sendBlk) ?_ (fun n ↦ htakes n _) ?_ (by simp) (by simp)
        · simp [Refuses, hbuffer]
        · simp [storeResult, KernelData.setReturnValue, KernelData.setState]
    | some s =>
      have hne : t ≠ s := hq.head_ne hstate hh
      have hcause (e : Word) :
          ¬ Refuses k t (if blocking then .receive else .receiveNonblock) e := by
        cases blocking <;> simp [Refuses, hbuffer, hh]
      refine .accepted hcause fun e he ↦ ?_
      have hsmall : e ≠ errReceiveBufferTooSmall := by
        rintro rfl
        cases blocking <;> exact absurd he (by decide)
      rw [receive_eq k hne hh hb]
      have htakes : TakesMessage k t (if blocking then .receive else .receiveNonblock) e ↔
          receiveResult k t s = e := by
        unfold receiveResult
        constructor
        · rintro ⟨-, -, s', hs', rfl, hfits⟩
          obtain rfl := Option.some.inj (hh.symm.trans hs')
          exact if_neg (BitVec.not_lt.mpr hfits)
        · intro hr
          split_ifs at hr with hfits
          · exact absurd hr.symm hsmall
          · refine ⟨by cases blocking <;> simp, hbuffer, s, hh, hr, ?_⟩
            rw [← hr]
            exact BitVec.not_lt.mp hfits
      rw [htakes]
      constructor
      · intro h
        have hresult := h.result
        simp only [update_self] at hresult
        rw [← hresult, receiveResult_eq]
      · rintro rfl
        refine ⟨?_, .inl ?_⟩
        · simp only [update_self]
          exact receiveResult_eq k t s
        · simp only [update_self]

/-- No id is the code for a missing descriptor: ids end in the index of a slot. -/
theorem newId_ne_noSpace (hids : IdsIndexed k.tds) (j : TdPtr) :
    (k.tds j).taskId + tasksIdGenerationIncrement ≠ errCreateNoSpace := by
  intro he
  have hj := hids j
  have hid : (k.tds j).taskId = errCreateNoSpace - tasksIdGenerationIncrement := by
    rw [← he, BitVec.add_sub_cancel]
  rw [hid] at hj
  have hval : ((errCreateNoSpace - tasksIdGenerationIncrement) &&& tasksIdIndexMask).toNat =
      4094 := by decide
  omega

theorem create_outcome {c : SyscallNumber} {params : TaskCreateParameters}
    (hids : IdsIndexed k.tds) (hstate : (k.tds t).state = .syscallBlk)
    (hrefuses : ∀ e, Refuses k t c e ↔ NoDescriptor k params.taskType ∧ e = errCreateNoSpace)
    (htakes : ∀ n, ¬ TakesMessage k t c n) (hcodes : refusals c = [errCreateNoSpace])
    (h : createAndAdd k t (.ok params) = .ok k') : CallOutcome k k' t c := by
  simp only [createAndAdd, createTask] at h
  cases hf : findAvailable k.tds params.taskType with
  | none =>
    have hnone : NoDescriptor k params.taskType := findAvailable_none.mp hf
    simp only [hf, Option.map_none, Except.ok.injEq] at h
    subst h
    refine .refused errCreateNoSpace (fun e' ↦ ?_) htakes (cameBack_setReturnValue hstate _)
      (onlyCallerReturns_setReturnValue _)
    rw [hrefuses, and_iff_right hnone]
  | some j =>
    have hsome : ¬ NoDescriptor k params.taskType := by
      rw [NoDescriptor, ← findAvailable_none, hf]
      exact Option.some_ne_none j
    have hjt : j ≠ t := findAvailable_ne hf hstate
    cases hs : schedulerAdd k.schedulerStructure
        (update k.tds j (newTask (k.tds j) k.memory params).1) (some j) with
    | error f => simp [hf, hs, bind, Except.bind] at h
    | ok s =>
      simp only [hf, Option.map_some, hs, bind, Except.bind, update_self, Except.ok.injEq] at h
      obtain rfl : created k t j params s = k' := h
      refine .accepted (fun e he ↦ hsome ((hrefuses e).mp he).1) fun e he ↦ ?_
      rw [hcodes, List.mem_singleton] at he
      refine ⟨fun hr ↦ ?_, fun ht ↦ absurd ht (htakes e)⟩
      have hresult := hr.result
      rw [created_caller k params s hjt, he] at hresult
      exact absurd hresult (newId_ne_noSpace hids j)

theorem awaitEvent_outcome (h : sysAwaitEvent t k = .ok k') :
    CallOutcome k k' t .awaitEvent := by
  have htakes (n : Word) : ¬ TakesMessage k t .awaitEvent n :=
    takesMessage_call (by simp) (by simp)
  simp only [sysAwaitEvent] at h
  split at h
  · rename_i hlt
    have hid : ¬ BadEventId k t := not_le.mpr hlt
    cases hv : vacantQuery k.eventData with
    | none =>
      have hfull : PoolFull k := vacantQuery_none.mp hv
      simp only [hv, Except.ok.injEq] at h
      subst h
      refine .refused errAwaiteventBufferTooSmall (fun e' ↦ ?_) htakes (cameBack_setTaskReady _)
        (onlyCallerReturns_setTaskReady _)
      simp [Refuses, hid, hfull]
    | some x =>
      -- an accepted call waits for its event
      have hroom : ¬ PoolFull k := by
        rw [PoolFull, ← vacantQuery_none, hv]
        exact Option.some_ne_none x
      simp only [hv, pushEvent_eq] at h
      split at h
      · simp [bind, Except.bind] at h
      · simp only [bind, Except.bind, Except.ok.injEq] at h
        subst h
        refine callOutcome_blocked (s := .evtBlk) ?_ htakes ?_ (by simp) (by simp)
        · simp [Refuses, hid, hroom]
        · simp [KernelData.setState]
  · rename_i hlt
    have hid : BadEventId k t := not_lt.mp hlt
    cases h
    refine .refused errAwaiteventBadEventId (fun e' ↦ ?_) htakes (cameBack_setTaskReady _)
      (onlyCallerReturns_setTaskReady _)
    simp [Refuses, hid]

theorem callOutcome {c : SyscallNumber} (hk : KernelInvariant k)
    (hstate : (k.tds t).state = .syscallBlk) (hc : (k.tds t).call = some c)
    (hcodes : refusals c ≠ []) (h : handleSyscall k t = .ok k') : CallOutcome k k' t c := by
  obtain ⟨q, hq⟩ := hk.send
  cases c with
  | send => exact send_outcome hstate hc h
  | receive =>
    rw [handleSyscall, if_neg (by simp [hstate]), hc] at h
    cases h
    exact receive_outcome true hq hstate
  | receiveNonblock =>
    rw [handleSyscall, if_neg (by simp [hstate]), hc] at h
    cases h
    exact receive_outcome false hq hstate
  | create =>
    obtain ⟨params, hp, htype⟩ := createParams_create k t
    rw [(handleSyscall_creates hstate hc hp).1] at h
    exact create_outcome hk.ids hstate (fun e ↦ by rw [htype]; rfl)
      (fun n ↦ takesMessage_call (by simp) (by simp)) rfl h
  | createMicrotask =>
    obtain ⟨params, hp, htype⟩ := createParams_createMicrotask k t
    rw [(handleSyscall_creates hstate hc hp).1] at h
    exact create_outcome hk.ids hstate (fun e ↦ by rw [htype]; rfl)
      (fun n ↦ takesMessage_call (by simp) (by simp)) rfl h
  | awaitEvent =>
    rw [handleSyscall, if_neg (by simp [hstate]), hc] at h
    exact awaitEvent_outcome h
  | _ => exact absurd rfl hcodes

structure SendChecks (k k' : KernelData) (t : TdPtr) : Prop where
  dne : CameBack k' t errSendTaskidDne ↔ ImpossibleTarget k t
  notfound : CameBack k' t errSendTaskidNotfound ↔ ¬ ImpossibleTarget k t ∧ MissingTarget k t
  badBuffer : CameBack k' t errSendBadBuffer ↔
    ¬ ImpossibleTarget k t ∧ ¬ MissingTarget k t ∧ BadSendBuffer k t

theorem CallOutcome.sendChecks (h : CallOutcome k k' t .send) : SendChecks k k' t := by
  have hreturned {e : Word} (he : e ∈ refusals .send) : CameBack k' t e ↔ Refuses k t .send e := by
    rw [h.cameBack_iff he, or_iff_left (takesMessage_call (by simp) (by simp))]
  have hcodes : errSendTaskidDne ≠ errSendTaskidNotfound ∧ errSendTaskidDne ≠ errSendBadBuffer ∧
      errSendTaskidNotfound ≠ errSendBadBuffer := by decide
  obtain ⟨h₁, h₂, h₃⟩ := hcodes
  refine ⟨?_, ?_, ?_⟩
  · rw [hreturned (by decide)]
    simp [Refuses, h₁, h₂]
  · rw [hreturned (by decide)]
    simp [Refuses, h₁.symm, h₃]
  · rw [hreturned (by decide)]
    simp [Refuses, h₂.symm, h₃.symm]

/-- A call is refused for the reasons that its codes name, and then leaves
everything but its caller's state and result as it was. -/
theorem failing_calls_atomic {b : Boot} {s : RtosMain} (h : Reachable b s) {c : Pass}
    (hready : isTaskReady ((loopHead c.iteration s).tds t) = true)
    (hstate : ((c.entry s t).tds t).state = .syscallBlk)
    (hk : handleSyscall (c.entry s t) t = .ok k') :
    (∀ call e, ((c.entry s t).tds t).call = some call → e ∈ refusals call →
      (CameBack k' t e ↔ Refuses (c.entry s t) t call e ∨ TakesMessage (c.entry s t) t call e) ∧
      (Refuses (c.entry s t) t call e → OnlyCallerReturns (c.entry s t) k' t)) ∧
    (((c.entry s t).tds t).call = some .send → SendChecks (c.entry s t) k' t) := by
  have hinv := h.entry hready
  refine ⟨fun call e hcall hmem ↦ ?_, fun hcall ↦ ?_⟩
  · have houtcome := callOutcome hinv hstate hcall (List.ne_nil_of_mem hmem) hk
    exact ⟨houtcome.cameBack_iff hmem, houtcome.only⟩
  · exact (callOutcome hinv hstate hcall (by simp [refusals]) hk).sendChecks

def impossibleSendPass : Pass :=
  (callBy 0 8 0x1#32 0x20005c00#32 4 0x20005c10#32 4 0).pass 0

theorem failing_calls_atomic_impossible :
    ∃ k', CameBack k' 0 errSendTaskidDne ∧
      OnlyCallerReturns (impossibleSendPass.entry (booted sampleBoot) 0) k' 0 ∧
      SendChecks (impossibleSendPass.entry (booted sampleBoot) 0) k' 0 := by
  have hcall : ((impossibleSendPass.entry (booted sampleBoot) 0).tds 0).call = some .send := by
    decide
  have hcause : Refuses (impossibleSendPass.entry (booted sampleBoot) 0) 0 .send
      errSendTaskidDne := .inl ⟨.inl (by decide), rfl⟩
  obtain ⟨hatomic, hchecks⟩ := failing_calls_atomic (.boot sampleBoot) (c := impossibleSendPass)
    (t := 0) (by decide) (by decide) rfl
  obtain ⟨hreturned, honly⟩ := hatomic .send errSendTaskidDne hcall (by decide)
  exact ⟨_, hreturned.mpr (.inl hcause), honly hcause, hchecks hcall⟩

end PrjOS
