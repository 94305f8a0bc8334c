import PrjOS.History

namespace PrjOS

open ByteMemory Function LinkedQueue

/-- A call that only concerns its caller: the other descriptors, the event
pool and the ready queues are as before. -/
structure CallerOnly (k k' : KernelData) (t : TdPtr) (s : TaskState) : Prop where
  other : ∀ i, i ≠ t → k'.tds i = k.tds i
  caller : ∃ p v, (p = (k.tds t).priority ∨ p.toNat < tasksMaxPriority) ∧
    k'.tds t = { k.tds t with
      state := s, priority := p, systemCall := { (k.tds t).systemCall with returnValue := v } }
  eventData : k'.eventData = k.eventData
  scheduler : k'.schedulerStructure = k.schedulerStructure

theorem CallerOnly.state {k k' : KernelData} {t : TdPtr} {s : TaskState}
    (h : CallerOnly k k' t s) : (k'.tds t).state = s := by
  obtain ⟨_, _, _, he⟩ := h.caller
  rw [he]

def created (k : KernelData) (t j : TdPtr) (params : TaskCreateParameters)
    (s : SchedulerStructure) : KernelData :=
  let td := (newTask (k.tds j) k.memory params).1
  let k := { k with
    tds := update k.tds j td
    memory := (newTask (k.tds j) k.memory params).2
    schedulerStructure := s }
  (k.setReturnValue t td.taskId).setTaskReady t

section Created

variable (k : KernelData) {t j : TdPtr} (params : TaskCreateParameters) (s : SchedulerStructure)

theorem created_new (h : j ≠ t) :
    (created k t j params s).tds j = (newTask (k.tds j) k.memory params).1 := by
  simp [created, KernelData.setTaskReady, KernelData.setReturnValue, KernelData.setState, h]

theorem created_caller (h : j ≠ t) :
    (created k t j params s).tds t = { k.tds t with
      state := .running
      systemCall := { (k.tds t).systemCall with
        returnValue := (k.tds j).taskId + tasksIdGenerationIncrement } } := by
  simp [created, KernelData.setTaskReady, KernelData.setReturnValue, KernelData.setState,
    newTask_taskId, h.symm]

theorem created_other {i : TdPtr} (hj : i ≠ j) (ht : i ≠ t) :
    (created k t j params s).tds i = k.tds i := by
  simp [created, KernelData.setTaskReady, KernelData.setReturnValue, KernelData.setState, hj, ht]

end Created

/-- The calls that `handleSyscall` brings to an end, up to the index that the
scheduler takes from the new task's priority. -/
def Completes (k : KernelData) (t : TdPtr) : Prop :=
  match (k.tds t).call with
  | none => False
  | some .receive | some .receiveNonblock => (k.tds t).systemCall.param2 ≠ 0
  | some .create => findAvailable k.tds .regular ≠ none
  | some .createMicrotask => findAvailable k.tds .micro ≠ none
  | _ => True

inductive SyscallEffect (k : KernelData) (t : TdPtr) : KernelData → Prop
  | returns {k' : KernelData} : Quiet k t → CallerOnly k k' t .running → SyscallEffect k t k'
  | exits {k' : KernelData} : (k.tds t).call = some .threadexit → CallerOnly k k' t .exited →
      SyscallEffect k t k'
  | stuck {k' : KernelData} : ¬ Completes k t → CallerOnly k k' t .syscallBlk →
      SyscallEffect k t k'
  | waits {k' : KernelData} : (k.tds t).call = some .receive → (k.tds t).sendQueueHead = none →
      (k.tds t).systemCall.param2 ≠ 0 → CallerOnly k k' t .sendBlk → SyscallEffect k t k'
  | hands (r : TdPtr) : (k.tds t).call = some .send → sendTarget k t = .ok r →
      (k.tds r).state = .sendBlk → SyscallEffect k t (storeResult t (handOff k t r))
  | queues (r : TdPtr) (q : Queues TdPtr TdPtr) : (k.tds t).call = some .send →
      sendTarget k t = .ok r → (k.tds r).state ≠ .sendBlk → k.sendQueues.push r t = some q →
      SyscallEffect k t (storeResult t ((k.setState t .rcvdBlk).withSendQueues q, 0))
  | takes (s : TdPtr) (blocking : Bool) :
      (k.tds t).call = some (if blocking then .receive else .receiveNonblock) →
      (k.tds t).systemCall.param2 ≠ 0 → (k.tds t).sendQueueHead = some s →
      SyscallEffect k t (storeResult t (sysReceive t k blocking))
  | replies (s : TdPtr) : (k.tds t).call = some .reply →
      lookupTask k (k.tds t).systemCall.param1 errReplyTaskidDne errReplyTaskidNotfound = .ok s →
      (k.tds s).state = .rplyBlk →
      SyscallEffect k t (storeResult t
        ((deliverReply k t s).1.setState t .running, (deliverReply k t s).2))
  | awaits (x : QueryPtr) (e : EventId) (q : Queues EventId QueryPtr) :
      (k.tds t).call = some .awaitEvent → (k.tds t).systemCall.param1.toNat = e.val →
      vacantQuery k.eventData = some x →
      (k.eventData.setQuery x ⟨(k.tds t).taskId, none, .valid, e⟩).queues.push e x = some q →
      SyscallEffect k t ({ k with
        eventData := (k.eventData.setQuery x
          ⟨(k.tds t).taskId, none, .valid, e⟩).withQueues q }.setState t .evtBlk)
  | creates (c : SyscallNumber) (params : TaskCreateParameters) (j : TdPtr)
      (s : SchedulerStructure) :
      (k.tds t).call = some c → createParams k t c = some params →
      findAvailable k.tds params.taskType = some j →
      schedulerAdd k.schedulerStructure
        (update k.tds j (newTask (k.tds j) k.memory params).1) (some j) = .ok s →
      SyscallEffect k t (created k t j params s)

theorem callerOnly_of_tds {k k' : KernelData} {t : TdPtr} {s : TaskState} (p v : Word)
    (hp : p = (k.tds t).priority ∨ p.toNat < tasksMaxPriority)
    (htds : k'.tds = update k.tds t { k.tds t with
      state := s, priority := p, systemCall := { (k.tds t).systemCall with returnValue := v } })
    (he : k'.eventData = k.eventData) (hs : k'.schedulerStructure = k.schedulerStructure) :
    CallerOnly k k' t s where
  other i hi := by rw [htds, update_of_ne hi]
  caller := ⟨p, v, hp, by rw [htds, update_self]⟩
  eventData := he
  scheduler := hs

/-- A call that only sets its caller's state and returns `v` at once. -/
theorem callerOnly_storeResult (k : KernelData) (t : TdPtr) (s : TaskState) (v : Word) :
    CallerOnly k (storeResult t (k.setState t s, v)) t s :=
  callerOnly_of_tds (k.tds t).priority v (.inl rfl) (by
    simp [storeResult, KernelData.setState, KernelData.setReturnValue, KernelData.modify]) rfl rfl

theorem CallerOnly.congr {k k' k'' : KernelData} {t : TdPtr} {s : TaskState}
    (h : CallerOnly k k' t s) (htds : k''.tds = k'.tds) (he : k''.eventData = k'.eventData)
    (hs : k''.schedulerStructure = k'.schedulerStructure) : CallerOnly k k'' t s where
  other i hi := by rw [htds]; exact h.other i hi
  caller := by rw [htds]; exact h.caller
  eventData := he.trans h.eventData
  scheduler := hs.trans h.scheduler

theorem callerOnly_changePriority (k : KernelData) (t : TdPtr) :
    CallerOnly k (storeResult t (sysChangePriority t k)) t .running := by
  by_cases h : (k.tds t).systemCall.param1.toNat < tasksMaxPriority
  · refine callerOnly_of_tds (k.tds t).systemCall.param1 (k.tds t).systemCall.param1 (.inr h)
      ?_ ?_ ?_ <;>
      simp [storeResult, sysChangePriority, h, KernelData.setTaskReady, KernelData.setState,
        KernelData.setReturnValue, KernelData.modify]
  · refine callerOnly_of_tds (k.tds t).priority (k.tds t).priority (.inl rfl) ?_ ?_ ?_ <;>
      simp [storeResult, sysChangePriority, h, KernelData.setTaskReady, KernelData.setState,
        KernelData.setReturnValue, KernelData.modify]

theorem callerOnly_metaInfo (k : KernelData) (t : TdPtr) :
    CallerOnly k (storeResult t (sysMetaInfo t k)) t .running := by
  have h (v : Word) := callerOnly_storeResult k t .running v
  unfold sysMetaInfo
  simp only
  split_ifs <;> exact (h _).congr rfl rfl rfl

theorem checkPriority_eq (priority : Word) (params : TaskCreateParameters) :
    checkPriority priority params = .ok { params with priority := priority } := by
  simp [checkPriority]

theorem createParams_create (k : KernelData) (t : TdPtr) :
    ∃ params, createParams k t .create = some params ∧ params.taskType = .regular :=
  ⟨_, by rw [createParams, sysCreate, checkPriority_eq]; rfl, rfl⟩

theorem createParams_createMicrotask (k : KernelData) (t : TdPtr) :
    ∃ params, createParams k t .createMicrotask = some params ∧ params.taskType = .micro :=
  ⟨_, by rw [createParams, sysCreateMicroTask, checkPriority_eq]; rfl, rfl⟩

/-- A call that is left undone does not touch the queues. -/
theorem quiet_of_not_completes {k : KernelData} {t : TdPtr} (h : ¬ Completes k t) :
    Quiet k t := by
  unfold Completes at h
  cases hc : (k.tds t).call with
  | none => exact ⟨by simp [sendEvents, hc], awaitEvents_of_call (by simp [hc])⟩
  | some c =>
    rw [hc] at h
    cases c
    case receive | receiveNonblock =>
      exact ⟨by simp_all [sendEvents], awaitEvents_of_call (by simp [hc])⟩
    case create =>
      obtain ⟨params, hp, htype⟩ := createParams_create k t
      refine ⟨?_, awaitEvents_of_call (by simp [hc])⟩
      simp_all [sendEvents]
    case createMicrotask =>
      obtain ⟨params, hp, htype⟩ := createParams_createMicrotask k t
      refine ⟨?_, awaitEvents_of_call (by simp [hc])⟩
      simp_all [sendEvents]
    all_goals exact absurd trivial h

theorem createAndAdd_effect {k k' : KernelData} {t : TdPtr} {c : SyscallNumber}
    {params : TaskCreateParameters} (hstate : (k.tds t).state = .syscallBlk)
    (hc : (k.tds t).call = some c) (hp : createParams k t c = some params)
    (hfull : findAvailable k.tds params.taskType = none → ¬ Completes k t)
    (h : createAndAdd k t (.ok params) = .ok k') : SyscallEffect k t k' := by
  unfold createAndAdd createTask at h
  cases hf : findAvailable k.tds params.taskType with
  | none =>
    simp only [hf, Option.map_none, Except.ok.injEq] at h
    subst h
    have hk := callerOnly_storeResult k t .syscallBlk errCreateNoSpace
    refine .stuck (hfull hf) (hk.congr ?_ rfl rfl)
    simp [storeResult, KernelData.setState, KernelData.setReturnValue, KernelData.modify, ← hstate]
  | some j =>
    simp only [hf, Option.map_some] at h
    cases hs : schedulerAdd k.schedulerStructure
        (update k.tds j (newTask (k.tds j) k.memory params).1) (some j) with
    | error e => simp [hs, bind, Except.bind] at h
    | ok s =>
      simp only [hs, bind, Except.bind, update_self, Except.ok.injEq] at h
      subst h
      exact .creates c params j s hc hp hf hs

theorem send_effect {k k' : KernelData} {t : TdPtr} (hc : (k.tds t).call = some .send)
    {r : KernelData × Word} (h : sysSend t k = .ok r) (hk : k' = storeResult t r) :
    SyscallEffect k t k' := by
  subst hk
  unfold sysSend at h
  cases htarget : sendTarget k t with
  | error e =>
    simp only [htarget, Except.ok.injEq] at h
    subst h
    refine .returns ⟨?_, awaitEvents_of_call (by simp [hc])⟩ (callerOnly_storeResult k t .running e)
    simp [sendEvents, hc, htarget]
  | ok receiver =>
    simp only [htarget] at h
    split at h
    · rename_i hstate
      cases h
      exact .hands receiver hc htarget hstate
    · rename_i hstate
      rw [push_eq] at h
      have hq : (k.setState t .rcvdBlk).sendQueues = k.sendQueues := by
        simp only [KernelData.sendQueues, KernelData.setState, Queues.mk.injEq]
        refine ⟨?_, ?_, ?_⟩ <;> funext i <;> by_cases hi : i = t <;> simp_all
      cases hp : (k.setState t .rcvdBlk).sendQueues.push receiver t with
      | none => simp [hp, bind, Except.bind] at h
      | some q =>
        simp only [hp, bind, Except.bind, Except.ok.injEq] at h
        subst h
        exact .queues receiver q hc htarget hstate (hq ▸ hp)

theorem receive_effect {k : KernelData} {t : TdPtr} (blocking : Bool)
    (hstate : (k.tds t).state = .syscallBlk)
    (hc : (k.tds t).call = some (if blocking then .receive else .receiveNonblock)) :
    SyscallEffect k t (storeResult t (sysReceive t k blocking)) := by
  by_cases hb : (k.tds t).systemCall.param2 = 0
  · have hk := callerOnly_storeResult k t .syscallBlk errReceiveBadBuffer
    refine .stuck ?_ (hk.congr ?_ ?_ ?_)
    · cases blocking <;> simp_all [Completes]
    all_goals simp [storeResult, sysReceive, hb, KernelData.setState, KernelData.setReturnValue,
      KernelData.modify, ← hstate]
  · cases hh : (k.tds t).sendQueueHead with
    | some s => exact .takes s blocking hc hb hh
    | none =>
      have he : sysReceive t k blocking = if blocking then (k.setState t .sendBlk, 0)
          else (k.setState t .running, errReceiveNosend) := by
        rw [sysReceive, if_neg hb, pop, hh]
        rfl
      cases blocking
      · rw [he]
        refine .returns ⟨?_, awaitEvents_of_call (by simp [hc])⟩
          (callerOnly_storeResult k t .running errReceiveNosend)
        simp [sendEvents, hc, hh]
      · rw [he]
        exact .waits hc hh hb (callerOnly_storeResult k t .sendBlk 0)

theorem reply_effect {k : KernelData} {t : TdPtr} (hc : (k.tds t).call = some .reply) :
    SyscallEffect k t (storeResult t (sysReply t k)) := by
  have hquiet : Quiet k t :=
    quiet_of_call hc (by simp) (by simp) (by simp) (by simp) rfl
  unfold sysReply
  simp only
  split
  · exact .returns hquiet (callerOnly_storeResult k t .running _)
  · rename_i s hs
    split_ifs with hb hstate
    · exact .returns hquiet (callerOnly_storeResult k t .running _)
    · exact .replies s hc hs hstate
    · exact .returns hquiet (callerOnly_storeResult k t .running _)

theorem awaitEvent_effect {k k' : KernelData} {t : TdPtr}
    (hc : (k.tds t).call = some .awaitEvent) (h : sysAwaitEvent t k = .ok k') :
    SyscallEffect k t k' := by
  have hrefused (v : Word) :
      CallerOnly k ((k.setReturnValue t v).setTaskReady t) t .running := by
    refine (callerOnly_storeResult k t .running v).congr ?_ rfl rfl
    simp [storeResult, KernelData.setTaskReady, KernelData.setState, KernelData.setReturnValue,
      KernelData.modify]
  have hsend : sendEvents k t = [] := by
    simp [sendEvents, hc, createParams]
  unfold sysAwaitEvent at h
  simp only at h
  split at h
  · rename_i he
    cases hv : vacantQuery k.eventData with
    | none =>
      simp only [hv, Except.ok.injEq] at h
      subst h
      exact .returns ⟨hsend, by simp [awaitEvents, hc, hv]⟩ (hrefused _)
    | some x =>
      simp only [hv, pushEvent_eq, EventData.setQuery_self] at h
      cases hq : (k.eventData.setQuery x
          ⟨(k.tds t).taskId, none, .valid, ⟨_, he⟩⟩).queues.push ⟨_, he⟩ x with
      | none => simp [hq, bind, Except.bind] at h
      | some q =>
        simp only [hq, bind, Except.bind, Except.ok.injEq] at h
        subst h
        exact .awaits x ⟨_, he⟩ q hc rfl hv hq
  · rename_i he
    cases h
    exact .returns ⟨hsend, by simp [awaitEvents, hc, he]⟩ (hrefused _)

/-- The inversion of `handleSyscall`: every case of its switch is one of the
effects above. -/
theorem handleSyscall_effect {k k' : KernelData} {t : TdPtr}
    (hstate : (k.tds t).state = .syscallBlk) (h : handleSyscall k t = .ok k') :
    SyscallEffect k t k' := by
  have hready (v : Word) := callerOnly_storeResult k t .running v
  unfold handleSyscall at h
  rw [if_neg (by simp [hstate])] at h
  cases hc : (k.tds t).call with
  | none =>
    simp only [hc, Except.ok.injEq] at h
    subst h
    refine .stuck (by simp [Completes, hc]) (callerOnly_of_tds (k.tds t).priority
      (k.tds t).systemCall.returnValue (.inl rfl) ?_ rfl rfl)
    simp [← hstate]
  | some c =>
    cases c <;> simp only [hc, Except.ok.injEq] at h
    case send =>
      cases hs : sysSend t k with
      | error e => simp [hs, bind, Except.bind] at h
      | ok r =>
        simp only [hs, bind, Except.bind, Except.ok.injEq] at h
        exact send_effect hc hs h.symm
    case receive => subst h; exact receive_effect true hstate hc
    case receiveNonblock => subst h; exact receive_effect false hstate hc
    case reply => subst h; exact reply_effect hc
    case awaitEvent => exact awaitEvent_effect hc h
    case create =>
      rw [sysCreate, checkPriority_eq] at h
      refine createAndAdd_effect hstate hc (by rw [createParams, sysCreate, checkPriority_eq]; rfl)
        (fun hf ↦ ?_) h
      simpa [Completes, hc] using hf
    case createMicrotask =>
      rw [sysCreateMicroTask, checkPriority_eq] at h
      refine createAndAdd_effect hstate hc
        (by rw [createParams, sysCreateMicroTask, checkPriority_eq]; rfl) (fun hf ↦ ?_) h
      simpa [Completes, hc] using hf
    case threadexit => subst h; exact .exits hc (callerOnly_storeResult k t .exited 0)
    all_goals
      subst h
      have hquiet : Quiet k t := quiet_of_call hc (by simp) (by simp) (by simp) (by simp) rfl
    case changepriority => exact .returns hquiet (callerOnly_changePriority k t)
    case metaInfo => exact .returns hquiet (callerOnly_metaInfo k t)
    all_goals exact .returns hquiet ((hready _).congr rfl rfl rfl)

def eventOf (isrNumber : Word) : Option EventId :=
  if isrNumber = intUsb0 then some eventidUsb0
  else if isrNumber = intUart0 then some eventidUart0
  else none

def woken (k : KernelData) (e : EventId) (x : QueryPtr) (i : TdPtr) : KernelData :=
  let events := k.eventData.withQueues (k.eventData.queues.pop e x)
  let vacant := ⟨tasksIdInvalid, none, .invalid, (k.eventData.eventList x).eventId⟩
  let k := { k with eventData := events.setQuery x vacant }
  (k.setReturnValue i errAwaiteventVolatileInBuffer).setTaskReady i

def TaskDescriptor.awake (td : TaskDescriptor) : TaskDescriptor :=
  { td with
    state := .running
    systemCall := { td.systemCall with returnValue := errAwaiteventVolatileInBuffer } }

theorem woken_tds (k : KernelData) (e : EventId) (x : QueryPtr) (i : TdPtr) :
    (woken k e x i).tds = (k.modify i TaskDescriptor.awake).tds := by
  simp [woken, KernelData.setTaskReady, KernelData.setState, KernelData.setReturnValue,
    KernelData.modify, TaskDescriptor.awake]

inductive InterruptEffect (k : KernelData) (isrNumber : Word) : KernelData → Prop
  | ignored : eventOf isrNumber = none → InterruptEffect k isrNumber k
  | lost (e : EventId) : eventOf isrNumber = some e → k.eventData.eventQueueHead e = none →
      InterruptEffect k isrNumber k
  | wakes (e : EventId) (x : QueryPtr) (i : TdPtr) : eventOf isrNumber = some e →
      k.eventData.eventQueueHead e = some x →
      findTd (k.eventData.eventList x).waitingTid k.tds = some i →
      InterruptEffect k isrNumber (woken k e x i)

theorem sysEventHappened_eq (k : KernelData) (e : EventId) :
    sysEventHappened k e 0 =
      match k.eventData.eventQueueHead e with
      | none => .ok k
      | some x =>
        match findTd (k.eventData.eventList x).waitingTid k.tds with
        | none => .error .nullPointer
        | some i => .ok (woken k e x i) := by
  unfold sysEventHappened
  rw [popEvent_eq]
  cases k.eventData.eventQueueHead e with
  | none => rfl
  | some x => rfl

theorem handleInterrupt_eq (k : KernelData) (isrNumber : Word) :
    handleInterrupt k isrNumber =
      match eventOf isrNumber with
      | none => .ok k
      | some e => sysEventHappened k e 0 := by
  unfold handleInterrupt eventOf
  split_ifs <;> rfl

theorem handleInterrupt_effect {k k' : KernelData} {isrNumber : Word}
    (h : handleInterrupt k isrNumber = .ok k') : InterruptEffect k isrNumber k' := by
  rw [handleInterrupt_eq] at h
  cases he : eventOf isrNumber with
  | none =>
    simp only [he, Except.ok.injEq] at h
    exact h ▸ .ignored he
  | some e =>
    simp only [he, sysEventHappened_eq] at h
    cases hh : k.eventData.eventQueueHead e with
    | none =>
      simp only [hh, Except.ok.injEq] at h
      exact h ▸ .lost e he hh
    | some x =>
      cases hf : findTd (k.eventData.eventList x).waitingTid k.tds with
      | none => simp [hh, hf] at h
      | some i =>
        simp only [hh, hf, Except.ok.injEq] at h
        exact h ▸ .wakes e x i he hh hf

end PrjOS
