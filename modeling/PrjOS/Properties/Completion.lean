import PrjOS.Invariants.Kernel

namespace PrjOS

open ByteMemory Function LinkedQueue Transition

variable {k k' : KernelData} {q : TdPtr → List TdPtr} {t : TdPtr}

/-- The states in which a call of `t` may leave its caller. -/
def FinishedIn (k : KernelData) (t : TdPtr) : TaskState → Prop
  | .running => True
  | .exited => (k.tds t).call = some .threadexit
  | .rcvdBlk | .rplyBlk => (k.tds t).call = some .send ∧ ∃ r, sendTarget k t = .ok r
  | .sendBlk => (k.tds t).call = some .receive ∧ (k.tds t).sendQueueHead = none
  | .evtBlk => (k.tds t).call = some .awaitEvent ∧
      (k.tds t).systemCall.param1.toNat < eventsNumTypes ∧ vacantQuery k.eventData ≠ none
  | _ => False

def newTaskId (k : KernelData) (taskType : TaskType) : Word :=
  match findAvailable k.tds taskType with
  | none => errCreateNoSpace
  | some j => (k.tds j).taskId + tasksIdGenerationIncrement

/-- What a receive of `t` returns for the message of `s`. -/
def receiveResult (k : KernelData) (t s : TdPtr) : Word :=
  if (k.tds t).systemCall.param3 < (k.tds s).systemCall.param3 then errReceiveBufferTooSmall
  else (k.tds s).systemCall.param3

def replyResult (k : KernelData) (t : TdPtr) : Word :=
  let call := (k.tds t).systemCall
  match lookupTask k call.param1 errReplyTaskidDne errReplyTaskidNotfound with
  | .error e => e
  | .ok s =>
    if call.param2 = 0 ∧ call.param3 ≠ 0 then errReplyError
    else if (k.tds s).state ≠ .rplyBlk then errReplyNotReplyBlocked
    else if (k.tds s).systemCall.param5 < call.param3 then errReplyError
    else 0

/-- The kernel answers a request for one task's data with -1. -/
def metaInfoResult (k : KernelData) (t : TdPtr) : Word :=
  let requestType := readWord k.memory (k.tds t).systemCall.param1
  if requestType = metaRequestTasksInfo then 0
  else if requestType = metaRequestTotalRam then metaRamEnd - metaRamStart
  else if requestType = metaRequestUsedRam then
    BitVec.ofNat 32 (getNumRegularTasks k.tds) * kernelTaskDefaultStackSize +
      BitVec.ofNat 32 (getNumMicroTasks k.tds) * kernelMicrotaskDefaultStackSize
  else -1

/-- The result or the error code of a call that does not block its caller. -/
def callResult (k : KernelData) (t : TdPtr) : SyscallNumber → Option Word
  | .getTid => some (k.tds t).taskId
  | .getParentTid => some (k.tds t).parentId
  | .yield | .registerns | .monotonicMicros => some 0
  | .threadexit => none
  | .create => some (newTaskId k .regular)
  | .createMicrotask => some (newTaskId k .micro)
  | .changepriority =>
    if (k.tds t).systemCall.param1.toNat < tasksMaxPriority then some (k.tds t).systemCall.param1
    else some (k.tds t).priority
  | .send =>
    match sendTarget k t with
    | .error e => some e
    | .ok _ => none
  | .receive => (k.tds t).sendQueueHead.map (receiveResult k t)
  | .receiveNonblock => some ((k.tds t).sendQueueHead.elim errReceiveNosend (receiveResult k t))
  | .reply => some (replyResult k t)
  | .whoisns => some k.nameserverTid
  | .awaitEvent =>
    if eventsNumTypes ≤ (k.tds t).systemCall.param1.toNat then some errAwaiteventBadEventId
    else if vacantQuery k.eventData = none then some errAwaiteventBufferTooSmall
    else none
  | .metaInfo => some (metaInfoResult k t)

/-- What a call of `t` leaves in `returnValue`, by the state of its caller
afterwards. A blocked caller gets its result from the task or the interrupt
that releases it. -/
def ResultIn (k : KernelData) (t : TdPtr) (v : Word) : TaskState → Prop
  | .running => ∃ c, (k.tds t).call = some c ∧ callResult k t c = some v
  | .exited | .rcvdBlk | .sendBlk => v = 0
  | .rplyBlk => v = (k.tds t).systemCall.param3
  | .evtBlk => v = (k.tds t).systemCall.returnValue
  | _ => False

def Completed (k : KernelData) (t : TdPtr) : Prop :=
  ∃ k', handleSyscall k t = .ok k' ∧ FinishedIn k t (k'.tds t).state ∧
    ResultIn k t (k'.tds t).systemCall.returnValue (k'.tds t).state

/-- A new task's priority, narrowed to `uint8_t`, names a ready queue. -/
def CreatesInRange (k : KernelData) (t : TdPtr) : Prop :=
  ∀ c params, (k.tds t).call = some c → createParams k t c = some params →
    params.priority.toNat % 256 < tasksMaxPriority

theorem createAndAdd_none {params : TaskCreateParameters} (hstate : (k.tds t).state = .syscallBlk)
    (h : findAvailable k.tds params.taskType = none) : ∃ k',
      createAndAdd k t (.ok params) = .ok k' ∧ (k'.tds t).state = .syscallBlk := by
  simp only [createAndAdd, createTask, h, Option.map_none]
  exact ⟨_, rfl, by simp [KernelData.setReturnValue, hstate]⟩

theorem createAndAdd_created {params : TaskCreateParameters} {j : TdPtr}
    (hn : k.schedulerStructure.Nodes) (hf : findAvailable k.tds params.taskType = some j)
    (hi : params.priority.toNat % 256 < tasksMaxPriority) :
    ∃ s, createAndAdd k t (.ok params) = .ok (created k t j params s) := by
  simp only [createAndAdd, createTask, hf, Option.map_some]
  rw [schedulerAdd_eq hn, dif_pos (by rw [update_self]; exact hi)]
  simp only [bind, Except.bind, update_self]
  exact ⟨_, rfl⟩

theorem createAndAdd_ok {params : TaskCreateParameters} (hn : k.schedulerStructure.Nodes)
    (hi : params.priority.toNat % 256 < tasksMaxPriority) :
    ∃ k', createAndAdd k t (.ok params) = .ok k' := by
  cases hf : findAvailable k.tds params.taskType with
  | none =>
    simp only [createAndAdd, createTask, hf, Option.map_none]
    exact ⟨_, rfl⟩
  | some j =>
    obtain ⟨s, hs⟩ := createAndAdd_created hn hf hi
    exact ⟨_, hs⟩

theorem createAndAdd_error {params : TaskCreateParameters} (hn : k.schedulerStructure.Nodes)
    {j : TdPtr} (hf : findAvailable k.tds params.taskType = some j)
    (hi : ¬ params.priority.toNat % 256 < tasksMaxPriority) :
    createAndAdd k t (.ok params) = .error (.queueIndex (params.priority.toNat % 256)) := by
  simp only [createAndAdd, createTask, hf, Option.map_some]
  rw [schedulerAdd_eq hn, dif_neg (by rw [update_self]; exact hi), update_self]
  rfl

theorem handleSyscall_creates {c : SyscallNumber} {params : TaskCreateParameters}
    (hstate : (k.tds t).state = .syscallBlk) (hc : (k.tds t).call = some c)
    (hp : createParams k t c = some params) :
    handleSyscall k t = createAndAdd k t (.ok params) ∧
      (Completes k t ↔ findAvailable k.tds params.taskType ≠ none) := by
  unfold handleSyscall Completes
  rw [if_neg (by simp [hstate]), hc]
  cases c
  case create =>
    rw [createParams, sysCreate, checkPriority_eq] at hp
    obtain rfl := Option.some.inj hp
    simp only [sysCreate, checkPriority_eq, and_self]
  case createMicrotask =>
    rw [createParams, sysCreateMicroTask, checkPriority_eq] at hp
    obtain rfl := Option.some.inj hp
    simp only [sysCreateMicroTask, checkPriority_eq, and_self]
  all_goals simp [createParams] at hp

theorem handleSyscall_stuck (hstate : (k.tds t).state = .syscallBlk) (h : ¬ Completes k t) :
    ∃ k', handleSyscall k t = .ok k' ∧ (k'.tds t).state = .syscallBlk := by
  unfold handleSyscall
  rw [if_neg (by simp [hstate])]
  unfold Completes at h
  cases hc : (k.tds t).call with
  | none => exact ⟨k, rfl, hstate⟩
  | some c =>
    rw [hc] at h
    cases c
    case receive | receiveNonblock =>
      refine ⟨_, rfl, ?_⟩
      simp_all [storeResult, sysReceive, KernelData.setReturnValue]
    case create =>
      simp only [sysCreate, checkPriority_eq]
      exact createAndAdd_none hstate (not_not.mp h)
    case createMicrotask =>
      simp only [sysCreateMicroTask, checkPriority_eq]
      exact createAndAdd_none hstate (not_not.mp h)
    all_goals exact absurd trivial h

/-- Nothing but the index of a new task's queue makes a call fail. -/
theorem handleSyscall_ok (hk : KernelInvariant k) (hn : k.schedulerStructure.Nodes)
    (hstate : (k.tds t).state = .syscallBlk) (hi : CreatesInRange k t) :
    ∃ k', handleSyscall k t = .ok k' := by
  unfold handleSyscall
  rw [if_neg (by simp [hstate])]
  cases hc : (k.tds t).call with
  | none => exact ⟨k, rfl⟩
  | some c =>
    cases c
    case send =>
      obtain ⟨q, hq⟩ := hk.send
      simp only [sysSend]
      cases ht : sendTarget k t with
      | error e => exact ⟨_, rfl⟩
      | ok r =>
        simp only
        split_ifs with hr
        · exact ⟨_, rfl⟩
        · have hq' : (k.setState t .rcvdBlk).sendQueues = k.sendQueues := by
            refine sendQueues_of_links fun i ↦ ?_
            by_cases hit : i = t <;> simp [KernelData.setState, hit]
          have hfree : ∀ j, t ∉ q j := hq.not_mem (by simp [hstate])
          obtain ⟨links, hp, -⟩ := hq.queues.push r hfree
          simp only [push_eq, hq', hp, bind, Except.bind]
          exact ⟨_, rfl⟩
    case awaitEvent =>
      exact sysAwaitEvent_ok hk.events.tailed
    case create =>
      simp only [sysCreate, checkPriority_eq]
      refine createAndAdd_ok hn (hi .create _ hc ?_)
      rw [createParams, sysCreate, checkPriority_eq]
      rfl
    case createMicrotask =>
      simp only [sysCreateMicroTask, checkPriority_eq]
      refine createAndAdd_ok hn (hi .createMicrotask _ hc ?_)
      rw [createParams, sysCreateMicroTask, checkPriority_eq]
      rfl
    all_goals exact ⟨_, rfl⟩

theorem SyscallEffect.finished (h : SyscallEffect k t k') (hq : SendInvariant k q)
    (hstate : (k.tds t).state = .syscallBlk) (hc : Completes k t) :
    FinishedIn k t (k'.tds t).state := by
  cases h with
  | returns _ hc => rw [hc.state]; trivial
  | exits hcall hc => rw [hc.state]; exact hcall
  | stuck hn _ => exact absurd hc hn
  | waits hcall hh _ hc => rw [hc.state]; exact ⟨hcall, hh⟩
  | hands r hcall ht hr =>
    have hne : t ≠ r := KernelData.ne_of_state hstate hr (by decide)
    rw [storeResult, handOff_eq k hne]
    simp only [KernelData.setReturnValue, KernelData.modify_self, update_self]
    exact ⟨hcall, r, ht⟩
  | queues r links hcall ht hr hp =>
    simp only [storeResult, KernelData.setReturnValue, KernelData.modify_self,
      KernelData.withSendQueues, KernelData.setState]
    exact ⟨hcall, r, ht⟩
  | takes s blocking hcall hb hs =>
    have hne : t ≠ s := hq.head_ne hstate hs
    rw [receive_eq k hne hs hb]
    simp only [update_self]
    trivial
  | replies s hcall hl hs =>
    rw [storeResult, deliverReply_eq]
    simp only [KernelData.setReturnValue, KernelData.setState, KernelData.modify_self]
    trivial
  | awaits x e links hcall he hx hp =>
    simp only [KernelData.setState, KernelData.modify_self]
    exact ⟨hcall, he ▸ e.isLt, by simp [hx]⟩
  | creates c params j s hcall hp hj hs =>
    have hjt : j ≠ t := findAvailable_ne hj hstate
    rw [created_caller k params s hjt]
    trivial

theorem resultIn_running {td : TaskDescriptor} {c : SyscallNumber} {v : Word}
    (hc : (k.tds t).call = some c) (hs : td.state = .running) (hr : td.systemCall.returnValue = v)
    (hv : callResult k t c = some v) : ResultIn k t td.systemCall.returnValue td.state := by
  rw [hs]
  exact ⟨c, hc, by rw [hv, hr]⟩

theorem send_result {p : KernelData × Word} (hstate : (k.tds t).state = .syscallBlk)
    (hc : (k.tds t).call = some .send) (h : sysSend t k = .ok p) :
    ResultIn k t ((storeResult t p).tds t).systemCall.returnValue
      ((storeResult t p).tds t).state := by
  unfold sysSend at h
  cases ht : sendTarget k t with
  | error e =>
    simp only [ht, Except.ok.injEq] at h
    subst h
    refine resultIn_running (v := e) hc ?_ ?_ (by simp [callResult, ht])
    · simp [storeResult, KernelData.setReturnValue, KernelData.setState]
    · simp [storeResult, KernelData.setReturnValue]
  | ok r =>
    simp only [ht] at h
    split_ifs at h with hr
    · have hne : t ≠ r := KernelData.ne_of_state hstate hr (by decide)
      cases h
      rw [storeResult, handOff_eq k hne]
      simp only [KernelData.setReturnValue, KernelData.modify_self, update_self, ResultIn]
    · rw [push_eq] at h
      split at h
      · simp [bind, Except.bind] at h
      · simp only [bind, Except.bind, Except.ok.injEq] at h
        subst h
        simp only [storeResult, KernelData.setReturnValue, KernelData.modify_self,
          KernelData.withSendQueues, KernelData.setState, ResultIn]

theorem receiveResult_eq (k : KernelData) (t s : TdPtr) :
    (if truncateTo (k.tds t).systemCall.param3 (k.tds s).systemCall.param3 ≠
        (k.tds s).systemCall.param3 then errReceiveBufferTooSmall
      else truncateTo (k.tds t).systemCall.param3 (k.tds s).systemCall.param3) =
      receiveResult k t s := by
  unfold receiveResult
  by_cases h : (k.tds t).systemCall.param3 < (k.tds s).systemCall.param3
  · rw [if_pos h, if_pos (by rwa [Ne, truncateTo_eq_iff, BitVec.not_le])]
  · have hfits := truncateTo_eq_iff.mpr (BitVec.not_lt.mp h)
    rw [if_neg h, if_neg (not_not.mpr hfits), hfits]

theorem receive_result (blocking : Bool) (hq : SendInvariant k q)
    (hstate : (k.tds t).state = .syscallBlk)
    (hc : (k.tds t).call = some (if blocking then .receive else .receiveNonblock))
    (hb : (k.tds t).systemCall.param2 ≠ 0) :
    ResultIn k t ((storeResult t (sysReceive t k blocking)).tds t).systemCall.returnValue
      ((storeResult t (sysReceive t k blocking)).tds t).state := by
  cases hh : (k.tds t).sendQueueHead with
  | none =>
    rw [sysReceive, if_neg hb, pop, hh]
    cases blocking
    · refine resultIn_running (v := errReceiveNosend) hc ?_ ?_ (by simp [callResult, hh])
      · simp [storeResult, KernelData.setReturnValue, KernelData.setState]
      · simp [storeResult, KernelData.setReturnValue]
    · simp [storeResult, KernelData.setReturnValue, KernelData.setState, ResultIn]
  | some s =>
    have hne : t ≠ s := hq.head_ne hstate hh
    rw [receive_eq k hne hh hb]
    refine resultIn_running (v := receiveResult k t s) hc ?_ ?_ ?_
    · simp only [update_self]
    · simp only [update_self]
      exact receiveResult_eq k t s
    · cases blocking <;> simp [callResult, hh]

theorem reply_result (hc : (k.tds t).call = some .reply) :
    ResultIn k t ((storeResult t (sysReply t k)).tds t).systemCall.returnValue
      ((storeResult t (sysReply t k)).tds t).state := by
  have hresult : (sysReply t k).2 = replyResult k t := by
    unfold sysReply replyResult
    simp only
    cases lookupTask k (k.tds t).systemCall.param1 errReplyTaskidDne errReplyTaskidNotfound with
    | error e => rfl
    | ok s =>
      simp only
      split_ifs with hb hs hblocked hfits
      · rfl
      · exact absurd hs hblocked
      · simp only [deliverReply_eq, truncateTo_eq_iff]
        exact if_neg (BitVec.not_le.mpr hfits)
      · simp only [deliverReply_eq, truncateTo_eq_iff]
        exact if_pos (BitVec.not_lt.mp hfits)
      · rfl
  have hrunning : ((sysReply t k).1.tds t).state = .running := by
    unfold sysReply
    simp only
    split
    · simp [KernelData.setState]
    · split_ifs <;> simp [KernelData.setState]
  refine resultIn_running (v := replyResult k t) hc ?_ ?_ rfl
  · simpa [storeResult, KernelData.setReturnValue] using hrunning
  · simpa [storeResult, KernelData.setReturnValue] using hresult

theorem awaitEvent_result (hc : (k.tds t).call = some .awaitEvent) (h : sysAwaitEvent t k = .ok k') :
    ResultIn k t (k'.tds t).systemCall.returnValue (k'.tds t).state := by
  unfold sysAwaitEvent at h
  simp only at h
  split at h
  · rename_i he
    have hle : ¬ eventsNumTypes ≤ (k.tds t).systemCall.param1.toNat := not_le.mpr he
    cases hv : vacantQuery k.eventData with
    | none =>
      simp only [hv, Except.ok.injEq] at h
      subst h
      refine resultIn_running (v := errAwaiteventBufferTooSmall) hc ?_ ?_
        (by simp [callResult, hle, hv])
      · simp [KernelData.setTaskReady, KernelData.setState]
      · simp [KernelData.setTaskReady, KernelData.setState, KernelData.setReturnValue]
    | some x =>
      simp only [hv, pushEvent_eq] at h
      split at h
      · simp [bind, Except.bind] at h
      · simp only [bind, Except.bind, Except.ok.injEq] at h
        subst h
        simp [KernelData.setState, ResultIn]
  · rename_i he
    cases h
    refine resultIn_running (v := errAwaiteventBadEventId) hc ?_ ?_
      (if_pos (not_lt.mp he))
    · simp [KernelData.setTaskReady, KernelData.setState]
    · simp [KernelData.setTaskReady, KernelData.setState, KernelData.setReturnValue]

theorem createAndAdd_result {c : SyscallNumber} {params : TaskCreateParameters}
    (hstate : (k.tds t).state = .syscallBlk) (hc : (k.tds t).call = some c)
    (hf : findAvailable k.tds params.taskType ≠ none)
    (hv : callResult k t c = some (newTaskId k params.taskType))
    (h : createAndAdd k t (.ok params) = .ok k') :
    ResultIn k t (k'.tds t).systemCall.returnValue (k'.tds t).state := by
  obtain ⟨j, hj⟩ := Option.ne_none_iff_exists'.mp hf
  have hjt : j ≠ t := findAvailable_ne hj hstate
  simp only [createAndAdd, createTask, hj, Option.map_some] at h
  cases hs : schedulerAdd k.schedulerStructure
      (update k.tds j (newTask (k.tds j) k.memory params).1) (some j) with
  | error e => simp [hs, bind, Except.bind] at h
  | ok s =>
    simp only [hs, bind, Except.bind, update_self, Except.ok.injEq] at h
    obtain rfl : created k t j params s = k' := h
    refine resultIn_running (v := newTaskId k params.taskType) hc ?_ ?_ hv
    · rw [created_caller k params s hjt]
    · rw [created_caller k params s hjt]
      simp only [newTaskId, hj]

theorem isTdAvailable_setTaskReady (hstate : (k.tds t).state = .syscallBlk) (i : TdPtr) :
    isTdAvailable ((k.setTaskReady t).tds i) = isTdAvailable (k.tds i) := by
  by_cases hi : i = t
  · subst hi
    simp [isTdAvailable, KernelData.setTaskReady, KernelData.setState, hstate]
  · rw [KernelData.setTaskReady, KernelData.setState, KernelData.modify_of_ne _ _ hi]

theorem metaInfo_result (hstate : (k.tds t).state = .syscallBlk) :
    (sysMetaInfo t k).2 = metaInfoResult k t := by
  have hregular : getNumRegularTasks (k.setTaskReady t).tds = getNumRegularTasks k.tds := by
    simp only [getNumRegularTasks, isTdAvailable_setTaskReady hstate]
  have hmicro : getNumMicroTasks (k.setTaskReady t).tds = getNumMicroTasks k.tds := by
    simp only [getNumMicroTasks, isTdAvailable_setTaskReady hstate]
  have hcall : ((k.setTaskReady t).tds t).systemCall = (k.tds t).systemCall := by
    simp [KernelData.setTaskReady, KernelData.setState]
  have hmemory : (k.setTaskReady t).memory = k.memory := rfl
  have hcodes : metaRequestTaskInfo ≠ metaRequestTotalRam ∧
      metaRequestTaskInfo ≠ metaRequestUsedRam := by decide
  unfold sysMetaInfo metaInfoResult
  simp only [hregular, hmicro, hcall, hmemory]
  by_cases htask : readWord k.memory (k.tds t).systemCall.param1 = metaRequestTaskInfo
  · rw [if_pos htask, htask, if_neg hcodes.1, if_neg hcodes.2]
    split_ifs <;> rfl
  · rw [if_neg htask]
    split_ifs <;> rfl

theorem handleSyscall_result (hq : SendInvariant k q) (hstate : (k.tds t).state = .syscallBlk)
    (hcompletes : Completes k t) (h : handleSyscall k t = .ok k') :
    ResultIn k t (k'.tds t).systemCall.returnValue (k'.tds t).state := by
  unfold Completes at hcompletes
  cases hc : (k.tds t).call with
  | none => simp [hc] at hcompletes
  | some c =>
    rw [hc] at hcompletes
    cases c
    case create =>
      obtain ⟨params, hp, htype⟩ := createParams_create k t
      rw [(handleSyscall_creates hstate hc hp).1] at h
      exact createAndAdd_result hstate hc (htype ▸ hcompletes) (by rw [htype]; rfl) h
    case createMicrotask =>
      obtain ⟨params, hp, htype⟩ := createParams_createMicrotask k t
      rw [(handleSyscall_creates hstate hc hp).1] at h
      exact createAndAdd_result hstate hc (htype ▸ hcompletes) (by rw [htype]; rfl) h
    all_goals rw [handleSyscall, if_neg (by simp [hstate]), hc] at h
    case send =>
      cases hs : sysSend t k with
      | error e => simp [hs, bind, Except.bind] at h
      | ok p =>
        simp only [hs, bind, Except.bind, Except.ok.injEq] at h
        exact h ▸ send_result hstate hc hs
    case receive => cases h; exact receive_result true hq hstate hc hcompletes
    case receiveNonblock => cases h; exact receive_result false hq hstate hc hcompletes
    case reply => cases h; exact reply_result hc
    case awaitEvent => exact awaitEvent_result hc h
    case threadexit =>
      cases h
      simp [storeResult, sysExit, KernelData.setReturnValue, KernelData.taskExit,
        KernelData.setState, ResultIn]
    case metaInfo =>
      cases h
      have hrunning := (callerOnly_metaInfo k t).state
      refine resultIn_running hc hrunning ?_ (congrArg some (metaInfo_result hstate).symm)
      simp [storeResult, KernelData.setReturnValue]
    case changepriority =>
      cases h
      have hrunning := (callerOnly_changePriority k t).state
      refine resultIn_running hc hrunning rfl ?_
      simp only [callResult, storeResult, sysChangePriority, KernelData.setReturnValue,
        KernelData.setTaskReady, KernelData.setState, KernelData.modify_self]
      split_ifs <;> simp
    all_goals
      cases h
      refine resultIn_running hc ?_ rfl ?_
      · simp [storeResult, KernelData.setReturnValue, sysGetTid, sysGetParentTid, sysYield,
          sysWhoIsNs, sysRegisterNs, sysGetMonotonicMicros, KernelData.setTaskReady,
          KernelData.setState]
      · simp [callResult, storeResult, KernelData.setReturnValue, sysGetTid, sysGetParentTid,
          sysYield, sysWhoIsNs, sysRegisterNs, sysGetMonotonicMicros]

theorem completed_iff (hk : KernelInvariant k) (hn : k.schedulerStructure.Nodes)
    (hstate : (k.tds t).state = .syscallBlk) :
    Completed k t ↔ Completes k t ∧ CreatesInRange k t := by
  constructor
  · rintro ⟨k', hk', hf, -⟩
    by_cases hc : Completes k t
    · refine ⟨hc, fun c params hcall hp ↦ ?_⟩
      by_contra hi
      obtain ⟨he, hcompletes⟩ := handleSyscall_creates hstate hcall hp
      obtain ⟨j, hj⟩ := Option.ne_none_iff_exists'.mp (hcompletes.mp hc)
      rw [he, createAndAdd_error hn hj hi] at hk'
      simp at hk'
    · obtain ⟨k'', hk'', hs⟩ := handleSyscall_stuck hstate hc
      obtain rfl := Except.ok.inj (hk'.symm.trans hk'')
      rw [hs] at hf
      exact hf.elim
  · rintro ⟨hc, hi⟩
    obtain ⟨k', hk'⟩ := handleSyscall_ok hk hn hstate hi
    obtain ⟨q, hq⟩ := hk.send
    exact ⟨k', hk', (handleSyscall_effect hstate hk').finished hq hstate hc,
      handleSyscall_result hq hstate hc hk'⟩

theorem Reachable.boot (b : Boot) : Reachable b (booted b) := ⟨booted b, [], boot_eq b, .nil⟩

/-- In every reachable state, a call is brought to an end exactly when the
kernel knows it, a receive has a buffer, and a creation finds a descriptor
and a ready queue. -/
theorem syscall_completed_iff {b : Boot} {s : RtosMain} (h : Reachable b s) {c : Pass}
    (hready : isTaskReady ((loopHead c.iteration s).tds t) = true)
    (hstate : ((c.entry s t).tds t).state = .syscallBlk) :
    Completed (c.entry s t) t ↔ Completes (c.entry s t) t ∧ CreatesInRange (c.entry s t) t :=
  completed_iff (h.entry hready) (entry_nodes c s t) hstate

def getTidPass : Pass := (callBy 0 1 0 0 0 0 0 0).pass 0

theorem syscall_completed_getTid : Completed (getTidPass.entry (booted sampleBoot) 0) 0 := by
  have hcall : ((getTidPass.entry (booted sampleBoot) 0).tds 0).call = some .getTid := by decide
  refine (syscall_completed_iff (.boot sampleBoot) (by decide) (by decide)).mpr ⟨?_, ?_⟩
  · unfold Completes
    rw [hcall]
    trivial
  · intro c params hc hp
    obtain rfl := Option.some.inj (hcall.symm.trans hc)
    simp [createParams] at hp

def nullReceivePass : Pass := (callBy 0 9 0x20005c00#32 0 8 0 0 0).pass 0

theorem nullReceive_not_completed : Reachable sampleBoot (booted sampleBoot) ∧
    isTaskReady ((loopHead nullReceivePass.iteration (booted sampleBoot)).tds 0) = true ∧
    ((nullReceivePass.entry (booted sampleBoot) 0).tds 0).state = .syscallBlk ∧
    ¬ Completed (nullReceivePass.entry (booted sampleBoot) 0) 0 := by
  refine ⟨.boot sampleBoot, by decide, by decide, ?_⟩
  rintro ⟨k', hk, hf, -⟩
  have hstuck : (handleSyscall (nullReceivePass.entry (booted sampleBoot) 0) 0).toOption.map
      (fun k ↦ (k.tds 0).state) = some .syscallBlk := by decide
  rw [hk] at hstuck
  have hs : (k'.tds 0).state = .syscallBlk := Option.some.inj hstuck
  rwa [hs] at hf

end PrjOS
