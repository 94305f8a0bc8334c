import PrjOS.KernelData

namespace PrjOS

open ByteMemory Function LinkedQueue

/-- `handleSyscall` keeps what a call returns in the caller's descriptor. -/
def storeResult (t : TdPtr) (r : KernelData × Word) : KernelData := r.1.setReturnValue t r.2

def errSendTaskidDne : Word := -1
def errSendTaskidNotfound : Word := -2
def errSendIncomplete : Word := -3
def errSendBadBuffer : Word := -4
def errSendExited : Word := -5

def errReceiveBufferTooSmall : Word := -1
def errReceiveBadBuffer : Word := -2
def errReceiveNosend : Word := -3

def errReplyTaskidDne : Word := -1
def errReplyTaskidNotfound : Word := -2
def errReplyNotReplyBlocked : Word := -3
def errReplyBufferTooSmall : Word := -4
def errReplyError : Word := -5

def generationId (tid : Word) : Word :=
  (tid &&& tasksIdGenerationMask) >>> tasksIdGenerationShiftbits

/-- The first two checks of `sys_send` and `sys_reply`: is the id possible,
and does the task exist? -/
def lookupTask (k : KernelData) (tid dne notfound : Word) : Except Word TdPtr :=
  if generationId tid = 0 ∨ 16 ≤ (tid &&& tasksIdIndexMask).toNat then .error dne
  else
    match findTd tid k.tds with
    | none => .error notfound
    | some task => .ok task

/-- The argument checks of `sys_send`, up to the choice of delivery. -/
def sendTarget (k : KernelData) (active : TdPtr) : Except Word TdPtr :=
  let call := (k.tds active).systemCall
  match lookupTask k call.param1 errSendTaskidDne errSendTaskidNotfound with
  | .error e => .error e
  | .ok receiveTask =>
    if call.param2 = 0 ∨ call.param4 = 0 ∨ call.param5 = 0 then .error errSendBadBuffer
    else .ok receiveTask

def push (k : KernelData) (active receiving : TdPtr) : Result KernelData :=
  match (k.tds receiving).sendQueueHead with
  | none =>
    let k := k.modify receiving fun td ↦
      { td with sendQueueHead := some active, sendQueueTail := some active }
    .ok (k.modify active fun td ↦ { td with sendQueueNext := none })
  | some _ =>
    match (k.tds receiving).sendQueueTail with
    | none => .error .nullPointer
    | some lastTask =>
      let k := k.modify lastTask fun td ↦ { td with sendQueueNext := some active }
      let k := k.modify receiving fun td ↦ { td with sendQueueTail := some active }
      .ok (k.modify active fun td ↦ { td with sendQueueNext := none })

def truncateTo (limit size : Word) : Word := if limit < size then limit else size

/-- The branch of `sys_send` for a receiver that already waits. -/
def handOff (k : KernelData) (active receiveTask : TdPtr) : KernelData × Word :=
  let message := (k.tds active).systemCall.param2
  let messageLen := (k.tds active).systemCall.param3
  let k := k.setState receiveTask .running
  let k := k.setState active .rplyBlk
  let k := k.modify receiveTask fun td ↦ { td with sendQueueHead := none }
  let destSize := (k.tds receiveTask).systemCall.param3
  let destination := (k.tds receiveTask).systemCall.param2
  let receiverTidParam := (k.tds receiveTask).systemCall.param1
  let k := k.write receiverTidParam (k.tds active).taskId
  let size := truncateTo destSize messageLen
  let k := k.copy destination message size
  let k := k.setReturnValue receiveTask
    (if size < messageLen then errReceiveBufferTooSmall else size)
  (k, messageLen)

def sysSend (active : TdPtr) (k : KernelData) : Result (KernelData × Word) :=
  match sendTarget k active with
  | .error e => .ok (k.setState active .running, e)
  | .ok receiveTask =>
    if (k.tds receiveTask).state = .sendBlk then .ok (handOff k active receiveTask)
    else do
      let k ← push (k.setState active .rcvdBlk) active receiveTask
      .ok (k, 0)

def pop (k : KernelData) (active : TdPtr) : Option (TdPtr × KernelData) :=
  (k.tds active).sendQueueHead.map fun task ↦
    let k := k.modify active fun td ↦ { td with sendQueueHead := (k.tds task).sendQueueNext }
    (task, k.modify task fun td ↦ { td with sendQueueNext := none })

/-- The branch of `sys_receive` for a sender that was queued. -/
def takeMessage (k : KernelData) (active senderTask : TdPtr) : KernelData × Word :=
  let tid := (k.tds active).systemCall.param1
  let dest := (k.tds active).systemCall.param2
  let destLen := (k.tds active).systemCall.param3
  let k := k.setState senderTask .rplyBlk
  let sourceSize := (k.tds senderTask).systemCall.param3
  let source := (k.tds senderTask).systemCall.param2
  let size := truncateTo destLen sourceSize
  let k := k.copy dest source size
  let k := k.setState active .running
  let k := k.write tid (k.tds senderTask).taskId
  if size ≠ sourceSize then
    (k.setReturnValue senderTask errSendIncomplete, errReceiveBufferTooSmall)
  else (k.setReturnValue senderTask size, size)

def sysReceive (active : TdPtr) (k : KernelData) (blocking : Bool) : KernelData × Word :=
  if (k.tds active).systemCall.param2 = 0 then (k, errReceiveBadBuffer)
  else
    match pop k active with
    | some (senderTask, k) => takeMessage k active senderTask
    | none =>
      if blocking then (k.setState active .sendBlk, 0)
      else (k.setState active .running, errReceiveNosend)

/-- The branch of `sys_reply` for a task that waits for a reply. The test of
`ret` against -1 is the source's; `ret` is still 0 there. -/
def deliverReply (k : KernelData) (active sendingTask : TdPtr) : KernelData × Word :=
  let reply := (k.tds active).systemCall.param2
  let replyLen := (k.tds active).systemCall.param3
  let ret : Word := 0
  let k := k.setState sendingTask .running
  let destSize := (k.tds sendingTask).systemCall.param5
  let destination := (k.tds sendingTask).systemCall.param4
  let size := truncateTo destSize replyLen
  let k := k.copy destination reply size
  if size = replyLen then (k.setReturnValue sendingTask size, 0)
  else if ret = -1 then (k.setReturnValue sendingTask size, errReplyBufferTooSmall)
  else (k.setReturnValue sendingTask errSendIncomplete, errReplyError)

def sysReply (active : TdPtr) (k : KernelData) : KernelData × Word :=
  let call := (k.tds active).systemCall
  match lookupTask k call.param1 errReplyTaskidDne errReplyTaskidNotfound with
  | .error e => (k.setState active .running, e)
  | .ok sendingTask =>
    if call.param2 = 0 ∧ call.param3 ≠ 0 then (k.setState active .running, errReplyError)
    else
      let (k, ret) := if (k.tds sendingTask).state = .rplyBlk then deliverReply k active sendingTask
        else (k, errReplyNotReplyBlocked)
      (k.setState active .running, ret)

theorem truncateTo_toNat (limit size : Word) :
    (truncateTo limit size).toNat = min size.toNat limit.toNat := by
  unfold truncateTo
  split_ifs with h <;> rw [BitVec.lt_def] at h <;> omega

theorem truncateTo_eq_iff {limit size : Word} : truncateTo limit size = size ↔ size ≤ limit := by
  rw [← BitVec.toNat_inj, truncateTo_toNat, BitVec.le_def]
  omega

theorem lookupTask_eq_ok {k : KernelData} {tid dne notfound : Word} {i : TdPtr} :
    lookupTask k tid dne notfound = .ok i ↔ generationId tid ≠ 0 ∧ findTd tid k.tds = some i := by
  unfold lookupTask
  split_ifs with h
  · refine ⟨fun he ↦ by simp at he, fun ⟨hg, hf⟩ ↦ ?_⟩
    have hi := (findTd_eq_some.mp hf).2
    exact absurd (h.resolve_left hg) (by have := i.isLt; omega)
  · push Not at h
    cases findTd tid k.tds with
    | none => simp
    | some j =>
      exact ⟨fun he ↦ ⟨h.1, congrArg some (Except.ok.inj he)⟩,
        fun he ↦ congrArg Except.ok (Option.some.inj he.2)⟩

theorem sendTarget_eq_ok {k : KernelData} {a r : TdPtr} (h : sendTarget k a = .ok r) :
    generationId (k.tds a).systemCall.param1 ≠ 0 ∧
      (k.tds a).systemCall.param1 = (k.tds r).taskId := by
  unfold sendTarget at h
  simp only at h
  split at h
  · simp at h
  · rename_i r' hl
    split_ifs at h
    obtain rfl := Except.ok.inj h
    obtain ⟨hg, hf⟩ := lookupTask_eq_ok.mp hl
    exact ⟨hg, (findTd_eq_some.mp hf).1.symm⟩

theorem lookupTask_error {k : KernelData} {tid dne notfound e : Word}
    (h : lookupTask k tid dne notfound = .error e) : e = dne ∨ e = notfound := by
  unfold lookupTask at h
  split_ifs at h
  · exact .inl (Except.error.inj h).symm
  · split at h
    · exact .inr (Except.error.inj h).symm
    · simp at h

theorem sendTarget_error {k : KernelData} {a : TdPtr} {e : Word} (h : sendTarget k a = .error e) :
    e.slt 0 = true := by
  unfold sendTarget at h
  simp only at h
  split at h
  · rename_i hl
    obtain rfl := Except.error.inj h
    rcases lookupTask_error hl with rfl | rfl <;> decide
  · split_ifs at h
    exact Except.error.inj h ▸ by decide

/-- `push` relinks the send queues and touches nothing else. -/
theorem push_eq (k : KernelData) (a r : TdPtr) :
    push k a r = match k.sendQueues.push r a with
      | none => .error .nullPointer
      | some q => .ok (k.withSendQueues q) := by
  unfold push Queues.push
  cases hh : (k.tds r).sendQueueHead with
  | none =>
    simp only [KernelData.sendQueues, hh]
    refine congrArg Except.ok ?_
    simp only [KernelData.withSendQueues, KernelData.modify, KernelData.mk.injEq, and_true]
    funext i
    by_cases ha : i = a <;> by_cases hr : i = r <;> simp_all
  | some x =>
    cases ht : (k.tds r).sendQueueTail with
    | none => simp [KernelData.sendQueues, hh, ht]
    | some last =>
      simp only [KernelData.sendQueues, hh, ht]
      refine congrArg Except.ok ?_
      simp only [KernelData.withSendQueues, KernelData.modify, KernelData.mk.injEq, and_true]
      funext i
      by_cases ha : i = a <;> by_cases hr : i = r <;> by_cases hl : i = last <;> simp_all

theorem handOff_eq (k : KernelData) {a r : TdPtr} (h : a ≠ r) :
    handOff k a r =
      ({ k with
          tds := update (update k.tds r { k.tds r with
              state := .running
              sendQueueHead := none
              systemCall := { (k.tds r).systemCall with
                returnValue :=
                  if truncateTo (k.tds r).systemCall.param3 (k.tds a).systemCall.param3 <
                      (k.tds a).systemCall.param3 then errReceiveBufferTooSmall
                  else truncateTo (k.tds r).systemCall.param3 (k.tds a).systemCall.param3 } })
            a { k.tds a with state := .rplyBlk }
          memory := memcpy
            (writeWord k.memory (k.tds r).systemCall.param1 (k.tds a).taskId)
            (k.tds r).systemCall.param2 (k.tds a).systemCall.param2
            (truncateTo (k.tds r).systemCall.param3 (k.tds a).systemCall.param3).toNat },
        (k.tds a).systemCall.param3) := by
  simp only [handOff, KernelData.setState, KernelData.setReturnValue, KernelData.write,
    KernelData.copy, KernelData.modify]
  simp [h, h.symm, update_comm h, update_idem]

theorem receive_eq (k : KernelData) {a s : TdPtr} (h : a ≠ s)
    (hs : (k.tds a).sendQueueHead = some s) (hb : (k.tds a).systemCall.param2 ≠ 0)
    (blocking : Bool) :
    storeResult a (sysReceive a k blocking) =
      { k with
        tds := update (update k.tds s { k.tds s with
            state := .rplyBlk
            sendQueueNext := none
            systemCall := { (k.tds s).systemCall with
              returnValue :=
                if truncateTo (k.tds a).systemCall.param3 (k.tds s).systemCall.param3 ≠
                    (k.tds s).systemCall.param3 then errSendIncomplete
                else truncateTo (k.tds a).systemCall.param3 (k.tds s).systemCall.param3 } })
          a { k.tds a with
            state := .running
            sendQueueHead := (k.tds s).sendQueueNext
            systemCall := { (k.tds a).systemCall with
              returnValue :=
                if truncateTo (k.tds a).systemCall.param3 (k.tds s).systemCall.param3 ≠
                    (k.tds s).systemCall.param3 then errReceiveBufferTooSmall
                else truncateTo (k.tds a).systemCall.param3 (k.tds s).systemCall.param3 } }
        memory := writeWord
          (memcpy k.memory (k.tds a).systemCall.param2 (k.tds s).systemCall.param2
            (truncateTo (k.tds a).systemCall.param3 (k.tds s).systemCall.param3).toNat)
          (k.tds a).systemCall.param1 (k.tds s).taskId } := by
  simp only [sysReceive, hb, if_false, pop, hs, Option.map_some, takeMessage]
  simp only [storeResult, KernelData.setState, KernelData.setReturnValue, KernelData.write,
    KernelData.copy, KernelData.modify]
  by_cases ht : truncateTo (k.tds a).systemCall.param3 (k.tds s).systemCall.param3 =
      (k.tds s).systemCall.param3
  · simp [ht, h, h.symm, update_comm h, update_idem]
  · simp [ht, h, h.symm, update_comm h, update_idem]

theorem deliverReply_eq (k : KernelData) (a s : TdPtr) :
    deliverReply k a s =
      ({ k with
          tds := update k.tds s { k.tds s with
            state := .running
            systemCall := { (k.tds s).systemCall with
              returnValue :=
                if truncateTo (k.tds s).systemCall.param5 (k.tds a).systemCall.param3 =
                    (k.tds a).systemCall.param3
                then truncateTo (k.tds s).systemCall.param5 (k.tds a).systemCall.param3
                else errSendIncomplete } }
          memory := memcpy k.memory (k.tds s).systemCall.param4 (k.tds a).systemCall.param2
            (truncateTo (k.tds s).systemCall.param5 (k.tds a).systemCall.param3).toNat },
        if truncateTo (k.tds s).systemCall.param5 (k.tds a).systemCall.param3 =
          (k.tds a).systemCall.param3 then 0 else errReplyError) := by
  have hret : ¬ (0 : Word) = -1 := by decide
  simp only [deliverReply, hret, if_false]
  simp only [KernelData.setState, KernelData.setReturnValue, KernelData.copy, KernelData.modify]
  by_cases ht : truncateTo (k.tds s).systemCall.param5 (k.tds a).systemCall.param3 =
      (k.tds a).systemCall.param3
  · simp [ht, update_idem]
  · simp [ht, update_idem]

end PrjOS
