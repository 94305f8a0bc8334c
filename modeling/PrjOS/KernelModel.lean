import PrjOS.Library.Bytes
import PrjOS.Library.Clients
import PrjOS.Invariants.EventPool
import PrjOS.Invariants.PendingCalls

namespace PrjOS

open ByteMemory Function Program Rendezvous Transition

abbrev KernelStatus : Type := Status TdPtr Unit (Place TdPtr) (Choice TdPtr)

abbrev KernelSystem : Type := System TdPtr Unit (Place TdPtr) (List EventId) (Choice TdPtr)

/-- The id of the first task that a descriptor is used for. -/
def firstTid (i : TdPtr) : Word := BitVec.ofNat 32 i + tasksIdGenerationIncrement

/-- The message passing that the kernel is there for. -/
def kernelModel : Setting TdPtr Unit (Place TdPtr) (List EventId) (Choice TdPtr) where
  tid := firstTid
  home := Place.home
  tooSmall := errReceiveBufferTooSmall
  incomplete := errSendIncomplete
  noTask := errSendTaskidNotfound
  replyError := errReplyError
  notBlocked := errReplyNotReplyBlocked
  badEvent := errAwaiteventBadEventId
  happened := errAwaiteventVolatileInBuffer
  validEvent event := event.toNat < eventsNumTypes
  outside raised _ _ raised' := raised' = raised
  change _ _ := False
  interrupt raised event raised' := ∃ e : EventId, event.toNat = e.val ∧ raised' = raised ++ [e]

def kernelStart : KernelSystem where
  status i := if i = 0 then idle 0 else .dormant
  queue _ := []
  parent _ := 0
  world := []

/-- What a task is doing, seen from its descriptor and its memory. A call that
was left undone never returns. -/
def TaskDescriptor.Shows (td : TaskDescriptor) (m : Memory) (i : TdPtr) (x : KernelStatus) : Prop :=
  let call := td.systemCall
  match td.state with
  | .invalid => x = .dormant
  | .running | .hwint => x = idle i
  | .sendBlk => x = .receiving call.param3 (Client.resume i)
  | .rcvdBlk => ∃ j, call.param1 = firstTid j ∧
      x = .queued j (bytesAt m call.param2 call.param3.toNat) call.param5 (Client.resume i)
  | .rplyBlk => ∃ j message, call.param1 = firstTid j ∧
      x = .awaiting j message call.param5 (Client.resume i)
  | .evtBlk => x = .waiting call.param1 (Client.resume i)
  | .exited | .killed | .syscallBlk => x = .exited

/-- The kernel's data tell what the tasks of the message passing are doing. -/
structure Mirrors (k : KernelData) (a : KernelSystem) : Prop where
  tasks : ∀ i, (k.tds i).Shows k.memory i (a.status i)
  queues : SendInvariant k a.queue
  parents : ∀ i, (k.tds i).state ≠ .invalid → (k.tds i).parentId = a.parent i

/-- What a task finds when its receive returns. -/
def arrival (k : KernelData) (i : TdPtr) : Incoming :=
  let call := (k.tds i).systemCall
  { sender := readWord k.memory call.param1
    size := call.returnValue
    bytes := bytesAt k.memory call.param2 (min call.param3.toNat call.returnValue.toNat) }

/-- What a task finds when its send returns, `n` bytes of a reply included. -/
def response (k : KernelData) (i : TdPtr) (n : ℕ) : Returned :=
  let call := (k.tds i).systemCall
  ⟨call.returnValue, bytesAt k.memory call.param4 n⟩

def replyTarget (k : KernelData) (t : TdPtr) : Option TdPtr :=
  let call := (k.tds t).systemCall
  match lookupTask k call.param1 errReplyTaskidDne errReplyTaskidNotfound with
  | .error _ => none
  | .ok i => if call.param2 = 0 ∧ call.param3 ≠ 0 then none else some i

def asSend (k : KernelData) (t : TdPtr) : Call Unit (Place TdPtr) :=
  let call := (k.tds t).systemCall
  .send call.param1 (bytesAt k.memory call.param2 call.param3.toNat) call.param5

def asReply (k : KernelData) (t : TdPtr) : Call Unit (Place TdPtr) :=
  let call := (k.tds t).systemCall
  .reply call.param1 (bytesAt k.memory call.param2 call.param3.toNat) call.param3

/-- What the call of `t` asks of the message passing. A call that the kernel
refuses for a reason of its own asks for nothing. -/
def request (k : KernelData) (t : TdPtr) : Option (Call Unit (Place TdPtr)) :=
  let call := (k.tds t).systemCall
  match (k.tds t).call with
  | some .send =>
    match sendTarget k t with
    | .error e => if e = errSendTaskidNotfound then some (asSend k t) else none
    | .ok _ => some (asSend k t)
  | some .receive => some (.receive call.param3)
  | some .receiveNonblock =>
    if (k.tds t).sendQueueHead = none then none else some (.receive call.param3)
  | some .reply => (replyTarget k t).map fun _ ↦ asReply k t
  | some .awaitEvent =>
    if call.param1.toNat < eventsNumTypes ∧ vacantQuery k.eventData = none then none
    else some (.awaitEvent call.param1)
  | some .create => (findAvailable k.tds .regular).map fun j ↦ .create (.choosing j)
  | some .createMicrotask => (findAvailable k.tds .micro).map fun j ↦ .create (.choosing j)
  | some .getParentTid => some .getParent
  | _ => none

def outcomes (k k' : KernelData) (t : TdPtr) :
    Call Unit (Place TdPtr) → List (TdPtr × Outcome)
  | .send target _ _ =>
    match sendTarget k t with
    | .error _ => [(t, .sent target (response k' t 0))]
    | .ok r => if (k.tds r).state = .sendBlk then [(r, .received (arrival k' r))] else []
  | .receive _ =>
    if (k.tds t).sendQueueHead = none then [] else [(t, .received (arrival k' t))]
  | .reply target _ size =>
    (t, .replied target (k'.tds t).systemCall.returnValue) :: match replyTarget k t with
      | none => []
      | some i =>
        let caller := (k.tds i).systemCall
        if (k.tds i).state = .rplyBlk then
          [(i, .sent caller.param1 (response k' i (min size.toNat caller.param5.toNat)))]
        else []
  | .awaitEvent event =>
    if event.toNat < eventsNumTypes then []
    else [(t, .awoke event (k'.tds t).systemCall.returnValue)]
  | .create _ => [(t, .created (k'.tds t).systemCall.returnValue)]
  | .getParent => [(t, .parent (k'.tds t).systemCall.returnValue)]
  | .outside () => []

/-- What is noticed of the tasks when the kernel serves a call of `t` and
becomes `k'`. A call that is left undone is the end of its task. -/
def notices (k k' : KernelData) (t : TdPtr) : List (TdPtr × Notice TdPtr) :=
  if (k'.tds t).state = .exited ∨ (k'.tds t).state = .syscallBlk then [(t, .ends)]
  else match request k t with
    | none => []
    | some c => (t, .asks c) :: (outcomes k k' t c).map fun o ↦ (o.1, .gets o.2)

def wokenNotices (k k' : KernelData) (isrNumber : Word) : List (TdPtr × Notice TdPtr) :=
  match (eventOf isrNumber).bind k.eventData.eventQueueHead with
  | none => []
  | some x =>
    match findTd (k.eventData.eventList x).waitingTid k.tds with
    | none => []
    | some i =>
      [(i, .gets (.awoke (k.tds i).systemCall.param1 (k'.tds i).systemCall.returnValue))]

inductive Seen
  | raised (e : EventId)
  | noticed (o : TdPtr × Notice TdPtr)

def Seen.event : Seen → Option EventId
  | raised e => some e
  | noticed _ => none

def Seen.notice : Seen → Option (TdPtr × Notice TdPtr)
  | raised _ => none
  | noticed o => some o

def Pass.seen (c : Pass) (s : RtosMain) : List Seen :=
  match c.picked with
  | none => []
  | some t =>
    let k := c.entry s t
    let reason := c.iteration.preemption.reason
    match (k.tds t).state with
    | .syscallBlk =>
      match handleSyscall k t with
      | .error _ => []
      | .ok k' => (notices k k' t).map .noticed
    | .hwint =>
      match handleInterrupt k reason with
      | .error _ => []
      | .ok k' => (eventOf reason).toList.map .raised ++ (wokenNotices k k' reason).map .noticed
    | .killed => [.noticed (t, .ends)]
    | _ => []

/-- What the message passing relies on: no descriptor is used twice, a message
stays as it is while its sender is queued, and the word for the sender's id is
apart from the buffer and from the message that comes into it. -/
structure Tidy (s : RtosMain) (c : Pass) (s' : RtosMain) : Prop where
  fresh : ∀ i, (s.kernel.tds i).state ≠ .invalid →
    (s'.kernel.tds i).taskId = (s.kernel.tds i).taskId
  kept : ∀ t i, c.picked = some t → (s.kernel.tds i).state = .rcvdBlk →
    let call := (s.kernel.tds i).systemCall
    SameOn call.param2 call.param3.toNat s.kernel.memory c.iteration.memory ∧
      ((s'.kernel.tds i).state = .rcvdBlk →
        SameOn call.param2 call.param3.toNat c.iteration.memory s'.kernel.memory)
  apart : ∀ t i j, c.picked = some t → ((c.entry s t).tds t).state = .syscallBlk →
    .get j ((c.entry s t).tds i).taskId ∈ sendEvents (c.entry s t) t →
    let message := ((c.entry s t).tds i).systemCall
    let buffer := ((c.entry s t).tds j).systemCall
    Apart buffer.param1 4 buffer.param2 buffer.param3.toNat ∧
      Apart buffer.param1 4 message.param2 message.param3.toNat

def tidyStep (s : RtosMain) (c : Pass) (s' : RtosMain) : Prop := passStep s c s' ∧ Tidy s c s'

def kernelLog : RtosMain × List Seen → Pass → RtosMain × List Seen → Prop :=
  Logged tidyStep fun s c ↦ c.seen s

end PrjOS
