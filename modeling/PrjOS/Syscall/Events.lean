import PrjOS.KernelData

namespace PrjOS

open ByteMemory Function LinkedQueue

def errAwaiteventVolatileInBuffer : Word := 0
def errAwaiteventBufferTooSmall : Word := -4
def errAwaiteventBadEventId : Word := -5

def eventidUart0 : EventId := 3
def eventidUsb0 : EventId := 6

/-- The interrupt numbers, which are places in the vector table. -/
def intUart0 : Word := 21
def intUsb0 : Word := 60

namespace EventData

def setQuery (e : EventData) (x : QueryPtr) (q : EventQuery) : EventData :=
  { e with eventList := update e.eventList x q }

@[simp] theorem setQuery_self (e : EventData) (x : QueryPtr) (q : EventQuery) :
    (e.setQuery x q).eventList x = q := update_self ..

@[simp] theorem setQuery_of_ne (e : EventData) {x y : QueryPtr} (q : EventQuery) (h : y ≠ x) :
    (e.setQuery x q).eventList y = e.eventList y := update_of_ne h ..

def setNext (e : EventData) (x : QueryPtr) (next : Option QueryPtr) : EventData :=
  e.setQuery x { e.eventList x with nextQuery := next }

end EventData

def popEvent (e : EventData) (eventId : EventId) : Option (QueryPtr × EventData) :=
  (e.eventQueueHead eventId).map fun query ↦
    let e := { e with
      eventQueueHead := update e.eventQueueHead eventId (e.eventList query).nextQuery }
    (query, e.setNext query none)

def pushEvent (e : EventData) (query : QueryPtr) : Result EventData :=
  let eventId := (e.eventList query).eventId
  match e.eventQueueHead eventId with
  | none =>
    let e := { e with
      eventQueueHead := update e.eventQueueHead eventId (some query)
      eventQueueTail := update e.eventQueueTail eventId (some query) }
    .ok (e.setNext query none)
  | some _ =>
    match e.eventQueueTail eventId with
    | none => .error .nullPointer
    | some lastQuery =>
      let e := e.setNext lastQuery (some query)
      let e := { e with eventQueueTail := update e.eventQueueTail eventId (some query) }
      .ok (e.setNext query none)

def vacantQuery (e : EventData) : Option QueryPtr :=
  (List.finRange 8).find? (fun x ↦ (e.eventList x).waitingTid = tasksIdInvalid)

def sysAwaitEvent (active : TdPtr) (k : KernelData) : Result KernelData :=
  let eventid := (k.tds active).systemCall.param1
  if h : eventid.toNat < 8 then
    match vacantQuery k.eventData with
    | none => .ok ((k.setReturnValue active errAwaiteventBufferTooSmall).setTaskReady active)
    | some query => do
      let e ← pushEvent (k.eventData.setQuery query
        ⟨(k.tds active).taskId, none, .valid, ⟨eventid.toNat, h⟩⟩) query
      .ok ({ k with eventData := e }.setState active .evtBlk)
  else .ok ((k.setReturnValue active errAwaiteventBadEventId).setTaskReady active)

def sysEventHappened (k : KernelData) (eventid : EventId) (retValue : Word) : Result KernelData :=
  match popEvent k.eventData eventid with
  | none => .ok k
  | some (query, e) =>
    match findTd (e.eventList query).waitingTid k.tds with
    | none => .error .nullPointer
    | some theTask =>
      let e := e.setQuery query { e.eventList query with
        waitingTid := tasksIdInvalid, nextQuery := none, state := .invalid }
      let k := { k with eventData := e }
      let k := k.setReturnValue theTask
        (if retValue = 0 then errAwaiteventVolatileInBuffer else retValue)
      .ok (k.setTaskReady theTask)

def handleInterrupt (k : KernelData) (isrNumber : Word) : Result KernelData :=
  if isrNumber = intUsb0 then sysEventHappened k eventidUsb0 0
  else if isrNumber = intUart0 then sysEventHappened k eventidUart0 0
  else .ok k

theorem vacantQuery_none {d : EventData} :
    vacantQuery d = none ↔ ∀ x, (d.eventList x).waitingTid ≠ tasksIdInvalid := by
  simp [vacantQuery, List.find?_eq_none]

def EventData.withQueues (e : EventData) (q : Queues EventId QueryPtr) : EventData where
  eventList := fun x ↦ { e.eventList x with nextQuery := q.next x }
  eventQueueHead := q.head
  eventQueueTail := q.tail

@[simp] theorem EventData.queues_withQueues (e : EventData) (q : Queues EventId QueryPtr) :
    (e.withQueues q).queues = q := rfl

theorem popEvent_eq (e : EventData) (i : EventId) :
    popEvent e i = (e.eventQueueHead i).map fun x ↦ (x, e.withQueues (e.queues.pop i x)) := by
  unfold popEvent
  cases hh : e.eventQueueHead i with
  | none => rfl
  | some x =>
    simp only [Option.map_some, Option.some.injEq, Prod.mk.injEq, true_and, EventData.withQueues,
      EventData.setNext, EventData.setQuery, EventData.mk.injEq, Queues.pop, EventData.queues,
      and_true]
    funext y
    by_cases hy : y = x <;> simp_all

theorem pushEvent_eq (e : EventData) (x : QueryPtr) :
    pushEvent e x = match e.queues.push (e.eventList x).eventId x with
      | none => .error .nullPointer
      | some q => .ok (e.withQueues q) := by
  unfold pushEvent Queues.push
  cases hh : e.eventQueueHead (e.eventList x).eventId with
  | none =>
    simp only [EventData.queues, hh]
    refine congrArg Except.ok ?_
    simp only [EventData.withQueues, EventData.setNext, EventData.setQuery, EventData.mk.injEq,
      and_true]
    funext y
    by_cases hy : y = x <;> simp_all
  | some z =>
    cases ht : e.eventQueueTail (e.eventList x).eventId with
    | none => simp [EventData.queues, hh, ht]
    | some last =>
      simp only [EventData.queues, hh, ht]
      refine congrArg Except.ok ?_
      simp only [EventData.withQueues, EventData.setNext, EventData.setQuery, EventData.mk.injEq,
        and_true]
      funext y
      by_cases hy : y = x <;> by_cases hl : y = last <;> simp_all

end PrjOS
