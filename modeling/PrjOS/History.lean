import PrjOS.RtosMain
import PrjOS.Library.Fifo

namespace PrjOS

open ByteMemory

def createParams (k : KernelData) (t : TdPtr) : SyscallNumber → Option TaskCreateParameters
  | .create => (sysCreate t k).toOption
  | .createMicrotask => (sysCreateMicroTask t k).toOption
  | _ => none

/-- What the call of `t` does to the send queues, by sender: an accepted send
is put into the receiver's queue, a delivery is taken from it, and a new task
starts with an empty one. -/
def sendEvents (k : KernelData) (t : TdPtr) : List (Fifo.Event TdPtr Word) :=
  match (k.tds t).call with
  | none => []
  | some .send =>
    match sendTarget k t with
    | .error _ => []
    | .ok r =>
      if (k.tds r).state = .sendBlk then [.put r (k.tds t).taskId, .get r (k.tds t).taskId]
      else [.put r (k.tds t).taskId]
  | some .receive | some .receiveNonblock =>
    if (k.tds t).systemCall.param2 = 0 then []
    else
      match (k.tds t).sendQueueHead with
      | none => []
      | some s => [.get t (k.tds s).taskId]
  | some c =>
    match (createParams k t c).bind fun params ↦ findAvailable k.tds params.taskType with
    | none => []
    | some j => [.reset j]

def awaitEvents (k : KernelData) (t : TdPtr) : List (Fifo.Event EventId Word) :=
  if (k.tds t).call = some .awaitEvent then
    if h : (k.tds t).systemCall.param1.toNat < 8 then
      if vacantQuery k.eventData = none then []
      else [.put ⟨(k.tds t).systemCall.param1.toNat, h⟩ (k.tds t).taskId]
    else []
  else []

/-- A call that does not concern the queues. -/
def Quiet (k : KernelData) (t : TdPtr) : Prop := sendEvents k t = [] ∧ awaitEvents k t = []

/-- A call that is neither about messages, events nor creation is quiet. -/
theorem quiet_of_call {k : KernelData} {t : TdPtr} {c : SyscallNumber}
    (h : (k.tds t).call = some c) (hs : c ≠ .send) (hr : c ≠ .receive)
    (hn : c ≠ .receiveNonblock) (ha : c ≠ .awaitEvent) (hc : createParams k t c = none) :
    Quiet k t := by
  refine ⟨?_, if_neg (by rw [h]; simpa using ha)⟩
  unfold sendEvents
  rw [h]
  cases c <;> simp_all

theorem awaitEvents_of_call {k : KernelData} {t : TdPtr}
    (h : (k.tds t).call ≠ some .awaitEvent) : awaitEvents k t = [] := if_neg h

end PrjOS
