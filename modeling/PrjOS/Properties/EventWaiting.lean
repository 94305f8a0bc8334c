import PrjOS.Invariants.EventPool

namespace PrjOS

open ByteMemory Function LinkedQueue Transition

variable {k k' : KernelData} {w : EventId → List QueryPtr} {t : TdPtr}

/-- An interrupt makes ready the first task of its event's queue, or nobody
and then changes nothing. -/
def WakesFirst (k : KernelData) (w : EventId → List QueryPtr) (isrNumber : Word) : Prop :=
  match (eventOf isrNumber).bind fun e ↦ (w e).head? with
  | none => handleInterrupt k isrNumber = .ok k
  | some x => ∃ i k', findTd (k.eventData.eventList x).waitingTid k.tds = some i ∧
      (k.tds i).state = .evtBlk ∧ handleInterrupt k isrNumber = .ok k' ∧
      k'.tds i = (k.tds i).awake ∧ ∀ j, j ≠ i → k'.tds j = k.tds j

theorem EventPool.wakesFirst (hw : EventPool k w) (hk : KernelInvariant k) (isrNumber : Word) :
    WakesFirst k w isrNumber := by
  unfold WakesFirst
  rw [handleInterrupt_eq]
  cases he : eventOf isrNumber with
  | none => rfl
  | some e =>
    simp only [Option.bind_some, ← hw.queues.head_eq e, sysEventHappened_eq]
    cases hx : k.eventData.queues.head e with
    | none =>
      have hx' : k.eventData.eventQueueHead e = none := hx
      simp only [hx']
    | some x =>
      have hx' : k.eventData.eventQueueHead e = some x := hx
      obtain ⟨i, hi, hs⟩ := hk.events.wakes hk.ids hx'
      simp only [hx', hi]
      refine ⟨i, woken k e x i, rfl, hs, rfl, ?_, fun j hj ↦ ?_⟩
      · rw [woken_tds, KernelData.modify_self]
      · rw [woken_tds, KernelData.modify_of_ne _ _ hj]

/-- `AwaitEvent` always returns, and it reports a full pool exactly when the
event exists and every entry is in use. -/
theorem awaitEvent_full (hk : KernelInvariant k) (hstate : (k.tds t).state = .syscallBlk)
    (hc : (k.tds t).call = some .awaitEvent) : ∃ k', handleSyscall k t = .ok k' ∧
      ((k'.tds t).state = .running ∧
          (k'.tds t).systemCall.returnValue = errAwaiteventBufferTooSmall ↔
        (k.tds t).systemCall.param1.toNat < eventsNumTypes ∧
          ∀ x, (k.eventData.eventList x).waitingTid ≠ tasksIdInvalid) := by
  unfold handleSyscall
  rw [if_neg (by simp [hstate])]
  simp only [hc, sysAwaitEvent, ← vacantQuery_none]
  by_cases he : (k.tds t).systemCall.param1.toNat < 8
  · rw [dif_pos he]
    cases hv : vacantQuery k.eventData with
    | none => exact ⟨_, rfl, by
        simp [KernelData.setReturnValue, KernelData.setTaskReady, KernelData.setState,
          eventsNumTypes, he]⟩
    | some x =>
      obtain ⟨links, hp⟩ := Tailed.exists_push
        (q := (k.eventData.setQuery x ⟨(k.tds t).taskId, none, .valid, ⟨_, he⟩⟩).queues)
        hk.events.tailed ⟨_, he⟩ x
      simp only [pushEvent_eq, EventData.setQuery_self, hp, bind, Except.bind]
      exact ⟨_, rfl, by simp [KernelData.setState]⟩
  · rw [dif_neg he]
    exact ⟨_, rfl, by
      simp [KernelData.setReturnValue, KernelData.setTaskReady, KernelData.setState,
        eventsNumTypes, he, errAwaiteventBadEventId, errAwaiteventBufferTooSmall]⟩

/-- The event pool over any run in which no task id wraps around: entries,
queues and waiting tasks agree, events wake tasks in the order in which they
began to wait, and `AwaitEvent` reports a full pool when it must. -/
theorem event_waiting {b : Boot} {cs : List Pass} {s : RtosMain}
    {log : List (Fifo.Event EventId Word)} (h : Run eventLog (booted b, []) cs (s, log)) :
    ∃ w, EventPool s.kernel w ∧
      (∀ e, Fifo.gets e log ++ (w e).map (fun x ↦ (s.kernel.eventData.eventList x).waitingTid) =
        Fifo.puts e log) ∧
      ∀ (c : Pass) (t : TdPtr), c.picked = some t →
        isTaskReady ((loopHead c.iteration s).tds t) = true →
        (c.entry s t).eventData = s.kernel.eventData ∧
        (((c.entry s t).tds t).state = .hwint →
          WakesFirst (c.entry s t) w c.iteration.preemption.reason) ∧
        (((c.entry s t).tds t).state = .syscallBlk →
          ((c.entry s t).tds t).call = some .awaitEvent →
          ∃ k', handleSyscall (c.entry s t) t = .ok k' ∧
            ((k'.tds t).state = .running ∧
                (k'.tds t).systemCall.returnValue = errAwaiteventBufferTooSmall ↔
              ((c.entry s t).tds t).systemCall.param1.toNat < eventsNumTypes ∧
                ∀ x, (s.kernel.eventData.eventList x).waitingTid ≠ tasksIdInvalid)) := by
  obtain ⟨hreach, hi, w, hw, hlog⟩ := eventLog_invariant h
  refine ⟨w, hw, Fifo.gets_append_eq_puts hlog, fun c t ht hready ↦ ?_⟩
  have hk := hreach.entry hready
  obtain ⟨-, hw', -⟩ := entry_pool hready hi hw
  have he : (c.entry s t).eventData = s.kernel.eventData :=
    entry_invariant (P := fun k ↦ k.eventData = s.kernel.eventData)
      (fun hs h ↦ hs.eventData.trans h) (fun _ _ h ↦ h) hready rfl
  exact ⟨he, fun _ ↦ hw'.wakesFirst hk _, fun hst hc ↦ he ▸ awaitEvent_full hk hst hc⟩

/-- The first task creates eight microtasks, and each of them waits for
characters from the serial port. -/
def crowdPasses : List Pass :=
  List.replicate 8 ((callBy 0 15 0x300#32 0 0 0 0 0).pass 0) ++
    ([8, 9, 10, 11, 12, 13, 14, 15] : List TdPtr).map fun i ↦ (callBy i 14 3 0 0 0 0 0).pass i

def uartPass : Pass := (Preemption.interrupt 0x20005f00#32 intUart0).pass 0

theorem event_waiting_crowd : ∃ s log w,
    Run eventLog (booted sampleBoot, []) crowdPasses (s, log) ∧ EventPool s.kernel w ∧
      (w eventidUart0).length = 8 ∧
      WakesFirst (uartPass.entry s 0) w uartPass.iteration.preemption.reason := by
  have hrun := exists_run Pass.growRun_step (booted sampleBoot, []) crowdPasses
    (fun sl ↦ decide (Fifo.gets eventidUart0 sl.2 = [] ∧
      (Fifo.puts eventidUart0 sl.2).length = 8 ∧
      isTaskReady ((loopHead uartPass.iteration sl.1).tds 0) = true ∧
      ((uartPass.entry sl.1 0).tds 0).state = .hwint)) (by decide +kernel)
  obtain ⟨⟨s, log⟩, hr, hp⟩ := hrun
  obtain ⟨hgets, hputs, hready, hstate⟩ := of_decide_eq_true hp
  obtain ⟨w, hw, hlog, hpass⟩ := event_waiting hr
  have hlen := congrArg List.length (hlog eventidUart0)
  rw [hgets, hputs, List.nil_append, List.length_map] at hlen
  exact ⟨s, log, w, hr, hw, hlen, (hpass uartPass 0 rfl hready).2.1 hstate⟩

def badEventPass : Pass := (callBy 0 14 99 0 0 0 0 0).pass 0

/-- A full pool is not reported to a task that names no event. -/
theorem awaitEvent_full_badEventId : ∃ s log k',
    Run eventLog (booted sampleBoot, []) crowdPasses (s, log) ∧
      isTaskReady ((loopHead badEventPass.iteration s).tds 0) = true ∧
      ((badEventPass.entry s 0).tds 0).call = some .awaitEvent ∧
      (∀ x, ((badEventPass.entry s 0).eventData.eventList x).waitingTid ≠ tasksIdInvalid) ∧
      handleSyscall (badEventPass.entry s 0) 0 = .ok k' ∧
      (k'.tds 0).systemCall.returnValue ≠ errAwaiteventBufferTooSmall := by
  have hrun := exists_run Pass.growRun_step (booted sampleBoot, []) crowdPasses
    (fun sl ↦ decide (isTaskReady ((loopHead badEventPass.iteration sl.1).tds 0) = true ∧
      ((badEventPass.entry sl.1 0).tds 0).call = some .awaitEvent ∧
      (∀ x, ((badEventPass.entry sl.1 0).eventData.eventList x).waitingTid ≠ tasksIdInvalid) ∧
      ((handleSyscall (badEventPass.entry sl.1 0) 0).toOption.map
        fun k ↦ (k.tds 0).systemCall.returnValue) = some errAwaiteventBadEventId))
    (by decide +kernel)
  obtain ⟨⟨s, log⟩, hr, hp⟩ := hrun
  obtain ⟨hready, hcall, hfull, hret⟩ := of_decide_eq_true hp
  cases hk : handleSyscall (badEventPass.entry s 0) 0 with
  | error e => simp [hk, Except.toOption] at hret
  | ok k' =>
    simp only [hk, Except.toOption, Option.map_some, Option.some.injEq] at hret
    exact ⟨s, log, k', hr, hready, hcall, hfull, hk, by rw [hret]; decide⟩

end PrjOS
