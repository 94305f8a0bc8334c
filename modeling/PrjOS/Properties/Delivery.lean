import PrjOS.Invariants.Kernel

namespace PrjOS

open ByteMemory Function LinkedQueue Transition

variable {k k' : KernelData} {q : TdPtr → List TdPtr} {t : TdPtr}

def Pass.sendEvents (c : Pass) (s : RtosMain) : List (Fifo.Event TdPtr Word) :=
  match c.picked with
  | none => []
  | some t =>
    if ((c.entry s t).tds t).state = .syscallBlk then PrjOS.sendEvents (c.entry s t) t else []

def sendLog : RtosMain × List (Fifo.Event TdPtr Word) → Pass →
    RtosMain × List (Fifo.Event TdPtr Word) → Prop :=
  Logged passStep fun s c ↦ c.sendEvents s

/-- The memory once the message of `sender` is delivered to `r`: its bytes
that fit are in the buffer of `r` and its id is where `r` asked for it. The
call of `t` delivers it: a sender writes the id first, a receiver last. -/
def delivery (k : KernelData) (t sender r : TdPtr) : Memory :=
  let message := (k.tds sender).systemCall
  let buffer := (k.tds r).systemCall
  let n := min message.param3.toNat buffer.param3.toNat
  if r = t then
    writeWord (memcpy k.memory buffer.param2 message.param2 n) buffer.param1 (k.tds sender).taskId
  else
    memcpy (writeWord k.memory buffer.param1 (k.tds sender).taskId) buffer.param2 message.param2 n

def Delivered (k k' : KernelData) (t r : TdPtr) (x : Word) : Prop :=
  ∃ sender, (k.tds sender).taskId = x ∧ k'.memory = delivery k t sender r

theorem senders_same (h : ∀ i, (k'.tds i).taskId = (k.tds i).taskId) :
    senders k' q = senders k q := senders_congr fun _ s _ ↦ h s

theorem SameTasks.senders (h : SameTasks k k') : senders k' q = senders k q :=
  senders_same fun i ↦ core_taskId (h.core i)

theorem entry_senders {s : RtosMain} {c : Pass}
    (hready : isTaskReady ((loopHead c.iteration s).tds t) = true)
    (hq : SendInvariant s.kernel q) :
    SendInvariant (c.entry s t) q ∧ senders (c.entry s t) q = senders s.kernel q := by
  refine entry_invariant (P := fun k ↦ SendInvariant k q ∧ senders k q = senders s.kernel q)
    (fun hs h ↦ ⟨h.1.same hs.core, hs.senders.trans h.2⟩)
    (fun {k t} p hr h ↦ ⟨h.1.enter p hr, (senders_same fun i ↦ ?_).trans h.2⟩) hready ⟨hq, rfl⟩
  by_cases hi : i = t
  · subst hi
    rw [KernelData.modify_self, p.result_taskId]
  · rw [KernelData.modify_of_ne _ _ hi]

theorem passStep_send {s s' : RtosMain} {c : Pass} (h : passStep s c s')
    (hk : KernelInvariant s.kernel) (hq : SendInvariant s.kernel q) :
    ∃ q', SendInvariant s'.kernel q' ∧
      Run Fifo.Step (senders s.kernel q) (c.sendEvents s) (senders s'.kernel q') := by
  have hstay {k : KernelData} (hq' : SendInvariant k q) (hl : senders k q = senders s.kernel q)
      (he : SameTasks k s'.kernel) (hc : c.sendEvents s = []) :
      ∃ q', SendInvariant s'.kernel q' ∧
        Run Fifo.Step (senders s.kernel q) (c.sendEvents s) (senders s'.kernel q') := by
    refine ⟨q, hq'.same he.core, ?_⟩
    rw [hc, he.senders, hl]
    exact .nil
  rcases passStep_outcome h with ⟨hp, he⟩ | ⟨t, ht, hst, he⟩ | ⟨t, k, ht, hst, hk', he⟩ |
    ⟨t, k, ht, hst, hk', he⟩
  · exact hstay hq rfl he (by simp [Pass.sendEvents, hp])
  · obtain ⟨hq', hl⟩ := entry_senders (h.1 t ht) hq
    exact hstay hq' hl (he ▸ .refl _) (by simp [Pass.sendEvents, ht, hst])
  · obtain ⟨hq', hl⟩ := entry_senders (h.1 t ht) hq
    obtain ⟨q', hq'', hr⟩ := (handleSyscall_effect hst hk').send hq' hst
    refine ⟨q', hq''.same he.core, ?_⟩
    have hc : c.sendEvents s = PrjOS.sendEvents (c.entry s t) t := by
      simp [Pass.sendEvents, ht, hst]
    rw [hc, he.senders, ← hl]
    exact hr
  · obtain ⟨hq', hl⟩ := entry_senders (h.1 t ht) hq
    have hc : c.sendEvents s = [] := by simp [Pass.sendEvents, ht, hst]
    have hinv : KernelInvariant (c.entry s t) := hk.entry (h.1 t ht)
    cases handleInterrupt_effect hk' with
    | ignored => exact hstay hq' hl he hc
    | lost => exact hstay hq' hl he hc
    | wakes e x i hev hx hi =>
      obtain ⟨j, hj, hw⟩ := hinv.events.wakes hinv.ids hx
      obtain rfl := Option.some.inj (hi.symm.trans hj)
      refine hstay (hq'.wake e x hw) ((senders_same fun j ↦ ?_).trans hl) he hc
      rw [woken_tds]
      by_cases hji : j = i
      · subst hji
        rw [KernelData.modify_self]
        rfl
      · rw [KernelData.modify_of_ne _ _ hji]

theorem SyscallEffect.delivers (h : SyscallEffect k t k') (hq : SendInvariant k q)
    (hstate : (k.tds t).state = .syscallBlk) {r : TdPtr} {x : Word}
    (hget : .get r x ∈ PrjOS.sendEvents k t) : Delivered k k' t r x := by
  cases h with
  | returns hquiet _ => simp [hquiet.1] at hget
  | stuck hn _ => simp [(quiet_of_not_completes hn).1] at hget
  | exits hcall _ => simp [PrjOS.sendEvents, hcall, createParams] at hget
  | waits hcall hh _ _ => simp [PrjOS.sendEvents, hcall, hh] at hget
  | hands r' hcall ht hr =>
    have hne : t ≠ r' := KernelData.ne_of_state hstate hr (by decide)
    simp only [PrjOS.sendEvents, hcall, ht, hr, if_true, List.mem_cons, reduceCtorEq,
      Fifo.Event.get.injEq, List.not_mem_nil, false_or, or_false] at hget
    obtain ⟨rfl, rfl⟩ := hget
    refine ⟨t, rfl, ?_⟩
    simp only [delivery, if_neg (Ne.symm hne), ← truncateTo_toNat, storeResult, handOff_eq k hne]
    rfl
  | queues r' links hcall ht hr hp => simp [PrjOS.sendEvents, hcall, ht, hr] at hget
  | takes s blocking hcall hb hs =>
    have hne : t ≠ s := hq.head_ne hstate hs
    have hev : PrjOS.sendEvents k t = [.get t (k.tds s).taskId] := by
      cases blocking <;> simpa [PrjOS.sendEvents, hcall, hs] using hb
    simp only [hev, List.mem_singleton, Fifo.Event.get.injEq] at hget
    obtain ⟨rfl, rfl⟩ := hget
    refine ⟨s, rfl, ?_⟩
    simp only [delivery, if_true, ← truncateTo_toNat, receive_eq k hne hs hb]
  | replies s hcall hl hr => simp [PrjOS.sendEvents, hcall, createParams] at hget
  | awaits x e links hcall he hx hp => simp [PrjOS.sendEvents, hcall, createParams] at hget
  | creates c params j s hcall hp hj hs =>
    cases c <;> simp_all [PrjOS.sendEvents, createParams]

theorem receive_memory (blocking : Bool)
    (hc : (k.tds t).call = some (if blocking then .receive else .receiveNonblock))
    (hno : ∀ r x, .get r x ∉ PrjOS.sendEvents k t) :
    (storeResult t (sysReceive t k blocking)).memory = k.memory := by
  by_cases hb : (k.tds t).systemCall.param2 = 0
  · rw [sysReceive, if_pos hb]
    rfl
  · cases hh : (k.tds t).sendQueueHead with
    | none =>
      simp only [sysReceive, if_neg hb, pop, hh, Option.map_none]
      cases blocking <;> rfl
    | some s =>
      refine absurd ?_ (hno t (k.tds s).taskId)
      cases blocking <;> simpa [PrjOS.sendEvents, hc, hh] using hb

theorem send_memory (hc : (k.tds t).call = some .send)
    (hno : ∀ r x, .get r x ∉ PrjOS.sendEvents k t) {r : KernelData × Word}
    (h : sysSend t k = .ok r) : r.1.memory = k.memory := by
  unfold sysSend at h
  cases ht : sendTarget k t with
  | error e =>
    simp only [ht, Except.ok.injEq] at h
    subst h
    rfl
  | ok receiver =>
    simp only [ht] at h
    split_ifs at h with hr
    · exact absurd (by simp [PrjOS.sendEvents, hc, ht, hr]) (hno receiver (k.tds t).taskId)
    · rw [push_eq] at h
      cases hp : (k.setState t .rcvdBlk).sendQueues.push receiver t with
      | none => simp [hp, bind, Except.bind] at h
      | some links =>
        simp only [hp, bind, Except.bind, Except.ok.injEq] at h
        subst h
        rfl

def Messaging (k : KernelData) (t : TdPtr) : Prop :=
  (k.tds t).call = some .send ∨ (k.tds t).call = some .receive ∨
    (k.tds t).call = some .receiveNonblock

/-- Sends and receives that deliver nothing write nothing. -/
theorem memory_of_no_get (hstate : (k.tds t).state = .syscallBlk)
    (h : handleSyscall k t = .ok k') (hc : Messaging k t)
    (hno : ∀ r x, .get r x ∉ PrjOS.sendEvents k t) : k'.memory = k.memory := by
  unfold handleSyscall at h
  rw [if_neg (by simp [hstate])] at h
  rcases hc with hc | hc | hc
  · simp only [hc] at h
    cases hs : sysSend t k with
    | error e => simp [hs, bind, Except.bind] at h
    | ok r =>
      simp only [hs, bind, Except.bind, Except.ok.injEq] at h
      exact h ▸ send_memory hc hno hs
  · simp only [hc, Except.ok.injEq] at h
    exact h ▸ receive_memory true hc hno
  · simp only [hc, Except.ok.injEq] at h
    exact h ▸ receive_memory false hc hno

theorem sendLog_invariant {b : Boot} {cs : List Pass} {s : RtosMain}
    {log : List (Fifo.Event TdPtr Word)} (h : Run sendLog (booted b, []) cs (s, log)) :
    KernelInvariant s.kernel ∧ ∃ q, SendInvariant s.kernel q ∧
      Run Fifo.Step (fun _ ↦ []) log (senders s.kernel q) := by
  have hr : Reachable b s := ⟨booted b, cs, boot_eq b, h.forget⟩
  refine ⟨hr.kernelInvariant, ?_⟩
  refine (h.invariant (P := fun sl ↦ Reachable b sl.1 ∧ ∃ q, SendInvariant sl.1.kernel q ∧
    Run Fifo.Step (fun _ ↦ []) sl.2 (senders sl.1.kernel q))
    ⟨⟨booted b, [], boot_eq b, .nil⟩, _, .boot b, .nil⟩ ?_).2
  rintro ⟨s, log⟩ c ⟨s', log'⟩ ⟨hreach, q, hq, hlog⟩ ⟨hstep, rfl⟩
  obtain ⟨q', hq', hr'⟩ := passStep_send hstep hreach.kernelInvariant hq
  exact ⟨hreach.next hstep, q', hq', hlog.trans hr'⟩

/-- Messages are delivered exactly once and in order, over any run and any
order of dispatching. -/
theorem fifo_delivery {b : Boot} {cs : List Pass} {s : RtosMain}
    {log : List (Fifo.Event TdPtr Word)} (h : Run sendLog (booted b, []) cs (s, log)) :
    (∃ q : TdPtr → List TdPtr,
      (∀ r, Chain (fun x ↦ (s.kernel.tds x).sendQueueNext) (s.kernel.tds r).sendQueueHead (q r)) ∧
      (∀ r, Fifo.gets r log ++ (q r).map (fun x ↦ (s.kernel.tds x).taskId) = Fifo.puts r log) ∧
      (∀ r, ∀ x ∈ q r, (s.kernel.tds x).state = .rcvdBlk ∧
        (s.kernel.tds x).systemCall.param1 = (s.kernel.tds r).taskId) ∧
      (∀ r, (q r).Nodup) ∧ (∀ r r' x, x ∈ q r → x ∈ q r' → r = r') ∧
      (∀ r, q r ≠ [] → (s.kernel.tds r).sendQueueTail = (q r).getLast?) ∧
      ∀ r, (s.kernel.tds r).state = .sendBlk → q r = []) ∧
    EachStep passStep (booted b) cs fun s c ↦ ∀ t k', c.picked = some t →
      isTaskReady ((loopHead c.iteration s).tds t) = true →
      ((c.entry s t).tds t).state = .syscallBlk → handleSyscall (c.entry s t) t = .ok k' →
      (∀ r x, .get r x ∈ c.sendEvents s → Delivered (c.entry s t) k' t r x) ∧
      (Messaging (c.entry s t) t → (∀ r x, .get r x ∉ c.sendEvents s) →
        k'.memory = (c.entry s t).memory) := by
  obtain ⟨-, q, hq, hlog⟩ := sendLog_invariant h
  refine ⟨⟨q, hq.queues.chain, Fifo.gets_append_eq_puts hlog,
    fun r x hx ↦ ⟨hq.blocked hx, hq.target hx⟩, hq.queues.nodup,
    fun _ _ _ hx hx' ↦ hq.queues.disjoint hx hx', hq.queues.tail, hq.waiting⟩, ?_⟩
  intro pre c hpre s hr t k' ht hready hst hk'
  have hreach : Reachable b s := ⟨booted b, pre, boot_eq b, hr⟩
  have hev : c.sendEvents s = PrjOS.sendEvents (c.entry s t) t := by
    simp [Pass.sendEvents, ht, hst]
  rw [hev]
  obtain ⟨q, hq⟩ := (hreach.entry hready).send
  exact ⟨fun r x hget ↦ (handleSyscall_effect hst hk').delivers hq hst hget,
    fun hm hno ↦ memory_of_no_get hst hk' hm hno⟩

/-- The second and the third task are created and send to the first one. -/
def queuedPasses : List Pass :=
  [(callBy 0 5 0 0x300#32 0 0 0 0).pass 0,
    (callBy 1 8 0x1000#32 0x20005310#32 4 0x20005320#32 4 0).pass 1,
    (callBy 0 5 0 0x300#32 0 0 0 0).pass 0,
    (callBy 2 8 0x1000#32 0x20004a10#32 4 0x20004a20#32 4 0).pass 2]

def receivePass : Pass := (callBy 0 9 0x20005c00#32 0x20005c10#32 8 0 0 0).pass 0

theorem fifo_delivery_queued : ∃ s log k' s' log',
    Run sendLog (booted sampleBoot, []) queuedPasses (s, log) ∧
    Fifo.puts 0 log = [0x1001#32, 0x1002#32] ∧
    handleSyscall (receivePass.entry s 0) 0 = .ok k' ∧
    Delivered (receivePass.entry s 0) k' 0 0 0x1001#32 ∧
    sendLog (s, log) receivePass (s', log') ∧ Fifo.gets 0 log' = [0x1001#32] ∧
    ∃ q : TdPtr → List TdPtr, (q 0).map (fun x ↦ (s'.kernel.tds x).taskId) = [0x1002#32] := by
  obtain ⟨s, log, s', log', k', hr, hstep, hready, hstate, hk', hget, hputs, hputs', hgets⟩ :
      ∃ s log s' log' k', Run sendLog (booted sampleBoot, []) queuedPasses (s, log) ∧
        sendLog (s, log) receivePass (s', log') ∧
        isTaskReady ((loopHead receivePass.iteration s).tds 0) = true ∧
        ((receivePass.entry s 0).tds 0).state = .syscallBlk ∧
        handleSyscall (receivePass.entry s 0) 0 = .ok k' ∧
        .get 0 0x1001#32 ∈ receivePass.sendEvents s ∧
        Fifo.puts 0 log = [0x1001#32, 0x1002#32] ∧ Fifo.puts 0 log' = [0x1001#32, 0x1002#32] ∧
        Fifo.gets 0 log' = [0x1001#32] := by
    refine ⟨_, _, _, _, _, .log (.log (.log (.log .nil ⟨?_, rfl⟩) ⟨?_, rfl⟩) ⟨?_, rfl⟩) ⟨?_, rfl⟩,
      ⟨⟨?_, rfl⟩, rfl⟩, by decide, by decide, rfl, by decide, by decide, by decide, by decide⟩
    all_goals
      intro t ht
      cases ht
      decide
  have hlast : Run sendLog (booted sampleBoot, []) (queuedPasses ++ [receivePass]) (s', log') :=
    hr.snoc hstep
  obtain ⟨⟨q, -, hq, -⟩, hdelivers⟩ := fifo_delivery hlast
  have hdelivered := (hdelivers queuedPasses receivePass List.prefix_rfl s hr.forget 0 k' rfl hready
    hstate hk').1 0 _ hget
  have hqueue := hq 0
  rw [hgets, hputs'] at hqueue
  exact ⟨s, log, k', s', log', hr, hputs, hk', hdelivered, hstep, hgets, q,
    List.append_cancel_left hqueue⟩

end PrjOS
