import PrjOS.Properties.Completion

namespace PrjOS

open ByteMemory Function LinkedQueue Transition

variable {k k' : KernelData} {q q' : TdPtr → List TdPtr} {t : TdPtr}

def OnQueue (k : KernelData) (r x : TdPtr) : Prop :=
  ∃ l, Chain (fun i ↦ (k.tds i).sendQueueNext) (k.tds r).sendQueueHead l ∧ x ∈ l

/-- Every blocked sender is on the queue of the task it named, which still
has that id and has not ended. -/
def SendersHeld (k : KernelData) : Prop :=
  ∀ x, (k.tds x).state = .rcvdBlk → ∃ r, OnQueue k r x ∧
    (k.tds r).taskId = (k.tds x).systemCall.param1 ∧ hasExited (k.tds r) = false

def Released (k : KernelData) (x : TdPtr) : Prop :=
  (k.tds x).state = .running ∧ (k.tds x).systemCall.returnValue = errSendExited

/-- What the kernel does for a task that came back, unless it was killed. -/
def serve (k : KernelData) (t : TdPtr) (preemptionReason : Word) : Result KernelData :=
  if hasExited (k.tds t) then .ok k else kernelTasks k t preemptionReason

/-- From `k` to `k'`, on behalf of `t`, no sender is left behind. -/
structure LeavesNobody (k k' : KernelData) (t : TdPtr) : Prop where
  ended : hasExited (k'.tds t) = true → ∀ x, OnQueue k t x → Released k' x
  refused : (k.tds t).state = .syscallBlk → (k.tds t).call = some .send →
    ∀ r, (k.tds r).taskId = (k.tds t).systemCall.param1 → hasExited (k.tds r) = true →
      (k'.tds t).state = .running ∧ (k'.tds t).systemCall.returnValue.slt 0 = true
  reused : ∀ j, isTdAvailable (k.tds j) = true → isTdAvailable (k'.tds j) = false →
    ∀ x, OnQueue k j x → Released k' x

/-- No task ends while others wait for it to receive, and nobody sends to a
task that has ended. -/
structure Considerate (k : KernelData) (t : TdPtr) : Prop where
  killed : (k.tds t).state = .killed → (k.tds t).sendQueueHead = none
  exits : (k.tds t).state = .syscallBlk → (k.tds t).call = some .threadexit →
    (k.tds t).sendQueueHead = none
  sends : (k.tds t).state = .syscallBlk → (k.tds t).call = some .send →
    ∀ r, sendTarget k t = .ok r → hasExited (k.tds r) = false

theorem SendInvariant.onQueue (h : SendInvariant k q) {r x : TdPtr} : OnQueue k r x ↔ x ∈ q r := by
  constructor
  · rintro ⟨l, hl, hx⟩
    exact (h.queues.chain r).unique hl ▸ hx
  · exact fun hx ↦ ⟨q r, h.queues.chain r, hx⟩

/-- Every blocked sender is on the queue of a task that has not ended. -/
def Attached (k : KernelData) (q : TdPtr → List TdPtr) : Prop :=
  ∀ x, (k.tds x).state = .rcvdBlk → ∃ r, x ∈ q r ∧ hasExited (k.tds r) = false

theorem Attached.held (h : Attached k q) (hq : SendInvariant k q) : SendersHeld k := by
  intro x hx
  obtain ⟨r, hr, he⟩ := h x hx
  exact ⟨r, hq.onQueue.mpr hr, (hq.target hr).symm, he⟩

theorem Attached.available (h : Attached k q) (hq : SendInvariant k q) (hu : UnusedIds k)
    {j : TdPtr} (hj : isTdAvailable (k.tds j) = true) : q j = [] := by
  by_contra hne
  obtain ⟨x, hx⟩ := List.exists_mem_of_ne_nil _ hne
  obtain ⟨r, hr, he⟩ := h x (hq.blocked hx)
  obtain rfl := hq.queues.disjoint hx hr
  have hinv : (k.tds j).state = .invalid := by
    unfold isTdAvailable at hj
    unfold hasExited at he
    split at hj <;> simp_all
  exact hq.generation j hne (hu j hinv)

/-- A sender that stays blocked stays on the same queue, if that task's
descriptor is not used again. -/
theorem SyscallEffect.stays (h : SyscallEffect k t k') (hq : SendInvariant k q)
    (hq' : SendInvariant k' q') (hstate : (k.tds t).state = .syscallBlk) {r x : TdPtr}
    (hx : x ∈ q r) (hb : (k'.tds x).state = .rcvdBlk)
    (hr : isTdAvailable (k.tds r) = false) : x ∈ q' r := by
  have hsame (hs : SendInvariant k' q) : x ∈ q' r := hs.queues.unique hq'.queues ▸ hx
  cases h with
  | returns _ hc => exact hsame (hq.callerOnly hc hstate (by simp))
  | exits _ hc => exact hsame (hq.callerOnly hc hstate (by simp))
  | stuck _ hc => exact hsame (hq.callerOnly hc hstate (by simp))
  | waits _ hh _ hc =>
    exact hsame (hq.callerOnly hc hstate fun _ ↦ hq.queues.head_none.mp hh)
  | hands r' hc ht hr' => exact hsame (hq.hands hstate hr')
  | queues r' links hc ht hr' hp =>
    rw [hq'.queues.unique (hq.queue hstate ht hr' hp).queues, mem_update_append]
    exact .inl hx
  | takes s blocking hc hbuf hs =>
    obtain ⟨rest, hrest⟩ : ∃ rest, q t = s :: rest := by
      rw [hq.head_eq] at hs
      exact List.head?_eq_some_iff.mp hs
    have hne : t ≠ s := by
      rintro rfl
      simp [hq.blocked (show t ∈ q t by rw [hrest]; simp)] at hstate
    have hxs : x ≠ s := by
      rintro rfl
      rw [receive_eq k hne hs hbuf] at hb
      simp [Ne.symm hne] at hb
    rw [hq'.queues.unique (hq.take blocking hstate hrest hbuf).queues]
    by_cases hrt : r = t
    · rw [hrt, update_self]
      rw [hrt, hrest] at hx
      exact (List.mem_cons.mp hx).resolve_left hxs
    · rwa [update_of_ne hrt]
  | replies s hc hl hs => exact hsame (hq.replies hstate hs)
  | awaits x' e links hc he hv hp => exact hsame (hq.awaits _ hstate)
  | creates c params j s hc hp hj hs =>
    have hja := (findAvailable_some hj).2
    rw [hq'.queues.unique (hq.create hstate hja).queues, update_of_ne]
    · exact hx
    · rintro rfl
      simp [hja] at hr

theorem OtherChange.of_rcvdBlk {i : TdPtr} {td : TaskDescriptor} (h : OtherChange k t i td)
    (hi : td.state = .rcvdBlk) : (k.tds i).state = .rcvdBlk := by
  cases h with
  | kept => exact hi
  | handed => simp [TaskDescriptor.resume] at hi
  | received => simp [TaskDescriptor.resume] at hi
  | replied => simp [TaskDescriptor.resume] at hi
  | created => simp [newTask] at hi

theorem OtherChange.not_exited {i : TdPtr} {td : TaskDescriptor} (h : OtherChange k t i td)
    (hi : hasExited (k.tds i) = false) : hasExited td = false := by
  cases h with
  | kept => exact hi
  | handed => rfl
  | received => rfl
  | replied => rfl
  | created => rfl

/-- A sender that blocks is put on the queue of the task it named. -/
theorem SyscallEffect.joins (h : SyscallEffect k t k') (hq : SendInvariant k q)
    (hq' : SendInvariant k' q') (hstate : (k.tds t).state = .syscallBlk)
    (hb : (k'.tds t).state = .rcvdBlk) :
    ∃ r, (k.tds t).call = some .send ∧ sendTarget k t = .ok r ∧ t ∈ q' r := by
  cases h with
  | returns _ hc => simp [hc.state] at hb
  | exits _ hc => simp [hc.state] at hb
  | stuck _ hc => simp [hc.state] at hb
  | waits _ _ _ hc => simp [hc.state] at hb
  | hands r hc ht hr =>
    have hne : t ≠ r := KernelData.ne_of_state hstate hr (by decide)
    rw [storeResult, handOff_eq k hne] at hb
    simp [KernelData.setReturnValue] at hb
  | queues r links hc ht hr hp =>
    refine ⟨r, hc, ht, ?_⟩
    rw [hq'.queues.unique (hq.queue hstate ht hr hp).queues, mem_update_append]
    exact .inr ⟨rfl, rfl⟩
  | takes s blocking hc hbuf hs =>
    have hne : t ≠ s := hq.head_ne hstate hs
    rw [receive_eq k hne hs hbuf] at hb
    simp at hb
  | replies s hc hl hs =>
    rw [storeResult, deliverReply_eq] at hb
    simp [KernelData.setReturnValue, KernelData.setState] at hb
  | awaits x e links hc he hv hp => simp [KernelData.setState] at hb
  | creates c params j s hc hp hj hs =>
    simp [created, KernelData.setTaskReady, KernelData.setState] at hb

theorem handleSyscall_ends (h : handleSyscall k t = .ok k') (hq : SendInvariant k q)
    (hstate : (k.tds t).state = .syscallBlk) (he : hasExited (k'.tds t) = true) :
    (k.tds t).call = some .threadexit := by
  by_cases hc : Completes k t
  · have hf := (handleSyscall_effect hstate h).finished hq hstate hc
    unfold hasExited at he
    split at he
    · rename_i hs
      rw [hs] at hf
      exact hf
    · rename_i hs
      rw [hs] at hf
      exact hf.elim
    · simp at he
  · obtain ⟨k'', hk'', hs⟩ := handleSyscall_stuck hstate hc
    obtain rfl := Except.ok.inj (h.symm.trans hk'')
    simp [hasExited, hs] at he

theorem Attached.same (h : Attached k q) (hs : SameTasks k k') : Attached k' q := by
  intro x hx
  obtain ⟨r, hr, he⟩ := h x (core_state (hs.core x) ▸ hx)
  refine ⟨r, hr, ?_⟩
  rw [hasExited, core_state (hs.core r)]
  exact he

/-- A task that comes back to the kernel strands nobody, unless it is killed
while others wait for it. -/
theorem Attached.enter (h : Attached k q) (hq : SendInvariant k q) (p : Preemption)
    (hr : isTaskReady (k.tds t) = true)
    (hkill : (p.result (k.tds t)).state = .killed → (k.tds t).sendQueueHead = none) :
    Attached (k.modify t p.result) q := by
  intro x hx
  have hxt : x ≠ t := by
    rintro rfl
    rw [KernelData.modify_self] at hx
    have hs := p.result_state (k.tds x)
    simp [hx] at hs
  rw [KernelData.modify_of_ne _ _ hxt] at hx
  obtain ⟨r, hmem, he⟩ := h x hx
  refine ⟨r, hmem, ?_⟩
  by_cases hrt : r = t
  · subst hrt
    rw [KernelData.modify_self]
    rcases p.result_state (k.tds r) with hs | ⟨hs, -⟩ | ⟨hs, -⟩
    · rw [hq.queues.head_none.mp (hkill hs)] at hmem
      simp at hmem
    · simp [hasExited, hs]
    · simp [hasExited, hs]
  · rwa [KernelData.modify_of_ne _ _ hrt]

theorem Attached.call (h : Attached k q) (hk' : handleSyscall k t = .ok k')
    (hq : SendInvariant k q) (hq' : SendInvariant k' q') (hu : UnusedIds k)
    (hstate : (k.tds t).state = .syscallBlk) (hc : Considerate k t) :
    Attached k' q' := by
  have heff := handleSyscall_effect hstate hk'
  have hcaller {r x : TdPtr} (hm : x ∈ q r) (hr : r = t) : hasExited (k'.tds t) = false := by
    by_contra he
    have hcall := handleSyscall_ends hk' hq hstate (by simpa using he)
    rw [hr, hq.queues.head_none.mp (hc.exits hstate hcall)] at hm
    simp at hm
  intro x hx
  by_cases hxt : x = t
  · subst hxt
    obtain ⟨r, hcall, ht, hm⟩ := heff.joins hq hq' hstate hx
    refine ⟨r, hm, ?_⟩
    by_cases hrx : r = x
    · subst hrx
      simp [hasExited, hx]
    · exact (heff.other hq hstate hrx).not_exited (hc.sends hstate hcall r ht)
  · have hold := (heff.other hq hstate hxt).of_rcvdBlk hx
    obtain ⟨r, hm, he⟩ := h x hold
    have hav : isTdAvailable (k.tds r) = false := by
      by_contra ha
      rw [h.available hq hu (by simpa using ha)] at hm
      simp at hm
    refine ⟨r, heff.stays hq hq' hstate hm hx hav, ?_⟩
    by_cases hrt : r = t
    · rw [hrt]
      exact hcaller hm hrt
    · exact (heff.other hq hstate hrt).not_exited he

theorem SyscallEffect.send_blocks (h : SyscallEffect k t k')
    (hstate : (k.tds t).state = .syscallBlk) (hcall : (k.tds t).call = some .send) {r : TdPtr}
    (ht : sendTarget k t = .ok r) : (k'.tds t).state ≠ .running := by
  cases h with
  | returns hquiet _ =>
    have hev := hquiet.1
    simp only [sendEvents, hcall, ht] at hev
    split_ifs at hev
  | exits hc _ => simp [hcall] at hc
  | stuck hn _ => exact absurd (by simp [Completes, hcall]) hn
  | waits hc _ _ _ => simp [hcall] at hc
  | hands r' hc ht' hr =>
    have hne : t ≠ r' := KernelData.ne_of_state hstate hr (by decide)
    rw [storeResult, handOff_eq k hne]
    simp [KernelData.setReturnValue]
  | queues r' links hc ht' hr hp =>
    simp [storeResult, KernelData.setReturnValue, KernelData.withSendQueues, KernelData.setState]
  | takes s blocking hc hb hs => cases blocking <;> simp [hcall] at hc
  | replies s hc hl hs => simp [hcall] at hc
  | awaits x e links hc he hv hp => simp [hcall] at hc
  | creates c params j s hc hp hj hs =>
    obtain rfl := Option.some.inj (hcall.symm.trans hc)
    simp [createParams] at hp

theorem handleSyscall_refused (hstate : (k.tds t).state = .syscallBlk)
    (hc : (k.tds t).call = some .send) {e : Word} (ht : sendTarget k t = .error e) :
    handleSyscall k t = .ok (storeResult t (k.setState t .running, e)) := by
  unfold handleSyscall
  rw [if_neg (by simp [hstate])]
  simp only [hc, sysSend, ht, bind, Except.bind]

theorem leavesNobody_call (h : Attached k q) (hk : KernelInvariant k) (hq : SendInvariant k q)
    (hstate : (k.tds t).state = .syscallBlk) (hc : Considerate k t)
    (hk' : handleSyscall k t = .ok k') : LeavesNobody k k' t := by
  have heff := handleSyscall_effect hstate hk'
  refine ⟨fun he x hx ↦ ?_, fun _ hcall r hr hex ↦ ?_, fun j hj hj' x hx ↦ ?_⟩
  · have hcall := handleSyscall_ends hk' hq hstate he
    rw [hq.onQueue, hq.queues.head_none.mp (hc.exits hstate hcall)] at hx
    simp at hx
  · cases ht : sendTarget k t with
    | ok r' =>
      have hid := (sendTarget_eq_ok ht).2
      obtain rfl := hk.ids.inj (hr.trans hid)
      simp [hc.sends hstate hcall r ht] at hex
    | error e =>
      rw [handleSyscall_refused hstate hcall ht] at hk'
      obtain rfl := Except.ok.inj hk'
      refine ⟨(callerOnly_storeResult k t .running e).state, ?_⟩
      simpa [storeResult, KernelData.setReturnValue] using sendTarget_error ht
  · rw [hq.onQueue, h.available hq hk.unused hj] at hx
    simp at hx

theorem leavesNobody_of_same (hstate : (k.tds t).state = .hwint) (ht : k'.tds t = k.tds t)
    (hav : ∀ j, isTdAvailable (k.tds j) = true → k'.tds j = k.tds j) : LeavesNobody k k' t := by
  refine ⟨fun he ↦ ?_, fun hs ↦ ?_, fun j hj hj' ↦ ?_⟩
  · simp [hasExited, ht, hstate] at he
  · simp [hstate] at hs
  · rw [hav j hj, hj] at hj'
    simp at hj'

theorem leavesNobody_interrupt {w : Word} (h : Attached k q) (hk : KernelInvariant k)
    (hq : SendInvariant k q) (hstate : (k.tds t).state = .hwint)
    (hk' : InterruptEffect k w k') : LeavesNobody k k' t ∧ SendInvariant k' q ∧ Attached k' q := by
  cases hk' with
  | ignored => exact ⟨leavesNobody_of_same hstate rfl fun _ _ ↦ rfl, hq, h⟩
  | lost => exact ⟨leavesNobody_of_same hstate rfl fun _ _ ↦ rfl, hq, h⟩
  | wakes e x i he hx hi =>
    obtain ⟨i', hi', hb⟩ := hk.events.wakes hk.ids hx
    obtain rfl := Option.some.inj (hi.symm.trans hi')
    have hself : ((woken k e x i).tds i).state = .running := by
      rw [woken_tds, KernelData.modify_self]
      rfl
    have hother {j : TdPtr} (hj : j ≠ i) : (woken k e x i).tds j = k.tds j := by
      rw [woken_tds, KernelData.modify_of_ne _ _ hj]
    refine ⟨leavesNobody_of_same hstate (hother ?_) fun j hj ↦ hother ?_, hq.wake e x hb,
      fun y hy ↦ ?_⟩
    · rintro rfl
      simp [hstate] at hb
    · rintro rfl
      simp [isTdAvailable, hb] at hj
    · have hyi : y ≠ i := by rintro rfl; simp [hself] at hy
      rw [hother hyi] at hy
      obtain ⟨r, hr, hex⟩ := h y hy
      refine ⟨r, hr, ?_⟩
      by_cases hri : r = i
      · rw [hri, hasExited, hself]
      · rwa [hother hri]

theorem leavesNobody_of_considerate {reason : Word} (h : Attached k q) (hk : KernelInvariant k)
    (hq : SendInvariant k q) (hc : Considerate k t)
    (hstate : (k.tds t).state = .killed ∨ ((k.tds t).state = .syscallBlk ∧ reason = 0) ∨
      ((k.tds t).state = .hwint ∧ reason ≠ 0))
    (hs : serve k t reason = .ok k') :
    LeavesNobody k k' t ∧ ∃ q', SendInvariant k' q' ∧ Attached k' q' := by
  unfold serve at hs
  rcases hstate with hst | ⟨hst, hr⟩ | ⟨hst, hr⟩
  · rw [if_pos (by simp [hasExited, hst])] at hs
    obtain rfl := Except.ok.inj hs
    refine ⟨⟨fun _ x hx ↦ ?_, fun hs ↦ ?_, fun j hj hj' ↦ ?_⟩, q, hq, h⟩
    · rw [hq.onQueue, hq.queues.head_none.mp (hc.killed hst)] at hx
      simp at hx
    · simp [hst] at hs
    · simp [hj] at hj'
  · rw [if_neg (by simp [hasExited, hst]), kernelTasks, if_pos hr] at hs
    obtain ⟨q', hq', -⟩ := (handleSyscall_effect hst hs).send hq hst
    exact ⟨leavesNobody_call h hk hq hst hc hs, q', hq',
      h.call hs hq hq' hk.unused hst hc⟩
  · rw [if_neg (by simp [hasExited, hst]), kernelTasks, if_neg hr] at hs
    obtain ⟨hl, hq', ha⟩ := leavesNobody_interrupt h hk hq hst (handleInterrupt_effect hs)
    exact ⟨hl, q, hq', ha⟩

theorem considerate_of_leavesNobody {reason : Word} (hk : KernelInvariant k)
    (hn : k.schedulerStructure.Nodes) (hq : SendInvariant k q)
    (hreason : (k.tds t).state = .syscallBlk → reason = 0)
    (hl : ∀ k', serve k t reason = .ok k' → LeavesNobody k k' t) : Considerate k t := by
  have hqueued {x : TdPtr} (hx : (k.tds t).sendQueueHead = some x) :
      OnQueue k t x ∧ (k.tds x).state = .rcvdBlk := by
    have hm : x ∈ q t := List.mem_of_mem_head? ((hq.head_eq t).symm.trans hx)
    exact ⟨hq.onQueue.mpr hm, hq.blocked hm⟩
  have hserve (hst : (k.tds t).state = .syscallBlk) : serve k t reason = handleSyscall k t := by
    rw [serve, if_neg (by simp [hasExited, hst]), kernelTasks, if_pos (hreason hst)]
  refine ⟨fun hst ↦ ?_, fun hst hcall ↦ ?_, fun hst hcall r ht ↦ ?_⟩
  · by_contra hne
    obtain ⟨x, hx⟩ := Option.ne_none_iff_exists'.mp hne
    have hs : serve k t reason = .ok k := if_pos (by simp [hasExited, hst])
    have hrel := (hl k hs).ended (by simp [hasExited, hst]) x (hqueued hx).1
    simp [Released, (hqueued hx).2] at hrel
  · by_contra hne
    obtain ⟨x, hx⟩ := Option.ne_none_iff_exists'.mp hne
    have hk' : handleSyscall k t = .ok (storeResult t (sysExit t k)) := by
      unfold handleSyscall
      rw [if_neg (by simp [hst])]
      simp only [hcall]
    have hexit := callerOnly_storeResult k t .exited 0
    have hxt : x ≠ t := by rintro rfl; simp [(hqueued hx).2] at hst
    have hrel := (hl _ ((hserve hst).trans hk')).ended
      (by rw [hasExited, show ((storeResult t (sysExit t k)).tds t).state = .exited from
        hexit.state]) x (hqueued hx).1
    have hsame : (storeResult t (sysExit t k)).tds x = k.tds x := hexit.other x hxt
    simp [Released, hsame, (hqueued hx).2] at hrel
  · by_contra hex
    have hi : CreatesInRange k t := by
      intro c params hc hp
      obtain rfl := Option.some.inj (hcall.symm.trans hc)
      simp [createParams] at hp
    obtain ⟨k', hk'⟩ := handleSyscall_ok hk hn hst hi
    have hrun := ((hl k' ((hserve hst).trans hk')).refused hst hcall r
      (sendTarget_eq_ok ht).2.symm (by simpa using hex)).1
    exact (handleSyscall_effect hst hk').send_blocks hst hcall ht hrun

theorem entry_attached {s : RtosMain} {c : Pass} (hq : SendInvariant s.kernel q)
    (h : Attached s.kernel q) (hready : isTaskReady ((loopHead c.iteration s).tds t) = true)
    (hkill : ((c.entry s t).tds t).state = .killed → ((c.entry s t).tds t).sendQueueHead = none) :
    Attached (c.entry s t) q := by
  have hhead := loopHead_same c.iteration s
  have hentry := entry_same c s t
  have hlinks (td : TaskDescriptor) :
      (c.iteration.preemption.result td).sendQueueHead = td.sendQueueHead := by
    unfold Preemption.result
    split_ifs <;> cases c.iteration.preemption <;> rfl
  have hcore := hentry.core t
  rw [KernelData.modify_self] at hcore
  have hlink : ((c.entry s t).tds t).sendQueueHead =
      (c.iteration.preemption.result ((loopHead c.iteration s).tds t)).sendQueueHead :=
    (congrArg TaskDescriptor.sendQueueHead hcore :)
  refine ((h.same hhead).enter (hq.same hhead.core) _ hready fun hs ↦ ?_).same hentry
  rw [← hlinks, ← hlink]
  exact hkill ((core_state hcore).trans hs)

theorem attached_pass {s s' : RtosMain} {c : Pass} (hk : KernelInvariant s.kernel)
    (hq : SendInvariant s.kernel q) (ha : Attached s.kernel q) (hstep : passStep s c s')
    (hc : ∀ t, c.picked = some t → Considerate (c.entry s t) t) :
    ∃ q', SendInvariant s'.kernel q' ∧ Attached s'.kernel q' := by
  have hserve {t : TdPtr} {k : KernelData} (ht : c.picked = some t)
      (hs : serve (c.entry s t) t c.iteration.preemption.reason = .ok k)
      (he : SameTasks k s'.kernel) : ∃ q', SendInvariant s'.kernel q' ∧ Attached s'.kernel q' := by
    have hready := hstep.1 t ht
    have hentry : KernelInvariant (c.entry s t) := hk.entry hready
    obtain ⟨-, q', hq', ha'⟩ := leavesNobody_of_considerate
      (entry_attached hq ha hready (hc t ht).killed) hentry (entry_send hq hready) (hc t ht)
      (entry_state c s t) hs
    exact ⟨q', hq'.same he.core, ha'.same he⟩
  rcases passStep_outcome hstep with ⟨_, he⟩ | ⟨t, ht, hst, he⟩ | ⟨t, k, ht, hst, hk', he⟩ |
    ⟨t, k, ht, hst, hk', he⟩
  · exact ⟨q, hq.same he.core, ha.same he⟩
  · exact hserve ht (if_pos (by simp [hasExited, hst])) (he ▸ .refl _)
  · refine hserve ht ?_ he
    rcases entry_state c s t with hs | ⟨-, hr⟩ | ⟨hs, -⟩
    · simp [hst] at hs
    · rw [serve, if_neg (by simp [hasExited, hst]), kernelTasks, if_pos hr]
      exact hk'
    · simp [hst] at hs
  · refine hserve ht ?_ he
    rcases entry_state c s t with hs | ⟨hs, -⟩ | ⟨-, hr⟩
    · simp [hst] at hs
    · simp [hst] at hs
    · rw [serve, if_neg (by simp [hasExited, hst]), kernelTasks, if_neg hr]
      exact hk'

/-- Over any run: every blocked sender is held by a task that has not ended,
and senders are told when it ends, exactly when every task is considerate. -/
theorem no_stranded_sender_iff (b : Boot) (cs : List Pass) :
    (Throughout passStep (booted b) cs (fun s ↦ SendersHeld s.kernel) ∧
      EachStep passStep (booted b) cs fun s c ↦ ∀ t k', c.picked = some t →
        isTaskReady ((loopHead c.iteration s).tds t) = true →
        serve (c.entry s t) t c.iteration.preemption.reason = .ok k' →
        LeavesNobody (c.entry s t) k' t) ↔
    EachStep passStep (booted b) cs fun s c ↦ ∀ t, c.picked = some t →
      isTaskReady ((loopHead c.iteration s).tds t) = true → Considerate (c.entry s t) t := by
  have hreach {pre : List Pass} {s : RtosMain} (hr : Run passStep (booted b) pre s) :
      Reachable b s := ⟨booted b, pre, boot_eq b, hr⟩
  have hreason {s : RtosMain} {c : Pass} {t : TdPtr}
      (hst : ((c.entry s t).tds t).state = .syscallBlk) : c.iteration.preemption.reason = 0 := by
    rcases entry_state c s t with hs | ⟨-, hr⟩ | ⟨hs, -⟩
    · simp [hst] at hs
    · exact hr
    · simp [hst] at hs
  constructor
  · rintro ⟨-, hl⟩ pre c hpre s hr t ht hready
    have hk := (hreach hr).entry hready
    obtain ⟨q, hq⟩ := hk.send
    exact considerate_of_leavesNobody hk (entry_nodes c s t) hq hreason
      fun k' hk' ↦ hl pre c hpre s hr t k' ht hready hk'
  · intro hc
    have hinv : Throughout passStep (booted b) cs fun s ↦ KernelInvariant s.kernel ∧
        ∃ q, SendInvariant s.kernel q ∧ Attached s.kernel q := by
      have hnone : Attached (booted b).kernel fun _ ↦ [] := by
        intro x hx
        rw [booted_state] at hx
        split_ifs at hx
      refine throughout_of_eachStep ⟨(Reachable.boot b).kernelInvariant, _, .boot b, hnone⟩ ?_ hc
      · rintro s c s' ⟨hk, q, hq, ha⟩ hstep hcons
        exact ⟨hk.pass hstep, attached_pass hk hq ha hstep fun t ht ↦ hcons t ht (hstep.1 t ht)⟩
    refine ⟨fun pre hpre s hr ↦ ?_, fun pre c hpre s hr t k' ht hready hk' ↦ ?_⟩
    · obtain ⟨-, q, hq, ha⟩ := hinv pre hpre s hr
      exact ha.held hq
    · obtain ⟨-, q, hq, ha⟩ := hinv pre ((List.prefix_append _ _).trans hpre) s hr
      have hcons := hc pre c hpre s hr t ht hready
      exact (leavesNobody_of_considerate (entry_attached hq ha hready hcons.killed)
        ((hreach hr).entry hready) (entry_send hq hready) hcons (entry_state c s t) hk').1

/-- The first task creates a second one, which exits, and sends to it. -/
def lateSendPasses : List Pass :=
  [(callBy 0 5 0 0x300#32 0 0 0 0).pass 0, (callBy 1 4 0 0 0 0 0 0).pass 1, messagePass]

theorem lateSend_stranded : ∃ s, Run passStep (booted sampleBoot) lateSendPasses s ∧
    ¬ SendersHeld s.kernel := by
  have hrun := exists_run Pass.run_step (booted sampleBoot) lateSendPasses
    (fun s ↦ decide ((s.kernel.tds 0).state = .rcvdBlk ∧
      ∀ r, (s.kernel.tds r).taskId = (s.kernel.tds 0).systemCall.param1 →
        hasExited (s.kernel.tds r) = true)) (by decide +kernel)
  obtain ⟨s, hr, hp⟩ := hrun
  obtain ⟨hblocked, hexited⟩ := of_decide_eq_true hp
  refine ⟨s, hr, fun hheld ↦ ?_⟩
  obtain ⟨r, -, hid, hex⟩ := hheld 0 hblocked
  simp [hexited r hid] at hex

end PrjOS
