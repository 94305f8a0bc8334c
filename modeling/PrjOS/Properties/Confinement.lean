import PrjOS.Invariants.PendingCalls
import PrjOS.Properties.StackPartition

namespace PrjOS

open ByteMemory Function LinkedQueue Transition

/-- The addresses that a task in a call lets the kernel write to: the buffers
for a message and its sender's id, for a reply, and for other results. -/
def TaskDescriptor.Lends (td : TaskDescriptor) (m : Memory) (a : Word) : Prop :=
  let call := td.systemCall
  match td.call with
  | some .receive | some .receiveNonblock =>
    Within call.param1 4 a ∨ Within call.param2 call.param3.toNat a
  | some .send => Within call.param4 call.param5.toNat a
  | some .metaInfo =>
    let result := readWord m (call.param1 + 8#32)
    (readWord m call.param1 = metaRequestTasksInfo ∧ Within result 16 a) ∨
      (readWord m call.param1 = metaRequestTaskInfo ∧ Within result 48 a)
  | some .monotonicMicros => Within call.param1 8 a
  | _ => False

/-- The tasks that a call of `t` is about: its caller, and the task that it
names if that one waits for such a call. -/
def Engaged (k : KernelData) (t i : TdPtr) : Prop :=
  i = t ∨ (k.tds i).taskId = (k.tds t).systemCall.param1 ∧
    ((k.tds t).call = some .send ∧ (k.tds i).state = .sendBlk ∨
      (k.tds t).call = some .reply ∧ (k.tds i).state = .rplyBlk)

/-- The addresses that the kernel may write to for the call of `t`. -/
inductive MayWrite (k : KernelData) (t : TdPtr) (a : Word) : Prop
  | lent (i : TdPtr) : Engaged k t i → (k.tds i).Lends k.memory a → MayWrite k t a
  | frame (c : SyscallNumber) (params : TaskCreateParameters) (j : TdPtr) :
      (k.tds t).call = some c → createParams k t c = some params →
      findAvailable k.tds params.taskType = some j →
      (newTask (k.tds j) k.memory params).2 a ≠ k.memory a → MayWrite k t a

variable {k k' : KernelData} {q : TdPtr → List TdPtr} {t : TdPtr} {a : Word}

theorem within_truncateTo {dest limit size : Word}
    (h : Within dest (truncateTo limit size).toNat a) : Within dest limit.toNat a := by
  rw [truncateTo_toNat] at h
  unfold Within at h ⊢
  omega

section Results

variable {m m' : Memory} {result : Word} {n : Nat}

theorem writeDouble_outside (h : SameOutside result n m m') (i : Nat) (hi : i + 8 ≤ n)
    (v : BitVec 64) :
    SameOutside result n m (writeDouble m' (result + BitVec.ofNat 32 i) v) := by
  unfold writeDouble writeWord
  rw [BitVec.add_assoc, ← BitVec.ofNat_add]
  exact (h.field i (by omega) _).field (i + 4) (by omega) _

theorem writeTasksInfo_outside (tds : TdPtr → TaskDescriptor) :
    SameOutside result 16 m (writeTasksInfo m tds result) := by
  have h := SameOutside.refl result 16 m
  refine (((((h.field 14 ?_ _).field 12 ?_ _).field 8 ?_ _).field 4 ?_ _).field 2 ?_ _).first ?_ _
  all_goals decide

theorem writeTaskInfo_outside (tds : TdPtr → TaskDescriptor) (taskId : Word) :
    SameOutside result 48 m (writeTaskInfo m tds result taskId) := by
  refine writeDouble_outside (writeDouble_outside (writeDouble_outside ?_ 24 ?_ _) 32 ?_ _) 40 ?_ _
  · have h := SameOutside.refl result 48 m
    refine (((((h.first ?_ _).field 16 ?_ _).field 4 ?_ _).field 8 ?_ _).field 12 ?_ _).field
      20 ?_ _
    all_goals decide
  all_goals decide

end Results

theorem metaInfo_lends (hc : (k.tds t).call = some .metaInfo)
    (ha : (sysMetaInfo t k).1.memory a ≠ k.memory a) : (k.tds t).Lends k.memory a := by
  have hcall : ((k.setTaskReady t).tds t).systemCall = (k.tds t).systemCall := by
    simp [KernelData.setTaskReady, KernelData.setState]
  unfold TaskDescriptor.Lends
  rw [hc]
  unfold sysMetaInfo at ha
  simp only [hcall] at ha
  split_ifs at ha with htasks htask
  · exact .inl ⟨htasks, writeTasksInfo_outside _ a ha⟩
  · exact .inr ⟨htask, writeTaskInfo_outside _ _ a ha⟩
  all_goals exact absurd rfl ha

theorem monotonicMicros_lends (hc : (k.tds t).call = some .monotonicMicros)
    (ha : (sysGetMonotonicMicros t k).1.memory a ≠ k.memory a) : (k.tds t).Lends k.memory a := by
  have hcall : ((k.setTaskReady t).tds t).systemCall = (k.tds t).systemCall := by
    simp [KernelData.setTaskReady, KernelData.setState]
  unfold TaskDescriptor.Lends
  rw [hc]
  unfold sysGetMonotonicMicros at ha
  simp only [hcall] at ha
  have hout := writeDouble_outside (.refl (k.tds t).systemCall.param1 8 k.memory) 0 (by decide)
    k.systemMicroCount
  simp only [BitVec.add_zero] at hout
  exact hout a ha

theorem handOff_memory {r : TdPtr} (hne : t ≠ r) : (handOff k t r).1.memory =
    memcpy (writeWord k.memory (k.tds r).systemCall.param1 (k.tds t).taskId)
      (k.tds r).systemCall.param2 (k.tds t).systemCall.param2
      (truncateTo (k.tds r).systemCall.param3 (k.tds t).systemCall.param3).toNat := by
  rw [handOff_eq k hne]

theorem receive_memory_eq {s : TdPtr} (hne : t ≠ s) (hs : (k.tds t).sendQueueHead = some s)
    (hb : (k.tds t).systemCall.param2 ≠ 0) (blocking : Bool) :
    (storeResult t (sysReceive t k blocking)).memory =
      writeWord (memcpy k.memory (k.tds t).systemCall.param2 (k.tds s).systemCall.param2
        (truncateTo (k.tds t).systemCall.param3 (k.tds s).systemCall.param3).toNat)
        (k.tds t).systemCall.param1 (k.tds s).taskId := by
  rw [receive_eq k hne hs hb]

theorem deliverReply_memory (s : TdPtr) : (deliverReply k t s).1.memory =
    memcpy k.memory (k.tds s).systemCall.param4 (k.tds t).systemCall.param2
      (truncateTo (k.tds s).systemCall.param5 (k.tds t).systemCall.param3).toNat := by
  rw [deliverReply_eq]

theorem KernelData.lends_receive {i : TdPtr}
    (hc : (k.tds i).call = some .receive ∨ (k.tds i).call = some .receiveNonblock)
    (ha : Within (k.tds i).systemCall.param1 4 a ∨
      Within (k.tds i).systemCall.param2 (k.tds i).systemCall.param3.toNat a) :
    (k.tds i).Lends k.memory a := by
  unfold TaskDescriptor.Lends
  rcases hc with hc | hc <;> rw [hc] <;> exact ha

theorem hands_lends {r : TdPtr} (hp : PendingCalls k) (hne : t ≠ r)
    (hr : (k.tds r).state = .sendBlk) (ha : (handOff k t r).1.memory a ≠ k.memory a) :
    (k.tds r).Lends k.memory a := by
  have hcall : (k.tds r).call = some .receive := by
    have hpr := hp r
    unfold TaskDescriptor.Pending at hpr
    rwa [hr] at hpr
  refine KernelData.lends_receive (.inl hcall) ?_
  rw [handOff_memory hne] at ha
  by_cases htid : writeWord k.memory (k.tds r).systemCall.param1 (k.tds t).taskId a = k.memory a
  · rw [← htid] at ha
    exact .inr (within_truncateTo (within_of_store ha))
  · exact .inl (within_of_store htid)

theorem takes_lends {s : TdPtr} {blocking : Bool} (hne : t ≠ s)
    (hc : (k.tds t).call = some (if blocking then .receive else .receiveNonblock))
    (hb : (k.tds t).systemCall.param2 ≠ 0) (hs : (k.tds t).sendQueueHead = some s)
    (ha : (storeResult t (sysReceive t k blocking)).memory a ≠ k.memory a) :
    (k.tds t).Lends k.memory a := by
  refine KernelData.lends_receive (by cases blocking <;> simp [hc]) ?_
  rw [receive_memory_eq hne hs hb] at ha
  by_cases hbuf : memcpy k.memory (k.tds t).systemCall.param2 (k.tds s).systemCall.param2
      (truncateTo (k.tds t).systemCall.param3 (k.tds s).systemCall.param3).toNat a = k.memory a
  · rw [← hbuf] at ha
    exact .inl (within_of_store ha)
  · exact .inr (within_truncateTo (within_of_store hbuf))

theorem replies_lends {s : TdPtr} (hp : PendingCalls k) (hs : (k.tds s).state = .rplyBlk)
    (ha : (deliverReply k t s).1.memory a ≠ k.memory a) : (k.tds s).Lends k.memory a := by
  have hcall : (k.tds s).call = some .send := by
    have hps := hp s
    unfold TaskDescriptor.Pending at hps
    rwa [hs] at hps
  unfold TaskDescriptor.Lends
  rw [hcall]
  rw [deliverReply_memory] at ha
  exact within_truncateTo (within_of_store ha)

theorem sysSend_writes {r : KernelData × Word} (hp : PendingCalls k)
    (hstate : (k.tds t).state = .syscallBlk) (hc : (k.tds t).call = some .send)
    (h : sysSend t k = .ok r) (ha : r.1.memory a ≠ k.memory a) : MayWrite k t a := by
  unfold sysSend at h
  cases ht : sendTarget k t with
  | error e =>
    simp only [ht, Except.ok.injEq] at h
    subst h
    exact absurd rfl ha
  | ok x =>
    simp only [ht] at h
    split_ifs at h with hx
    · obtain rfl := Except.ok.inj h
      have hne : t ≠ x := KernelData.ne_of_state hstate hx (by decide)
      exact .lent x (.inr ⟨(sendTarget_eq_ok ht).2.symm, .inl ⟨hc, hx⟩⟩) (hands_lends hp hne hx ha)
    · rw [push_eq] at h
      cases hl : (k.setState t .rcvdBlk).sendQueues.push x t with
      | none => simp [hl, bind, Except.bind] at h
      | some links =>
        simp only [hl, bind, Except.bind, Except.ok.injEq] at h
        subst h
        exact absurd rfl ha

theorem sysReceive_writes (blocking : Bool) (hq : SendInvariant k q)
    (hstate : (k.tds t).state = .syscallBlk)
    (hc : (k.tds t).call = some (if blocking then .receive else .receiveNonblock))
    (ha : (storeResult t (sysReceive t k blocking)).memory a ≠ k.memory a) : MayWrite k t a := by
  by_cases hb : (k.tds t).systemCall.param2 = 0
  · rw [sysReceive, if_pos hb] at ha
    exact absurd rfl ha
  · cases hs : (k.tds t).sendQueueHead with
    | some s => exact .lent t (.inl rfl) (takes_lends (hq.head_ne hstate hs) hc hb hs ha)
    | none =>
      rw [sysReceive, if_neg hb, pop, hs] at ha
      cases blocking <;> exact absurd rfl ha

theorem sysReply_writes (hp : PendingCalls k) (hc : (k.tds t).call = some .reply)
    (ha : (sysReply t k).1.memory a ≠ k.memory a) : MayWrite k t a := by
  unfold sysReply at ha
  simp only at ha
  split at ha
  · exact absurd rfl ha
  · rename_i s hs
    split_ifs at ha with hb hst
    · exact absurd rfl ha
    · refine .lent s (.inr ⟨?_, .inr ⟨hc, hst⟩⟩) (replies_lends hp hst ha)
      exact (findTd_eq_some.mp (lookupTask_eq_ok.mp hs).2).1
    · exact absurd rfl ha

theorem sysAwaitEvent_memory (h : sysAwaitEvent t k = .ok k') : k'.memory = k.memory := by
  unfold sysAwaitEvent at h
  simp only at h
  split at h
  · split at h
    · exact Except.ok.inj h ▸ rfl
    · rw [pushEvent_eq] at h
      split at h
      · simp [bind, Except.bind] at h
      · exact Except.ok.inj h ▸ rfl
  · exact Except.ok.inj h ▸ rfl

theorem createAndAdd_writes {c : SyscallNumber} {params : TaskCreateParameters}
    (hc : (k.tds t).call = some c) (hp : createParams k t c = some params)
    (h : createAndAdd k t (.ok params) = .ok k') (ha : k'.memory a ≠ k.memory a) :
    MayWrite k t a := by
  unfold createAndAdd createTask at h
  cases hf : findAvailable k.tds params.taskType with
  | none =>
    simp only [hf, Option.map_none, Except.ok.injEq] at h
    subst h
    exact absurd rfl ha
  | some j =>
    simp only [hf, Option.map_some] at h
    cases hs : schedulerAdd k.schedulerStructure
        (update k.tds j (newTask (k.tds j) k.memory params).1) (some j) with
    | error e => simp [hs, bind, Except.bind] at h
    | ok s =>
      simp only [hs, bind, Except.bind, Except.ok.injEq] at h
      subst h
      exact .frame c params j hc hp hf ha

/-- A call writes to nothing but what it may. -/
theorem handleSyscall_writes (hq : SendInvariant k q) (hp : PendingCalls k)
    (hstate : (k.tds t).state = .syscallBlk) (h : handleSyscall k t = .ok k')
    (ha : k'.memory a ≠ k.memory a) : MayWrite k t a := by
  cases hc : (k.tds t).call with
  | none =>
    rw [handleSyscall, if_neg (by simp [hstate])] at h
    simp only [hc, Except.ok.injEq] at h
    exact absurd (by rw [h]) ha
  | some c =>
    cases hparams : createParams k t c with
    | some params =>
      rw [(handleSyscall_creates hstate hc hparams).1] at h
      exact createAndAdd_writes hc hparams h ha
    | none =>
      rw [handleSyscall, if_neg (by simp [hstate])] at h
      simp only [hc] at h
      cases c
      case send =>
        cases hs : sysSend t k with
        | error e => simp [hs, bind, Except.bind] at h
        | ok r =>
          simp only [hs, bind, Except.bind, Except.ok.injEq] at h
          subst h
          exact sysSend_writes hp hstate hc hs ha
      case awaitEvent => exact absurd (by rw [sysAwaitEvent_memory h]) ha
      case create | createMicrotask => simp [createParams, sysCreate, sysCreateMicroTask,
        checkPriority_eq, Except.toOption] at hparams
      all_goals obtain rfl := Except.ok.inj h
      case receive => exact sysReceive_writes true hq hstate hc ha
      case receiveNonblock => exact sysReceive_writes false hq hstate hc ha
      case reply => exact sysReply_writes hp hc ha
      case metaInfo => exact .lent t (.inl rfl) (metaInfo_lends hc ha)
      case monotonicMicros => exact .lent t (.inl rfl) (monotonicMicros_lends hc ha)
      case changepriority =>
        simp only [storeResult, sysChangePriority] at ha
        split_ifs at ha <;> exact absurd rfl ha
      all_goals exact absurd rfl ha

theorem InterruptEffect.memory {w : Word} (h : InterruptEffect k w k') : k'.memory = k.memory := by
  cases h <;> rfl

theorem createParams_stackPointer {c : SyscallNumber} {params : TaskCreateParameters}
    (h : createParams k t c = some params) : params.stackPointer = 0 := by
  cases c
  case create =>
    rw [createParams, sysCreate, checkPriority_eq] at h
    exact Option.some.inj h ▸ rfl
  case createMicrotask =>
    rw [createParams, sysCreateMicroTask, checkPriority_eq] at h
    exact Option.some.inj h ▸ rfl
  all_goals simp [createParams] at h

/-- A call that finds a descriptor for a new task puts the task there. -/
theorem handleSyscall_created {c : SyscallNumber} {params : TaskCreateParameters} {j : TdPtr}
    (hstate : (k.tds t).state = .syscallBlk) (hc : (k.tds t).call = some c)
    (hp : createParams k t c = some params) (hj : findAvailable k.tds params.taskType = some j)
    (h : handleSyscall k t = .ok k') : k'.tds j = (newTask (k.tds j) k.memory params).1 := by
  rw [(handleSyscall_creates hstate hc hp).1] at h
  unfold createAndAdd createTask at h
  simp only [hj, Option.map_some] at h
  cases hs : schedulerAdd k.schedulerStructure
      (update k.tds j (newTask (k.tds j) k.memory params).1) (some j) with
  | error e => simp [hs, bind, Except.bind] at h
  | ok s =>
    simp only [hs, bind, Except.bind, update_self, Except.ok.injEq] at h
    rw [← h]
    exact created_new k params s (findAvailable_ne hj hstate)

theorem entry_memory (c : Pass) (s : RtosMain) (t : TdPtr) :
    (c.entry s t).memory = c.iteration.memory := by
  unfold Pass.entry runTask
  simp only
  split_ifs <;> rfl

theorem loopHead_memory (it : Iteration) (s : RtosMain) :
    (loopHead it s).memory = s.kernel.memory := by
  unfold loopHead chargeSystemTime
  split
  · rfl
  · split_ifs <;> rfl

section Stacks

/-- No live task is out of its stack region. -/
def StacksKept (k : KernelData) : Prop :=
  ∀ i, isTdAvailable (k.tds i) = false → taskStackOverflow (k.tds i) = false

theorem StacksKept.same (h : StacksKept k) (hs : SameTasks k k') : StacksKept k' := by
  intro i hi
  rw [taskStackOverflow_core (hs.core i)]
  refine h i ?_
  rwa [isTdAvailable, core_state (hs.core i)] at hi

/-- The check after a task came back kills it if it is out of its region. -/
theorem StacksKept.enter (h : StacksKept k) (p : Preemption) :
    StacksKept (k.modify t p.result) := by
  intro i hi
  by_cases hit : i = t
  · subst hit
    rw [KernelData.modify_self] at hi ⊢
    unfold Preemption.result at hi ⊢
    split_ifs at hi ⊢ with hover
    · cases hi
    · simpa using hover
  · rw [KernelData.modify_of_ne _ _ hit] at hi ⊢
    exact h i hi

theorem OtherChange.stackKept {i : TdPtr} {td : TaskDescriptor} (h : OtherChange k t i td)
    {base : Word} (hb : totalStackArea ≤ base.toNat) (hslot : Slot base i (k.tds i))
    (hq : SendInvariant k q) (hk : StacksKept k) (hi : isTdAvailable td = false) :
    taskStackOverflow td = false := by
  cases h with
  | kept => exact hk i hi
  | handed v hc ht hs => exact hk i (by simp [isTdAvailable, hs])
  | received v blocking hc hs => exact hk i (by simp [isTdAvailable, hq.head_blocked hs])
  | replied v hc hl hs => exact hk i (by simp [isTdAvailable, hs])
  | created c params hc hp hj =>
    obtain ⟨hframe, hlow, -⟩ := newTask_region hslot hb k.memory (createParams_stackPointer hp)
    generalize (newTask (k.tds i) k.memory params).1 = td at hframe hlow ⊢
    simp only [taskStackOverflow, decide_eq_false_iff_not, BitVec.lt_def, not_lt, BitVec.toNat_sub]
    omega

theorem CallerChange.stackKept {td : TaskDescriptor} (h : CallerChange k t td)
    (hk : taskStackOverflow (k.tds t) = false) : taskStackOverflow td = false := by
  cases h
  exact hk

theorem actionStep_stacksKept {a : Action} {base : Word} (hb : totalStackArea ≤ base.toNat)
    (hk : KernelInvariant k) (hslots : ∀ i, Slot base i (k.tds i)) (h : StacksKept k)
    (hstep : actionStep k a k') : StacksKept k' := by
  cases a with
  | background k₁ => exact hstep.2 ▸ h.same hstep.1
  | trap x p => exact hstep.2 ▸ h.enter p
  | call x =>
    obtain ⟨q, hq⟩ := hk.send
    have heffect := handleSyscall_effect hstep.1 hstep.2
    intro i hi
    by_cases hix : i = x
    · subst hix
      exact (heffect.caller hq hstep.1).stackKept (h i (by simp [isTdAvailable, hstep.1]))
    · exact (heffect.other hq hstep.1 hix).stackKept hb (hslots i) hq h hi
  | interrupt w =>
    cases handleInterrupt_effect hstep with
    | ignored => exact h
    | lost => exact h
    | wakes e x j he hx hj =>
      obtain ⟨j', hj', hblocked⟩ := hk.events.wakes hk.ids hx
      obtain rfl := Option.some.inj (hj.symm.trans hj')
      intro i hi
      rw [woken_tds] at hi ⊢
      by_cases hij : i = j
      · subst hij
        rw [KernelData.modify_self]
        exact h i (by simp [isTdAvailable, hblocked])
      · rw [KernelData.modify_of_ne _ _ hij] at hi ⊢
        exact h i hi

theorem StacksKept.boot {b : Boot} (hb : totalStackArea ≤ b.stackTop.toNat) :
    StacksKept (booted b).kernel := by
  intro i hi
  have hs := booted_state b i
  by_cases h0 : i = 0
  · subst h0
    have hp : (firstTaskParams b).stackPointer = 0 := rfl
    obtain ⟨hframe, hlow, -⟩ := newTask_region (Slot.initial hb 0) hb b.memory hp
    change taskStackOverflow
      (newTask (initializeTds b.stackTop 0) b.memory (firstTaskParams b)).1 = false
    generalize (newTask (initializeTds b.stackTop 0) b.memory (firstTaskParams b)).1 = td
      at hframe hlow ⊢
    simp only [taskStackOverflow, decide_eq_false_iff_not, BitVec.lt_def, not_lt, BitVec.toNat_sub]
    omega
  · rw [if_neg h0] at hs
    simp [isTdAvailable, hs] at hi

theorem Served.stacksKept {b : Boot} (hb : totalStackArea ≤ b.stackTop.toNat) (h : Served b k) :
    StacksKept k := by
  obtain ⟨as, hr⟩ := h
  have hinv := hr.invariant (P := fun k ↦ (KernelInvariant k ∧ StacksKept k) ∧
    ∀ i, Slot b.stackTop i (k.tds i)) ?_ ?_
  · exact hinv.1.2
  · exact ⟨⟨booted_invariant b, .boot hb⟩, booted_slots hb⟩
  · rintro k a k' ⟨⟨hk, hs⟩, hslots⟩ hstep
    exact ⟨⟨actionStep_invariant hk hstep, actionStep_stacksKept hb hk hslots hs hstep⟩,
      actionStep_slots hb hk hslots hstep⟩

/-- What is saved on the stack of a live task, from its stack pointer up, is in
its own stack region, which no other task and not the kernel's stack shares. -/
theorem saved_stacks_apart {b : Boot} {s : RtosMain} (hb : totalStackArea ≤ b.stackTop.toNat)
    (h : Reachable b s) {i : TdPtr} (hi : isTdAvailable (s.kernel.tds i) = false) :
    (s.kernel.tds i).stackPointer.toNat ≤ (s.kernel.tds i).stackBase.toNat ∧
      ∀ a : Word, (s.kernel.tds i).stackPointer.toNat ≤ a.toNat →
        a.toNat < (s.kernel.tds i).stackBase.toNat →
        (∀ j, (s.kernel.tds j).Owns a ↔ j = i) ∧
          a.toNat < b.stackTop.toNat - kernelStackSize.toNat := by
  have hparts := h.served.partitioned hb
  have hkept := h.served.stacksKept hb i hi
  have hroom := hparts.room i
  simp only [taskStackOverflow, decide_eq_false_iff_not, BitVec.lt_def, not_lt,
    BitVec.toNat_sub] at hkept
  have hlt := (s.kernel.tds i).stackPointer.isLt
  refine ⟨by omega, fun a hlow hhigh ↦ ?_⟩
  have howns : (s.kernel.tds i).Owns a := ⟨by omega, hhigh⟩
  refine ⟨fun j ↦ ⟨fun hj ↦ hparts.disjoint j i a hj howns, fun hj ↦ hj ▸ howns⟩, ?_⟩
  exact hparts.below i a howns

/-- The first task creates a second one, which waits for a message with its
context on its stack. -/
def contextPasses : List Pass :=
  let pointer := (stackArea 1 sampleBoot.stackTop).2.1 - 68
  [(callBy 0 5 0 0x300#32 0 0 0 0).pass 0,
    (Preemption.svc pointer 9 0x20005300#32 0x20005310#32 8 0 0 0).pass 1]

theorem saved_stacks_apart_waiting : ∃ s, Reachable sampleBoot s ∧
    (s.kernel.tds 0).state = .running ∧ (s.kernel.tds 1).state = .sendBlk ∧
    (s.kernel.tds 1).stackPointer ≠ (s.kernel.tds 1).stackBase ∧
    (s.kernel.tds 1).stackPointer.toNat ≤ (s.kernel.tds 1).stackBase.toNat ∧
    ∀ a : Word, (s.kernel.tds 1).stackPointer.toNat ≤ a.toNat →
      a.toNat < (s.kernel.tds 1).stackBase.toNat →
      (∀ j, (s.kernel.tds j).Owns a ↔ j = 1) ∧
        a.toNat < sampleBoot.stackTop.toNat - kernelStackSize.toNat := by
  obtain ⟨s, hr, hs⟩ := exists_run Pass.run_step (booted sampleBoot) contextPasses
    (fun s ↦ decide ((s.kernel.tds 0).state = .running ∧ (s.kernel.tds 1).state = .sendBlk ∧
      (s.kernel.tds 1).stackPointer ≠ (s.kernel.tds 1).stackBase))
    (by decide +kernel)
  obtain ⟨h₀, h₁, hne⟩ := of_decide_eq_true hs
  have hreach : Reachable sampleBoot s := ⟨_, _, boot_eq sampleBoot, hr⟩
  have happart := saved_stacks_apart (by decide) hreach (i := 1) (by rw [isTdAvailable, h₁])
  exact ⟨s, hreach, h₀, h₁, hne, happart⟩

end Stacks

end PrjOS
