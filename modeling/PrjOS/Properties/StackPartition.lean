import PrjOS.TaskTable
import PrjOS.KernelActions

namespace PrjOS

open ByteMemory Function Transition

def TaskDescriptor.Owns (td : TaskDescriptor) (a : Word) : Prop :=
  td.stackBase.toNat - td.maxStackSize.toNat ≤ a.toNat ∧ a.toNat < td.stackBase.toNat

/-- The kernel's stack and the regions of all tasks together. -/
def totalStackArea : Nat :=
  kernelStackSize.toNat + kernelNumberOfTasks * kernelTaskDefaultStackSize.toNat +
    kernelNumberOfMicrotasks * kernelMicrotaskDefaultStackSize.toNat

/-- What never changes in the descriptor with index `i`. -/
structure Slot (base : Word) (i : TdPtr) (td : TaskDescriptor) : Prop where
  index : td.taskId &&& tasksIdIndexMask = BitVec.ofNat 32 i.val
  taskType : td.taskType = if i.val < kernelNumberOfTasks then .regular else .micro
  stackBase : td.stackBase = (initializeTds base i).stackBase
  maxStackSize : td.maxStackSize = (initializeTds base i).maxStackSize

/-- The descriptors have distinct ids, and stack regions that overlap neither
one another nor the kernel's stack. -/
structure Partitioned (base : Word) (tds : TdPtr → TaskDescriptor) : Prop where
  slot : ∀ i, Slot base i (tds i)
  find : ∀ tid i, findTd tid tds = some i ↔ (tds i).taskId = tid
  distinct : ∀ i j, (tds i).taskId = (tds j).taskId → i = j
  room : ∀ i, (tds i).maxStackSize.toNat ≤ (tds i).stackBase.toNat
  disjoint : ∀ i j a, (tds i).Owns a → (tds j).Owns a → i = j
  below : ∀ i a, (tds i).Owns a → a.toNat < base.toNat - kernelStackSize.toNat

/-- What `createTask` does with a table. The first frame of a task has 23
words. -/
structure CreatesOne (s : TaskTable) (params : TaskCreateParameters) : Prop where
  full : createTask s.tds s.memory params = none ↔
    ∀ i, (s.tds i).taskType = params.taskType → isTdAvailable (s.tds i) = false
  slot : ∀ i tds memory, createTask s.tds s.memory params = some (i, tds, memory) →
    isTdAvailable (s.tds i) = true ∧ (s.tds i).taskType = params.taskType ∧
      ∀ j, j ≠ i → tds j = s.tds j
  frame : ∀ i tds memory, createTask s.tds s.memory params = some (i, tds, memory) →
    (tds i).stackPointer.toNat + 4 * 23 = (tds i).stackBase.toNat ∧
      (tds i).stackBase.toNat - (tds i).maxStackSize.toNat ≤ (tds i).stackPointer.toNat ∧
      ∀ a, memory a ≠ s.memory a → (tds i).Owns a

section Layout

theorem alignWord_toNat (a : Word) : (alignWord a).toNat = a.toNat / 4 * 4 := by
  have hsum : (alignWord a).toNat + a.toNat % 4 < 2 ^ 32 + a.toNat ∧
      ((alignWord a).toNat + a.toNat % 4) % 2 ^ 32 = a.toNat := by
    have hadd := congrArg BitVec.toNat (and_not_add_and a 3#32)
    have hlow : (a &&& 3#32).toNat = a.toNat % 4 := by
      rw [BitVec.toNat_and]
      exact Nat.and_two_pow_sub_one_eq_mod a.toNat 2
    have hle : (alignWord a).toNat ≤ a.toNat := by
      unfold alignWord
      rw [BitVec.toNat_and]
      exact Nat.and_le_left
    rw [BitVec.toNat_add, hlow] at hadd
    exact ⟨by omega, hadd⟩
  have hlt := a.isLt
  omega

/-- How far the region with index `i` begins below the top of the memory. -/
def stackOffset (i : Nat) : Nat :=
  if i < 8 then 0x2000 + 0x900 * i else 0x2000 + 0x900 * 8 + 0x200 * (i - 8)

variable {base : Word} {i j : TdPtr}

theorem initializeTds_taskType (hb : base ≠ 0) (i : TdPtr) :
    (initializeTds base i).taskType = (stackArea i.val base).1 ∧
      (initializeTds base i).stackBase = (stackArea i.val base).2.1 ∧
      (initializeTds base i).maxStackSize = (stackArea i.val base).2.2 := by
  have hi : (BitVec.ofNat 32 i.val &&& tasksIdIndexMask).toNat = i.val := by
    have hlt := i.isLt
    rw [index_toNat, BitVec.toNat_ofNat]
    omega
  simp only [initializeTds, reinitializeTd, if_pos hb, hi, and_self]

theorem stackArea_toNat (hb : totalStackArea ≤ base.toNat) (i : TdPtr) :
    (stackArea i.val base).2.1.toNat = base.toNat / 4 * 4 - stackOffset i.val ∧
      (stackArea i.val base).2.2.toNat = if i.val < 8 then 0x900 else 0x200 := by
  have hi := i.isLt
  have hlt := base.isLt
  have htotal : totalStackArea = 0x7800 := rfl
  rw [htotal] at hb
  unfold stackArea stackOffset kernelNumberOfTasks
  split_ifs with h
  · refine ⟨?_, rfl⟩
    rw [alignWord_toNat]
    simp only [BitVec.toNat_sub, BitVec.toNat_add, BitVec.toNat_mul, BitVec.toNat_ofNat,
      kernelStackSize, kernelTaskDefaultStackSize]
    omega
  · refine ⟨?_, rfl⟩
    rw [alignWord_toNat]
    simp only [BitVec.toNat_sub, BitVec.toNat_add, BitVec.toNat_mul, BitVec.toNat_ofNat,
      kernelStackSize, kernelTaskDefaultStackSize, kernelMicrotaskDefaultStackSize]
    omega

theorem totalStackArea_ne_zero (hb : totalStackArea ≤ base.toNat) : base ≠ 0 := by
  rintro rfl
  exact absurd hb (by decide)

theorem Slot.top {td : TaskDescriptor} (h : Slot base i td) (hb : totalStackArea ≤ base.toNat) :
    td.stackBase.toNat = base.toNat / 4 * 4 - stackOffset i.val ∧
      td.maxStackSize.toNat = if i.val < 8 then 0x900 else 0x200 := by
  obtain ⟨-, hs, hm⟩ := initializeTds_taskType (totalStackArea_ne_zero hb) i
  rw [h.stackBase, h.maxStackSize, hs, hm]
  exact stackArea_toNat hb i

theorem Slot.region {td : TaskDescriptor} (h : Slot base i td) (hb : totalStackArea ≤ base.toNat)
    {a : Word} (ha : td.Owns a) :
    base.toNat / 4 * 4 ≤ a.toNat + stackOffset i.val + (if i.val < 8 then 0x900 else 0x200) ∧
      a.toNat + stackOffset i.val < base.toNat / 4 * 4 := by
  obtain ⟨hs, hm⟩ := h.top hb
  obtain ⟨hlow, hhigh⟩ := ha
  constructor <;> omega

theorem Slot.room {td : TaskDescriptor} (h : Slot base i td) (hb : totalStackArea ≤ base.toNat) :
    td.maxStackSize.toNat ≤ td.stackBase.toNat := by
  have hi := i.isLt
  have htotal : totalStackArea = 0x7800 := rfl
  obtain ⟨hs, hm⟩ := h.top hb
  rw [hs, hm]
  unfold stackOffset
  split_ifs <;> omega

theorem stackOffset_lt {i j : Nat} (h : i < j) :
    stackOffset i + (if i < 8 then 0x900 else 0x200) ≤ stackOffset j := by
  unfold stackOffset
  split_ifs <;> omega

end Layout

section Create

variable {base : Word} {s : TaskTable} {params : TaskCreateParameters}

/-- Pushing words moves the stack pointer down and writes only above it. -/
theorem foldl_pushWord (ws : List Word) (sp : Word) (m : Memory) (h : 4 * ws.length ≤ sp.toNat) :
    (ws.foldl pushWord (sp, m)).1.toNat + 4 * ws.length = sp.toNat ∧
      ∀ a, (ws.foldl pushWord (sp, m)).2 a ≠ m a →
        (ws.foldl pushWord (sp, m)).1.toNat ≤ a.toNat ∧ a.toNat < sp.toNat := by
  induction ws generalizing sp m with
  | nil => exact ⟨rfl, fun a ha ↦ absurd rfl ha⟩
  | cons w ws ih =>
    have hsub : (sp - 4#32).toNat = sp.toNat - 4 := by
      have hlt := sp.isLt
      simp only [List.length_cons] at h
      rw [BitVec.toNat_sub, BitVec.toNat_ofNat]
      omega
    simp only [List.length_cons] at h
    obtain ⟨hsp, hm⟩ := ih (sp - 4#32) (writeWord m (sp - 4#32) w) (by omega)
    simp only [List.foldl_cons, List.length_cons, pushWord] at hsp hm ⊢
    refine ⟨by omega, fun a ha ↦ ?_⟩
    by_cases hw : writeWord m (sp - 4#32) w a = m a
    · have hin := hm a fun he ↦ ha (he.trans hw)
      omega
    · have hin : Within (sp - 4#32) 4 a := by
        by_contra hout
        exact hw (store_out hout)
      unfold Within at hin
      rw [BitVec.toNat_sub, hsub] at hin
      have hlt := a.isLt
      omega

theorem Slot.stackSize {i : TdPtr} {td : TaskDescriptor} (h : Slot base i td)
    (hb : totalStackArea ≤ base.toNat) : stackSizeOf td.taskType = td.maxStackSize := by
  obtain ⟨-, -, hm⟩ := initializeTds_taskType (totalStackArea_ne_zero hb) i
  rw [h.maxStackSize, hm, h.taskType]
  unfold stackArea
  split_ifs <;> rfl

theorem Slot.initial (hb : totalStackArea ≤ base.toNat) (i : TdPtr) :
    Slot base i (initializeTds base i) := by
  refine ⟨?_, ?_, rfl, rfl⟩
  · apply BitVec.eq_of_toNat_eq
    have hi := i.isLt
    rw [initializeTds_indexed base i, BitVec.toNat_ofNat]
    omega
  · rw [(initializeTds_taskType (totalStackArea_ne_zero hb) i).1]
    unfold stackArea
    split_ifs <;> rfl

theorem Slot.setState {i : TdPtr} {td : TaskDescriptor} (h : Slot base i td) (state : TaskState) :
    Slot base i { td with state := state } :=
  ⟨h.index, h.taskType, h.stackBase, h.maxStackSize⟩

theorem Slot.newTask {i : TdPtr} {td : TaskDescriptor} (h : Slot base i td)
    (hb : totalStackArea ≤ base.toNat) (m : Memory) (params : TaskCreateParameters) :
    Slot base i (newTask td m params).1 := by
  obtain ⟨htype, hbase, hsize⟩ := newTask_kept td m params
  refine ⟨?_, htype.trans h.taskType, hbase.trans h.stackBase, ?_⟩
  · apply BitVec.eq_of_toNat_eq
    rw [newTask_taskId, next_generation_index, h.index]
  · rw [hsize, h.stackSize hb, h.maxStackSize]

/-- What an operation keeps in every descriptor. -/
theorem Applied.slot {s' : TaskTable} {op : TaskOp} (h : Applied s op s')
    (hb : totalStackArea ≤ base.toNat) (hs : ∀ i, Slot base i (s.tds i)) (i : TdPtr) :
    Slot base i (s'.tds i) := by
  cases h with
  | creates params j tds memory hp hc =>
    obtain ⟨-, rfl, -⟩ := createTask_eq_some hc
    change Slot base i (update s.tds j _ i)
    by_cases hi : i = j
    · subst hi
      rw [update_self]
      exact (hs i).newTask hb _ _
    · rw [update_of_ne hi]
      exact hs i
  | keeps _ _ _ hk =>
    obtain ⟨state, he⟩ := hk i
    rw [he]
    exact (hs i).setState state

theorem slots_of_run {m : Memory} {ops : List TaskOp} {s : TaskTable}
    (hb : totalStackArea ≤ base.toNat)
    (hr : Run TaskTable.Step (TaskTable.initial base m) ops s) (i : TdPtr) :
    Slot base i (s.tds i) := by
  revert i
  refine hr.invariant (P := fun s ↦ ∀ i, Slot base i (s.tds i)) (Slot.initial hb) ?_
  intro s op s' hs hstep
  exact (hstep ▸ s.apply_applied op).slot hb hs

theorem partitioned_of_slots {tds : TdPtr → TaskDescriptor} (hb : totalStackArea ≤ base.toNat)
    (hs : ∀ i, Slot base i (tds i)) : Partitioned base tds := by
  have hids : IdsIndexed tds := by
    intro i
    have hi := i.isLt
    rw [(hs i).index, BitVec.toNat_ofNat]
    omega
  refine ⟨hs, fun tid i ↦ hids.find, fun i j ↦ hids.inj, fun i ↦ (hs i).room hb, ?_, ?_⟩
  · intro i j a hi hj
    have hin := (hs i).region hb hi
    have hjn := (hs j).region hb hj
    rcases lt_trichotomy i.val j.val with hlt | heq | hlt
    · have := stackOffset_lt hlt
      omega
    · exact Fin.ext heq
    · have := stackOffset_lt hlt
      omega
  · intro i a ha
    have hin := (hs i).region hb ha
    have hoff : kernelStackSize.toNat ≤ stackOffset i.val := by
      change 0x2000 ≤ _
      unfold stackOffset
      split_ifs <;> omega
    omega

theorem Slot.typeRange {i : TdPtr} {td : TaskDescriptor} (h : Slot base i td) {t : TaskType}
    (ht : t ≠ .unset) : typeRange t i = true ↔ td.taskType = t := by
  have hi := i.isLt
  have hlow : decide (i.val ≤ kernelNumberOfTasks - 1) = decide (i.val < kernelNumberOfTasks) := by
    rw [decide_eq_decide]
    unfold kernelNumberOfTasks
    omega
  have hhigh : decide (kernelNumberOfTasks ≤ i.val ∧
      i.val ≤ kernelNumberOfMicrotasks + kernelNumberOfTasks - 1) =
        decide (¬ i.val < kernelNumberOfTasks) := by
    rw [decide_eq_decide]
    unfold kernelNumberOfTasks kernelNumberOfMicrotasks
    omega
  rw [h.taskType]
  cases t with
  | unset => exact absurd rfl ht
  | regular =>
    rw [PrjOS.typeRange, hlow]
    by_cases hlt : i.val < kernelNumberOfTasks <;> simp [hlt]
  | micro =>
    rw [PrjOS.typeRange, hhigh]
    by_cases hlt : i.val < kernelNumberOfTasks <;> simp [hlt]

theorem TaskOp.params_default {op : TaskOp} (h : op.params = some params) :
    params.taskType ≠ .unset ∧ params.stackPointer = 0 := by
  cases op with
  | create => cases h; exact ⟨TaskType.noConfusion, rfl⟩
  | createMicroTask => cases h; exact ⟨TaskType.noConfusion, rfl⟩
  | exit => cases h
  | kill => cases h

/-- The stack pointer and the memory of a new task whose caller leaves the
choice of the stack to the kernel. -/
theorem newTask_frame {i : TdPtr} {td : TaskDescriptor} (h : Slot base i td)
    (hb : totalStackArea ≤ base.toNat) (m : Memory) (hp : params.stackPointer = 0) :
    (newTask td m params).1.stackPointer.toNat + 4 * 23 = td.stackBase.toNat ∧
      ∀ a, (newTask td m params).2 a ≠ m a →
        (newTask td m params).1.stackPointer.toNat ≤ a.toNat ∧ a.toNat < td.stackBase.toNat := by
  obtain ⟨htop, hsize⟩ := h.top hb
  have hroom := h.room hb
  have halign : (alignWord td.stackBase).toNat = td.stackBase.toNat := by
    have hfour : stackOffset i.val % 4 = 0 := by
      unfold stackOffset
      split_ifs <;> omega
    rw [alignWord_toNat, htop]
    omega
  have hlen : 4 * 23 ≤ (alignWord td.stackBase).toNat := by
    rw [halign]
    split_ifs at hsize <;> omega
  have hframe := foldl_pushWord
    [0, 0, 0, 0, 0, 0, 0x01000000#32, params.cpuSpecific.startFunction, 0xFFFFFFFF#32,
      params.cpuSpecific.regs 12, params.cpuSpecific.regs 3, params.cpuSpecific.regs 2,
      params.cpuSpecific.regs 1, params.cpuSpecific.regs 0, params.cpuSpecific.exceptionReturn,
      params.cpuSpecific.regs 11, params.cpuSpecific.regs 10, params.cpuSpecific.regs 9,
      params.cpuSpecific.regs 8, params.cpuSpecific.regs 7, params.cpuSpecific.regs 6,
      params.cpuSpecific.regs 5, params.cpuSpecific.regs 4] (alignWord td.stackBase) m hlen
  rw [halign] at hframe
  have hnew : (newTask td m params).1.stackPointer = (cpuCreateTask td.stackBase m params).1 ∧
      (newTask td m params).2 = (cpuCreateTask td.stackBase m params).2 := by
    simp only [PrjOS.newTask, reinitializeTd_zero, hp, ne_eq, not_true_eq_false, if_false, and_self]
  rw [hnew.1, hnew.2]
  exact hframe

/-- The first frame of a new task is in its stack region. -/
theorem newTask_region {i : TdPtr} {td : TaskDescriptor} (h : Slot base i td)
    (hb : totalStackArea ≤ base.toNat) (m : Memory) (hp : params.stackPointer = 0) :
    (newTask td m params).1.stackPointer.toNat + 4 * 23 =
        (newTask td m params).1.stackBase.toNat ∧
      (newTask td m params).1.stackBase.toNat - (newTask td m params).1.maxStackSize.toNat ≤
        (newTask td m params).1.stackPointer.toNat ∧
      ∀ a, (newTask td m params).2 a ≠ m a → (newTask td m params).1.Owns a := by
  obtain ⟨hframe, hmem⟩ := newTask_frame h hb m hp
  have hnew := h.newTask hb m params
  have hsize : 4 * 23 ≤ (newTask td m params).1.maxStackSize.toNat := by
    rw [(hnew.top hb).2]
    split_ifs <;> omega
  have hbase : (newTask td m params).1.stackBase = td.stackBase := (newTask_kept _ _ _).2.1
  have hlow : (newTask td m params).1.stackBase.toNat -
      (newTask td m params).1.maxStackSize.toNat ≤ (newTask td m params).1.stackPointer.toNat := by
    rw [hbase]
    omega
  rw [← hbase] at hframe hmem
  generalize newTask td m params = new at hframe hmem hlow ⊢
  exact ⟨hframe, hlow, fun a ha ↦ ⟨hlow.trans (hmem a ha).1, (hmem a ha).2⟩⟩

theorem createsOne {op : TaskOp} (hb : totalStackArea ≤ base.toNat)
    (hs : ∀ i, Slot base i (s.tds i)) (hp : op.params = some params) : CreatesOne s params := by
  obtain ⟨htype, hsp⟩ := TaskOp.params_default hp
  refine ⟨?_, ?_, ?_⟩
  · rw [createTask, Option.map_eq_none_iff, findAvailable_none]
    exact forall_congr' fun i ↦ imp_congr_left ((hs i).typeRange htype)
  · intro i tds memory hc
    obtain ⟨hf, rfl, -⟩ := createTask_eq_some hc
    obtain ⟨hrange, havail⟩ := findAvailable_some hf
    exact ⟨havail, ((hs i).typeRange htype).mp hrange, fun j hj ↦ update_of_ne hj ..⟩
  · intro i tds memory hc
    obtain ⟨hf, rfl, rfl⟩ := createTask_eq_some hc
    rw [update_self]
    exact newTask_region (hs i) hb s.memory hsp

end Create

/-- Whatever is created, exits or is killed, the table keeps its ids and its
stacks apart, and a creation takes one free descriptor. -/
theorem descriptors_partitioned {base : Word} {m : Memory} {ops : List TaskOp} {s : TaskTable}
    (hb : totalStackArea ≤ base.toNat)
    (hr : Run TaskTable.Step (TaskTable.initial base m) ops s) :
    Partitioned base s.tds ∧ ∀ op params, TaskOp.params op = some params → CreatesOne s params :=
  ⟨partitioned_of_slots hb (slots_of_run hb hr), fun _ _ ↦ createsOne hb (slots_of_run hb hr)⟩

/-- A task exits, its descriptor is reused, and a microtask is created. -/
theorem descriptors_partitioned_reused :
    let s := (((TaskTable.initial 0x20008000#32 fun _ ↦ 0).apply
      (.create 0 0 0x100#32)).apply (.exit 0)).apply (.create 0 3 0x200#32)
    Partitioned 0x20008000#32 (s.apply (.createMicroTask 0x2000#32 3 0x300#32)).tds ∧
      ∀ op params, TaskOp.params op = some params →
        CreatesOne (s.apply (.createMicroTask 0x2000#32 3 0x300#32)) params :=
  descriptors_partitioned (by decide)
    ((((Run.nil.snoc rfl).snoc rfl).snoc rfl).snoc rfl)

section Kernel

variable {base : Word} {k k' : KernelData} {t : TdPtr}

theorem OtherChange.slot {i : TdPtr} {td : TaskDescriptor} (h : OtherChange k t i td)
    (hb : totalStackArea ≤ base.toNat) (hs : Slot base i (k.tds i)) : Slot base i td := by
  cases h with
  | kept => exact ⟨hs.index, hs.taskType, hs.stackBase, hs.maxStackSize⟩
  | handed => exact ⟨hs.index, hs.taskType, hs.stackBase, hs.maxStackSize⟩
  | received => exact ⟨hs.index, hs.taskType, hs.stackBase, hs.maxStackSize⟩
  | replied => exact ⟨hs.index, hs.taskType, hs.stackBase, hs.maxStackSize⟩
  | created => exact hs.newTask hb _ _

theorem CallerChange.slot {td : TaskDescriptor} (h : CallerChange k t td)
    (hs : Slot base t (k.tds t)) : Slot base t td := by
  cases h
  exact ⟨hs.index, hs.taskType, hs.stackBase, hs.maxStackSize⟩

theorem Preemption.result_slot {i : TdPtr} {td : TaskDescriptor} (p : Preemption)
    (hs : Slot base i td) : Slot base i (p.result td) := by
  unfold Preemption.result
  split_ifs <;> cases p <;> exact ⟨hs.index, hs.taskType, hs.stackBase, hs.maxStackSize⟩

theorem modify_slots {f : TaskDescriptor → TaskDescriptor} (hs : ∀ i, Slot base i (k.tds i))
    (hf : Slot base t (f (k.tds t))) (i : TdPtr) : Slot base i ((k.modify t f).tds i) := by
  by_cases hi : i = t
  · subst hi
    rwa [KernelData.modify_self]
  · rw [KernelData.modify_of_ne _ _ hi]
    exact hs i

theorem actionStep_slots {a : Action} (hb : totalStackArea ≤ base.toNat) (hk : KernelInvariant k)
    (hs : ∀ i, Slot base i (k.tds i)) (h : actionStep k a k') (i : TdPtr) :
    Slot base i (k'.tds i) := by
  cases a with
  | background k₁ =>
    obtain ⟨hsame, rfl⟩ := h
    have hcore := hsame.core i
    have hf {β : Type} (f : TaskDescriptor → β) (hf : ∀ td, f td.core = f td) :
        f (k'.tds i) = f (k.tds i) := by rw [← hf, hcore, hf]
    exact ⟨(hf (fun td ↦ td.taskId &&& tasksIdIndexMask) fun _ ↦ rfl).trans (hs i).index,
      (hf TaskDescriptor.taskType fun _ ↦ rfl).trans (hs i).taskType,
      (hf TaskDescriptor.stackBase fun _ ↦ rfl).trans (hs i).stackBase,
      (hf TaskDescriptor.maxStackSize fun _ ↦ rfl).trans (hs i).maxStackSize⟩
  | trap t p => exact h.2 ▸ modify_slots hs (p.result_slot (hs t)) i
  | call t =>
    obtain ⟨q, hq⟩ := hk.send
    have heffect := handleSyscall_effect h.1 h.2
    by_cases hi : i = t
    · subst hi
      exact (heffect.caller hq h.1).slot (hs i)
    · exact (heffect.other hq h.1 hi).slot hb (hs i)
  | interrupt w =>
    have heffect := handleInterrupt_effect h
    cases heffect with
    | ignored => exact hs i
    | lost => exact hs i
    | wakes e x j he hx hj =>
      rw [woken_tds]
      exact modify_slots hs
        ⟨(hs j).index, (hs j).taskType, (hs j).stackBase, (hs j).maxStackSize⟩ i

theorem booted_slots {b : Boot} (hb : totalStackArea ≤ b.stackTop.toNat) (i : TdPtr) :
    Slot b.stackTop i ((booted b).kernel.tds i) := by
  by_cases hi : i = 0
  · subst hi
    have hnew := (Slot.initial hb 0).newTask hb b.memory (firstTaskParams b)
    exact ⟨hnew.index, hnew.taskType, hnew.stackBase, hnew.maxStackSize⟩
  · simp only [booted, KernelData.setReturnValue, KernelData.modify_of_ne _ _ hi, update_of_ne hi]
    exact Slot.initial hb i

/-- The kernel keeps its descriptors as the table's operations do, whatever
calls and interrupts it serves. -/
theorem Served.partitioned {b : Boot} (hb : totalStackArea ≤ b.stackTop.toNat)
    (h : Served b k) : Partitioned b.stackTop k.tds := by
  obtain ⟨as, hr⟩ := h
  have hinv := hr.invariant
    (P := fun k ↦ KernelInvariant k ∧ ∀ i, Slot b.stackTop i (k.tds i)) ?_ ?_
  · exact partitioned_of_slots hb hinv.2
  · exact ⟨booted_invariant b, booted_slots hb⟩
  · exact fun k a k' ⟨hk, hs⟩ hstep ↦
      ⟨actionStep_invariant hk hstep, actionStep_slots hb hk hs hstep⟩

end Kernel

end PrjOS
