import PrjOS.TaskTable
import PrjOS.Syscall.Messages

namespace PrjOS

open ByteMemory Function Transition

/-- The descriptor that an operation uses for a new task, with the id that
the creation returns. -/
def TaskTable.created (s : TaskTable) (op : TaskOp) : List (TdPtr × Word) :=
  match op.params with
  | none => []
  | some params =>
    match createTask s.tds s.memory params with
    | none => []
    | some (i, tds, _) => [(i, (tds i).taskId)]

abbrev TaskTable.LoggedStep := Logged TaskTable.Step TaskTable.created

def uses (log : List (TdPtr × Word)) (i : TdPtr) : Nat := log.countP fun e ↦ e.1 = i

/-- No id that was returned is void, none was returned before, and the id of a
task whose descriptor was used again finds nothing. -/
structure NeverRevived (tds : TdPtr → TaskDescriptor) (log : List (TdPtr × Word)) : Prop where
  generation : ∀ e ∈ log, generationId e.2 ≠ 0
  fresh : (log.map Prod.snd).Nodup
  stale : ∀ pre i tid post, log = pre ++ (i, tid) :: post → uses post i ≠ 0 →
    findTd tid tds = none

def idAfter (i : TdPtr) (n : Nat) : Word := BitVec.ofNat 32 (i.val + 4096 * n)

section Ids

variable {i j : TdPtr} {n m : Nat}

theorem idAfter_toNat (i : TdPtr) (n : Nat) :
    (idAfter i n).toNat = (i.val + 4096 * n) % 2 ^ 32 := BitVec.toNat_ofNat ..

theorem idAfter_succ (i : TdPtr) (n : Nat) :
    idAfter i n + tasksIdGenerationIncrement = idAfter i (n + 1) := by
  apply BitVec.eq_of_toNat_eq
  rw [BitVec.toNat_add, idAfter_toNat, idAfter_toNat]
  simp only [tasksIdGenerationIncrement, BitVec.toNat_ofNat]
  omega

theorem generation_toNat (w : Word) : (generationId w).toNat = w.toNat / 4096 := by
  have hmask : tasksIdGenerationMask = ~~~tasksIdIndexMask := rfl
  have hsum := congrArg BitVec.toNat (and_not_add_and w tasksIdIndexMask)
  have hle : (w &&& ~~~tasksIdIndexMask).toNat ≤ w.toNat := by
    rw [BitVec.toNat_and]
    exact Nat.and_le_left
  have hlt := w.isLt
  rw [BitVec.toNat_add, index_toNat] at hsum
  rw [generationId, hmask, BitVec.toNat_ushiftRight, Nat.shiftRight_eq_div_pow]
  change _ / 4096 = _
  omega

theorem idAfter_generation (i : TdPtr) (n : Nat) :
    (generationId (idAfter i n)).toNat = n % 2 ^ 20 := by
  have hi := i.isLt
  rw [generation_toNat, idAfter_toNat]
  omega

theorem idAfter_index (i : TdPtr) (n : Nat) :
    (idAfter i n &&& tasksIdIndexMask).toNat = i.val := by
  have hi := i.isLt
  rw [index_toNat, idAfter_toNat]
  omega

theorem idAfter_inj (hn : n < 2 ^ 20) (hm : m < 2 ^ 20) (h : idAfter i n = idAfter j m) :
    i = j ∧ n = m := by
  have hi := i.isLt
  have hj := j.isLt
  have htoNat := congrArg BitVec.toNat h
  rw [idAfter_toNat, idAfter_toNat] at htoNat
  refine ⟨Fin.ext ?_, ?_⟩ <;> omega

end Ids

section Runs

variable {base : Word} {m : Memory} {ops : List TaskOp} {s : TaskTable}
  {log : List (TdPtr × Word)}

theorem uses_append (log : List (TdPtr × Word)) (i j : TdPtr) (tid : Word) :
    uses (log ++ [(j, tid)]) i = uses log i + if j = i then 1 else 0 := by
  simp [uses, List.countP_append, List.countP_cons]

theorem created_of_none {op : TaskOp}
    (h : ∀ params, op.params = some params → createTask s.tds s.memory params = none) :
    s.created op = [] := by
  unfold TaskTable.created
  cases hp : op.params with
  | none => rfl
  | some params => simp only [h params hp]

structure Numbered (tds : TdPtr → TaskDescriptor) (log : List (TdPtr × Word)) : Prop where
  current : ∀ i, (tds i).taskId = idAfter i (uses log i)
  entry : ∀ pre i tid post, log = pre ++ (i, tid) :: post → tid = idAfter i (uses pre i + 1)

theorem Numbered.step (h : Numbered s.tds log) (op : TaskOp) :
    Numbered (s.apply op).tds (log ++ s.created op) := by
  have happ := s.apply_applied op
  generalize s.apply op = s' at happ
  cases happ with
  | keeps s' hc hm hk =>
    rw [created_of_none hc, List.append_nil]
    refine ⟨fun i ↦ ?_, h.entry⟩
    obtain ⟨state, he⟩ := hk i
    rw [he]
    exact h.current i
  | creates params j tds memory hp hc =>
    have hnew : s.created op = [(j, (tds j).taskId)] := by
      simp only [TaskTable.created, hp, hc]
    obtain ⟨-, rfl, -⟩ := createTask_eq_some hc
    have hid : (newTask (s.tds j) s.memory params).1.taskId = idAfter j (uses log j + 1) := by
      rw [newTask_taskId, h.current j, idAfter_succ]
    rw [hnew, update_self, hid]
    refine ⟨fun i ↦ ?_, fun pre i tid post he ↦ ?_⟩
    · rw [uses_append]
      change (update s.tds j _ i).taskId = _
      by_cases hi : i = j
      · subst hi
        rw [update_self, hid, if_pos rfl]
      · rw [update_of_ne hi, h.current i, if_neg (Ne.symm hi), Nat.add_zero]
    · rcases List.eq_nil_or_concat post with rfl | ⟨post, last, rfl⟩
      · obtain ⟨rfl, hlast⟩ := List.append_inj' he rfl
        simp only [List.cons.injEq, Prod.mk.injEq, and_true] at hlast
        obtain ⟨rfl, rfl⟩ := hlast
        rfl
      · rw [List.concat_eq_append, ← List.cons_append, ← List.append_assoc] at he
        obtain ⟨he, -⟩ := List.append_inj' he rfl
        exact h.entry pre i tid post he

theorem numbered_of_run
    (hr : Run TaskTable.LoggedStep (TaskTable.initial base m, []) ops (s, log)) :
    Numbered s.tds log := by
  refine hr.invariant (P := fun s ↦ Numbered s.1.tds s.2) ⟨fun i ↦ ?_, by simp⟩ ?_
  · rfl
  · intro s op s' hs hstep
    obtain ⟨htable, hlog⟩ := hstep
    rw [htable, hlog]
    exact hs.step op

theorem uses_split (pre post : List (TdPtr × Word)) (i j : TdPtr) (tid : Word) :
    uses (pre ++ (j, tid) :: post) i = uses pre i + (uses post i + if j = i then 1 else 0) := by
  simp [uses, List.countP_append, List.countP_cons]

/-- Every use of a descriptor that is counted has its place in the log. -/
theorem exists_use {i : TdPtr} {n : Nat} (h : n < uses log i) :
    ∃ pre tid post, log = pre ++ (i, tid) :: post ∧ uses pre i = n := by
  induction log generalizing n with
  | nil => simp [uses] at h
  | cons e log ih =>
    obtain ⟨j, tid⟩ := e
    rw [← List.nil_append ((j, tid) :: log), uses_split] at h
    by_cases hj : j = i
    · subst hj
      cases n with
      | zero => exact ⟨[], tid, log, rfl, rfl⟩
      | succ n =>
        simp only [uses, List.countP_nil, if_true] at h
        obtain ⟨pre, tid', post, rfl, hn⟩ := ih (n := n) (by unfold uses; omega)
        refine ⟨(j, tid) :: pre, tid', post, rfl, ?_⟩
        rw [← List.nil_append ((j, tid) :: pre), uses_split, if_pos rfl, hn]
        simp [uses]
    · simp only [uses, List.countP_nil, if_neg hj] at h
      obtain ⟨pre, tid', post, rfl, hn⟩ := ih (n := n) (by unfold uses; omega)
      refine ⟨(j, tid) :: pre, tid', post, rfl, ?_⟩
      rw [← List.nil_append ((j, tid) :: pre), uses_split, if_neg hj, hn]
      simp [uses]

theorem nodup_of_entries (he : ∀ pre i tid post, log = pre ++ (i, tid) :: post →
    tid = idAfter i (uses pre i + 1)) (hu : ∀ i, uses log i < 2 ^ 20) :
    (log.map Prod.snd).Nodup := by
  induction log using List.reverseRecOn with
  | nil => exact List.nodup_nil
  | append_singleton log e ih =>
    obtain ⟨i, tid⟩ := e
    have hroot : ∀ pre j tid' post, log = pre ++ (j, tid') :: post →
        tid' = idAfter j (uses pre j + 1) := by
      intro pre j tid' post hlog
      refine he pre j tid' (post ++ [(i, tid)]) ?_
      rw [hlog, List.append_assoc, List.cons_append]
    have hcount : ∀ j, uses log j < 2 ^ 20 := by
      intro j
      have hj := hu j
      rw [uses_append] at hj
      omega
    rw [List.map_append, List.map_cons, List.map_nil, List.nodup_append]
    refine ⟨ih hroot hcount, List.nodup_singleton _, ?_⟩
    intro x hx y hy hxy
    rw [hxy, List.mem_singleton.mp hy] at hx
    obtain ⟨⟨j, x⟩, hmem, hxtid⟩ := List.mem_map.mp hx
    obtain rfl : x = tid := hxtid
    obtain ⟨pre, post, hlog⟩ := List.append_of_mem hmem
    have hold := hroot pre j x post hlog
    have hnew := he log i x [] rfl
    have hlast := hu i
    have hpre := hcount j
    rw [uses_append, if_pos rfl] at hlast
    rw [hlog, uses_split, if_pos rfl] at hpre
    obtain ⟨rfl, hn⟩ := idAfter_inj (by omega) hlast (hold.symm.trans hnew)
    rw [hlog, uses_split, if_pos rfl] at hn
    omega

theorem Numbered.neverRevived (h : Numbered s.tds log) (hu : ∀ i, uses log i < 2 ^ 20) :
    NeverRevived s.tds log := by
  refine ⟨fun e hm hz ↦ ?_, nodup_of_entries h.entry hu, fun pre i tid post hlog hpost ↦ ?_⟩
  · obtain ⟨i, tid⟩ := e
    obtain ⟨pre, post, hlog⟩ := List.append_of_mem hm
    have hi := hu i
    rw [hlog, uses_split, if_pos rfl] at hi
    have hgen := idAfter_generation i (uses pre i + 1)
    rw [← h.entry pre i tid post hlog, hz] at hgen
    change 0 = _ at hgen
    omega
  · have hi := hu i
    have hcurrent := h.current i
    rw [hlog, uses_split, if_pos rfl] at hi hcurrent
    have htid := h.entry pre i tid post hlog
    cases hfind : findTd tid s.tds with
    | none => rfl
    | some j =>
      obtain ⟨hid, hindex⟩ := findTd_eq_some.mp hfind
      rw [htid, idAfter_index] at hindex
      obtain rfl : i = j := Fin.ext hindex
      rw [hcurrent, htid] at hid
      have hn := (idAfter_inj hi (by omega) hid).2
      omega

theorem Numbered.lt_of_generation (h : Numbered s.tds log)
    (hg : ∀ e ∈ log, generationId e.2 ≠ 0)
    (i : TdPtr) : uses log i < 2 ^ 20 := by
  by_contra hle
  have hlast : 2 ^ 20 - 1 < uses log i := by omega
  obtain ⟨pre, tid, post, hlog, hn⟩ := exists_use hlast
  have hmem : (i, tid) ∈ log := by rw [hlog]; simp
  apply hg _ hmem
  apply BitVec.eq_of_toNat_eq
  rw [h.entry pre i tid post hlog, hn, idAfter_generation]
  rfl

end Runs

/-- An id is never used twice, exactly as long as no descriptor has had
2 ^ 20 tasks. -/
theorem neverRevived_iff {base : Word} {m : Memory} {ops : List TaskOp} {s : TaskTable}
    {log : List (TdPtr × Word)}
    (hr : Run TaskTable.LoggedStep (TaskTable.initial base m, []) ops (s, log)) :
    NeverRevived s.tds log ↔ ∀ i, uses log i < 2 ^ 20 :=
  ⟨fun h ↦ (numbered_of_run hr).lt_of_generation h.generation,
    (numbered_of_run hr).neverRevived⟩

def reuseOps : List TaskOp := [.create 0 0 0x100#32, .exit 0, .create 0 0 0x100#32]

theorem neverRevived_iff_reuse : ∃ s,
    Run TaskTable.LoggedStep (TaskTable.initial 0x20008000#32 fun _ ↦ 0, []) reuseOps
        (s, [(0, 0x1000#32), (0, 0x2000#32)]) ∧
      NeverRevived s.tds [(0, 0x1000#32), (0, 0x2000#32)] := by
  obtain ⟨s, log, hr, rfl⟩ : ∃ s log,
      Run TaskTable.LoggedStep (TaskTable.initial 0x20008000#32 fun _ ↦ 0, []) reuseOps (s, log) ∧
        log = [(0, 0x1000#32), (0, 0x2000#32)] :=
    ⟨_, _, ((Run.nil.log (l := TaskOp.create 0 0 0x100#32) rfl).log (l := TaskOp.exit 0) rfl).log
      (l := TaskOp.create 0 0 0x100#32) rfl, by decide⟩
  exact ⟨s, hr, (neverRevived_iff hr).mpr (by decide)⟩

section Wrap

def exitLoop : Nat → List TaskOp
  | 0 => []
  | n + 1 => exitLoop n ++ [.create 0 0 0x100#32] ++ [.exit 0]

theorem findAvailable_first {tds : TdPtr → TaskDescriptor} (h : isTdAvailable (tds 0) = true) :
    findAvailable tds .regular = some 0 := by
  rw [findAvailable, List.finRange_succ, List.find?_cons_of_pos]
  rw [h, Bool.and_true]
  rfl

theorem exitLoop_run (base : Word) (m : Memory) (n : Nat) :
    ∃ s log, Run TaskTable.LoggedStep (TaskTable.initial base m, []) (exitLoop n) (s, log) ∧
      uses log 0 = n ∧ isTdAvailable (s.tds 0) = true := by
  induction n with
  | zero => exact ⟨_, _, .nil, rfl, rfl⟩
  | succ n ih =>
    obtain ⟨s, log, hr, hn, ha⟩ := ih
    have hcreate : ∃ tid, s.created (.create 0 0 0x100#32) = [(0, tid)] := by
      refine ⟨(s.tds 0).taskId + tasksIdGenerationIncrement, ?_⟩
      simp only [TaskTable.created, TaskOp.params, createTask, findAvailable_first ha,
        Option.map_some, update_self, newTask_taskId]
    obtain ⟨tid, hcreate⟩ := hcreate
    have hr₁ := hr.log (l := .create 0 0 0x100#32) rfl
    have hr₂ := hr₁.log (l := .exit 0) rfl
    refine ⟨_, _, hr₂, ?_, ?_⟩
    · have hexit : (s.apply (.create 0 0 0x100#32)).created (.exit 0) = [] := rfl
      rw [hcreate, hexit, List.append_nil, uses_append, if_pos rfl, hn]
    · simp [TaskTable.apply, TaskTable.setState, isTdAvailable]

end Wrap

/-- The task number 2 ^ 20 of the first descriptor gets the id that stands
for no task. -/
theorem id_wraps_to_invalid :
    ∃ s log, Run TaskTable.LoggedStep (TaskTable.initial 0x20008000#32 fun _ ↦ 0, [])
        (exitLoop (2 ^ 20)) (s, log) ∧
      (0, tasksIdInvalid) ∈ log ∧ ¬ NeverRevived s.tds log := by
  obtain ⟨s, log, hr, hn, -⟩ := exitLoop_run 0x20008000#32 (fun _ ↦ 0) (2 ^ 20)
  have hlast : 2 ^ 20 - 1 < uses log 0 := by omega
  obtain ⟨pre, tid, post, hlog, hpre⟩ := exists_use hlast
  have htid := (numbered_of_run hr).entry pre 0 tid post hlog
  rw [hpre] at htid
  have hmem : (0, tasksIdInvalid) ∈ log := by
    rw [hlog, htid]
    simp [idAfter, tasksIdInvalid]
  exact ⟨s, log, hr, hmem, fun h ↦ h.generation _ hmem rfl⟩

end PrjOS
