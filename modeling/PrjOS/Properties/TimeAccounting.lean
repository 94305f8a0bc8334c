import PrjOS.Invariants.Changes
import PrjOS.Invariants.Kernel
import PrjOS.Library.Ledger

namespace PrjOS

open ByteMemory Function Ledger Transition
open scoped BigOperators

inductive TimeKind
  | user | system
  deriving DecidableEq

instance : Fintype TimeKind where
  elems := {.user, .system}
  complete := by intro k; cases k <;> simp

abbrev TimeEntry : Type := Entry TdPtr TimeKind

structure Times where
  contextSwitchCount : BitVec 64
  systemTimeMicros : BitVec 64
  systemTimeEntryMicros : BitVec 64
  userTimeMicros : BitVec 64
  userTimeEntryMicros : BitVec 64

def TaskDescriptor.times (td : TaskDescriptor) : Times where
  contextSwitchCount := td.contextSwitchCount
  systemTimeMicros := td.systemTimeMicros
  systemTimeEntryMicros := td.systemTimeEntryMicros
  userTimeMicros := td.userTimeMicros
  userTimeEntryMicros := td.userTimeEntryMicros

def creation (k : KernelData) (t : TdPtr) : Option TdPtr :=
  (k.tds t).call.bind fun c ↦ (createParams k t c).bind fun params ↦
    findAvailable k.tds params.taskType

section Kernel

variable {k k' : KernelData} {t : TdPtr}

theorem creation_of_call {c : SyscallNumber} (h : (k.tds t).call = some c) :
    creation k t = (createParams k t c).bind fun params ↦ findAvailable k.tds params.taskType := by
  rw [creation, h]
  rfl

theorem Quiet.creation (h : Quiet k t) : creation k t = none := by
  have hevents := h.1
  unfold sendEvents at hevents
  cases hc : (k.tds t).call with
  | none => rw [PrjOS.creation, hc]; rfl
  | some c =>
    rw [creation_of_call hc]
    cases c
    case create =>
      simp only [hc] at hevents
      split at hevents
      · assumption
      · cases hevents
    case createMicrotask =>
      simp only [hc] at hevents
      split at hevents
      · assumption
      · cases hevents
    all_goals rfl

theorem SyscallEffect.creation (h : SyscallEffect k t k') :
    creation k t = none ∨ ∃ params j s, creation k t = some j ∧
      isTdAvailable (k.tds j) = true ∧ k' = created k t j params s := by
  cases h with
  | returns hq _ => exact .inl hq.creation
  | exits hc _ => exact .inl (creation_of_call hc)
  | stuck hn _ => exact .inl (quiet_of_not_completes hn).creation
  | waits hc _ _ _ => exact .inl (creation_of_call hc)
  | hands r hc _ _ => exact .inl (creation_of_call hc)
  | queues r q hc _ _ _ => exact .inl (creation_of_call hc)
  | takes s blocking hc _ _ =>
    refine .inl ((creation_of_call hc).trans ?_)
    cases blocking <;> rfl
  | replies s hc _ _ => exact .inl (creation_of_call hc)
  | awaits x e q hc _ _ _ => exact .inl (creation_of_call hc)
  | creates c params j s hc hp hj _ =>
    refine .inr ⟨params, j, s, ?_, (findAvailable_some hj).2, rfl⟩
    rw [creation_of_call hc, hp]
    exact hj

theorem newTask_times (td : TaskDescriptor) (m : Memory) (params : TaskCreateParameters) :
    (newTask td m params).1.times = ⟨0, 0, 0, 0, 0⟩ := rfl

theorem OtherChange.times {i : TdPtr} {td : TaskDescriptor} (h : OtherChange k t i td)
    (hc : PrjOS.creation k t = none) : td.times = (k.tds i).times := by
  cases h with
  | created c params hcall hp hj =>
    rw [creation_of_call hcall, hp] at hc
    exact absurd hc (by rw [Option.bind_some, hj]; simp)
  | _ => rfl

theorem CallerChange.times {td : TaskDescriptor} (h : CallerChange k t td) :
    td.times = (k.tds t).times := by
  cases h with
  | intro => rfl

/-- A call leaves the accounting alone, but for that of a new task. -/
theorem handleSyscall_times (hk : KernelInvariant k) (hstate : (k.tds t).state = .syscallBlk)
    (h : handleSyscall k t = .ok k') (i : TdPtr) :
    (k'.tds i).times = if creation k t = some i then ⟨0, 0, 0, 0, 0⟩ else (k.tds i).times := by
  have heffect := handleSyscall_effect hstate h
  obtain ⟨q, hq⟩ := hk.send
  rcases heffect.creation with hnone | ⟨params, j, s, hsome, havailable, rfl⟩
  · rw [hnone, if_neg (Option.some_ne_none i).symm]
    by_cases hi : i = t
    · subst hi
      exact (heffect.caller hq hstate).times
    · exact (heffect.other hq hstate hi).times hnone
  · have hjt : j ≠ t := by
      rintro rfl
      rw [isTdAvailable, hstate] at havailable
      exact absurd havailable (by decide)
    rw [hsome]
    by_cases hij : j = i
    · subst hij
      rw [if_pos rfl, created_new k params s hjt, newTask_times]
    · rw [if_neg fun he ↦ hij (Option.some.inj he)]
      by_cases hi : i = t
      · subst hi
        simp only [created_caller k params s hjt, TaskDescriptor.times]
      · rw [created_other k params s (Ne.symm hij) hi]

theorem handleInterrupt_times {isrNumber : Word} (h : handleInterrupt k isrNumber = .ok k')
    (i : TdPtr) : (k'.tds i).times = (k.tds i).times := by
  cases handleInterrupt_effect h with
  | ignored => rfl
  | lost => rfl
  | wakes e x j _ _ _ =>
    rw [woken_tds]
    by_cases hi : i = j
    · subst hi
      rw [KernelData.modify_self]
      rfl
    · rw [KernelData.modify_of_ne _ _ hi]

end Kernel

/-- What the head of the loop notes: the operands of its subtraction, if it
charges the previous task. -/
def headEntries (it : Iteration) (s : RtosMain) : List TimeEntry :=
  let k := tick s.kernel it.headTicks
  match s.currentTask with
  | none => []
  | some t =>
    if (k.tds t).systemTimeEntryMicros ≠ 0 then
      [.read k.systemMicroCount.toNat,
        .charged t .system (k.tds t).systemTimeEntryMicros.toNat k.systemMicroCount.toNat]
    else []

/-- The kernel when the clock is read before the dispatch. -/
def Pass.dispatching (c : Pass) (s : RtosMain) : KernelData :=
  tick { loopHead c.iteration s with schedulerStructure := c.scheduler } c.iteration.dispatchTicks

/-- The kernel when the clock is read after the task came back. -/
def Pass.returning (c : Pass) (s : RtosMain) (t : TdPtr) : KernelData :=
  tick (prjTaskSwitch { enterUser (c.dispatching s) t with memory := c.iteration.memory } t
    c.iteration.preemption).1 c.iteration.taskTicks

def Pass.userEntries (c : Pass) (s : RtosMain) (t : TdPtr) : List TimeEntry :=
  [.read (c.dispatching s).systemMicroCount.toNat, .visited t,
    .read (c.returning s t).systemMicroCount.toNat,
    .charged t .user ((c.returning s t).tds t).userTimeEntryMicros.toNat
      (c.returning s t).systemMicroCount.toNat]

def Pass.opened (c : Pass) (s : RtosMain) (t : TdPtr) : Option TdPtr :=
  if ((c.entry s t).tds t).state = .syscallBlk then creation (c.entry s t) t else none

/-- What a pass notes: each reading of the clock for the accounting, each
dispatch, the operands of each subtraction and each new task. -/
def Pass.entries (c : Pass) (s : RtosMain) : List TimeEntry :=
  headEntries c.iteration s ++
    match c.picked with
    | none => []
    | some t => c.userEntries s t ++ (c.opened s t).toList.map .opened

structure Accounts (tds : TdPtr → TaskDescriptor) (l : List TimeEntry) : Prop where
  user : ∀ i, (tds i).userTimeMicros.toNat = spent i .user l
  system : ∀ i, (tds i).systemTimeMicros.toNat = spent i .system l
  count : ∀ i, (tds i).contextSwitchCount = BitVec.ofNat 64 (visits i l)

section Accounts

variable {tds tds' : TdPtr → TaskDescriptor} {l : List TimeEntry}

theorem Accounts.congr (h : Accounts tds l) (ht : ∀ i, (tds' i).times = (tds i).times) :
    Accounts tds' l := by
  constructor
  · intro i
    rw [← h.user i]
    exact congrArg (fun r ↦ r.userTimeMicros.toNat) (ht i)
  · intro i
    rw [← h.system i]
    exact congrArg (fun r ↦ r.systemTimeMicros.toNat) (ht i)
  · intro i
    rw [← h.count i]
    exact congrArg Times.contextSwitchCount (ht i)

theorem Accounts.read (h : Accounts tds l) (time : ℕ) : Accounts tds (l ++ [.read time]) := by
  constructor
  · intro i
    rw [spent_append]
    exact h.user i
  · intro i
    rw [spent_append]
    exact h.system i
  · intro i
    rw [visits_append]
    exact h.count i

/-- What a change of one descriptor leaves alone stays as it is in all. -/
theorem modify_field {α : Type} (k : KernelData) (t : TdPtr) {f : TaskDescriptor → TaskDescriptor}
    (g : TaskDescriptor → α) (hg : ∀ td, g (f td) = g td) (i : TdPtr) :
    g ((k.modify t f).tds i) = g (k.tds i) := by
  by_cases hi : i = t
  · subst hi
    rw [KernelData.modify_self, hg]
  · rw [KernelData.modify_of_ne _ _ hi]

theorem Accounts.visit {k : KernelData} (h : Accounts k.tds l) (t : TdPtr) :
    Accounts (enterUser k t).tds (l ++ [.visited t]) := by
  rw [enterUser]
  constructor
  · intro i
    rw [spent_append, Entry.spend, ← h.user i]
    exact modify_field k t (fun td ↦ td.userTimeMicros.toNat) (by intro td; rfl) i
  · intro i
    rw [spent_append, Entry.spend, ← h.system i]
    exact modify_field k t (fun td ↦ td.systemTimeMicros.toNat) (by intro td; rfl) i
  · intro i
    rw [visits_append, Entry.visit]
    by_cases hi : i = t
    · subst hi
      rw [KernelData.modify_self, if_pos rfl, BitVec.ofNat_add, ← h.count i]
      rfl
    · rw [KernelData.modify_of_ne _ _ hi, if_neg (Ne.symm hi)]
      exact h.count i

/-- A sum that is not above the start of an interval takes the interval
without overflow. -/
theorem charge_toNat {sum start stop : BitVec 64} (hsum : sum.toNat ≤ start.toNat)
    (hle : start.toNat ≤ stop.toNat) :
    (sum + (stop - start)).toNat = sum.toNat + (stop.toNat - start.toNat) := by
  have hstop := stop.isLt
  have hsub : (stop - start).toNat = stop.toNat - start.toNat :=
    BitVec.toNat_sub_of_le (BitVec.le_def.mpr hle)
  rw [BitVec.toNat_add, hsub]
  omega

theorem Accounts.chargeSystem {k : KernelData} {t : TdPtr} (h : Accounts k.tds l)
    (hbound : spent t .system l ≤ (k.tds t).systemTimeEntryMicros.toNat)
    (hle : (k.tds t).systemTimeEntryMicros.toNat ≤ k.systemMicroCount.toNat) :
    Accounts (k.modify t fun td ↦ { td with
      systemTimeMicros := td.systemTimeMicros +
        (k.systemMicroCount - td.systemTimeEntryMicros) }).tds
      (l ++ [.charged t .system (k.tds t).systemTimeEntryMicros.toNat k.systemMicroCount.toNat]) := by
  rw [← h.system t] at hbound
  constructor
  · intro i
    have hother : ¬ (t = i ∧ TimeKind.system = .user) := by simp
    rw [spent_append, Entry.spend, if_neg hother, ← h.user i]
    exact modify_field k t (fun td ↦ td.userTimeMicros.toNat) (by intro td; rfl) i
  · intro i
    rw [spent_append, Entry.spend]
    by_cases hi : i = t
    · subst hi
      rw [KernelData.modify_self, if_pos ⟨rfl, rfl⟩, ← h.system i]
      exact charge_toNat hbound hle
    · rw [KernelData.modify_of_ne _ _ hi, if_neg fun he ↦ hi he.1.symm]
      exact h.system i
  · intro i
    rw [visits_append, Entry.visit, ← h.count i]
    exact modify_field k t TaskDescriptor.contextSwitchCount (by intro td; rfl) i

theorem Accounts.chargeUser {k : KernelData} {t : TdPtr} {start : BitVec 64}
    (h : Accounts k.tds l) (hstart : (k.tds t).userTimeEntryMicros = start)
    (hbound : spent t .user l ≤ start.toNat) (hle : start.toNat ≤ k.systemMicroCount.toNat)
    (reason : Word) : Accounts (leaveUser k t reason).tds
      (l ++ [.charged t .user start.toNat k.systemMicroCount.toNat]) := by
  subst hstart
  rw [← h.user t] at hbound
  rw [leaveUser]
  constructor
  · intro i
    rw [spent_append, Entry.spend]
    by_cases hi : i = t
    · subst hi
      rw [KernelData.modify_self]
      refine (charge_toNat hbound hle).trans ?_
      rw [if_pos ⟨rfl, rfl⟩, h.user i]
    · rw [KernelData.modify_of_ne _ _ hi, if_neg fun he ↦ hi he.1.symm]
      exact h.user i
  · intro i
    have hother : ¬ (t = i ∧ TimeKind.user = .system) := by simp
    rw [spent_append, Entry.spend, if_neg hother, ← h.system i]
    exact modify_field k t (fun td ↦ td.systemTimeMicros.toNat) (by intro td; rfl) i
  · intro i
    rw [visits_append, Entry.visit, ← h.count i]
    exact modify_field k t TaskDescriptor.contextSwitchCount (by intro td; rfl) i

theorem Accounts.opened (h : Accounts tds l) {j : TdPtr} (ht : ∀ i, (tds' i).times =
    if some j = some i then ⟨0, 0, 0, 0, 0⟩ else (tds i).times) :
    Accounts tds' (l ++ [.opened j]) := by
  constructor
  · intro i
    have hi : (tds' i).userTimeMicros = (tds' i).times.userTimeMicros := rfl
    rw [spent_append, Entry.spend, hi, ht i, ← h.user i]
    simp only [Option.some.injEq]
    split_ifs <;> rfl
  · intro i
    have hi : (tds' i).systemTimeMicros = (tds' i).times.systemTimeMicros := rfl
    rw [spent_append, Entry.spend, hi, ht i, ← h.system i]
    simp only [Option.some.injEq]
    split_ifs <;> rfl
  · intro i
    have hi : (tds' i).contextSwitchCount = (tds' i).times.contextSwitchCount := rfl
    rw [visits_append, Entry.visit, hi, ht i]
    simp only [Option.some.injEq]
    split_ifs
    · rfl
    · exact h.count i

end Accounts

/-- At the head of the loop the notes are in order, and the time from which the
previous task is charged is the last reading of the clock. -/
structure Recorded (s : RtosMain) (l : List TimeEntry) : Prop where
  separate : Separate l
  accounts : Accounts s.kernel.tds l
  pending : ∀ t, s.currentTask = some t → (s.kernel.tds t).systemTimeEntryMicros ≠ 0 →
    Latest (s.kernel.tds t).systemTimeEntryMicros.toNat l

section Passes

variable {s : RtosMain} {c : Pass} {t : TdPtr} {l : List TimeEntry}

theorem Recorded.head (h : Recorded s l) {it : Iteration} (ho : Ordered (l ++ headEntries it s)) :
    Separate (l ++ headEntries it s) ∧ Accounts (loopHead it s).tds (l ++ headEntries it s) := by
  have hpending := h.pending
  have haccounts : Accounts (tick s.kernel it.headTicks).tds l := h.accounts
  have hsame : Separate (l ++ []) ∧ Accounts (tick s.kernel it.headTicks).tds (l ++ []) := by
    rw [List.append_nil]
    exact ⟨h.separate, haccounts⟩
  unfold loopHead chargeSystemTime headEntries at *
  cases ht : s.currentTask with
  | none => exact hsame
  | some t =>
    simp only [ht] at ho ⊢
    by_cases he : ((tick s.kernel it.headTicks).tds t).systemTimeEntryMicros = 0
    · rw [if_neg (not_not.mpr he), if_neg (not_not.mpr he)]
      exact hsame
    · rw [if_pos he, List.append_cons] at ho ⊢
      rw [if_pos he]
      have hlatest := hpending t ht he
      have hbound := h.separate.spent_le hlatest.2 t TimeKind.system
      refine ⟨h.separate.charge hlatest ho.of_append t .system, ?_⟩
      apply (haccounts.read _).chargeSystem
      · rw [spent_append]
        exact hbound
      · exact hlatest.le ho.of_append

/-- What the accounting does between the dispatch of a task and its return. -/
theorem entry_eq (c : Pass) (s : RtosMain) (t : TdPtr) : c.entry s t =
    let k := leaveUser (c.returning s t) t c.iteration.preemption.reason
    tick (if taskStackOverflow (k.tds t) then k.taskKill t else k) c.iteration.kernelTicks := rfl

theorem returning_times (c : Pass) (s : RtosMain) (t i : TdPtr) :
    ((c.returning s t).tds i).times = ((enterUser (c.dispatching s) t).tds i).times := by
  have henter (td : TaskDescriptor) : (c.iteration.preemption.enter td).times = td.times := by
    cases c.iteration.preemption <;> rfl
  exact modify_field _ t TaskDescriptor.times henter i

theorem entry_times (c : Pass) (s : RtosMain) (t i : TdPtr) : ((c.entry s t).tds i).times =
    ((leaveUser (c.returning s t) t c.iteration.preemption.reason).tds i).times := by
  rw [entry_eq]
  simp only [tick]
  split_ifs
  · rw [KernelData.taskKill]
    exact modify_field _ t TaskDescriptor.times (by intro td; rfl) i
  · rfl

/-- The time for which a task ran is charged to it. -/
theorem user_recorded (hs : Separate l) (ha : Accounts (loopHead c.iteration s).tds l)
    (ho : Ordered (l ++ c.userEntries s t)) : Separate (l ++ c.userEntries s t) ∧
      Accounts (c.entry s t).tds (l ++ c.userEntries s t) ∧
      (((c.entry s t).tds t).systemTimeEntryMicros ≠ 0 →
        Latest ((c.entry s t).tds t).systemTimeEntryMicros.toNat (l ++ c.userEntries s t)) := by
  have huser : ((c.returning s t).tds t).userTimeEntryMicros =
      (c.dispatching s).systemMicroCount := by
    have htimes := congrArg Times.userTimeEntryMicros (returning_times c s t t)
    refine htimes.trans ?_
    rw [enterUser, KernelData.modify_self]
    rfl
  have hsystem : ((c.entry s t).tds t).systemTimeEntryMicros =
      if c.iteration.preemption.reason = 0 then (c.returning s t).systemMicroCount else 0 := by
    have htimes := congrArg Times.systemTimeEntryMicros (entry_times c s t t)
    refine htimes.trans ?_
    rw [leaveUser, KernelData.modify_self]
    rfl
  unfold Pass.userEntries at *
  rw [huser, List.append_cons, List.append_cons, List.append_cons] at ho ⊢
  have hdispatch := ho.of_append.of_append.of_append.latest.append (e := .visited t) rfl
  have hseparate : Separate (l ++ [.read (c.dispatching s).systemMicroCount.toNat] ++
      [.visited t]) := (hs.append rfl).append rfl
  have hbound := hseparate.spent_le hdispatch.2 t TimeKind.user
  have hloop : Accounts (c.dispatching s).tds l := ha
  have hentered := (hloop.read (c.dispatching s).systemMicroCount.toNat).visit t
  have hreturned := (hentered.congr (returning_times c s t)).read
    (c.returning s t).systemMicroCount.toNat
  refine ⟨hseparate.charge hdispatch ho.of_append t .user, ?_, fun hpending ↦ ?_⟩
  · refine Accounts.congr ?_ (entry_times c s t)
    refine hreturned.chargeUser huser ?_ (hdispatch.le ho.of_append) _
    rw [spent_append]
    exact hbound
  · rw [hsystem] at hpending ⊢
    split_ifs at hpending ⊢ with hreason
    · exact ho.of_append.latest.append rfl
    · exact absurd rfl hpending

/-- After the task's return, the kernel changes the accounting of a new task
only. -/
theorem dispatch_times {k : KernelData} (hk : KernelInvariant (c.entry s t))
    (h : dispatch c.iteration { loopHead c.iteration s with schedulerStructure := c.scheduler } t =
      .ok k) (i : TdPtr) :
    (k.tds i).times =
      if c.opened s t = some i then ⟨0, 0, 0, 0, 0⟩ else ((c.entry s t).tds i).times := by
  have hkept (hst : ((c.entry s t).tds t).state ≠ .syscallBlk) : c.opened s t ≠ some i := by
    rw [Pass.opened, if_neg hst]
    exact (Option.some_ne_none i).symm
  rcases dispatch_outcome h with ⟨hst, rfl⟩ | ⟨k₁, sched, rfl, ⟨hst, hcall⟩ | ⟨hst, hwake⟩⟩
  · rw [if_neg (hkept (by rw [hst]; decide))]
  · rw [Pass.opened, if_pos hst]
    exact handleSyscall_times hk hst hcall i
  · rw [if_neg (hkept (by rw [hst]; decide))]
    exact handleInterrupt_times hwake i

theorem Recorded.pass {s' : RtosMain} (h : Recorded s l) (hk : KernelInvariant s.kernel)
    (hp : passStep s c s') (ho : Ordered (l ++ c.entries s)) : Recorded s' (l ++ c.entries s) := by
  have hready := hp.1
  rcases passStep_cases hp with ⟨hpicked, rfl⟩ | ⟨t, hpicked, hcurrent, hd⟩
  · simp only [Pass.entries, hpicked, List.append_nil] at ho ⊢
    obtain ⟨hs, ha⟩ := h.head ho
    exact ⟨hs, ha, fun t ht ↦ absurd ht (Option.some_ne_none t).symm⟩
  · have hentry : KernelInvariant (c.entry s t) := hk.entry (hready t hpicked)
    have htimes := dispatch_times hentry hd
    simp only [Pass.entries, hpicked] at ho ⊢
    rw [← List.append_assoc, ← List.append_assoc] at ho ⊢
    obtain ⟨hs, ha⟩ := h.head ho.of_append.of_append
    obtain ⟨hs, ha, hpending⟩ := user_recorded hs ha ho.of_append
    cases hopened : c.opened s t with
    | none =>
      simp only [hopened, Option.toList_none, List.map_nil, List.append_nil] at htimes ⊢
      have hsame (i : TdPtr) : (s'.kernel.tds i).times = ((c.entry s t).tds i).times :=
        (htimes i).trans (if_neg (Option.some_ne_none i).symm)
      refine ⟨hs, ha.congr hsame, fun t' ht' ↦ ?_⟩
      obtain rfl := Option.some.inj (hcurrent.symm.trans ht')
      have htime : (s'.kernel.tds t).systemTimeEntryMicros =
        ((c.entry s t).tds t).systemTimeEntryMicros :=
          congrArg Times.systemTimeEntryMicros (hsame t)
      rw [htime]
      exact hpending
    | some j =>
      simp only [hopened, Option.toList_some, List.map_cons, List.map_nil] at htimes ⊢
      refine ⟨hs.append rfl, ha.opened htimes, fun t' ht' ↦ ?_⟩
      obtain rfl := Option.some.inj (hcurrent.symm.trans ht')
      have htime := congrArg Times.systemTimeEntryMicros (htimes t)
      intro he
      by_cases hj : some j = some t
      · rw [if_pos hj] at htime
        exact absurd htime he
      · rw [if_neg hj] at htime
        have hsame : (s'.kernel.tds t).systemTimeEntryMicros =
          ((c.entry s t).tds t).systemTimeEntryMicros := htime
        rw [hsame] at he ⊢
        exact (hpending he).append rfl

theorem Recorded.boot (b : Boot) : Recorded (booted b) [] := by
  have htimes (i : TdPtr) : ((booted b).kernel.tds i).times = ⟨0, 0, 0, 0, 0⟩ := by
    by_cases hi : i = 0
    · subst hi
      rfl
    · simp [booted, KernelData.setReturnValue, hi, initializeTds, reinitializeTd,
        TaskDescriptor.zero, TaskDescriptor.times]
  refine ⟨separate_nil, ⟨?_, ?_, ?_⟩, fun t ht ↦ absurd ht (Option.some_ne_none t).symm⟩
  · intro i
    exact congrArg (fun r ↦ r.userTimeMicros.toNat) (htimes i)
  · intro i
    exact congrArg (fun r ↦ r.systemTimeMicros.toNat) (htimes i)
  · intro i
    exact congrArg Times.contextSwitchCount (htimes i)

end Passes

abbrev timedStep := Logged passStep fun s c ↦ c.entries s

theorem recorded_run {b : Boot} {cs : List Pass} {s : RtosMain} {l : List TimeEntry}
    (h : Run timedStep (booted b, []) cs (s, l)) (hclock : Ordered l) : Recorded s l := by
  generalize hr : (s, l) = r at h
  induction h generalizing s l with
  | nil =>
    cases hr
    exact .boot b
  | @snoc cs r₀ r c hrun hstep ih =>
    subst hr
    obtain ⟨s₀, l₀⟩ := r₀
    obtain ⟨hstep, hl⟩ := hstep
    simp only at hstep hl
    subst hl
    have hreach : Reachable b s₀ := ⟨booted b, cs, boot_eq b, hrun.forget⟩
    exact (ih hclock.of_append rfl).pass hreach.kernelInvariant hstep hclock

def accountedTime (k : KernelData) : ℕ :=
  ∑ i, ((k.tds i).userTimeMicros.toNat + (k.tds i).systemTimeMicros.toNat)

theorem Accounts.accountedTime_le {k : KernelData} {l : List TimeEntry} (h : Accounts k.tds l)
    (hs : Separate l) {now : ℕ} (hnow : ∀ r ∈ readings l, r ≤ now) : accountedTime k ≤ now := by
  refine le_trans (Nat.le_of_eq ?_) (hs.sum_spent_le hnow)
  refine Finset.sum_congr rfl fun i _ ↦ ?_
  have hkinds : (Finset.univ : Finset TimeKind) = {.user, .system} := rfl
  rw [hkinds, Finset.sum_pair (by decide), h.user i, h.system i]

/-- If the clock does not go back, then no subtraction of times underflows, no
time is added twice, the descriptors hold no more than the time that went by,
and they count their dispatches. -/
theorem time_accounting {b : Boot} {cs : List Pass} {s : RtosMain} {l : List TimeEntry}
    (h : Run timedStep (booted b, []) cs (s, l)) (hclock : Ordered l) :
    Separate l ∧ Accounts s.kernel.tds l ∧
    ∀ it, Ordered (l ++ headEntries it s) →
      Separate (l ++ headEntries it s) ∧ Accounts (loopHead it s).tds (l ++ headEntries it s) ∧
      ∀ now, (∀ r ∈ readings (l ++ headEntries it s), r ≤ now) →
        accountedTime (loopHead it s) ≤ now := by
  have hrecorded := recorded_run h hclock
  refine ⟨hrecorded.separate, hrecorded.accounts, fun it ho ↦ ?_⟩
  obtain ⟨hs, ha⟩ := hrecorded.head ho
  exact ⟨hs, ha, fun now hnow ↦ ha.accountedTime_le hs hnow⟩

def Preemption.timed (p : Preemption) (ticks : Nat) : Pass :=
  { p.pass 0 with
    iteration := { p.iteration with
      headTicks := 1, dispatchTicks := 1, taskTicks := ticks, kernelTicks := 1 } }

/-- The first task runs until it yields, and then until an interrupt. -/
def timedPasses : List Pass :=
  [(callBy 0 3 0 0 0 0 0 0).timed 5,
    (Preemption.interrupt (stackArea 0 sampleBoot.stackTop).2.1 15#32).timed 3]

theorem time_accounting_twice : ∃ s l, Run timedStep (booted sampleBoot, []) timedPasses (s, l) ∧
    Ordered l ∧ intervals l = [(200, 700), (700, 900), (1000, 1300)] ∧
    (s.kernel.tds 0).contextSwitchCount = 2 ∧ (s.kernel.tds 0).userTimeMicros.toNat = 800 := by
  have hrun : ∃ s l, Run timedStep (booted sampleBoot, []) timedPasses (s, l) ∧
      readings l = [200, 700, 900, 1000, 1300] ∧
      intervals l = [(200, 700), (700, 900), (1000, 1300)] ∧ visits 0 l = 2 ∧
      spent 0 .user l = 800 := by
    refine ⟨_, _, .log (.log .nil ⟨?_, rfl⟩) ⟨?_, rfl⟩, by decide⟩
    all_goals
      intro t ht
      cases ht
      decide
  obtain ⟨s, l, hr, hread, hintervals, hvisits, hspent⟩ := hrun
  have hclock : Ordered l := by
    rw [Ordered, hread]
    decide
  obtain ⟨-, ha, -⟩ := time_accounting hr hclock
  refine ⟨s, l, hr, hclock, hintervals, ?_, ?_⟩
  · rw [ha.count, hvisits]
    rfl
  · rw [ha.user, hspent]

end PrjOS
