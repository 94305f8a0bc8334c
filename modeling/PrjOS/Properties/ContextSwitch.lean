import PrjOS.Cpu.Execution

namespace PrjOS

open ByteMemory CortexM Transition

/-- The number that the SVC instruction before `pc` is encoded with. -/
def svcNumber (τ : Cpu) : Byte := τ.mem (τ.pc - 2)

/-- Work of a task that spares the context of the kernel at `k`. -/
def TaskStep (k : Word) (c : Cpu) (w : Work) (c' : Cpu) : Prop :=
  w.perform c = c' ∧ SameOn k (4 * 17) c.mem c'.mem

/-- What has to stay in memory for a task that is switched out: its frame, its
stack pointer and whether it was interrupted. -/
structure KeepsTask (td p : Word) (m m' : Memory) : Prop where
  frame : SameOn p (4 * 17) m m'
  stackPointer : word m' td 2 = word m td 2
  state : word m' td 11 = 8 ↔ word m td 11 = 8

/-- Any event while the task with the context at `p` is switched out. -/
def OtherStep (td p : Word) (c : Cpu) (e : Event) (c' : Cpu) : Prop :=
  e.next c = some c' ∧ KeepsTask td p c.mem c'.mem

/-- The core registers that the task resumes with, when `ret` is the return
value in its descriptor. -/
def Trap.resumed (core : Core) (ret : Word) : Trap → Core
  | svc => { core with r0 := ret }
  | interrupt _ => core

theorem Work.perform_same (c : Cpu) (w : Work) : (w.perform c).spsel = c.spsel ∧
    (w.perform c).stkalign = c.stkalign ∧ (c.spsel = true → (w.perform c).msp = c.msp) := by
  cases w with
  | compute => exact ⟨rfl, rfl, fun h ↦ if_pos h⟩
  | float => exact ⟨rfl, rfl, fun _ ↦ rfl⟩

theorem taskRun {k : Word} {c c' : Cpu} {ws : List Work} (h : Run (TaskStep k) c ws c')
    (hc : c.spsel = true) : c'.spsel = true ∧ c'.stkalign = c.stkalign ∧ c'.msp = c.msp ∧
      SameOn k (4 * 17) c.mem c'.mem := by
  induction h with
  | nil => exact ⟨hc, rfl, rfl, .refl _ _ _⟩
  | @snoc ws c₁ c₂ w _ hs ih =>
    obtain ⟨rfl, hmem⟩ := hs
    obtain ⟨h₁, h₂, h₃, h₄⟩ := ih
    obtain ⟨hsp, hstk, hmsp⟩ := w.perform_same c₁
    exact ⟨hsp.trans h₁, hstk.trans h₂, (hmsp h₁).trans h₃, h₄.trans hmem⟩

theorem otherRun {td p : Word} {c c' : Cpu} {es : List Event}
    (h : Run (OtherStep td p) c es c') : c'.stkalign = c.stkalign ∧ KeepsTask td p c.mem c'.mem := by
  induction h with
  | nil => exact ⟨rfl, .refl _ _ _, rfl, .rfl⟩
  | snoc _ hs ih =>
    obtain ⟨hstk, hkeep⟩ := ih
    exact ⟨(Event.next_stkalign hs.1).trans hstk, hkeep.frame.trans hs.2.frame,
      hs.2.stackPointer.trans hkeep.stackPointer, hs.2.state.trans hkeep.state⟩

theorem Trap.reason_eq_zero {e : Trap} : e.reason = 0 ↔ e = svc := by
  cases e with
  | svc => simp [reason]
  | interrupt n =>
    simp only [reason, reduceCtorEq, iff_false]
    split
    · decide
    · assumption

theorem TakenOut.words {κ τ κ' : Cpu} {e : Trap} {k : Word} (h : TakenOut κ τ κ' e)
    (hl : Layout k (contextAddress τ) κ.r0) :
    word κ'.mem κ.r0 2 = contextAddress τ ∧ (word κ'.mem κ.r0 11 = 8 ↔ e ≠ .svc) := by
  rw [h.descriptor 2 (by decide), h.descriptor 11 (by decide)]
  cases e with
  | svc =>
    obtain ⟨hsp, -, -, -, -, -, -, hstate⟩ := recordSvc_words (m := stackContext τ) hl.taskTd
    simp [Trap.record, hsp, hstate]
  | interrupt =>
    obtain ⟨hsp, -, hstate⟩ := recordInterrupt_words (stackContext τ) κ.r0 (contextAddress τ)
    simp [Trap.record, hsp, hstate]

theorem svcNumber_stackContext {τ : Cpu} {td w : Word}
    (hframe : ¬ Within (contextAddress τ) (4 * 17) (τ.pc - 2))
    (htd : ¬ Within td (4 * 12) (τ.pc - 2)) :
    setWord (stackContext τ) td 2 w (τ.pc - 2) = svcNumber τ := by
  have hstack : stackContext τ (τ.pc - 2) = svcNumber τ := by
    unfold stackContext writeWords
    exact store_out hframe
  rw [← hstack]
  exact store_out fun h ↦ htd (within_word (by decide) (by decide) h)

theorem TakenOut.svc_words {κ τ κ' : Cpu} (h : TakenOut κ τ κ' .svc)
    (hl : Apart (contextAddress τ) (4 * 17) κ.r0 (4 * 12))
    (hframe : ¬ Within (contextAddress τ) (4 * 17) (τ.pc - 2))
    (htd : ¬ Within κ.r0 (4 * 12) (τ.pc - 2)) :
    word κ'.mem κ.r0 3 = (svcNumber τ).setWidth 32 ∧ word κ'.mem κ.r0 5 = τ.r0 ∧
      word κ'.mem κ.r0 6 = τ.r1 ∧ word κ'.mem κ.r0 7 = τ.r2 ∧ word κ'.mem κ.r0 8 = τ.r3 := by
  have hcore := (saved_stackContext τ).core
  have hpc : word (stackContext τ) (contextAddress τ) 15 = τ.pc := congrArg Core.pc hcore
  obtain ⟨-, hnumber, -, h₁, h₂, h₃, h₄, -⟩ := recordSvc_words (m := stackContext τ) hl
  rw [hpc, svcNumber_stackContext hframe htd] at hnumber
  exact ⟨(h.descriptor 3 (by decide)).trans hnumber,
    (h.descriptor 5 (by decide)).trans (h₁.trans (congrArg Core.r0 hcore)),
    (h.descriptor 6 (by decide)).trans (h₂.trans (congrArg Core.r1 hcore)),
    (h.descriptor 7 (by decide)).trans (h₃.trans (congrArg Core.r2 hcore)),
    (h.descriptor 8 (by decide)).trans (h₄.trans (congrArg Core.r3 hcore))⟩

/-- A task that was taken out resumes from its frame, whatever else ran. -/
theorem TakenOut.resume {κ τ κ' κ₂ : Cpu} {e : Trap} {es : List Event} {k : Word}
    (h : TakenOut κ τ κ' e) (hτ : τ.spsel = true) (hl : Layout k (contextAddress τ) κ.r0)
    (hrun : Run (OtherStep κ.r0 (contextAddress τ)) κ' es κ₂) (hκ₂ : κ₂.spsel = false)
    (hr0 : κ₂.r0 = κ.r0) (hl₂ : Layout (contextAddress κ₂) (contextAddress τ) κ.r0)
    (u : Unknown) :
    ∃ τ', (Event.trap .svc u).next κ₂ = some τ' ∧ τ'.spsel = true ∧ τ'.fpca = τ.fpca ∧
      τ'.core = e.resumed τ.core (word κ₂.mem κ.r0 4) := by
  obtain ⟨hstk, hkeep⟩ := otherRun hrun
  obtain ⟨hsp, hstate⟩ := h.words hl
  have hp : word κ₂.mem κ₂.r0 2 = contextAddress τ := by
    rw [hr0, hkeep.stackPointer, hsp]
  have hsaved := h.task.same hkeep.frame
  have hlr : word κ₂.mem (word κ₂.mem κ₂.r0 2) 8 = excReturn true τ.fpca := by
    rw [hp, hsaved.excReturn, hτ]
  obtain ⟨τ', hτ', hin⟩ := switchIn u hκ₂ (by rwa [hp, hr0]) hlr
  refine ⟨τ', hτ', hin.spsel, hin.fpca, ?_⟩
  rw [hin.core, resumedCore, hp, hstk, h.stkalign, hsaved.core, hr0]
  have hint := hkeep.state.trans hstate
  cases e with
  | svc => rw [if_neg fun h8 ↦ hint.mp h8 rfl]; rfl
  | interrupt => rw [if_pos (hint.mpr (by simp))]; rfl

/-- A dispatched task runs with the context of the kernel on the main stack. -/
theorem dispatched_saved {κ τ₀ τ : Cpu} {u₀ : Unknown} {ws : List Work} (hκ : κ.spsel = false)
    (hin : (Event.trap .svc u₀).next κ = some τ₀) (hτ₀ : τ₀.spsel = true)
    (hl₀ : Layout (contextAddress κ) (word κ.mem κ.r0 2) κ.r0)
    (hwork : Run (TaskStep τ₀.msp) τ₀ ws τ) : τ.spsel = true ∧ τ.stkalign = κ.stkalign ∧
      τ.msp = τ₀.msp ∧ Saved κ τ.mem τ.msp := by
  have hin := switchedIn_of_run hκ hl₀ hin hτ₀
  obtain ⟨hτ, hstk, hmsp, hmem⟩ := taskRun hwork hτ₀
  refine ⟨hτ, hstk.trans hin.stkalign, hmsp, ?_⟩
  rw [hmsp]
  exact hin.kernel.same hmem

theorem contextSwitch_roundTrip {κ τ₀ τ : Cpu} {u₀ : Unknown} {ws : List Work} (e : Trap)
    (u : Unknown) (hκ : κ.spsel = false) (hin : (Event.trap .svc u₀).next κ = some τ₀)
    (hτ₀ : τ₀.spsel = true) (hl₀ : Layout (contextAddress κ) (word κ.mem κ.r0 2) κ.r0)
    (hwork : Run (TaskStep τ₀.msp) τ₀ ws τ) (hl : Layout τ₀.msp (contextAddress τ) κ.r0)
    (hcode : e = .svc →
      ¬ Within (contextAddress τ) (4 * 17) (τ.pc - 2) ∧ ¬ Within κ.r0 (4 * 12) (τ.pc - 2)) :
    ∃ κ', (Event.trap e u).next τ = some κ' ∧ κ'.spsel = false ∧ κ'.fpca = κ.fpca ∧
      κ'.stkalign = κ.stkalign ∧ κ'.core = { κ.core with r0 := e.reason } ∧ (κ'.r0 = 0 ↔ e = .svc) ∧
      (e = .svc → word κ'.mem κ.r0 3 = (svcNumber τ).setWidth 32 ∧ word κ'.mem κ.r0 5 = τ.r0 ∧
        word κ'.mem κ.r0 6 = τ.r1 ∧ word κ'.mem κ.r0 7 = τ.r2 ∧ word κ'.mem κ.r0 8 = τ.r3) ∧
      ∀ {es : List Event} {κ₂ : Cpu} (u₂ : Unknown),
        Run (OtherStep κ.r0 (contextAddress τ)) κ' es κ₂ → κ₂.spsel = false → κ₂.r0 = κ.r0 →
        Layout (contextAddress κ₂) (contextAddress τ) κ.r0 →
        ∃ τ', (Event.trap .svc u₂).next κ₂ = some τ' ∧ τ'.spsel = true ∧ τ'.fpca = τ.fpca ∧
          τ'.core = e.resumed τ.core (word κ₂.mem κ.r0 4) := by
  obtain ⟨hτ, hstk, hmsp, hsaved⟩ := dispatched_saved hκ hin hτ₀ hl₀ hwork
  rw [← hmsp] at hl
  obtain ⟨κ', hrun, hout⟩ := takenOut e u hκ hτ hstk hsaved hl
  refine ⟨κ', (Event.next_trap e u hτ).trans hrun, hout.spsel, hout.fpca,
    hout.stkalign.trans hstk, hout.core, ?_, ?_, ?_⟩
  · have hr0 : κ'.r0 = e.reason := congrArg Core.r0 hout.core
    rw [hr0, Trap.reason_eq_zero]
  · rintro rfl
    exact hout.svc_words hl.taskTd (hcode rfl).1 (hcode rfl).2
  · intro es κ₂ u₂ hother hκ₂ hr0 hl₂
    exact hout.resume hτ hl hother hκ₂ hr0 hl₂ u₂

/-- The first two tasks, before either has run: the descriptors at `0x20000100`
and `0x20000200`, the saved contexts at `0x20004000` and `0x20005000`. -/
def firstMemory : Memory :=
  let m := setWord (fun a ↦ if a = 0x1FFE then 2 else 0) 0x20000100 2 0x20004000
  let m := setWord (setWord m 0x20000100 11 1) 0x20004000 8 0xFFFFFFFD
  let m := setWord (setWord m 0x20000200 2 0x20005000) 0x20000200 11 1
  setWord m 0x20005000 8 0xFFFFFFFD

def firstDispatch : Cpu where
  r0 := 0x20000100
  r1 := 0
  r2 := 0
  r3 := 0
  r4 := 4
  r5 := 5
  r6 := 6
  r7 := 7
  r8 := 8
  r9 := 9
  r10 := 10
  r11 := 11
  r12 := 12
  msp := 0x20008000
  psp := 0
  lr := 0
  pc := 0x1000
  xpsr := ⟨0, 0⟩
  spsel := false
  fpca := false
  primask := false
  basepri := 0x20
  fp := ⟨fun _ ↦ 0, 0⟩
  lspact := false
  fpcar := 0
  stkalign := true
  mem := firstMemory

def someCore : Core :=
  ⟨100, 101, 102, 103, 104, 105, 106, 107, 108, 109, 110, 111, 112, 0x20003FF4, 114, 0x2000, ⟨5, 0⟩⟩

def firstTask : Cpu :=
  ((Event.trap .svc ⟨0, 0, 0, 0, 0, 0⟩).next firstDispatch).getD firstDispatch

def someTask : Cpu := firstTask.compute someCore false 0 firstTask.mem

theorem taskStep_compute (k : Word) (c : Cpu) (core : Core) (primask : Bool) (basepri : Word) :
    TaskStep k c (.compute core primask basepri c.mem) (c.compute core primask basepri c.mem) :=
  ⟨rfl, SameOn.refl _ _ _⟩

theorem someTask_run : Run (TaskStep firstTask.msp) firstTask
    [.compute someCore false 0 firstTask.mem] someTask :=
  .snoc .nil (taskStep_compute _ firstTask someCore false 0)

theorem layout_of_le {k p td : Word} (h : 4 * 17 ≤ (p - k).toNat ∧ 4 * 17 ≤ (k - p).toNat)
    (h' : 4 * 17 ≤ (td - k).toNat ∧ 4 * 12 ≤ (k - td).toNat)
    (h'' : 4 * 17 ≤ (td - p).toNat ∧ 4 * 12 ≤ (p - td).toNat) : Layout k p td :=
  ⟨apart_of_le h.1 h.2, apart_of_le h'.1 h'.2, apart_of_le h''.1 h''.2⟩

theorem contextSwitch_roundTrip_getParentTid : ∃ κ' κ₂ τ',
    (Event.trap .svc ⟨1, 2, 3, 4, 5, 6⟩).next someTask = some κ' ∧ κ'.r0 = 0 ∧
      word κ'.mem 0x20000100 3 = 2 ∧ word κ'.mem 0x20000100 5 = 100 ∧
      (Event.work (.compute firstDispatch.core false 0x20 κ'.mem)).next κ' = some κ₂ ∧
      (Event.trap .svc ⟨6, 5, 4, 3, 2, 1⟩).next κ₂ = some τ' ∧
      τ'.core = { someCore with r0 := word κ₂.mem 0x20000100 4 } := by
  obtain ⟨κ', hout, hsp, hfpca, hstk, -, hr0, hwords, hresume⟩ :=
    @contextSwitch_roundTrip firstDispatch firstTask someTask ⟨0, 0, 0, 0, 0, 0⟩ _
      .svc ⟨1, 2, 3, 4, 5, 6⟩ rfl rfl (by decide +kernel)
      (layout_of_le (by decide +kernel) (by decide +kernel) (by decide +kernel))
      someTask_run
      (layout_of_le (by decide +kernel) (by decide +kernel) (by decide +kernel))
      (fun _ ↦ ⟨by decide +kernel, by decide +kernel⟩)
  obtain ⟨hnumber, hparam, -⟩ := hwords rfl
  have hcore : contextAddress (κ'.compute firstDispatch.core false 0x20 κ'.mem) =
      contextAddress firstDispatch := by
    simp [contextAddress, Cpu.frame, Cpu.force, Cpu.sp, Cpu.compute, Cpu.core, hsp, hfpca, hstk]
  obtain ⟨τ', hτ', -, -, hcore⟩ := @hresume _ (κ'.compute firstDispatch.core false 0x20 κ'.mem)
    ⟨6, 5, 4, 3, 2, 1⟩
    (.snoc .nil (l := .work (.compute firstDispatch.core false 0x20 κ'.mem))
      ⟨rfl, .refl _ _ _, rfl, .rfl⟩)
    hsp rfl (by
      rw [hcore]
      exact layout_of_le (by decide +kernel) (by decide +kernel) (by decide +kernel))
  refine ⟨κ', _, τ', hout, hr0.mpr rfl, hnumber.trans (by decide +kernel), hparam, rfl, hτ', ?_⟩
  exact hcore

end PrjOS
