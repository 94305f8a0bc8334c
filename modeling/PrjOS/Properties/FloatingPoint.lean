import PrjOS.Properties.ContextSwitch

namespace PrjOS

open ByteMemory CortexM Transition

/-- The kernel's context at `k`, the descriptor at `td`, and the part of the
stack of `τ` from the lowest word of its largest context to its sixth call
parameter. -/
structure StackLayout (k : Word) (τ : Cpu) (td : Word) : Prop where
  kernelStack : Apart k (4 * 17) (τ.psp - 144#32) 184
  kernelTd : Apart k (4 * 17) td (4 * 12)
  stackTd : Apart (τ.psp - 144#32) 184 td (4 * 12)

/-- A frame with or without floating point registers lies so that the words
`contextSwitch` takes for the fifth and the sixth parameter are these. -/
def ParamsInPlace (τ : Cpu) (fpca : Bool) : Prop :=
  word τ.mem (frameAddress (fpca || τ.stkalign) fpca τ.psp) 16 = word τ.mem τ.psp 8 ∧
    word τ.mem (frameAddress (fpca || τ.stkalign) fpca τ.psp) 17 = word τ.mem τ.psp 9

/-- Nothing shows that the task `τ` with floating point context, taken out to
`κ'`, was switched back in from `κ₂`. -/
structure FloatTransparent (td : Word) (e : Trap) (τ κ' κ₂ τ' : Cpu) : Prop where
  core : τ'.core = e.resumed τ.core (word κ₂.mem td 4)
  fp : τ'.fp = τ.fp
  param5 : e = .svc → word κ'.mem td 9 = word τ.mem τ.psp 8
  param6 : e = .svc → word κ'.mem td 10 = word τ.mem τ.psp 9
  basic : e = .svc → ∀ u κ₀, (Event.trap .svc u).next { τ with fpca := false } = some κ₀ →
    word κ₀.mem td 9 = word κ'.mem td 9 ∧ word κ₀.mem td 10 = word κ'.mem td 10

theorem frameAddress_eq (force fpca : Bool) (sp : Word) :
    frameAddress force fpca sp = sp - frameSize fpca ∨
      frameAddress force fpca sp = sp - frameSize fpca - 4#32 := by
  have hsum := and_not_four (sp - frameSize fpca)
  cases force with
  | false => exact .inl rfl
  | true =>
    have heq := eq_sub_of_add_eq hsum
    split at heq
    · exact .inr heq
    · exact .inl (heq.trans (BitVec.sub_zero _))

theorem contextAddress_eq {τ : Cpu} (hτ : τ.spsel = true) :
    ∃ i ≤ 76, contextAddress τ = τ.psp - 144#32 + BitVec.ofNat 32 i := by
  have hctx : contextAddress τ = frameAddress τ.force τ.fpca τ.psp - 36#32 := by
    unfold contextAddress Cpu.frame Cpu.sp
    rw [if_pos hτ]
  have hofs (a b : Word) (h : a + b = 144#32) : τ.psp - a = τ.psp - 144#32 + b := by
    rw [← h, sub_add_eq_sub_sub, sub_add_cancel]
  rw [hctx]
  rcases frameAddress_eq τ.force τ.fpca τ.psp with he | he <;> rw [he] <;> cases τ.fpca <;>
    simp only [sub_sub]
  · exact ⟨76, by decide, hofs _ _ rfl⟩
  · exact ⟨4, by decide, hofs _ _ rfl⟩
  · exact ⟨72, by decide, hofs _ _ rfl⟩
  · exact ⟨0, by decide, hofs _ _ rfl⟩

theorem StackLayout.layout {k td : Word} {τ : Cpu} (h : StackLayout k τ td)
    (hτ : τ.spsel = true) : Layout k (contextAddress τ) td := by
  obtain ⟨i, hi, he⟩ := contextAddress_eq hτ
  rw [he]
  exact ⟨(h.kernelStack.symm.offset (by omega)).symm, h.kernelTd, h.stackTd.offset (by omega)⟩

theorem recordSvc_params {m : Memory} {td p : Word}
    (h : Apart (p + BitVec.ofNat 32 (4 * 25)) (4 * 2) td (4 * 12)) :
    word (recordSvc m td p) td 9 = word m p 25 ∧ word (recordSvc m td p) td 10 = word m p 26 := by
  have hp (j : Nat) (hj : j < 2) (m : Memory) (i : Nat) (w : Word) (hi : i < 12) :
      word (setWord m td i w) p (25 + j) = word m p (25 + j) := by
    rw [← word_add, ← word_add]
    exact word_setWord_apart (h.offset (by omega)).symm hi
  have h25 (m : Memory) (i : Nat) (w : Word) (hi : i < 12) :
      word (setWord m td i w) p 25 = word m p 25 := hp 0 (by decide) m i w hi
  have h26 (m : Memory) (i : Nat) (w : Word) (hi : i < 12) :
      word (setWord m td i w) p 26 = word m p 26 := hp 1 (by decide) m i w hi
  simp (disch := decide) [recordSvc, word_setWord_self, word_setWord_ne, h25, h26]

/-- The recorded parameters are the words 16 and 17 of the frame, whatever its
size is. -/
theorem TakenOut.params {κ τ κ' : Cpu} {k : Word} (h : TakenOut κ τ κ' .svc)
    (hτ : τ.spsel = true) (hl : StackLayout k τ κ.r0) :
    word κ'.mem κ.r0 9 = word τ.mem τ.frame 16 ∧ word κ'.mem κ.r0 10 = word τ.mem τ.frame 17 := by
  obtain ⟨i, hi, he⟩ := contextAddress_eq hτ
  have hparams : Apart (contextAddress τ + BitVec.ofNat 32 (4 * 25)) (4 * 2) κ.r0 (4 * 12) := by
    rw [he, BitVec.add_assoc, ← BitVec.ofNat_add]
    exact hl.stackTd.offset (by omega)
  obtain ⟨h₅, h₆⟩ := recordSvc_params (m := stackContext τ) hparams
  have hframe (j : Nat) : word τ.mem τ.frame j = word τ.mem (contextAddress τ) (9 + j) := by
    have haddr : τ.frame = contextAddress τ + BitVec.ofNat 32 (4 * 9) :=
      (BitVec.sub_add_cancel _ _).symm
    rw [haddr, word_add]
  have hstack (j : Nat) (h₁ : 17 ≤ j) (h₂ : j < 27) :
      word (stackContext τ) (contextAddress τ) j = word τ.mem (contextAddress τ) j :=
    readWord_congr (stackContext_same (apart_of_le (by bv_omega) (by bv_omega)))
  rw [h.descriptor 9 (by decide), h.descriptor 10 (by decide), hframe 16, hframe 17]
  exact ⟨h₅.trans (hstack 25 (by decide) (by decide)), h₆.trans (hstack 26 (by decide) (by decide))⟩

/-- Once a task with floating point context has been taken out, its registers
stay in the processor until another task computes with them. -/
theorem TakenOut.resume_fp {τ κ' κ₂ τ' : Cpu} {td : Word} {e : Trap} {es : List Event}
    {u u₂ : Unknown} (hactive : τ.fpca = true) (hout : (Event.trap e u).next τ = some κ')
    (hrun : Run (OtherStep td (contextAddress τ)) κ' es κ₂)
    (hin : (Event.trap .svc u₂).next κ₂ = some τ') :
    τ'.fp = es.foldl (fun x e ↦ e.fpEffect x) τ.fp := by
  obtain ⟨hl, hfp⟩ := Event.next_fp hout (.inl hactive)
  obtain ⟨hl₂, hfp₂⟩ := fpLive_run hrun hl
  have hτ' : τ'.fp = κ₂.fp := (Event.next_fp hin hl₂).2
  have hκ' : κ'.fp = τ.fp := hfp
  rw [hτ', hfp₂, hκ']

theorem frame_eq {τ : Cpu} (hτ : τ.spsel = true) :
    τ.frame = frameAddress (τ.fpca || τ.stkalign) τ.fpca τ.psp := by
  simp only [Cpu.frame, Cpu.force, Cpu.sp, hτ, if_true]

theorem TakenOut.params_iff {κ τ κ' : Cpu} (h : TakenOut κ τ κ' .svc) (hκ : κ.spsel = false)
    (hτ : τ.spsel = true) (hstk : τ.stkalign = κ.stkalign) (hsaved : Saved κ τ.mem τ.msp)
    (hl : StackLayout τ.msp τ κ.r0) (hactive : τ.fpca = true) (u : Unknown) :
    ((word κ'.mem κ.r0 9 = word τ.mem τ.psp 8 ∧ word κ'.mem κ.r0 10 = word τ.mem τ.psp 9) ∧
      ∀ κ₀, (Event.trap .svc u).next { τ with fpca := false } = some κ₀ →
        word κ₀.mem κ.r0 9 = word κ'.mem κ.r0 9 ∧ word κ₀.mem κ.r0 10 = word κ'.mem κ.r0 10) ↔
      ∀ fpca, ParamsInPlace τ fpca := by
  have hl₀ : StackLayout τ.msp { τ with fpca := false } κ.r0 :=
    ⟨hl.kernelStack, hl.kernelTd, hl.stackTd⟩
  obtain ⟨κ₀, hrun, hout⟩ := takenOut (τ := { τ with fpca := false }) .svc u hκ hτ hstk hsaved
    (hl₀.layout hτ)
  have hparams := h.params hτ hl
  have hparams₀ := hout.params hτ hl₀
  rw [frame_eq hτ, hactive] at hparams
  rw [frame_eq (τ := { τ with fpca := false }) hτ] at hparams₀
  rw [hparams.1, hparams.2]
  constructor
  · rintro ⟨hp, hbasic⟩ fpca
    obtain ⟨h₁, h₂⟩ := hbasic κ₀ hrun
    cases fpca with
    | true => exact hp
    | false => exact ⟨hparams₀.1.symm.trans (h₁.trans hp.1), hparams₀.2.symm.trans (h₂.trans hp.2)⟩
  · intro hp
    refine ⟨hp true, fun κ₁ hκ₁ ↦ ?_⟩
    cases hrun.symm.trans hκ₁
    exact ⟨hparams₀.1.trans ((hp false).1.trans (hp true).1.symm),
      hparams₀.2.trans ((hp false).2.trans (hp true).2.symm)⟩

theorem floatTransparent_iff {κ τ₀ τ : Cpu} {u₀ : Unknown} {ws : List Work} (e : Trap)
    (u : Unknown) (hκ : κ.spsel = false) (hin : (Event.trap .svc u₀).next κ = some τ₀)
    (hτ₀ : τ₀.spsel = true) (hl₀ : Layout (contextAddress κ) (word κ.mem κ.r0 2) κ.r0)
    (hwork : Run (TaskStep τ₀.msp) τ₀ ws τ) (hl : StackLayout τ₀.msp τ κ.r0)
    (hactive : τ.fpca = true) :
    ∃ κ', (Event.trap e u).next τ = some κ' ∧ ∀ {es : List Event} {κ₂ : Cpu} (u₂ : Unknown),
      Run (OtherStep κ.r0 (contextAddress τ)) κ' es κ₂ → κ₂.spsel = false → κ₂.r0 = κ.r0 →
      Layout (contextAddress κ₂) (contextAddress τ) κ.r0 →
      ∃ τ', (Event.trap .svc u₂).next κ₂ = some τ' ∧
        (FloatTransparent κ.r0 e τ κ' κ₂ τ' ↔
          es.foldl (fun x e ↦ e.fpEffect x) τ.fp = τ.fp ∧
            (e = .svc → ∀ fpca, ParamsInPlace τ fpca)) := by
  obtain ⟨hτ, hstk, hmsp, hsaved⟩ := dispatched_saved hκ hin hτ₀ hl₀ hwork
  rw [← hmsp] at hl
  obtain ⟨κ', hrun, hout⟩ := takenOut e u hκ hτ hstk hsaved (hl.layout hτ)
  have hnext := (Event.next_trap e u hτ).trans hrun
  refine ⟨κ', hnext, fun {es κ₂} u₂ hother hκ₂ hr0 hl₂ ↦ ?_⟩
  obtain ⟨τ', hτ', -, -, hcore⟩ := hout.resume hτ (hl.layout hτ) hother hκ₂ hr0 hl₂ u₂
  have hfp := TakenOut.resume_fp hactive hnext hother hτ'
  refine ⟨τ', hτ', ?_⟩
  constructor
  · intro ht
    refine ⟨hfp.symm.trans ht.fp, ?_⟩
    rintro rfl
    exact (hout.params_iff hκ hτ hstk hsaved hl hactive u).mp
      ⟨⟨ht.param5 rfl, ht.param6 rfl⟩, ht.basic rfl u⟩
  · rintro ⟨hfold, hparams⟩
    refine ⟨hcore, hfp.trans hfold, ?_, ?_, ?_⟩ <;> rintro rfl
    · exact ((hout.params_iff hκ hτ hstk hsaved hl hactive u).mpr (hparams rfl)).1.1
    · exact ((hout.params_iff hκ hτ hstk hsaved hl hactive u).mpr (hparams rfl)).1.2
    · intro u'
      exact ((hout.params_iff hκ hτ hstk hsaved hl hactive u').mpr (hparams rfl)).2

def stepD (c : Cpu) (e : Event) : Cpu := (e.next c).getD c

theorem next_stepD {c : Cpu} {e : Event} (h : (e.next c).isSome = true) :
    e.next c = some (stepD c e) := by
  obtain ⟨c', hc⟩ := Option.isSome_iff_exists.mp h
  rw [stepD, hc, Option.getD_some]

def floatTask : Cpu := someTask.floatOp fun _ ↦ ⟨fun _ ↦ 1, 0⟩

theorem floatTask_run : Run (TaskStep firstTask.msp) firstTask
    [.compute someCore false 0 firstTask.mem, .float fun _ ↦ ⟨fun _ ↦ 1, 0⟩] floatTask :=
  someTask_run.snoc ⟨rfl, by decide +kernel⟩

def preempt : Event := .trap (.interrupt 15) ⟨0, 0, 0, 0, 0, 0⟩
def switch : Event := .trap .svc ⟨0, 0, 0, 0, 0, 0⟩

def pick (c : Cpu) (td : Word) : Event :=
  .work (.compute { firstDispatch.core with r0 := td } false 0x20 c.mem)

def taskOut : Cpu := stepD floatTask preempt
def taskPicked : Cpu := stepD taskOut (pick taskOut 0x20000100)

theorem stackLayout_floatTask : StackLayout firstTask.msp floatTask firstDispatch.r0 :=
  ⟨apart_of_le (by decide +kernel) (by decide +kernel),
    apart_of_le (by decide +kernel) (by decide +kernel),
    apart_of_le (by decide +kernel) (by decide +kernel)⟩

theorem floatTransparent_iff_alone : ∃ τ', switch.next taskPicked = some τ' ∧
    FloatTransparent 0x20000100 (.interrupt 15) floatTask taskOut taskPicked τ' := by
  obtain ⟨κ', hout, hresume⟩ :=
    @floatTransparent_iff firstDispatch firstTask floatTask ⟨0, 0, 0, 0, 0, 0⟩ _
      (.interrupt 15) ⟨0, 0, 0, 0, 0, 0⟩ rfl rfl (by decide +kernel)
      (layout_of_le (by decide +kernel) (by decide +kernel) (by decide +kernel))
      floatTask_run stackLayout_floatTask rfl
  have hnext : preempt.next floatTask = some taskOut := next_stepD (by decide +kernel)
  cases hout.symm.trans hnext
  obtain ⟨τ', hτ', hiff⟩ := @hresume [pick taskOut 0x20000100] taskPicked ⟨0, 0, 0, 0, 0, 0⟩
    (.snoc .nil ⟨next_stepD rfl, by decide +kernel, by decide +kernel, by decide +kernel⟩)
    (by decide +kernel) (by decide +kernel)
    (layout_of_le (by decide +kernel) (by decide +kernel) (by decide +kernel))
  exact ⟨τ', hτ', hiff.mpr ⟨rfl, fun h ↦ by cases h⟩⟩

def otherPicked : Cpu := stepD taskOut (pick taskOut 0x20000200)
def otherIn : Cpu := stepD otherPicked switch
def otherFloat : Cpu := stepD otherIn (.work (.float fun _ ↦ ⟨fun _ ↦ 2, 0⟩))
def otherOut : Cpu := stepD otherFloat preempt
def taskPickedAgain : Cpu := stepD otherOut (pick otherOut 0x20000100)
def taskBack : Cpu := stepD taskPickedAgain switch

theorem otherStep_stepD {td p : Word} (c : Cpu) (e : Event)
    (h : (e.next c).isSome = true ∧ SameOn p (4 * 17) c.mem (stepD c e).mem ∧
      word (stepD c e).mem td 2 = word c.mem td 2 ∧
      (word (stepD c e).mem td 11 = 8 ↔ word c.mem td 11 = 8)) :
    OtherStep td p c e (stepD c e) :=
  ⟨next_stepD h.1, h.2.1, h.2.2.1, h.2.2.2⟩

theorem otherFloat_run : Run (OtherStep 0x20000100 (contextAddress floatTask)) taskOut
    [pick taskOut 0x20000200, switch, .work (.float fun _ ↦ ⟨fun _ ↦ 2, 0⟩), preempt,
      pick otherOut 0x20000100] taskPickedAgain := by
  have h₁ : Run (OtherStep 0x20000100 (contextAddress floatTask)) taskOut
      [pick taskOut 0x20000200] otherPicked :=
    Run.nil.snoc (otherStep_stepD taskOut (pick taskOut 0x20000200) (by decide +kernel))
  have h₂ := h₁.snoc (otherStep_stepD otherPicked switch (by decide +kernel))
  have h₃ := h₂.snoc (otherStep_stepD otherIn (.work (.float fun _ ↦ ⟨fun _ ↦ 2, 0⟩))
    (by decide +kernel))
  have h₄ := h₃.snoc (otherStep_stepD otherFloat preempt (by decide +kernel))
  exact h₄.snoc (otherStep_stepD otherOut (pick otherOut 0x20000100) (by decide +kernel))

/-- Between two of its instructions the first task loses S0 to the second. -/
theorem float_registers_lost :
    Run (TaskStep firstTask.msp) firstTask
      [.compute someCore false 0 firstTask.mem, .float fun _ ↦ ⟨fun _ ↦ 1, 0⟩] floatTask ∧
    floatTask.fpca = true ∧ preempt.next floatTask = some taskOut ∧
    Run (OtherStep 0x20000100 (contextAddress floatTask)) taskOut
      [pick taskOut 0x20000200, switch, .work (.float fun _ ↦ ⟨fun _ ↦ 2, 0⟩), preempt,
        pick otherOut 0x20000100] taskPickedAgain ∧
    switch.next taskPickedAgain = some taskBack ∧ floatTask.fp.s 0 = 1 ∧ taskBack.fp.s 0 = 2 ∧
    ¬ FloatTransparent 0x20000100 (.interrupt 15) floatTask taskOut taskPickedAgain taskBack := by
  have htask : floatTask.fp.s 0 = 1 := rfl
  have hback : taskBack.fp.s 0 = 2 := by decide +kernel
  refine ⟨floatTask_run, rfl, next_stepD (by decide +kernel), otherFloat_run,
    next_stepD (by decide +kernel), htask, hback, fun h ↦ ?_⟩
  rw [h.fp, htask] at hback
  exact absurd hback (by decide)

end PrjOS
