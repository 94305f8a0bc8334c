import PrjOS.Cpu.ContextSwitch

namespace PrjOS

open ByteMemory CortexM

/-- The 17 words of a thread that was switched out: what the handler pushes,
then what the exception entry has pushed. -/
def contextWords (c : Cpu) : List Word :=
  [c.r4, c.r5, c.r6, c.r7, c.r8, c.r9, c.r10, c.r11, excReturn c.spsel c.fpca,
    c.r0, c.r1, c.r2, c.r3, c.r12, c.lr, c.pc, c.xpsr.saved (c.force && c.sp.getLsbD 2)]

def contextAddress (c : Cpu) : Word := c.frame - 36#32

def stackContext (c : Cpu) : Memory := writeWords c.mem (contextAddress c) (contextWords c)

def contextAt (stkalign fpca : Bool) (m : Memory) (p : Word) : Core where
  r0 := word m p 9
  r1 := word m p 10
  r2 := word m p 11
  r3 := word m p 12
  r4 := word m p 0
  r5 := word m p 1
  r6 := word m p 2
  r7 := word m p 3
  r8 := word m p 4
  r9 := word m p 5
  r10 := word m p 6
  r11 := word m p 7
  r12 := word m p 13
  sp := unstackedSp (fpca || stkalign) fpca ((word m p 16).getLsbD 9) (p + 36#32)
  lr := word m p 14
  pc := word m p 15
  xpsr := Psr.restore (word m p 16)

structure Saved (c : Cpu) (m : Memory) (p : Word) : Prop where
  excReturn : word m p 8 = excReturn c.spsel c.fpca
  core : contextAt c.stkalign c.fpca m p = c.core

theorem contextAt_same {stkalign fpca : Bool} {m m' : Memory} {p : Word}
    (h : SameOn p (4 * 17) m m') : contextAt stkalign fpca m' p = contextAt stkalign fpca m p := by
  have hw (k : Nat) (hk : k < 17) : word m' p k = word m p k := h.word hk (by decide)
  simp (disch := decide) only [contextAt, hw]

theorem Saved.same {c : Cpu} {m m' : Memory} {p : Word} (h : Saved c m p)
    (hm : SameOn p (4 * 17) m m') : Saved c m' p :=
  ⟨(hm.word (by decide) (by decide)).trans h.excReturn, (contextAt_same hm).trans h.core⟩

/-- The slot that R0 is popped from is the tenth word. -/
theorem contextAt_setWord (stkalign fpca : Bool) (m : Memory) (p w : Word) :
    contextAt stkalign fpca (setWord m p 9 w) p =
      { contextAt stkalign fpca m p with r0 := w } := by
  simp [contextAt, word_setWord_self, word_setWord_ne]

theorem saved_stackContext (c : Cpu) : Saved c (stackContext c) (contextAddress c) := by
  have hlen : 4 * (contextWords c).length ≤ 2 ^ 32 := by simp [contextWords]
  have hw (k : Nat) (hk : k < 17) :
      word (stackContext c) (contextAddress c) k = (contextWords c).getD k 0 :=
    word_writeWords c.mem _ hk hlen
  have hframe : contextAddress c + 36#32 = c.frame := BitVec.sub_add_cancel _ _
  have hsp : unstackedSp c.force c.fpca (c.force && c.sp.getLsbD 2) c.frame = c.sp :=
    unstackedSp_frameAddress _ _ _
  refine ⟨hw 8 (by decide), ?_⟩
  simp (disch := decide) only [contextAt, hw, hframe, contextWords, List.getD_cons_zero,
    List.getD_cons_succ, Psr.saved_align, Psr.restore_saved]
  exact congrArg (fun sp ↦ { c.core with sp := sp }) hsp

theorem stackContext_same {c : Cpu} {b : Word} {n : Nat}
    (h : Apart (contextAddress c) (4 * 17) b n) : SameOn b n c.mem (stackContext c) :=
  SameOn.writeWords h (by simp [contextWords]) _

theorem push_exceptionEntry (c : Cpu) (number : BitVec 9) (u : Unknown) :
    writeWords (c.exceptionEntry number u).mem (contextAddress c)
      (calleeWords (c.exceptionEntry number u)) = stackContext c := by
  have hframe : c.frame = contextAddress c + 36#32 := (BitVec.sub_add_cancel _ _).symm
  have happ (ws : List Word) (h : 4 * (9 + ws.length) ≤ 2 ^ 32) :=
    writeWords_append c.mem (contextAddress c) (calleeWords (c.exceptionEntry number u)) ws h
  simp only [calleeWords, List.length_cons, List.length_nil, Nat.reduceAdd, Nat.reduceMul,
    ← hframe] at happ
  simp only [calleeWords, Cpu.exceptionEntry] at happ ⊢
  rw [happ _ (by simp)]
  rfl

theorem core_unstack {c : Cpu} {spsel fpca : Bool} {p : Word}
    (hsp : (if spsel then c.psp else c.msp) = p + 36#32)
    (hcallee : calleeWords c = calleeWords (loadCallee c c.mem p)) :
    (c.unstack spsel fpca).core = contextAt c.stkalign fpca c.mem p := by
  have hw (k : Nat) : word c.mem (p + 36#32) k = word c.mem p (9 + k) := word_add c.mem p 9 k
  simp only [calleeWords, loadCallee, List.cons.injEq] at hcallee
  obtain ⟨h4, h5, h6, h7, h8, h9, h10, h11, -⟩ := hcallee
  cases spsel <;> simp only [Bool.false_eq_true, if_false, if_true] at hsp <;>
    simp only [Cpu.core, Cpu.sp, Cpu.unstack, contextAt, Bool.false_eq_true, if_false, if_true,
      hsp, hw, h4, h5, h6, h7, h8, h9, h10, h11, Nat.reduceAdd]

/-- The memory areas of a switch between the kernel, with its context at `k`,
and the task of the descriptor at `td`, with its context at `p`. -/
structure Layout (k p td : Word) : Prop where
  kernelTask : Apart k (4 * 17) p (4 * 17)
  kernelTd : Apart k (4 * 17) td (4 * 12)
  taskTd : Apart p (4 * 17) td (4 * 12)

/-- The state at the end of a handler that returns to the context at `p`,
after R0 in it may have been replaced. -/
structure Returning (d : Cpu) (spsel : Bool) (m : Memory) (p : Word) : Prop where
  sp : (if spsel then d.psp else d.msp) = p + 36#32
  callee : calleeWords d = calleeWords (loadCallee d m p)
  mem : d.mem = m ∨ d.mem = setWord m p 9 (word d.mem p 9)

theorem Returning.lr {d : Cpu} {spsel : Bool} {m : Memory} {p : Word}
    (h : Returning d spsel m p) : d.lr = word m p 8 := by
  have hcallee := h.callee
  simp only [calleeWords, loadCallee, List.cons.injEq] at hcallee
  tauto

theorem Returning.exceptionReturn {d : Cpu} {spsel fpca : Bool} {m : Memory} {p : Word}
    (h : Returning d spsel m p) (hlr : word m p 8 = excReturn spsel fpca) :
    d.exceptionReturn = some (d.unstack spsel fpca) ∧
      (d.unstack spsel fpca).core =
        { contextAt d.stkalign fpca m p with r0 := word d.mem p 9 } := by
  have hword (j : Nat) (hj : j < 9) : word d.mem p j = word m p j := by
    rcases h.mem with he | he
    · rw [he]
    · rw [he, word_setWord_ne _ _ _ (by omega) (by decide) (by omega)]
  refine ⟨exceptionReturn_of_lr (h.lr.trans hlr), ?_⟩
  rw [core_unstack h.sp]
  · rcases h.mem with he | he
    · rw [he]
      rfl
    · conv_lhs => rw [he, contextAt_setWord]
  · rw [h.callee]
    simp (disch := decide) only [calleeWords, loadCallee, hword]

theorem hwContextSwitch_returns {c : Cpu} {m : Memory} {k p : Word} (hk : c.msp = k)
    (hp : c.psp - 36#32 = p) (hm : writeWords c.mem p (calleeWords c) = m) :
    ∃ d, Routine.hwContextSwitch.run c = d.exceptionReturn ∧ d.stkalign = c.stkalign ∧
      Returning d false (recordInterrupt m (word m k 9) p) k ∧
      word d.mem k 9 = if c.xpsr.ipsr.setWidth 32 = 0#32 then -1 else c.xpsr.ipsr.setWidth 32 := by
  subst hk hp hm
  refine ⟨_, hwContextSwitch_run c, rfl, ⟨rfl, rfl, .inr ?_⟩, ?_⟩
  · rw [word_setWord_self]
  · rw [word_setWord_self, Psr.zero_compare]
    simp only [decide_eq_true_eq]
    rfl

theorem contextSwitch_returns_kernel {c : Cpu} {m : Memory} {k p : Word}
    (hlr : c.lr &&& 0x0F ≠ 0x09) (hk : c.msp = k) (hp : c.psp - 36#32 = p)
    (hm : writeWords c.mem p (calleeWords c) = m) :
    ∃ d, Routine.contextSwitch.run c = d.exceptionReturn ∧ d.stkalign = c.stkalign ∧
      Returning d false (recordSvc m (word m k 9) p) k ∧ word d.mem k 9 = 0 := by
  subst hk hp hm
  rw [contextSwitch_run, if_neg hlr, taskToKernel_run]
  refine ⟨_, rfl, rfl, ⟨rfl, rfl, .inr ?_⟩, word_setWord_self _ _ _ _⟩
  rw [word_setWord_self]
  rfl

theorem setWord_of_ite {m m' : Memory} {p w : Word} {P : Prop} [Decidable P]
    (h : m' = if P then m else setWord m p 9 w) :
    (m' = m ∨ m' = setWord m p 9 (word m' p 9)) ∧ word m' p 9 = if P then word m p 9 else w := by
  by_cases hP : P
  · simp only [hP, if_true] at h ⊢
    exact ⟨.inl h, by rw [h]⟩
  · simp only [hP, if_false] at h ⊢
    have hw : word m' p 9 = w := by rw [h, word_setWord_self]
    exact ⟨.inr (by rw [hw, h]), hw⟩

theorem contextSwitch_returns_task {c : Cpu} {m : Memory} {k td p : Word}
    (hlr : c.lr &&& 0x0F = 0x09) (hk : c.msp - 36#32 = k)
    (hm : writeWords c.mem k (calleeWords c) = m) (htd : word m k 9 = td) (hp : word m td 2 = p) :
    ∃ d, Routine.contextSwitch.run c = d.exceptionReturn ∧ d.stkalign = c.stkalign ∧ d.msp = k ∧
      Returning d true m p ∧ word d.mem p 9 = if word m td 11 = 8 then word m p 9 else word m td 4 := by
  subst hk hm htd hp
  rw [contextSwitch_run, if_pos hlr, kernelToTask_run]
  refine ⟨_, rfl, rfl, rfl, ⟨rfl, rfl, (setWord_of_ite rfl).1⟩, (setWord_of_ite rfl).2⟩

theorem Returning.same {d : Cpu} {spsel : Bool} {m : Memory} {p b : Word} {n : Nat}
    (h : Returning d spsel m p) (hb : Apart p (4 * 17) b n) : SameOn b n m d.mem := by
  rcases h.mem with he | he
  · rw [he]
    exact SameOn.refl _ _ _
  · rw [he]
    exact SameOn.setWord hb (by decide) _ _

def resumedCore (stkalign fpca : Bool) (m : Memory) (td : Word) : Core :=
  let core := contextAt stkalign fpca m (word m td 2)
  if word m td 11 = 8 then core else { core with r0 := word m td 4 }

structure SwitchedIn (κ τ : Cpu) (active : Bool) : Prop where
  spsel : τ.spsel = true
  fpca : τ.fpca = active
  stkalign : τ.stkalign = κ.stkalign
  msp : τ.msp = contextAddress κ
  core : τ.core = resumedCore κ.stkalign active κ.mem κ.r0
  kernel : Saved κ τ.mem τ.msp

theorem svc_returns_task {κ : Cpu} (u : Unknown) (hκ : κ.spsel = false)
    (hl : Layout (contextAddress κ) (word κ.mem κ.r0 2) κ.r0) :
    ∃ d, Routine.contextSwitch.run (κ.exceptionEntry 11 u) = d.exceptionReturn ∧
      d.stkalign = κ.stkalign ∧ d.msp = contextAddress κ ∧
      Returning d true (stackContext κ) (word κ.mem κ.r0 2) ∧
      word d.mem (word κ.mem κ.r0 2) 9 =
        if word κ.mem κ.r0 11 = 8 then word κ.mem (word κ.mem κ.r0 2) 9
        else word κ.mem κ.r0 4 := by
  have hlr : (κ.exceptionEntry 11 u).lr &&& 0x0F = 0x09 := by
    change excReturn κ.spsel κ.fpca &&& 0x0F = 0x09
    rw [hκ]
    cases κ.fpca <;> rfl
  have hmsp : (κ.exceptionEntry 11 u).msp - 36#32 = contextAddress κ := by
    simp [Cpu.exceptionEntry, hκ, contextAddress]
  have htd : word (stackContext κ) (contextAddress κ) 9 = κ.r0 :=
    congrArg Core.r0 (saved_stackContext κ).core
  have hword (j : Nat) (hj : j < 12) : word (stackContext κ) κ.r0 j = word κ.mem κ.r0 j :=
    (stackContext_same hl.kernelTd).word hj (by decide)
  have hframe := stackContext_same hl.kernelTask
  obtain ⟨d, hrun, hstk, hdmsp, hret, hr0⟩ := contextSwitch_returns_task hlr hmsp
    (push_exceptionEntry κ 11 u) htd (hword 2 (by decide))
  rw [hword 11 (by decide), hword 4 (by decide), hframe.word (by decide) (by decide)] at hr0
  exact ⟨d, hrun, hstk, hdmsp, hret, hr0⟩

theorem switchIn {κ : Cpu} {active : Bool} (u : Unknown) (hκ : κ.spsel = false)
    (hl : Layout (contextAddress κ) (word κ.mem κ.r0 2) κ.r0)
    (hlr : word κ.mem (word κ.mem κ.r0 2) 8 = excReturn true active) :
    ∃ τ, Routine.contextSwitch.run (κ.exceptionEntry 11 u) = some τ ∧ SwitchedIn κ τ active := by
  have hframe := stackContext_same hl.kernelTask
  obtain ⟨d, hrun, hstk, hdmsp, hret, hr0⟩ := svc_returns_task u hκ hl
  obtain ⟨hexc, hcore⟩ := hret.exceptionReturn
    ((hframe.word (by decide) (by decide)).trans hlr)
  refine ⟨_, hrun.trans hexc, rfl, rfl, hstk, hdmsp, ?_, ?_⟩
  · rw [hcore, contextAt_same hframe, hr0, hstk]
    unfold resumedCore
    split <;> rfl
  · change Saved κ d.mem d.msp
    rw [hdmsp]
    exact (saved_stackContext κ).same (hret.same hl.kernelTask.symm)

theorem switchedIn_of_run {κ τ : Cpu} {u : Unknown} (hκ : κ.spsel = false)
    (hl : Layout (contextAddress κ) (word κ.mem κ.r0 2) κ.r0)
    (h : Routine.contextSwitch.run (κ.exceptionEntry 11 u) = some τ) (hτ : τ.spsel = true) :
    SwitchedIn κ τ τ.fpca := by
  obtain ⟨d, hrun, -, -, hret, -⟩ := svc_returns_task u hκ hl
  have hlr := (exceptionReturn_eq_some (hrun.symm.trans h)).1
  rw [hret.lr, (stackContext_same hl.kernelTask).word (by decide) (by decide), hτ] at hlr
  obtain ⟨τ', hrun', hin⟩ := switchIn u hκ hl hlr
  cases h.symm.trans hrun'
  exact hin

theorem recordInterrupt_words (m : Memory) (td p : Word) :
    word (recordInterrupt m td p) td 2 = p ∧ word (recordInterrupt m td p) td 3 = 0 ∧
      word (recordInterrupt m td p) td 11 = 8 := by
  simp [recordInterrupt, word_setWord_self, word_setWord_ne]

theorem recordSvc_words {m : Memory} {td p : Word} (h : Apart p (4 * 17) td (4 * 12)) :
    word (recordSvc m td p) td 2 = p ∧
      word (recordSvc m td p) td 3 = (setWord m td 2 p (word m p 15 - 2)).setWidth 32 ∧
      word (recordSvc m td p) td 4 = 0 ∧ word (recordSvc m td p) td 5 = word m p 9 ∧
      word (recordSvc m td p) td 6 = word m p 10 ∧ word (recordSvc m td p) td 7 = word m p 11 ∧
      word (recordSvc m td p) td 8 = word m p 12 ∧ word (recordSvc m td p) td 11 = 7 := by
  have hp (j : Nat) (hj : j < 17) (m : Memory) (i : Nat) (w : Word) (hi : i < 12) :
      word (setWord m td i w) p j = word m p j :=
    word_setWord_apart (h.offset (by omega)).symm hi
  simp (disch := decide) [recordSvc, word_setWord_self, word_setWord_ne, hp, readWord_and_255,
    sub_eq_add_neg]

inductive Trap
  | svc
  | interrupt (number : BitVec 9)

namespace Trap

def run : Trap → Unknown → Cpu → Option Cpu
  | svc, u, c => Routine.contextSwitch.run (c.exceptionEntry 11 u)
  | interrupt number, u, c => Routine.hwContextSwitch.run (c.exceptionEntry number u)

def reason : Trap → Word
  | svc => 0
  | interrupt number =>
    if number.setWidth 32 = 0#32 then -1 else number.setWidth 32

def record : Trap → Memory → Word → Word → Memory
  | svc => recordSvc
  | interrupt _ => recordInterrupt

theorem record_same (e : Trap) (m : Memory) {td p b : Word} {n : Nat}
    (h : Apart td (4 * 12) b n) : SameOn b n m (e.record m td p) := by
  have hset (m : Memory) (i : Nat) (w : Word) (hi : i < 12) : SameOn b n m (setWord m td i w) :=
    SameOn.setWord h (by omega) m w
  cases e with
  | svc =>
    refine ((((((((((hset _ 2 _ ?_).trans (hset _ 3 _ ?_)).trans (hset _ 4 _ ?_)).trans
      (hset _ 11 _ ?_)).trans (hset _ 5 _ ?_)).trans (hset _ 6 _ ?_)).trans (hset _ 7 _ ?_)).trans
      (hset _ 8 _ ?_)).trans (hset _ 9 _ ?_)).trans (hset _ 10 _ ?_)) <;> decide
  | interrupt =>
    exact ((hset _ 2 _ (by decide)).trans (hset _ 3 _ (by decide))).trans (hset _ 11 _ (by decide))

end Trap

structure TakenOut (κ τ κ' : Cpu) (e : Trap) : Prop where
  spsel : κ'.spsel = false
  fpca : κ'.fpca = κ.fpca
  stkalign : κ'.stkalign = τ.stkalign
  core : κ'.core = { κ.core with r0 := e.reason }
  task : Saved τ κ'.mem (contextAddress τ)
  descriptor : ∀ j < 12, word κ'.mem κ.r0 j =
    word (e.record (stackContext τ) κ.r0 (contextAddress τ)) κ.r0 j

theorem Trap.returns {τ : Cpu} {td : Word} (e : Trap) (u : Unknown) (hτ : τ.spsel = true)
    (htd : word (stackContext τ) τ.msp 9 = td) :
    ∃ d, e.run u τ = d.exceptionReturn ∧ d.stkalign = τ.stkalign ∧
      Returning d false (e.record (stackContext τ) td (contextAddress τ)) τ.msp ∧
      word d.mem τ.msp 9 = e.reason := by
  have hmsp (n : BitVec 9) : (τ.exceptionEntry n u).msp = τ.msp := by
    simp [Cpu.exceptionEntry, hτ]
  have hpsp (n : BitVec 9) : (τ.exceptionEntry n u).psp - 36#32 = contextAddress τ := by
    simp [Cpu.exceptionEntry, hτ, contextAddress]
  subst htd
  cases e with
  | svc =>
    refine contextSwitch_returns_kernel ?_ (hmsp 11) (hpsp 11) (push_exceptionEntry τ 11 u)
    change excReturn τ.spsel τ.fpca &&& 0x0F ≠ 0x09
    rw [hτ]
    cases τ.fpca <;> decide
  | interrupt n => exact hwContextSwitch_returns (hmsp n) (hpsp n) (push_exceptionEntry τ n u)

theorem takenOut {κ τ : Cpu} (e : Trap) (u : Unknown) (hκ : κ.spsel = false)
    (hτ : τ.spsel = true) (hstk : τ.stkalign = κ.stkalign) (hsaved : Saved κ τ.mem τ.msp)
    (hl : Layout τ.msp (contextAddress τ) κ.r0) :
    ∃ κ', e.run u τ = some κ' ∧ TakenOut κ τ κ' e := by
  have hkernel := stackContext_same hl.kernelTask.symm
  have htd : word (stackContext τ) τ.msp 9 = κ.r0 :=
    (hkernel.word (by decide) (by decide)).trans (congrArg Core.r0 hsaved.core)
  obtain ⟨d, hrun, hdstk, hret, hr0⟩ := e.returns u hτ htd
  have hsaved := (hsaved.same hkernel).same
    (e.record_same _ (p := contextAddress τ) hl.kernelTd.symm)
  obtain ⟨hexc, hcore⟩ := hret.exceptionReturn (hκ ▸ hsaved.excReturn)
  refine ⟨_, hrun.trans hexc, rfl, rfl, hdstk, ?_, ?_, fun j hj ↦ ?_⟩
  · rw [hcore, hr0, hdstk, hstk, hsaved.core]
  · exact ((saved_stackContext τ).same (e.record_same _ hl.taskTd.symm)).same
      (hret.same hl.kernelTask)
  · exact (hret.same hl.kernelTd).word hj (by decide)

end PrjOS
