import PrjOS.Library.Memory

namespace PrjOS.CortexM

open ByteMemory

/-- Bits 31 to 10 and bits 8 to 0 of a program status word. Bit 9 is only used
in the words that an exception saves. -/
structure Psr where
  flags : BitVec 22
  ipsr : BitVec 9
  deriving DecidableEq

namespace Psr

def zero (p : Psr) : Bool := p.flags.getLsbD 20

/-- The flags N, Z, C and V of the subtraction `a - b`. -/
def compare (p : Psr) (a b : Word) : Psr :=
  let n := (a - b).msb
  let v := (a.msb ^^ b.msb) && (a.msb ^^ n)
  { p with flags := BitVec.ofBool n ++ BitVec.ofBool (a = b) ++ BitVec.ofBool (b ≤ a) ++
      BitVec.ofBool v ++ p.flags.extractLsb' 0 18 }

def saved (p : Psr) (align : Bool) : Word := p.flags ++ BitVec.ofBool align ++ p.ipsr

def restore (w : Word) : Psr := ⟨w.extractLsb' 10 22, w.extractLsb' 0 9⟩

theorem saved_align (p : Psr) (align : Bool) : (p.saved align).getLsbD 9 = align := by
  unfold saved
  rw [BitVec.getLsbD_append, BitVec.getLsbD_append]
  simp

theorem restore_saved (p : Psr) (align : Bool) : restore (p.saved align) = p := by
  have hflags : (p.saved align).extractLsb' 10 22 = p.flags := by
    refine BitVec.eq_of_getLsbD_eq fun i hi ↦ ?_
    rw [BitVec.getLsbD_extractLsb', saved, BitVec.getLsbD_append, BitVec.getLsbD_append]
    simp [hi, show ¬ 10 + i < 9 by omega, show ¬ 10 + i - 9 < 1 by omega,
      show 10 + i - 9 - 1 = i by omega]
  have hipsr : (p.saved align).extractLsb' 0 9 = p.ipsr := by
    refine BitVec.eq_of_getLsbD_eq fun i hi ↦ ?_
    rw [BitVec.getLsbD_extractLsb', saved, BitVec.getLsbD_append]
    simp [hi]
  rw [restore, hflags, hipsr]

theorem zero_compare (p : Psr) (a b : Word) : (p.compare a b).zero = decide (a = b) := by
  unfold zero compare
  simp only [BitVec.getLsbD_append]
  simp

end Psr

structure FpRegs where
  s : Fin 32 → Word
  fpscr : Word

structure Core where
  (r0 r1 r2 r3 r4 r5 r6 r7 r8 r9 r10 r11 r12 sp lr pc : Word)
  xpsr : Psr
  deriving DecidableEq

/-- A Cortex-M4 with lazy floating point stacking. `lspact` says that the
floating point registers of an earlier thread are still to be saved, at
`fpcar`. -/
structure Cpu where
  (r0 r1 r2 r3 r4 r5 r6 r7 r8 r9 r10 r11 r12 msp psp lr pc : Word)
  xpsr : Psr
  (spsel fpca primask : Bool)
  basepri : Word
  fp : FpRegs
  lspact : Bool
  fpcar : Word
  stkalign : Bool
  mem : Memory

namespace Cpu

def sp (c : Cpu) : Word := if c.spsel then c.psp else c.msp

def core (c : Cpu) : Core where
  r0 := c.r0
  r1 := c.r1
  r2 := c.r2
  r3 := c.r3
  r4 := c.r4
  r5 := c.r5
  r6 := c.r6
  r7 := c.r7
  r8 := c.r8
  r9 := c.r9
  r10 := c.r10
  r11 := c.r11
  r12 := c.r12
  sp := c.sp
  lr := c.lr
  pc := c.pc
  xpsr := c.xpsr

def compute (c : Cpu) (x : Core) (primask : Bool) (basepri : Word) (m : Memory) : Cpu :=
  { c with
    r0 := x.r0
    r1 := x.r1
    r2 := x.r2
    r3 := x.r3
    r4 := x.r4
    r5 := x.r5
    r6 := x.r6
    r7 := x.r7
    r8 := x.r8
    r9 := x.r9
    r10 := x.r10
    r11 := x.r11
    r12 := x.r12
    msp := if c.spsel then c.msp else x.sp
    psp := if c.spsel then x.sp else c.psp
    lr := x.lr
    pc := x.pc
    xpsr := x.xpsr
    primask := primask
    basepri := basepri
    mem := m }

def preserveFp (c : Cpu) : Cpu :=
  { c with
    lspact := false
    mem := if c.lspact then
        writeWords c.mem c.fpcar
          ((List.ofFn fun i : Fin 16 ↦ c.fp.s (i.castLE (by decide))) ++ [c.fp.fpscr])
      else c.mem }

def floatOp (c : Cpu) (f : FpRegs → FpRegs) : Cpu :=
  let c := c.preserveFp
  { c with fp := f c.fp, fpca := true }

end Cpu

/-- The value of LR in a handler, for a thread that used the process stack
(`spsel`) and had a floating point context (`fpca`). -/
def excReturn (spsel fpca : Bool) : Word :=
  match spsel, fpca with
  | false, false => 0xFFFFFFF9
  | true, false => 0xFFFFFFFD
  | false, true => 0xFFFFFFE9
  | true, true => 0xFFFFFFED

def frameSize (fpca : Bool) : Word := if fpca then 0x68 else 0x20

/-- Where an exception puts the frame of a thread. `force` asks for a multiple
of 8. -/
def frameAddress (force fpca : Bool) (sp : Word) : Word :=
  if force then (sp - frameSize fpca) &&& ~~~4#32 else sp - frameSize fpca

def unstackedSp (force fpca align : Bool) (frame : Word) : Word :=
  (frame + frameSize fpca) ||| (if force && align then 4 else 0)

theorem getLsbD_two (w : Word) : w.getLsbD 2 = decide (w.toNat / 4 % 2 = 1) := by
  rw [BitVec.getLsbD, Nat.testBit_eq_decide_div_mod_eq]

theorem and_not_four (w : Word) : (w &&& ~~~4#32) + (if w.getLsbD 2 then 4#32 else 0) = w := by
  have hbit : (if w.getLsbD 2 then 4#32 else 0) = w &&& 4#32 := (BitVec.and_twoPow w 2).symm
  rw [hbit]
  exact and_not_add_and w 4#32

theorem or_four {w : Word} (h : w.getLsbD 2 = false) : w ||| 4#32 = w + 4#32 := by
  rw [BitVec.add_eq_or_of_and_eq_zero]
  have htwo : (4#32 : Word) = BitVec.twoPow 32 2 := rfl
  rw [htwo, BitVec.and_twoPow, h]
  rfl

theorem unstackedSp_frameAddress (force fpca : Bool) (sp : Word) :
    unstackedSp force fpca (force && sp.getLsbD 2) (frameAddress force fpca sp) = sp := by
  have hsize : (frameSize fpca).toNat = if fpca then 104 else 32 := by cases fpca <;> rfl
  have hbit : (sp - frameSize fpca).getLsbD 2 = sp.getLsbD 2 := by
    rw [getLsbD_two, getLsbD_two, BitVec.toNat_sub, hsize]
    split_ifs <;> congr 1 <;> apply propext <;> omega
  have hsum := and_not_four (sp - frameSize fpca)
  rw [hbit] at hsum
  cases force
  · simp [unstackedSp, frameAddress]
  simp only [unstackedSp, frameAddress, Bool.true_and, if_true]
  generalize (sp - frameSize fpca) &&& ~~~4#32 = frame at hsum ⊢
  have hsp : frame + frameSize fpca + (if sp.getLsbD 2 then 4#32 else 0) = sp := by
    rw [BitVec.add_assoc, BitVec.add_comm (frameSize fpca), ← BitVec.add_assoc, hsum,
      BitVec.sub_add_cancel]
  cases h : sp.getLsbD 2 with
  | false =>
    simpa only [h, Bool.false_eq_true, if_false, BitVec.ofNat_eq_ofNat, BitVec.add_zero,
      BitVec.or_zero] using hsp
  | true =>
    simp only [h, if_true] at hsp ⊢
    have hclear : (frame + frameSize fpca).getLsbD 2 = false := by
      have h4 : (4#32).toNat = 4 := rfl
      rw [← hsp] at h
      rw [getLsbD_two] at h ⊢
      rw [BitVec.toNat_add] at h
      simp only [decide_eq_true_eq, decide_eq_false_iff_not] at h ⊢
      omega
    exact (or_four hclear).trans hsp

/-- The registers that the start of a handler does not determine. -/
structure Unknown where
  (r0 r1 r2 r3 r12 : Word)
  flags : BitVec 22

namespace Cpu

/-- Whether the frame of the thread is moved to a multiple of 8. -/
def force (c : Cpu) : Bool := c.fpca || c.stkalign

def frame (c : Cpu) : Word := frameAddress c.force c.fpca c.sp

def exceptionEntry (c : Cpu) (number : BitVec 9) (u : Unknown) : Cpu :=
  { c with
    r0 := u.r0
    r1 := u.r1
    r2 := u.r2
    r3 := u.r3
    r12 := u.r12
    lr := excReturn c.spsel c.fpca
    xpsr := ⟨u.flags, number⟩
    msp := if c.spsel then c.msp else c.frame
    psp := if c.spsel then c.frame else c.psp
    spsel := false
    fpca := false
    lspact := c.fpca || c.lspact
    fpcar := if c.fpca then c.frame + 0x20 else c.fpcar
    mem := writeWords c.mem c.frame
      [c.r0, c.r1, c.r2, c.r3, c.r12, c.lr, c.pc, c.xpsr.saved (c.force && c.sp.getLsbD 2)] }

def loadFp (m : Memory) (a : Word) (fp : FpRegs) : FpRegs where
  s i := if i.val < 16 then word m a i.val else fp.s i
  fpscr := word m a 16

def unstack (c : Cpu) (spsel fpca : Bool) : Cpu :=
  let frame := if spsel then c.psp else c.msp
  let sp := unstackedSp (fpca || c.stkalign) fpca ((word c.mem frame 7).getLsbD 9) frame
  { c with
    r0 := word c.mem frame 0
    r1 := word c.mem frame 1
    r2 := word c.mem frame 2
    r3 := word c.mem frame 3
    r12 := word c.mem frame 4
    lr := word c.mem frame 5
    pc := word c.mem frame 6
    xpsr := Psr.restore (word c.mem frame 7)
    msp := if spsel then c.msp else sp
    psp := if spsel then sp else c.psp
    spsel := spsel
    fpca := fpca
    fp := if fpca && !c.lspact then loadFp c.mem (frame + 0x20) c.fp else c.fp
    lspact := c.lspact && !fpca }

def exceptionReturn (c : Cpu) : Option Cpu :=
  if c.lr = excReturn false false then some (c.unstack false false)
  else if c.lr = excReturn true false then some (c.unstack true false)
  else if c.lr = excReturn false true then some (c.unstack false true)
  else if c.lr = excReturn true true then some (c.unstack true true)
  else none

end Cpu

theorem exceptionReturn_of_lr {c : Cpu} {spsel fpca : Bool} (h : c.lr = excReturn spsel fpca) :
    c.exceptionReturn = some (c.unstack spsel fpca) := by
  unfold Cpu.exceptionReturn
  rw [h]
  cases spsel <;> cases fpca <;> rfl

theorem exceptionReturn_eq_some {c c' : Cpu} (h : c.exceptionReturn = some c') :
    c.lr = excReturn c'.spsel c'.fpca ∧ c' = c.unstack c'.spsel c'.fpca := by
  unfold Cpu.exceptionReturn at h
  split_ifs at h with h₁ h₂ h₃ h₄ <;> cases h
  · exact ⟨h₁, rfl⟩
  · exact ⟨h₂, rfl⟩
  · exact ⟨h₃, rfl⟩
  · exact ⟨h₄, rfl⟩

inductive Reg
  | r0 | r1 | r2 | r3 | r4 | r5 | r6 | r7 | r8 | r9 | r10 | r11 | r12 | sp | lr
  deriving DecidableEq, Repr

namespace Cpu

def get (c : Cpu) : Reg → Word
  | .r0 => c.r0
  | .r1 => c.r1
  | .r2 => c.r2
  | .r3 => c.r3
  | .r4 => c.r4
  | .r5 => c.r5
  | .r6 => c.r6
  | .r7 => c.r7
  | .r8 => c.r8
  | .r9 => c.r9
  | .r10 => c.r10
  | .r11 => c.r11
  | .r12 => c.r12
  | .sp => c.msp
  | .lr => c.lr

def set (c : Cpu) (w : Word) : Reg → Cpu
  | .r0 => { c with r0 := w }
  | .r1 => { c with r1 := w }
  | .r2 => { c with r2 := w }
  | .r3 => { c with r3 := w }
  | .r4 => { c with r4 := w }
  | .r5 => { c with r5 := w }
  | .r6 => { c with r6 := w }
  | .r7 => { c with r7 := w }
  | .r8 => { c with r8 := w }
  | .r9 => { c with r9 := w }
  | .r10 => { c with r10 := w }
  | .r11 => { c with r11 := w }
  | .r12 => { c with r12 := w }
  | .sp => { c with msp := w }
  | .lr => { c with lr := w }

end Cpu

/-- Handler instructions. `moveqImm` stands for `IT EQ` and `MOVEQ`. -/
inductive Instr (Label : Type)
  | cpsid | cpsie
  | movImm (d : Reg) (w : Word)
  | mov (d n : Reg)
  | moveqImm (d : Reg) (w : Word)
  | andImm (d n : Reg) (w : Word)
  | cmp (n m : Reg)
  | msrBasepri (n : Reg)
  | msrPsp (n : Reg)
  | mrsPsp (d : Reg)
  | mrsIpsr (d : Reg)
  | push (rs : List Reg)
  | pop (rs : List Reg)
  | ldr (t n : Reg) (offset : Word)
  | str (t n : Reg) (offset : Word)
  | b (l : Label)
  | beq (l : Label)
  | bne (l : Label)
  | bxLr

variable {Label : Type}

def Instr.step (c : Cpu) : Instr Label → Cpu
  | .cpsid => { c with primask := true }
  | .cpsie => { c with primask := false }
  | .movImm d w => c.set w d
  | .mov d n => c.set (c.get n) d
  | .moveqImm d w => c.set (if c.xpsr.zero then w else c.get d) d
  | .andImm d n w => c.set (c.get n &&& w) d
  | .cmp n m => { c with xpsr := c.xpsr.compare (c.get n) (c.get m) }
  | .msrBasepri n => { c with basepri := c.get n }
  | .msrPsp n => { c with psp := c.get n }
  | .mrsPsp d => c.set c.psp d
  | .mrsIpsr d => c.set (c.xpsr.ipsr.setWidth 32) d
  | .push rs =>
    let sp := c.msp - BitVec.ofNat 32 (4 * rs.length)
    { c with msp := sp, mem := writeWords c.mem sp (rs.map c.get) }
  | .pop rs =>
    { rs.zipIdx.foldl (fun c' p ↦ c'.set (word c.mem c.msp p.2) p.1) c with
      msp := c.msp + BitVec.ofNat 32 (4 * rs.length) }
  | .ldr t n offset => c.set (readWord c.mem (c.get n + offset)) t
  | .str t n offset => { c with mem := writeWord c.mem (c.get n + offset) (c.get t) }
  | .b _ | .beq _ | .bne _ | .bxLr => c

def exec (code : Label → List (Instr Label)) : Nat → List (Instr Label) → Cpu → Option Cpu
  | 0, _, _ => none
  | _ + 1, [], _ => none
  | fuel + 1, i :: is, c =>
    match i with
    | .b l => exec code fuel (code l) c
    | .beq l => exec code fuel (if c.xpsr.zero then code l else is) c
    | .bne l => exec code fuel (if c.xpsr.zero then is else code l) c
    | .bxLr => c.exceptionReturn
    | i => exec code fuel is (i.step c)

/-- The registers that a handler leaves alone. -/
structure SameFp (c c' : Cpu) : Prop where
  fp : c'.fp = c.fp
  lspact : c'.lspact = c.lspact
  stkalign : c'.stkalign = c.stkalign

theorem SameFp.refl (c : Cpu) : SameFp c c := ⟨rfl, rfl, rfl⟩

theorem SameFp.trans {c c' c'' : Cpu} (h : SameFp c c') (h' : SameFp c' c'') : SameFp c c'' :=
  ⟨h'.fp.trans h.fp, h'.lspact.trans h.lspact, h'.stkalign.trans h.stkalign⟩

theorem sameFp_set (c : Cpu) (w : Word) (r : Reg) : SameFp c (c.set w r) := by
  cases r <;> exact ⟨rfl, rfl, rfl⟩

theorem sameFp_step (c : Cpu) (i : Instr Label) : SameFp c (i.step c) := by
  cases i with
  | pop rs =>
    have hpop (l : List (Reg × Nat)) (c' : Cpu) :
        SameFp c' (l.foldl (fun c' p ↦ c'.set (word c.mem c.msp p.2) p.1) c') := by
      induction l generalizing c' with
      | nil => exact .refl c'
      | cons p l ih => exact (sameFp_set c' _ _).trans (ih _)
    have h := hpop rs.zipIdx c
    exact ⟨h.fp, h.lspact, h.stkalign⟩
  | movImm | mov | moveqImm | andImm | mrsPsp | mrsIpsr | ldr => exact sameFp_set c _ _
  | _ => exact ⟨rfl, rfl, rfl⟩

theorem exec_returns {code : Label → List (Instr Label)} {fuel : Nat} {is : List (Instr Label)}
    {c c' : Cpu} (h : exec code fuel is c = some c') :
    ∃ d, SameFp c d ∧ d.exceptionReturn = some c' := by
  induction fuel generalizing is c with
  | zero => exact absurd h (by simp [exec])
  | succ fuel ih =>
    cases is with
    | nil => exact absurd h (by simp [exec])
    | cons i is =>
      cases i with
      | b | beq | bne => exact ih h
      | bxLr => exact ⟨c, .refl c, h⟩
      | _ =>
        obtain ⟨d, hd, hexc⟩ := ih h
        exact ⟨d, (sameFp_step c _).trans hd, hexc⟩

end PrjOS.CortexM
