import PrjOS.Library.CortexM

namespace PrjOS

open ByteMemory CortexM

/-- The branch targets in `contextSwitch.asm`, of which the entry points of the
exceptions are two. -/
inductive Routine
  | hwContextSwitch | contextSwitch | kernelToTask | syscallKernelToTask | finishKernelToTask
  deriving DecidableEq, Repr

/-- R4-R11 and LR, as `PUSH` and `POP` list them. -/
def calleeRegisters : List Reg := [.r4, .r5, .r6, .r7, .r8, .r9, .r10, .r11, .lr]

def hwContextSwitch : List (Instr Routine) :=
  [.cpsid,
    .movImm .r1 0x20,
    .msrBasepri .r1,
    .cpsie,
    .mrsPsp .r1,
    .mov .r2 .sp,
    .mov .sp .r1,
    .push calleeRegisters,
    .mov .r1 .sp,
    .mov .sp .r2,
    .ldr .r0 .sp 36,
    .str .r1 .r0 8,
    .movImm .r2 0,
    .str .r2 .r0 12,
    .movImm .r4 8,
    .str .r4 .r0 44,
    .pop calleeRegisters,
    .pop [.r0],
    .mrsIpsr .r0,
    .movImm .r2 0,
    .cmp .r0 .r2,
    .moveqImm .r0 (-1),
    .push [.r0],
    .bxLr]

def taskToKernel : List (Instr Routine) :=
  [.movImm .r1 0x20,
    .msrBasepri .r1,
    .cpsie,
    .mrsPsp .r1,
    .mov .r2 .sp,
    .mov .sp .r1,
    .push calleeRegisters,
    .mov .r1 .sp,
    .mov .sp .r2,
    .ldr .r0 .sp 36,
    .str .r1 .r0 8,
    .ldr .r2 .r1 60,
    .ldr .r2 .r2 (-2),
    .andImm .r2 .r2 255,
    .str .r2 .r0 12,
    .movImm .r2 0,
    .str .r2 .r0 16,
    .movImm .r2 7,
    .str .r2 .r0 44,
    .ldr .r2 .r1 36,
    .str .r2 .r0 20,
    .ldr .r2 .r1 40,
    .str .r2 .r0 24,
    .ldr .r2 .r1 44,
    .str .r2 .r0 28,
    .ldr .r2 .r1 48,
    .str .r2 .r0 32,
    .ldr .r2 .r1 100,
    .str .r2 .r0 36,
    .ldr .r2 .r1 104,
    .str .r2 .r0 40,
    .pop calleeRegisters,
    .pop [.r0],
    .movImm .r0 0,
    .push [.r0],
    .bxLr]

def contextSwitch : List (Instr Routine) :=
  [.cpsid,
    .mov .r1 .lr,
    .andImm .r1 .r1 0x0F,
    .movImm .r2 0x09,
    .cmp .r1 .r2,
    .beq .kernelToTask] ++ taskToKernel

def finishKernelToTask : List (Instr Routine) :=
  [.mov .r1 .sp,
    .msrPsp .r1,
    .mov .sp .r2,
    .movImm .r2 0,
    .msrBasepri .r2,
    .cpsie,
    .bxLr]

def syscallKernelToTask : List (Instr Routine) :=
  [.pop [.r1],
    .ldr .r1 .r0 16,
    .push [.r1],
    .b .finishKernelToTask]

def hwKernelToTask : List (Instr Routine) := [.b .finishKernelToTask]

def kernelToTask : List (Instr Routine) :=
  [.push calleeRegisters,
    .ldr .r0 .sp 36,
    .ldr .r1 .r0 8,
    .mov .r2 .sp,
    .mov .sp .r1,
    .ldr .r4 .r0 44,
    .movImm .r5 8,
    .cmp .r4 .r5,
    .pop calleeRegisters,
    .bne .syscallKernelToTask] ++ hwKernelToTask

def Routine.code : Routine → List (Instr Routine)
  | hwContextSwitch => PrjOS.hwContextSwitch
  | contextSwitch => PrjOS.contextSwitch
  | kernelToTask => PrjOS.kernelToTask
  | syscallKernelToTask => PrjOS.syscallKernelToTask
  | finishKernelToTask => PrjOS.finishKernelToTask

/-- More than the longest path through `contextSwitch.asm`. -/
def handlerFuel : Nat := 64

def Routine.run (r : Routine) (c : Cpu) : Option Cpu := exec Routine.code handlerFuel r.code c

def calleeWords (c : Cpu) : List Word :=
  [c.r4, c.r5, c.r6, c.r7, c.r8, c.r9, c.r10, c.r11, c.lr]

def loadCallee (c : Cpu) (m : Memory) (p : Word) : Cpu :=
  { c with
    r4 := word m p 0
    r5 := word m p 1
    r6 := word m p 2
    r7 := word m p 3
    r8 := word m p 4
    r9 := word m p 5
    r10 := word m p 6
    r11 := word m p 7
    lr := word m p 8 }

/-- What `hwContextSwitch` writes to the descriptor at `td` of a task whose
registers it has pushed down to `p`. -/
def recordInterrupt (m : Memory) (td p : Word) : Memory :=
  setWord (setWord (setWord m td 2 p) td 3 0) td 11 8

def recordSvc (m : Memory) (td p : Word) : Memory :=
  let m := setWord m td 2 p
  let m := setWord m td 3 (readWord m (word m p 15 + -2) &&& 255)
  let m := setWord m td 4 0
  let m := setWord m td 11 7
  let m := setWord m td 5 (word m p 9)
  let m := setWord m td 6 (word m p 10)
  let m := setWord m td 7 (word m p 11)
  let m := setWord m td 8 (word m p 12)
  let m := setWord m td 9 (word m p 25)
  setWord m td 10 (word m p 26)

theorem push_callee (c : Cpu) : Instr.step c (.push calleeRegisters : Instr Routine) =
    { c with msp := c.msp - 36#32, mem := writeWords c.mem (c.msp - 36#32) (calleeWords c) } := rfl

theorem pop_callee (c : Cpu) : Instr.step c (.pop calleeRegisters : Instr Routine) =
    { loadCallee c c.mem c.msp with msp := c.msp + 36#32 } := by
  simp only [Instr.step, calleeRegisters, List.zipIdx, List.foldl, Cpu.set, loadCallee,
    List.length, Nat.reduceAdd, Nat.reduceMul]

theorem push_r0 (c : Cpu) : Instr.step c (.push [.r0] : Instr Routine) =
    { c with msp := c.msp - 4#32, mem := writeWord c.mem (c.msp - 4#32) c.r0 } := by
  rw [← writeWords_singleton]
  rfl

theorem hwContextSwitch_run (c : Cpu) :
    let p := c.psp - 36#32
    let m := writeWords c.mem p (calleeWords c)
    let m := recordInterrupt m (word m c.msp 9) p
    let n := c.xpsr.ipsr.setWidth 32
    let r := if (c.xpsr.compare n 0).zero then -1 else n
    Routine.hwContextSwitch.run c = Cpu.exceptionReturn
      { loadCallee c m c.msp with
        r0 := r
        r1 := p
        r2 := 0
        msp := c.msp + 36#32
        xpsr := c.xpsr.compare n 0
        basepri := 0x20
        primask := false
        mem := setWord m c.msp 9 r } := by
  intro p m m' n r
  simp only [Routine.run, handlerFuel, Routine.code, hwContextSwitch, exec, push_callee, pop_callee,
    push_r0]
  simp only [Instr.step, Cpu.get, Cpu.set, calleeWords, loadCallee, List.zipIdx, List.foldl,
    List.length, Nat.reduceAdd, Nat.reduceMul, BitVec.add_sub_cancel]
  rfl

theorem contextSwitch_run (c : Cpu) : Routine.contextSwitch.run c =
    exec Routine.code 58 (if c.lr &&& 0x0F = 0x09 then kernelToTask else taskToKernel)
      { c with
        r1 := c.lr &&& 0x0F
        r2 := 0x09
        xpsr := c.xpsr.compare (c.lr &&& 0x0F) 0x09
        primask := true } := by
  simp only [Routine.run, handlerFuel, Routine.code, contextSwitch, List.cons_append,
    List.nil_append, exec, Instr.step, Cpu.get, Cpu.set, Psr.zero_compare, decide_eq_true_eq]

theorem taskToKernel_run (c : Cpu) :
    let p := c.psp - 36#32
    let m := writeWords c.mem p (calleeWords c)
    let td := word m c.msp 9
    let m := recordSvc m td p
    exec Routine.code 58 taskToKernel c = Cpu.exceptionReturn
      { loadCallee c m c.msp with
        r0 := 0
        r1 := p
        r2 := word m td 10
        msp := c.msp + 36#32
        basepri := 0x20
        primask := false
        mem := setWord m c.msp 9 0 } := by
  simp only [taskToKernel, exec, push_callee, pop_callee, push_r0, recordSvc, word_setWord_self]
  simp only [Instr.step, Cpu.get, Cpu.set, calleeWords, loadCallee, setWord, word, List.zipIdx,
    List.foldl, List.length, Nat.reduceAdd, Nat.reduceMul, BitVec.ofNat_eq_ofNat,
    BitVec.add_sub_cancel]

theorem finishKernelToTask_run (c : Cpu) (n : Nat) :
    exec Routine.code (n + 7) finishKernelToTask c = Cpu.exceptionReturn
      { c with
        r1 := c.msp
        r2 := 0
        msp := c.r2
        psp := c.msp
        basepri := 0
        primask := false } := by
  simp only [finishKernelToTask, exec, Instr.step, Cpu.get, Cpu.set]

theorem syscallKernelToTask_run (c : Cpu) (n : Nat) :
    exec Routine.code (n + 11) syscallKernelToTask c = Cpu.exceptionReturn
      { c with
        r1 := c.msp
        r2 := 0
        msp := c.r2
        psp := c.msp
        basepri := 0
        primask := false
        mem := writeWord c.mem c.msp (word c.mem c.r0 4) } := by
  simp only [syscallKernelToTask, exec, Routine.code, finishKernelToTask_run]
  simp only [Instr.step, Cpu.get, Cpu.set, List.zipIdx, List.foldl, List.length, List.map,
    Nat.reduceAdd, Nat.reduceMul, BitVec.add_sub_cancel, writeWords_singleton]
  rfl

theorem kernelToTask_run (c : Cpu) :
    let k := c.msp - 36#32
    let m := writeWords c.mem k (calleeWords c)
    let td := word m k 9
    let p := word m td 2
    exec Routine.code 58 kernelToTask c = Cpu.exceptionReturn
      { loadCallee c m p with
        r0 := td
        r1 := p + 36#32
        r2 := 0
        msp := k
        psp := p + 36#32
        xpsr := c.xpsr.compare (word m td 11) 8
        basepri := 0
        primask := false
        mem := if word m td 11 = 8 then m else setWord m p 9 (word m td 4) } := by
  intro k m td p
  simp only [kernelToTask, hwKernelToTask, List.cons_append, List.nil_append, exec, push_callee,
    pop_callee, Routine.code]
  simp only [Instr.step, Cpu.get, Cpu.set, loadCallee, Psr.zero_compare, decide_eq_true_eq]
  change exec Routine.code 48 (if word m td 11 = 8 then _ else _) _ = _
  split
  · simp only [exec, Routine.code, finishKernelToTask_run]
    rfl
  · rw [syscallKernelToTask_run]
    rfl

end PrjOS
