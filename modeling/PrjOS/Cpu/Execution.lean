import PrjOS.Cpu.Context
import PrjOS.Library.Transition

namespace PrjOS

open ByteMemory CortexM Transition

inductive Work
  | compute (core : Core) (primask : Bool) (basepri : Word) (mem : Memory)
  | float (f : FpRegs → FpRegs)

def Work.perform (c : Cpu) : Work → Cpu
  | compute core primask basepri mem => c.compute core primask basepri mem
  | float f => c.floatOp f

inductive Event
  | work (w : Work)
  | trap (e : Trap) (u : Unknown)

namespace Event

/-- While the kernel runs, `BASEPRI` masks the interrupts. -/
def next (c : Cpu) : Event → Option Cpu
  | work w => some (w.perform c)
  | trap .svc u => Trap.svc.run u c
  | trap (.interrupt number) u => if c.spsel then (Trap.interrupt number).run u c else none

/-- What an event does to the floating point registers, as long as their values
are in the processor. -/
def fpEffect : Event → FpRegs → FpRegs
  | work (.float f), x => f x
  | _, x => x

theorem next_trap {c : Cpu} (e : Trap) (u : Unknown) (h : c.spsel = true) :
    (trap e u).next c = e.run u c := by
  cases e with
  | svc => rfl
  | interrupt => exact if_pos h

theorem run_of_next_trap {c c' : Cpu} {e : Trap} {u : Unknown} (h : (trap e u).next c = some c') :
    e.run u c = some c' := by
  cases e with
  | svc => exact h
  | interrupt =>
    simp only [next] at h
    split at h
    · exact h
    · cases h

end Event

def FpLive (c : Cpu) : Prop := c.fpca = true ∨ c.lspact = true

theorem Trap.exists_return {c c' : Cpu} {e : Trap} {u : Unknown} (h : e.run u c = some c') :
    ∃ d : Cpu, d.fp = c.fp ∧ d.lspact = (c.fpca || c.lspact) ∧ d.stkalign = c.stkalign ∧
      c' = d.unstack c'.spsel c'.fpca := by
  cases e with
  | svc | interrupt =>
    obtain ⟨d, hd, hexc⟩ := exec_returns h
    exact ⟨d, hd.fp, hd.lspact, hd.stkalign, (exceptionReturn_eq_some hexc).2⟩

theorem Event.next_stkalign {c c' : Cpu} {e : Event} (h : e.next c = some c') :
    c'.stkalign = c.stkalign := by
  cases e with
  | work w =>
    obtain rfl := Option.some.inj h
    cases w with
    | compute | float => rfl
  | trap e u =>
    obtain ⟨d, -, -, hstk, hc⟩ := Trap.exists_return (run_of_next_trap h)
    rw [hc]
    exact hstk

/-- An exception return loads the registers from a stack only if no thread has
values in them. -/
theorem Event.next_fp {c c' : Cpu} {e : Event} (h : e.next c = some c') (hl : FpLive c) :
    FpLive c' ∧ c'.fp = e.fpEffect c.fp := by
  cases e with
  | work w =>
    obtain rfl := Option.some.inj h
    cases w with
    | compute => exact ⟨hl, rfl⟩
    | float f => exact ⟨.inl rfl, rfl⟩
  | trap e u =>
    obtain ⟨d, hfp, hact, -, hc⟩ := Trap.exists_return (run_of_next_trap h)
    have hd : d.lspact = true := by rw [hact, Bool.or_eq_true]; exact hl
    rw [hc]
    refine ⟨?_, ?_⟩
    · cases c'.fpca <;> simp [FpLive, Cpu.unstack, hd]
    · simpa [Cpu.unstack, hd, Event.fpEffect] using hfp

theorem fpLive_run {K : Cpu → Cpu → Prop} {c c' : Cpu} {es : List Event}
    (h : Run (fun c e c' ↦ e.next c = some c' ∧ K c c') c es c') (hl : FpLive c) :
    FpLive c' ∧ c'.fp = es.foldl (fun x e ↦ e.fpEffect x) c.fp := by
  induction h with
  | nil => exact ⟨hl, rfl⟩
  | snoc _ hs ih =>
    obtain ⟨hl', hfp⟩ := Event.next_fp hs.1 ih.1
    rw [hfp, ih.2, List.foldl_append]
    exact ⟨hl', rfl⟩

end PrjOS
