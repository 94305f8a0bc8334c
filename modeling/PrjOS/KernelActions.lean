import PrjOS.Invariants.Kernel

namespace PrjOS

open ByteMemory Function Transition

/-- What can happen to the kernel if a task's return to it and the service
that it then gets need not follow each other. -/
inductive Action
  | background (k : KernelData)
  | trap (t : TdPtr) (p : Preemption)
  | call (t : TdPtr)
  | interrupt (isrNumber : Word)

/-- In the background time goes by and the tasks use their memory. -/
def actionStep (k : KernelData) (a : Action) (k' : KernelData) : Prop :=
  match a with
  | .background k₁ => SameTasks k k₁ ∧ k' = k₁
  | .trap t p => isTaskReady (k.tds t) = true ∧ k' = k.modify t p.result
  | .call t => (k.tds t).state = .syscallBlk ∧ handleSyscall k t = .ok k'
  | .interrupt isrNumber => handleInterrupt k isrNumber = .ok k'

def actionNext (k : KernelData) : Action → Option KernelData
  | .background _ => none
  | .trap t p => if isTaskReady (k.tds t) then some (k.modify t p.result) else none
  | .call t => if (k.tds t).state = .syscallBlk then (handleSyscall k t).toOption else none
  | .interrupt isrNumber => (handleInterrupt k isrNumber).toOption

theorem toOption_eq_some {α : Type} {r : Result α} {x : α} (h : r.toOption = some x) :
    r = .ok x := by
  cases r with
  | error e => simp [Except.toOption] at h
  | ok y => exact congrArg Except.ok (Option.some.inj h)

theorem actionNext_step (k : KernelData) (a : Action) (k' : KernelData)
    (h : actionNext k a = some k') : actionStep k a k' := by
  cases a with
  | background k₁ => simp [actionNext] at h
  | trap t p =>
    rw [actionNext] at h
    split_ifs at h with hr
    exact ⟨hr, (Option.some.inj h).symm⟩
  | call t =>
    rw [actionNext] at h
    split_ifs at h with hs
    exact ⟨hs, toOption_eq_some h⟩
  | interrupt w => exact toOption_eq_some h

theorem actionStep_invariant {k k' : KernelData} {a : Action} (h : KernelInvariant k)
    (hs : actionStep k a k') : KernelInvariant k' := by
  cases a with
  | background k₁ => exact hs.2 ▸ h.same hs.1
  | trap t p => exact hs.2 ▸ h.enter p hs.1
  | call t => exact h.call (handleSyscall_effect hs.1 hs.2) hs.1
  | interrupt w => exact h.interrupt (handleInterrupt_effect hs)

theorem actions_invariant {k k' : KernelData} {as : List Action} (h : KernelInvariant k)
    (hr : Run actionStep k as k') : KernelInvariant k' :=
  hr.invariant h fun _ _ _ ↦ actionStep_invariant

theorem run_background {k k' : KernelData} {as : List Action} {start : KernelData}
    (h : Run actionStep start as k) (hs : SameTasks k k') :
    Run actionStep start (as ++ [.background k']) k' := h.snoc ⟨hs, rfl⟩

theorem entry_actions {s : RtosMain} {c : Pass} {t : TdPtr}
    (hready : isTaskReady ((loopHead c.iteration s).tds t) = true) :
    ∃ as, Run actionStep s.kernel as (c.entry s t) := by
  have htrap : actionStep (loopHead c.iteration s) (.trap t c.iteration.preemption)
      ((loopHead c.iteration s).modify t c.iteration.preemption.result) := ⟨hready, rfl⟩
  exact ⟨_, run_background ((run_background .nil (loopHead_same c.iteration s)).snoc htrap)
    (entry_same c s t)⟩

theorem passStep_actions {s s' : RtosMain} {c : Pass} (h : passStep s c s') :
    ∃ as, Run actionStep s.kernel as s'.kernel := by
  rcases passStep_outcome h with ⟨_, he⟩ | ⟨t, ht, -, he⟩ | ⟨t, k, ht, hst, hk, he⟩ |
    ⟨t, k, ht, -, hk, he⟩
  · exact ⟨_, run_background .nil he⟩
  · obtain ⟨as, hr⟩ := entry_actions (h.1 t ht)
    exact ⟨as, he ▸ hr⟩
  · obtain ⟨as, hr⟩ := entry_actions (h.1 t ht)
    have hcall : actionStep (c.entry s t) (.call t) k := ⟨hst, hk⟩
    exact ⟨_, run_background (hr.snoc hcall) he⟩
  · obtain ⟨as, hr⟩ := entry_actions (h.1 t ht)
    have hint : actionStep (c.entry s t) (.interrupt c.iteration.preemption.reason) k := hk
    exact ⟨_, run_background (hr.snoc hint) he⟩

/-- The kernels that any order of traps and services leads to. -/
def Served (b : Boot) (k : KernelData) : Prop := ∃ as, Run actionStep (booted b).kernel as k

theorem Reachable.served {b : Boot} {s : RtosMain} (h : Reachable b s) : Served b s.kernel :=
  h.invariant (P := fun s ↦ Served b s.kernel) ⟨[], .nil⟩ fun _ _ _ ⟨_, hr⟩ hs ↦
    let ⟨_, hr'⟩ := passStep_actions hs
    ⟨_, hr.trans hr'⟩

theorem Reachable.entry_served {b : Boot} {s : RtosMain} (h : Reachable b s) {c : Pass} {t : TdPtr}
    (hready : isTaskReady ((loopHead c.iteration s).tds t) = true) : Served b (c.entry s t) :=
  let ⟨_, hr⟩ := h.served
  let ⟨_, hr'⟩ := entry_actions hready
  ⟨_, hr.trans hr'⟩

theorem booted_invariant (b : Boot) : KernelInvariant (booted b).kernel :=
  Reachable.kernelInvariant ⟨booted b, [], boot_eq b, .nil⟩

theorem Served.invariant {b : Boot} {k : KernelData} (h : Served b k) : KernelInvariant k :=
  let ⟨_, hr⟩ := h
  actions_invariant (booted_invariant b) hr

end PrjOS
