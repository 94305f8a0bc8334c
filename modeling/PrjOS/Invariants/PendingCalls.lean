import PrjOS.Properties.Completion

namespace PrjOS

open ByteMemory Function LinkedQueue Transition

variable {k k' : KernelData} {q : TdPtr → List TdPtr} {t : TdPtr}

/-- A blocked task is in the call that its state is for. -/
def TaskDescriptor.Pending (td : TaskDescriptor) : Prop :=
  match td.state with
  | .sendBlk => td.call = some .receive
  | .rcvdBlk | .rplyBlk => td.call = some .send
  | .evtBlk => td.call = some .awaitEvent
  | _ => True

def PendingCalls (k : KernelData) : Prop := ∀ i, (k.tds i).Pending

theorem TaskDescriptor.Pending.congr {td td' : TaskDescriptor} (h : td.Pending)
    (hs : td'.state = td.state) (hc : td'.call = td.call) : td'.Pending := by
  unfold TaskDescriptor.Pending at h ⊢
  rwa [hs, hc]

theorem core_call {td td' : TaskDescriptor} (h : td.core = td'.core) : td.call = td'.call :=
  (congrArg TaskDescriptor.call h :)

theorem PendingCalls.same (h : PendingCalls k) (hs : SameTasks k k') : PendingCalls k' :=
  fun i ↦ (h i).congr (core_state (hs.core i)) (core_call (hs.core i))

theorem PendingCalls.enter (h : PendingCalls k) (p : Preemption) :
    PendingCalls (k.modify t p.result) := by
  intro i
  by_cases hi : i = t
  · subst hi
    rw [KernelData.modify_self]
    unfold TaskDescriptor.Pending
    rcases p.result_state (k.tds i) with hs | ⟨hs, -⟩ | ⟨hs, -⟩ <;> rw [hs] <;> trivial
  · rw [KernelData.modify_of_ne _ _ hi]
    exact h i

theorem OtherChange.pending {i : TdPtr} {td : TaskDescriptor} (h : OtherChange k t i td)
    (hq : SendInvariant k q) (hp : (k.tds i).Pending) : td.Pending := by
  cases h with
  | kept => exact hp.congr rfl rfl
  | handed => trivial
  | received v blocking hcall hs =>
    unfold TaskDescriptor.Pending at hp
    rw [hq.head_blocked hs] at hp
    exact hp
  | replied => trivial
  | created => trivial

theorem CallerChange.call {td : TaskDescriptor} (h : CallerChange k t td) :
    td.call = (k.tds t).call := by
  cases h
  rfl

theorem FinishedIn.pending {td : TaskDescriptor} (h : FinishedIn k t td.state)
    (hc : td.call = (k.tds t).call) : td.Pending := by
  unfold TaskDescriptor.Pending
  rw [hc]
  split <;> rename_i hs
  · rw [hs] at h
    exact h.1
  · rw [hs] at h
    exact h.1
  · rw [hs] at h
    exact h.1
  · rw [hs] at h
    exact h.1
  · trivial

theorem PendingCalls.call (h : PendingCalls k) (hq : SendInvariant k q)
    (hstate : (k.tds t).state = .syscallBlk) (hk : handleSyscall k t = .ok k') :
    PendingCalls k' := by
  have heff := handleSyscall_effect hstate hk
  intro i
  by_cases hi : i = t
  · subst hi
    by_cases hc : Completes k i
    · exact (heff.finished hq hstate hc).pending (heff.caller hq hstate).call
    · obtain ⟨k'', hk'', hs⟩ := handleSyscall_stuck hstate hc
      obtain rfl := Except.ok.inj (hk.symm.trans hk'')
      unfold TaskDescriptor.Pending
      rw [hs]
      trivial
  · exact (heff.other hq hstate hi).pending hq (h i)

theorem PendingCalls.interrupt {w : Word} (h : PendingCalls k) (hs : InterruptEffect k w k') :
    PendingCalls k' := by
  cases hs with
  | ignored => exact h
  | lost => exact h
  | wakes e x i he hx hi =>
    intro j
    rw [woken_tds]
    by_cases hji : j = i
    · subst hji
      rw [KernelData.modify_self]
      trivial
    · rw [KernelData.modify_of_ne _ _ hji]
      exact h j

theorem PendingCalls.boot (b : Boot) : PendingCalls (booted b).kernel := by
  intro i
  have hs := booted_state b i
  unfold TaskDescriptor.Pending
  rw [hs]
  split_ifs <;> trivial

theorem PendingCalls.entry {s : RtosMain} (h : PendingCalls s.kernel) (c : Pass) (t : TdPtr) :
    PendingCalls (c.entry s t) :=
  ((h.same (loopHead_same c.iteration s)).enter c.iteration.preemption).same (entry_same c s t)

theorem PendingCalls.pass {s s' : RtosMain} {c : Pass} (h : PendingCalls s.kernel)
    (hk : KernelInvariant s.kernel) (hstep : passStep s c s') : PendingCalls s'.kernel := by
  rcases passStep_outcome hstep with ⟨-, hs⟩ | ⟨t, -, -, hs⟩ | ⟨t, k, ht, hst, hcall, hs⟩ |
    ⟨t, k, -, -, hwake, hs⟩
  · exact h.same hs
  · exact hs ▸ h.entry c t
  · obtain ⟨q, hq⟩ := (hk.entry (hstep.1 t ht)).send
    exact ((h.entry c t).call hq hst hcall).same hs
  · exact ((h.entry c t).interrupt (handleInterrupt_effect hwake)).same hs

theorem Reachable.pendingCalls {b : Boot} {s : RtosMain} (h : Reachable b s) :
    PendingCalls s.kernel := by
  refine (h.invariant (P := fun s ↦ KernelInvariant s.kernel ∧ PendingCalls s.kernel)
    ⟨(Reachable.boot b).kernelInvariant, .boot b⟩ ?_).2
  exact fun s c s' ⟨hk, hp⟩ hstep ↦ ⟨hk.pass hstep, hp.pass hk hstep⟩

end PrjOS
