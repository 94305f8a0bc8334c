import PrjOS.Invariants.SendQueues

namespace PrjOS

open ByteMemory Function LinkedQueue

def TaskDescriptor.relink (td : TaskDescriptor) (head tail next : Option TdPtr) : TaskDescriptor :=
  { td with sendQueueHead := head, sendQueueTail := tail, sendQueueNext := next }

def TaskDescriptor.resume (td : TaskDescriptor) (s : TaskState) (v : Word) : TaskDescriptor :=
  { td with state := s, systemCall := { td.systemCall with returnValue := v } }

inductive OtherChange (k : KernelData) (t i : TdPtr) : TaskDescriptor → Prop
  | kept (head tail next : Option TdPtr) : OtherChange k t i ((k.tds i).relink head tail next)
  | handed (v : Word) : (k.tds t).call = some .send → sendTarget k t = .ok i →
      (k.tds i).state = .sendBlk → OtherChange k t i
        (((k.tds i).relink none (k.tds i).sendQueueTail (k.tds i).sendQueueNext).resume .running v)
  | received (v : Word) (blocking : Bool) :
      (k.tds t).call = some (if blocking then .receive else .receiveNonblock) →
      (k.tds t).sendQueueHead = some i → OtherChange k t i
        (((k.tds i).relink (k.tds i).sendQueueHead (k.tds i).sendQueueTail none).resume .rplyBlk v)
  | replied (v : Word) : (k.tds t).call = some .reply →
      lookupTask k (k.tds t).systemCall.param1 errReplyTaskidDne errReplyTaskidNotfound = .ok i →
      (k.tds i).state = .rplyBlk → OtherChange k t i ((k.tds i).resume .running v)
  | created (c : SyscallNumber) (params : TaskCreateParameters) : (k.tds t).call = some c →
      createParams k t c = some params → findAvailable k.tds params.taskType = some i →
      OtherChange k t i (newTask (k.tds i) k.memory params).1

inductive CallerChange (k : KernelData) (t : TdPtr) : TaskDescriptor → Prop
  | intro (s : TaskState) (p v : Word) (head tail next : Option TdPtr) : s ≠ .invalid →
      (p = (k.tds t).priority ∨ p.toNat < tasksMaxPriority) →
      CallerChange k t ({ (k.tds t).relink head tail next with priority := p }.resume s v)

variable {k k' : KernelData} {q : TdPtr → List TdPtr} {t : TdPtr}

theorem SyscallEffect.other (h : SyscallEffect k t k') (hq : SendInvariant k q)
    (hstate : (k.tds t).state = .syscallBlk) {i : TdPtr} (hi : i ≠ t) :
    OtherChange k t i (k'.tds i) := by
  have hkept : OtherChange k t i (k.tds i) := .kept _ _ _
  cases h with
  | returns _ hc => rw [hc.other i hi]; exact hkept
  | exits _ hc => rw [hc.other i hi]; exact hkept
  | stuck _ hc => rw [hc.other i hi]; exact hkept
  | waits _ _ _ hc => rw [hc.other i hi]; exact hkept
  | hands r hc ht hr =>
    have hne : t ≠ r := KernelData.ne_of_state hstate hr (by decide)
    rw [storeResult, handOff_eq k hne]
    simp only [KernelData.setReturnValue, KernelData.modify_of_ne _ _ hi, update_of_ne hi]
    by_cases hir : i = r
    · subst hir
      rw [update_self]
      exact .handed _ hc ht hr
    · rw [update_of_ne hir]
      exact hkept
  | queues r links hc ht hr hp =>
    simp only [storeResult, KernelData.setReturnValue, KernelData.modify_of_ne _ _ hi,
      KernelData.withSendQueues, KernelData.setState]
    exact .kept _ _ _
  | takes s blocking hc hb hs =>
    have hne : t ≠ s := hq.head_ne hstate hs
    rw [receive_eq k hne hs hb]
    simp only [update_of_ne hi]
    by_cases his : i = s
    · subst his
      rw [update_self]
      exact .received _ blocking hc hs
    · rw [update_of_ne his]
      exact hkept
  | replies s hc hl hs =>
    rw [storeResult, deliverReply_eq]
    simp only [KernelData.setReturnValue, KernelData.setState, KernelData.modify_of_ne _ _ hi]
    by_cases his : i = s
    · subst his
      rw [update_self]
      exact .replied _ hc hl hs
    · rw [update_of_ne his]
      exact hkept
  | awaits x e links hc he hx hp =>
    simp only [KernelData.setState, KernelData.modify_of_ne _ _ hi]
    exact hkept
  | creates c params j s hc hp hj hs =>
    have hjt : j ≠ t := findAvailable_ne hj hstate
    by_cases hij : i = j
    · subst hij
      rw [created_new k params s hjt]
      exact .created c params hc hp hj
    · rw [created_other k params s hij hi]
      exact hkept

theorem SyscallEffect.caller (h : SyscallEffect k t k') (hq : SendInvariant k q)
    (hstate : (k.tds t).state = .syscallBlk) : CallerChange k t (k'.tds t) := by
  have honly {s : TaskState} (hs : s ≠ .invalid) (hc : CallerOnly k k' t s) :
      CallerChange k t (k'.tds t) := by
    obtain ⟨p, v, hp, he⟩ := hc.caller
    rw [he]
    exact .intro _ p v _ _ _ hs hp
  cases h with
  | returns _ hc => exact honly (by decide) hc
  | exits _ hc => exact honly (by decide) hc
  | stuck _ hc => exact honly (by decide) hc
  | waits _ _ _ hc => exact honly (by decide) hc
  | hands r hc ht hr =>
    have hne : t ≠ r := KernelData.ne_of_state hstate hr (by decide)
    rw [storeResult, handOff_eq k hne]
    simp only [KernelData.setReturnValue, KernelData.modify_self, update_self]
    exact .intro .rplyBlk _ _ _ _ _ (by decide) (.inl rfl)
  | queues r links hc ht hr hp =>
    simp only [storeResult, KernelData.setReturnValue, KernelData.modify_self,
      KernelData.withSendQueues, KernelData.setState]
    exact .intro .rcvdBlk (k.tds t).priority 0 (links.head t) (links.tail t) (links.next t)
      (by decide) (.inl rfl)
  | takes s blocking hc hb hs =>
    have hne : t ≠ s := hq.head_ne hstate hs
    rw [receive_eq k hne hs hb]
    simp only [update_self]
    exact .intro .running (k.tds t).priority _ (k.tds s).sendQueueNext (k.tds t).sendQueueTail
      (k.tds t).sendQueueNext (by decide) (.inl rfl)
  | replies s hc hl hs =>
    have hne : t ≠ s := KernelData.ne_of_state hstate hs (by decide)
    rw [storeResult, deliverReply_eq]
    simp only [KernelData.setReturnValue, KernelData.setState, KernelData.modify_self,
      update_of_ne hne]
    exact .intro .running _ _ _ _ _ (by decide) (.inl rfl)
  | awaits x e links hc he hx hp =>
    simp only [KernelData.setState, KernelData.modify_self]
    exact .intro .evtBlk _ _ _ _ _ (by decide) (.inl rfl)
  | creates c params j s hc hp hj hs =>
    have hjt : j ≠ t := findAvailable_ne hj hstate
    rw [created_caller k params s hjt]
    exact .intro .running _ _ _ _ _ (by decide) (.inl rfl)

end PrjOS
