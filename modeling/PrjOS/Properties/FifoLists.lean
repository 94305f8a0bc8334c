import PrjOS.ReadyLists
import PrjOS.Library.FirstIndex

namespace PrjOS

open ByteMemory Function LinkedQueue

/-- The links of `s` spell out the lists `ls`, one for each priority. The
places of `allTasks` are as `schedulerInit` gave them to the descriptors. -/
structure SchedulerStructure.Spells (s : SchedulerStructure) (ls : Priority → List TdPtr) :
    Prop where
  nodes : ∀ i, (s.allTasks i).td = i
  chain : ∀ p, Chain (fun x ↦ (s.allTasks x).next) (s.queueHeads p) (ls p)
  tail : ∀ p, s.queueTails p = (ls p).getLast?
  nodup : ∀ p, (ls p).Nodup
  disjoint : ∀ {p p' x}, x ∈ ls p → x ∈ ls p' → p = p'

variable {s : SchedulerStructure} {ls : Priority → List TdPtr}

theorem SchedulerStructure.Spells.exact (h : s.Spells ls) : Exact s.queues ls :=
  .of_tail h.chain h.tail h.disjoint

theorem spells_of_exact (hn : s.Nodes) (h : Exact s.queues ls) : s.Spells ls where
  nodes := hn
  chain := h.chain
  tail := h.tail_eq
  nodup := h.nodup
  disjoint := h.disjoint

theorem SchedulerStructure.Spells.append (h : s.Spells ls) (p : Priority) {t : TdPtr}
    (ht : ∀ p, t ∉ ls p) : (s.append p t).Spells (update ls p (ls p ++ [t])) := by
  apply spells_of_exact (SchedulerStructure.Nodes.append h.nodes p t)
  rw [s.append_queues]
  exact h.exact.append p ht

theorem SchedulerStructure.Spells.unlink (h : s.Spells ls) {p : Priority} {pre post : List TdPtr}
    {t : TdPtr} (hp : ls p = pre ++ t :: post) :
    (s.unlink p pre.getLast? t).Spells (update ls p (pre ++ post)) := by
  apply spells_of_exact (SchedulerStructure.Nodes.unlink h.nodes p _ t)
  rw [s.unlink_queues]
  exact h.exact.unlink hp

theorem schedulerInit_spells : schedulerInit.Spells fun _ ↦ [] :=
  spells_of_exact (fun _ ↦ rfl) (.nil _)

structure FifoScheduler (s : SchedulerStructure) (ls : Priority → List TdPtr)
    (tds : TdPtr → TaskDescriptor) : Prop where
  add : ∀ t, (∀ p, t ∉ ls p) → ∀ hp : (tds t).priority.toNat < 7,
    ∃ s', schedulerAdd s tds (some t) = .ok s' ∧
      s'.Spells (update ls ⟨_, hp⟩ (ls ⟨_, hp⟩ ++ [t]))
  schedule :
    (schedule s tds = .ok (s, none) ∧ ∀ p, ∀ x ∈ ls p, isTaskReady (tds x) = false) ∨
      ∃ p pre t post s', ls p = pre ++ t :: post ∧ isTaskReady (tds t) = true ∧
        (∀ x ∈ pre, isTaskReady (tds x) = false) ∧
        (∀ p' < p, ∀ x ∈ ls p', isTaskReady (tds x) = false) ∧
        schedule s tds = .ok (s', some t) ∧ s'.Spells (update ls p (pre ++ post))

theorem schedulerAdd_fifo (h : s.Spells ls) (tds : TdPtr → TaskDescriptor) {t : TdPtr}
    (ht : ∀ p, t ∉ ls p) (hp : (tds t).priority.toNat < 7) :
    ∃ s', schedulerAdd s tds (some t) = .ok s' ∧
      s'.Spells (update ls ⟨_, hp⟩ (ls ⟨_, hp⟩ ++ [t])) := by
  have hmod : (tds t).priority.toNat % 256 = (tds t).priority.toNat := by omega
  refine ⟨_, ?_, h.append _ ht⟩
  rw [schedulerAdd_eq h.nodes]
  simp only [hmod, dif_pos hp]

/-- The linked ready queues implement seven FIFO lists. -/
theorem readyQueues_fifo (h : s.Spells ls) (tds : TdPtr → TaskDescriptor) :
    FifoScheduler s ls tds := by
  refine ⟨fun t ht hp ↦ schedulerAdd_fifo h tds ht hp, ?_⟩
  obtain ⟨r, hr, hspec⟩ := schedule_spec h.nodes h.exact tds
  cases hspec with
  | idle hidle => exact .inl ⟨hr, fun p ↦ hidle p (List.mem_finRange p)⟩
  | picked before after p pre post t hsplit hp ht hpre hb =>
    exact .inr ⟨p, pre, t, post, _, hp, ht, hpre,
      fun p' hlt ↦ hb p' ((FirstIndex.finRange_split hsplit).mpr hlt), hr, h.unlink hp⟩

def threeQueued : SchedulerStructure := ((schedulerInit.append 1 3).append 1 4).append 1 5

/-- Only task 4 can run, from the middle of its queue. -/
theorem readyQueues_fifo_middle :
    FifoScheduler threeQueued
      (update (update (update (fun _ ↦ []) 1 [3]) 1 [3, 4]) 1 [3, 4, 5])
      (fun i ↦ { TaskDescriptor.zero with
        priority := 1, state := if i = 4 then .running else .rplyBlk }) :=
  readyQueues_fifo (((schedulerInit_spells.append 1 (by decide)).append 1 (by decide)).append 1
    (by decide)) _

example : (schedule threeQueued fun i ↦ { TaskDescriptor.zero with
    priority := 1, state := if i = 4 then .running else .rplyBlk }).toOption.map Prod.snd =
      some (some 4) := by decide

end PrjOS
