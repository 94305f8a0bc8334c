import PrjOS.Scheduler
import PrjOS.Library.TailedQueue

namespace PrjOS

open ByteMemory Function LinkedQueue

namespace SchedulerStructure

variable (s : SchedulerStructure) (i : Priority)

theorem setNext_queues (node : NodePtr) (next : Option NodePtr) :
    (s.setNext node next).queues =
      ⟨s.queueHeads, s.queueTails, update s.queues.next node next⟩ := by
  simp only [queues, setNext, Queues.mk.injEq, true_and]
  funext x
  by_cases hx : x = node
  · subst hx; simp
  · simp [hx]

theorem append_queues (node : NodePtr) : (s.append i node).queues = s.queues.append i node := by
  have hnext := congrArg Queues.next (s.setNext_queues node none)
  simp only [append, Queues.append, setNext, setHead, setTail, queues] at hnext ⊢
  cases s.queueTails i with
  | none => simp only [hnext]
  | some tail =>
    simp only [Queues.mk.injEq, true_and]
    rw [← hnext]
    funext x
    by_cases hx : x = tail
    · subst hx; simp
    · simp [hx]

theorem unlink_queues (last : Option NodePtr) (current : NodePtr) :
    (s.unlink i last current).queues = s.queues.unlink i last current := by
  unfold unlink Queues.unlink
  cases last with
  | none =>
    by_cases h : (s.allTasks current).next = none <;> simp [queues, setHead, setTail, h]
  | some last =>
    have hnext := congrArg Queues.next (s.setNext_queues last (s.allTasks current).next)
    simp only [queues, setNext] at hnext
    by_cases h : (s.allTasks current).next = none <;> simp_all [queues, setNext, setTail]

end SchedulerStructure

section Schedule

variable {s : SchedulerStructure} {tds : TdPtr → TaskDescriptor}

/-- What the inner loop of `schedule` finds on a queue that ends: its first
ready task. -/
theorem searchQueue_chain (hn : s.Nodes) {fuel : Nat} (last : Option NodePtr)
    {node : Option NodePtr} {l : List NodePtr} (hc : Chain s.queues.next node l)
    (hf : l.length ≤ fuel) :
    (searchQueue s tds fuel last node = .ok none ∧ ∀ x ∈ l, isTaskReady (tds x) = false) ∨
      ∃ pre x post, l = pre ++ x :: post ∧
        searchQueue s tds fuel last node = .ok (some (pre.getLast?.or last, x)) ∧
        isTaskReady (tds x) = true ∧ ∀ y ∈ pre, isTaskReady (tds y) = false := by
  induction fuel generalizing last node l with
  | zero =>
    obtain rfl := List.eq_nil_of_length_eq_zero (Nat.le_zero.mp hf)
    cases hc
    exact .inl ⟨rfl, by simp⟩
  | succ fuel ih =>
    cases hc with
    | nil => exact .inl ⟨rfl, by simp⟩
    | @cons x l hc =>
      rw [searchQueue, hn x]
      by_cases hx : isTaskReady (tds x) = true
      · exact .inr ⟨[], x, l, rfl, by simp [hx], hx, by simp⟩
      · rw [if_neg hx]
        have hx' : isTaskReady (tds x) = false := by simpa using hx
        rcases ih (some x) hc (by simpa using hf) with
          ⟨he, hl⟩ | ⟨pre, y, post, rfl, he, hy, hpre⟩
        · refine .inl ⟨he, fun y hy ↦ ?_⟩
          rcases List.mem_cons.mp hy with rfl | hy
          · exact hx'
          · exact hl y hy
        · refine .inr ⟨x :: pre, y, post, rfl, he.trans ?_, hy, fun z hz ↦ ?_⟩
          · cases pre <;> simp [List.getLast?_cons]
          · rcases List.mem_cons.mp hz with rfl | hz
            · exact hx'
            · exact hpre z hz

/-- What `schedule` does to well-formed queues: it takes out the first ready
task of the first priority that has one. -/
inductive Scheduled (s : SchedulerStructure) (tds : TdPtr → TaskDescriptor)
    (ls : Priority → List TdPtr) (is : List Priority) : SchedulerStructure × Option TdPtr → Prop
  | idle : (∀ i ∈ is, ∀ x ∈ ls i, isTaskReady (tds x) = false) → Scheduled s tds ls is (s, none)
  | picked (before after : List Priority) (i : Priority) (pre post : List TdPtr) (x : TdPtr) :
      is = before ++ i :: after → ls i = pre ++ x :: post → isTaskReady (tds x) = true →
      (∀ y ∈ pre, isTaskReady (tds y) = false) →
      (∀ j ∈ before, ∀ y ∈ ls j, isTaskReady (tds y) = false) →
      Scheduled s tds ls is (s.unlink i pre.getLast? x, some x)

theorem scheduleFrom_spec (hn : s.Nodes) {ls : Priority → List TdPtr}
    (h : Exact s.queues ls) (is : List Priority) :
    ∃ r, scheduleFrom s tds is = .ok r ∧ Scheduled s tds ls is r := by
  induction is with
  | nil => exact ⟨_, rfl, .idle (by simp)⟩
  | cons i is ih =>
    have hlen : (ls i).length ≤ 16 := by
      simpa using (h.nodup i).length_le_card
    rw [scheduleFrom]
    rcases searchQueue_chain hn none (h.chain i) hlen with
      ⟨he, hl⟩ | ⟨pre, x, post, hi, he, hx, hpre⟩
    · rw [show s.queueHeads i = s.queues.head i from rfl, he]
      obtain ⟨r, hr, hs⟩ := ih
      refine ⟨r, hr, ?_⟩
      have hcons {before : List Priority}
          (hb : ∀ j ∈ before, ∀ y ∈ ls j, isTaskReady (tds y) = false) :
          ∀ j ∈ i :: before, ∀ y ∈ ls j, isTaskReady (tds y) = false := by
        intro j hj
        rcases List.mem_cons.mp hj with rfl | hj
        · exact hl
        · exact hb j hj
      cases hs with
      | idle hi => exact .idle (hcons hi)
      | picked before after j pre post x his hj hx hpre hb =>
        exact .picked (i :: before) after j pre post x (by rw [his]; rfl) hj hx hpre (hcons hb)
    · rw [show s.queueHeads i = s.queues.head i from rfl, he, Option.or_none]
      refine ⟨_, rfl, ?_⟩
      simp only [hn x]
      exact .picked [] is i pre post x rfl hi hx hpre (by simp)

/-- On well-formed queues the search of `schedule` ends. -/
theorem schedule_spec (hn : s.Nodes) {ls : Priority → List TdPtr} (h : Exact s.queues ls)
    (tds : TdPtr → TaskDescriptor) :
    ∃ r, schedule s tds = .ok r ∧ Scheduled s tds ls (List.finRange 7) r :=
  scheduleFrom_spec hn h _

end Schedule

end PrjOS
