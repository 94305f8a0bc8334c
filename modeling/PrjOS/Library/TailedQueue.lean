import PrjOS.Library.LinkedQueue

namespace PrjOS.LinkedQueue

open Function

variable {ι α : Type}

/-- The links of `q` spell out the lists `ls`, and the tail of an empty queue
is null. -/
structure Exact (q : Queues ι α) (ls : ι → List α) : Prop extends Represents q ls where
  empty : ∀ i, ls i = [] → q.tail i = none

theorem Exact.tail_eq {q : Queues ι α} {ls : ι → List α} (h : Exact q ls) (i : ι) :
    q.tail i = (ls i).getLast? := by
  by_cases hi : ls i = []
  · rw [h.empty i hi, hi, List.getLast?_nil]
  · exact h.tail i hi

theorem Exact.of_tail {q : Queues ι α} {ls : ι → List α}
    (chain : ∀ i, Chain q.next (q.head i) (ls i)) (tail : ∀ i, q.tail i = (ls i).getLast?)
    (disjoint : ∀ {i j x}, x ∈ ls i → x ∈ ls j → i = j) : Exact q ls where
  chain := chain
  tail i _ := tail i
  disjoint := disjoint
  empty i hi := by rw [tail i, hi, List.getLast?_nil]

theorem Exact.nil (next : α → Option α) :
    Exact ⟨fun _ ↦ none, fun _ ↦ none, next⟩ (fun _ : ι ↦ []) :=
  ⟨.empty _ _, fun _ _ ↦ rfl⟩

theorem Exact.next_eq {q : Queues ι α} {ls : ι → List α} {i : ι} {pre post : List α} {x : α}
    (h : Exact q ls) (hi : ls i = pre ++ x :: post) : q.next x = post.head? :=
  Chain.next_eq (hi ▸ h.chain i)

variable [DecidableEq ι]

theorem Exact.mem_unlink {q : Queues ι α} {ls : ι → List α} {i : ι} {pre post : List α} {x : α}
    (h : Exact q ls) (hi : ls i = pre ++ x :: post) {j : ι} {y : α} :
    y ∈ update ls i (pre ++ post) j ↔ y ≠ x ∧ y ∈ ls j := by
  by_cases hj : j = i
  · subst hj
    have hd := h.nodup j
    rw [hi, List.perm_middle.nodup_iff, List.nodup_cons] at hd
    rw [update_self, hi]
    refine ⟨fun hy ↦ ⟨?_, ?_⟩, fun ⟨hne, hy⟩ ↦ ?_⟩
    · rintro rfl
      exact hd.1 hy
    · rcases List.mem_append.mp hy with hy | hy <;> simp [hy]
    · simpa [hne] using hy
  · rw [update_of_ne hj]
    refine ⟨fun hy ↦ ⟨?_, hy⟩, And.right⟩
    rintro rfl
    exact hj (h.disjoint hy (by simp [hi]))

variable [DecidableEq α]

/-- Append a node, testing the tail for emptiness as the ready queues do. -/
def Queues.append (q : Queues ι α) (i : ι) (x : α) : Queues ι α :=
  match q.tail i with
  | none => ⟨update q.head i (some x), update q.tail i (some x), update q.next x none⟩
  | some last => ⟨q.head, update q.tail i (some x),
      update (update q.next x none) last (some x)⟩

theorem Exact.append {q : Queues ι α} {ls : ι → List α} (h : Exact q ls) (i : ι) {x : α}
    (hx : ∀ j, x ∉ ls j) : Exact (q.append i x) (update ls i (ls i ++ [x])) := by
  have htail : ∀ j, (q.append i x).tail j = (update ls i (ls i ++ [x]) j).getLast? := by
    intro j
    have he : (q.append i x).tail = update q.tail i (some x) := by
      unfold Queues.append
      split <;> rfl
    rw [he]
    by_cases hj : j = i
    · subst hj
      simp
    · rw [update_of_ne hj, update_of_ne hj, h.tail_eq j]
  have hrep : Represents (q.append i x) (update ls i (ls i ++ [x])) := by
    unfold Queues.append
    cases hl : q.tail i with
    | none =>
      refine h.push_empty ?_ hx
      rwa [h.tail_eq i, List.getLast?_eq_none_iff] at hl
    | some last =>
      rw [h.tail_eq i] at hl
      have hlast : last ≠ x := by
        rintro rfl
        exact hx i (List.mem_of_mem_getLast? hl)
      simp only [update_comm hlast.symm]
      exact h.push_last hl hx
  exact .of_tail hrep.chain htail hrep.disjoint

/-- Take `x`, which comes after `last`, out of a queue. The link of `x` stays
as it is. -/
def Queues.unlink (q : Queues ι α) (i : ι) (last : Option α) (x : α) : Queues ι α :=
  match last with
  | none => ⟨update q.head i (q.next x),
      if q.next x = none then update q.tail i none else q.tail, q.next⟩
  | some last => ⟨q.head, if q.next x = none then update q.tail i (some last) else q.tail,
      update q.next last (q.next x)⟩

section Unlink

variable {q : Queues ι α} {ls : ι → List α} {i : ι} {pre post : List α} {x : α}

theorem Exact.unlink_tail (h : Exact q ls) (hi : ls i = pre ++ x :: post) (j : ι) :
    (q.unlink i pre.getLast? x).tail j = (update ls i (pre ++ post) j).getLast? := by
  have he : (q.unlink i pre.getLast? x).tail =
      if q.next x = none then update q.tail i pre.getLast? else q.tail := by
    unfold Queues.unlink
    split <;> simp_all
  simp only [he, h.next_eq hi, List.head?_eq_none_iff]
  by_cases hj : j = i
  · subst hj
    split_ifs with hp
    · simp [hp]
    · rw [update_self, h.tail_eq j, hi, List.getLast?_append_of_ne_nil _ (by simp),
        List.getLast?_append_of_ne_nil _ hp, List.getLast?_cons_of_ne_nil hp]
  · rw [update_of_ne hj, ← h.tail_eq j]
    split_ifs
    · rw [update_of_ne hj]
    · rfl

theorem Exact.unlink (h : Exact q ls) (hi : ls i = pre ++ x :: post) :
    Exact (q.unlink i pre.getLast? x) (update ls i (pre ++ post)) := by
  have hsub : ∀ y ∈ pre ++ post, y ∈ ls i := by
    intro y hy
    rw [hi]
    rcases List.mem_append.mp hy with hy | hy <;> simp [hy]
  refine .of_tail (fun j ↦ ?_) (h.unlink_tail hi) fun hy hy' ↦
    h.disjoint (mem_update_of_subset hsub hy) (mem_update_of_subset hsub hy')
  have hc := h.chain j
  rcases List.eq_nil_or_concat pre with rfl | ⟨pre, last, rfl⟩
  · by_cases hj : j = i
    · subst hj
      rw [hi] at hc
      simpa [Queues.unlink] using hc.rest
    · simpa [Queues.unlink, hj] using hc
  · rw [List.concat_eq_append] at hi ⊢
    have hd := h.nodup i
    simp only [hi, List.append_assoc, List.nodup_append, List.singleton_append] at hd
    have hlast : last ∈ ls i := by simp [hi]
    by_cases hj : j = i
    · subst hj
      simp only [hi, List.append_assoc, List.singleton_append] at hc
      simp only [Queues.unlink, List.getLast?_concat, update_self, List.append_assoc,
        List.singleton_append]
      refine hc.splice (fun y hy ↦ update_of_ne ?_ _ _) ?_
      · rintro rfl
        exact hd.2.2 y hy y (by simp) rfl
      · rw [update_self]
        refine hc.suffix.rest.rest.congr fun y hy ↦ update_of_ne ?_ _ _
        rintro rfl
        simp [hy] at hd
    · simp only [Queues.unlink, List.getLast?_concat, update_of_ne hj]
      refine hc.congr fun y hy ↦ update_of_ne ?_ _ _
      rintro rfl
      exact hj (h.disjoint hy hlast)

end Unlink

end PrjOS.LinkedQueue
