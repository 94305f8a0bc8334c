import Mathlib.Data.List.Basic
import Mathlib.Logic.Function.Basic

namespace PrjOS.LinkedQueue

open Function

variable {ι α : Type}

/-- Following `next` from `a` visits the elements of `l` in order and then
stops at a null link. -/
inductive Chain (next : α → Option α) : Option α → List α → Prop
  | nil : Chain next none []
  | cons {x : α} {l : List α} : Chain next (next x) l → Chain next (some x) (x :: l)

theorem Chain.unique {next : α → Option α} {a : Option α} {l l' : List α}
    (h : Chain next a l) (h' : Chain next a l') : l = l' := by
  induction h generalizing l' with
  | nil => cases h'; rfl
  | cons h ih =>
    cases h' with
    | cons h' => rw [ih h']

theorem Chain.congr {next next' : α → Option α} {a : Option α} {l : List α}
    (h : Chain next a l) (he : ∀ x ∈ l, next' x = next x) : Chain next' a l := by
  induction h with
  | nil => exact .nil
  | @cons x l h ih =>
    refine .cons ?_
    rw [he x (by simp)]
    exact ih (fun y hy ↦ he y (by simp [hy]))

theorem Chain.rest {next : α → Option α} {a : Option α} {x : α} {l : List α}
    (h : Chain next a (x :: l)) : Chain next (next x) l := by
  cases h with
  | cons h => exact h

theorem Chain.head_eq {next : α → Option α} {a : Option α} {l : List α}
    (h : Chain next a l) : a = l.head? := by
  cases h <;> rfl

theorem Chain.suffix {next : α → Option α} {a : Option α} {l : List α} {x : α} {r : List α}
    (h : Chain next a (l ++ x :: r)) : Chain next (some x) (x :: r) := by
  induction l generalizing a with
  | nil =>
    cases h with
    | cons h => exact .cons h
  | cons y l ih =>
    cases h with
    | cons h => exact ih h

theorem Chain.next_eq {next : α → Option α} {a : Option α} {l : List α} {x : α} {r : List α}
    (h : Chain next a (l ++ x :: r)) : next x = r.head? := h.suffix.rest.head_eq

theorem Chain.nodup {next : α → Option α} {a : Option α} {l : List α}
    (h : Chain next a l) : l.Nodup := by
  induction h with
  | nil => exact List.nodup_nil
  | @cons x l h ih =>
    refine List.nodup_cons.mpr ⟨fun hx ↦ ?_, ih⟩
    obtain ⟨pre, post, rfl⟩ := List.append_of_mem hx
    have he := Chain.unique (.cons h) h.suffix
    have hl := congrArg List.length he
    simp only [List.length_cons, List.length_append] at hl
    omega

/-- A walk that goes the same way up to `x` comes to `x`. -/
theorem Chain.mem_of_agree {next next' : α → Option α} {a : Option α} {l r ps : List α} {x : α}
    (h : Chain next a (l ++ x :: r)) (h' : Chain next' a ps) (he : ∀ y ∈ l, next' y = next y) :
    x ∈ ps := by
  induction l generalizing a ps with
  | nil =>
    cases h
    cases h'
    exact List.mem_cons_self
  | cons y l ih =>
    rw [List.cons_append] at h
    cases h with
    | cons h =>
      cases h' with
      | cons h' =>
        rw [he y List.mem_cons_self] at h'
        exact List.mem_cons_of_mem _ (ih h h' fun z hz ↦ he z (List.mem_cons_of_mem _ hz))

/-- What comes after `last` can be exchanged. -/
theorem Chain.splice {next : α → Option α} {a : Option α} {l r r' : List α} {last : α}
    (h : Chain next a (l ++ last :: r)) {next' : α → Option α}
    (he : ∀ x ∈ l, next' x = next x) (hr : Chain next' (next' last) r') :
    Chain next' a (l ++ last :: r') := by
  induction l generalizing a with
  | nil =>
    cases h with
    | cons h => exact .cons hr
  | cons y l ih =>
    cases h with
    | cons h =>
      refine .cons ?_
      rw [he y (by simp)]
      exact ih h (fun x hx ↦ he x (by simp [hx]))

/-- A family of singly linked queues over shared nodes. Every node has one
link, whichever queue it is in. -/
structure Queues (ι α : Type) where
  head : ι → Option α
  tail : ι → Option α
  next : α → Option α

/-- The links of `q` spell out the lists `ls`. The tail of an empty queue
is not constrained. -/
structure Represents (q : Queues ι α) (ls : ι → List α) : Prop where
  chain : ∀ i, Chain q.next (q.head i) (ls i)
  tail : ∀ i, ls i ≠ [] → q.tail i = (ls i).getLast?
  disjoint : ∀ {i j x}, x ∈ ls i → x ∈ ls j → i = j

theorem Represents.unique {q : Queues ι α} {ls ls' : ι → List α}
    (h : Represents q ls) (h' : Represents q ls') : ls = ls' :=
  funext fun i ↦ (h.chain i).unique (h'.chain i)

theorem Represents.head_eq {q : Queues ι α} {ls : ι → List α} (h : Represents q ls) (i : ι) :
    q.head i = (ls i).head? := (h.chain i).head_eq

theorem Represents.head_none {q : Queues ι α} {ls : ι → List α} (h : Represents q ls) {i : ι} :
    q.head i = none ↔ ls i = [] := by
  rw [h.head_eq, List.head?_eq_none_iff]

theorem Represents.nodup {q : Queues ι α} {ls : ι → List α} (h : Represents q ls) (i : ι) :
    (ls i).Nodup := (h.chain i).nodup

theorem Represents.empty (tail : ι → Option α) (next : α → Option α) :
    Represents ⟨fun _ ↦ none, tail, next⟩ (fun _ : ι ↦ []) :=
  ⟨fun _ ↦ .nil, fun _ h ↦ absurd rfl h, fun h _ ↦ by simp at h⟩

variable [DecidableEq ι]

theorem mem_update_append {ls : ι → List α} {i j : ι} {x y : α} :
    y ∈ update ls i (ls i ++ [x]) j ↔ y ∈ ls j ∨ (j = i ∧ y = x) := by
  by_cases he : j = i
  · subst he; simp
  · simp [he]

theorem prefix_update_append {ls : ι → List α} {i : ι} {l : List α} (j : ι) :
    ls j <+: update ls i (ls i ++ l) j := by
  by_cases he : j = i
  · subst he; simp
  · simp [he]

/-- A node that is in no list can be added to one without breaking the
partition of the nodes. -/
theorem disjoint_append {ls : ι → List α} (h : ∀ {i j x}, x ∈ ls i → x ∈ ls j → i = j)
    {i : ι} {x : α} (hx : ∀ j, x ∉ ls j) {j j' : ι} {y : α}
    (hy : y ∈ update ls i (ls i ++ [x]) j) (hy' : y ∈ update ls i (ls i ++ [x]) j') : j = j' := by
  rw [mem_update_append] at hy hy'
  rcases hy with hy | ⟨he, rfl⟩
  · rcases hy' with hy' | ⟨_, rfl⟩
    · exact h hy hy'
    · exact absurd hy (hx j)
  · rcases hy' with hy' | ⟨he', _⟩
    · exact absurd hy' (hx j')
    · exact he.trans he'.symm

theorem tail_append {q : Queues ι α} {ls : ι → List α} (h : Represents q ls) (i : ι) (x : α)
    {j : ι} (hj : update ls i (ls i ++ [x]) j ≠ []) :
    update q.tail i (some x) j = (update ls i (ls i ++ [x]) j).getLast? := by
  by_cases he : j = i
  · subst he; simp
  · simp only [update_of_ne he] at hj ⊢
    exact h.tail j hj

theorem mem_update_of_subset {ls : ι → List α} {i : ι} {l : List α} (hl : ∀ y ∈ l, y ∈ ls i)
    {j : ι} {y : α} (hy : y ∈ update ls i l j) : y ∈ ls j := by
  by_cases he : j = i
  · subst he
    rw [update_self] at hy
    exact hl y hy
  · rwa [update_of_ne he] at hy

/-- Forget a queue: its nodes become unreachable, the others stay. -/
theorem Represents.clear {q q' : Queues ι α} {ls : ι → List α} (h : Represents q ls) {i : ι}
    (hhead : q'.head i = none) (hother : ∀ j, j ≠ i → q'.head j = q.head j ∧ q'.tail j = q.tail j)
    (hnext : ∀ j, ∀ x ∈ ls j, q'.next x = q.next x) :
    Represents q' (update ls i []) := by
  have hsub : ∀ y ∈ ([] : List α), y ∈ ls i := by simp
  refine ⟨fun j ↦ ?_, fun j hj ↦ ?_, fun hy hy' ↦
    h.disjoint (mem_update_of_subset hsub hy) (mem_update_of_subset hsub hy')⟩
  · by_cases he : j = i
    · subst he
      rw [hhead, update_self]
      exact .nil
    · rw [(hother j he).1, update_of_ne he]
      exact (h.chain j).congr (hnext j)
  · by_cases he : j = i
    · subst he; simp at hj
    · rw [update_of_ne he] at hj ⊢
      rw [(hother j he).2]
      exact h.tail j hj

variable [DecidableEq α]

theorem Represents.push_empty {q : Queues ι α} {ls : ι → List α} (h : Represents q ls)
    {i : ι} {x : α} (hi : ls i = []) (hx : ∀ j, x ∉ ls j) :
    Represents ⟨update q.head i (some x), update q.tail i (some x), update q.next x none⟩
      (update ls i (ls i ++ [x])) := by
  refine ⟨fun j ↦ ?_, fun j ↦ tail_append h i x, disjoint_append h.disjoint hx⟩
  by_cases he : j = i
  · subst he
    simp only [update_self, hi, List.nil_append]
    exact .cons (by simpa only [update_self] using .nil)
  · simp only [update_of_ne he]
    exact (h.chain j).congr (fun y hy ↦ update_of_ne (by rintro rfl; exact hx j hy) _ _)

theorem Represents.push_last {q : Queues ι α} {ls : ι → List α} (h : Represents q ls)
    {i : ι} {x last : α} (hl : (ls i).getLast? = some last) (hx : ∀ j, x ∉ ls j) :
    Represents ⟨q.head, update q.tail i (some x),
      update (update q.next last (some x)) x none⟩ (update ls i (ls i ++ [x])) := by
  obtain ⟨pre, hpre⟩ := List.getLast?_eq_some_iff.mp hl
  have hlast : last ≠ x := by rintro rfl; exact hx i (by simp [hpre])
  have hkeep (j : ι) (y : α) (hy : y ∈ ls j) (hyl : y ≠ last) :
      update (update q.next last (some x)) x none y = q.next y := by
    have hyx : y ≠ x := by rintro rfl; exact hx j hy
    rw [update_of_ne hyx, update_of_ne hyl]
  refine ⟨fun j ↦ ?_, fun j ↦ tail_append h i x, disjoint_append h.disjoint hx⟩
  by_cases he : j = i
  · subst he
    have hc := h.chain j
    have hd := h.nodup j
    rw [hpre, List.nodup_append] at hd
    rw [hpre] at hc
    simp only [update_self, hpre, List.append_assoc, List.singleton_append]
    refine hc.splice (fun y hy ↦ hkeep j y (by simp [hpre, hy]) ?_) ?_
    · rintro rfl
      exact hd.2.2 y hy y (by simp) rfl
    · rw [update_of_ne hlast, update_self]
      exact .cons (by simpa only [update_self] using .nil)
  · simp only [update_of_ne he]
    refine (h.chain j).congr (fun y hy ↦ hkeep j y hy ?_)
    rintro rfl
    exact he (h.disjoint hy (by simp [hpre]))

/-- Append a node, testing the head for emptiness as the send and event
queues do. A non-empty queue without a tail is a null dereference. -/
def Queues.push (q : Queues ι α) (i : ι) (x : α) : Option (Queues ι α) :=
  match q.head i with
  | none => some ⟨update q.head i (some x), update q.tail i (some x), update q.next x none⟩
  | some _ =>
    match q.tail i with
    | none => none
    | some last => some ⟨q.head, update q.tail i (some x),
        update (update q.next last (some x)) x none⟩

theorem Represents.push {q : Queues ι α} {ls : ι → List α} (h : Represents q ls)
    (i : ι) {x : α} (hx : ∀ j, x ∉ ls j) :
    ∃ q', q.push i x = some q' ∧ Represents q' (update ls i (ls i ++ [x])) := by
  unfold Queues.push
  cases hh : q.head i with
  | none => exact ⟨_, rfl, h.push_empty (h.head_none.mp hh) hx⟩
  | some a =>
    have hne : ls i ≠ [] := fun he ↦ by simp [h.head_none.mpr he] at hh
    have ht := h.tail i hne
    cases hl : (ls i).getLast? with
    | none => exact absurd (List.getLast?_eq_none_iff.mp hl) hne
    | some last =>
      rw [hl] at ht
      simp only [ht]
      exact ⟨_, rfl, h.push_last hl hx⟩

/-- Take the first node off a queue, leaving its tail as it was. -/
def Queues.pop (q : Queues ι α) (i : ι) (x : α) : Queues ι α :=
  ⟨update q.head i (q.next x), q.tail, update q.next x none⟩

theorem Represents.pop {q : Queues ι α} {ls : ι → List α} (h : Represents q ls)
    {i : ι} {x : α} {rest : List α} (hi : ls i = x :: rest) :
    Represents (q.pop i x) (update ls i rest) := by
  have hsub : ∀ y ∈ rest, y ∈ ls i := fun y hy ↦ by simp [hi, hy]
  have hd := h.nodup i
  rw [hi, List.nodup_cons] at hd
  refine ⟨fun j ↦ ?_, fun j hj ↦ ?_, fun hy hy' ↦
    h.disjoint (mem_update_of_subset hsub hy) (mem_update_of_subset hsub hy')⟩
  · by_cases he : j = i
    · subst he
      have hc := h.chain j
      rw [hi] at hc
      simp only [Queues.pop, update_self]
      exact hc.rest.congr (fun y hy ↦ update_of_ne (by rintro rfl; exact hd.1 hy) _ _)
    · simp only [Queues.pop, update_of_ne he]
      refine (h.chain j).congr (fun y hy ↦ update_of_ne ?_ _ _)
      rintro rfl
      exact he (h.disjoint hy (by simp [hi]))
  · by_cases he : j = i
    · subst he
      simp only [update_self] at hj ⊢
      have ht := h.tail j (by simp [hi])
      rw [hi, List.getLast?_cons_of_ne_nil hj] at ht
      exact ht
    · simp only [update_of_ne he] at hj ⊢
      exact h.tail j hj

/-- On a queue that holds a node, appending another one and taking the first
one off commute. -/
theorem Represents.push_pop {q q' : Queues ι α} {ls : ι → List α} (h : Represents q ls) {i : ι}
    {x s : α} (hx : q.head i = some x) (hs : ∀ j, s ∉ ls j) (hp : q.push i s = some q') :
    (q.pop i x).push i s = some (q'.pop i x) := by
  obtain ⟨rest, hi⟩ := List.head?_eq_some_iff.mp ((h.head_eq i).symm.trans hx)
  have hsx : s ≠ x := by
    rintro rfl
    exact hs i (by simp [hi])
  have hnext : q.next x = rest.head? := Chain.next_eq (l := []) (by simpa [hi] using h.chain i)
  have htail := h.tail i (by simp [hi])
  rw [hi] at htail
  cases rest with
  | nil =>
    simp only [List.getLast?_singleton] at htail
    simp only [Queues.push, hx, htail, Option.some.injEq] at hp
    subst hp
    simp [Queues.push, Queues.pop, hnext, hsx.symm, update_comm hsx, update_idem]
  | cons y rest =>
    rw [List.getLast?_cons_cons] at htail
    obtain ⟨last, hl⟩ : ∃ last, (y :: rest).getLast? = some last := by
      simp [List.getLast?_cons]
    rw [hl] at htail
    simp only [Queues.push, hx, htail, Option.some.injEq] at hp
    subst hp
    have hlx : last ≠ x := by
      rintro rfl
      have hd := h.nodup i
      rw [hi, List.nodup_cons] at hd
      exact hd.1 (List.mem_of_getLast? hl)
    simp [Queues.push, Queues.pop, hnext, htail, hsx.symm, hlx.symm, update_comm hsx,
      update_comm hlx]

end PrjOS.LinkedQueue
