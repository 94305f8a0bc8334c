import Mathlib.Algebra.BigOperators.Group.Finset.Basic
import Mathlib.Algebra.Order.BigOperators.Group.Finset
import Mathlib.Algebra.Ring.Nat
import Mathlib.Data.Fintype.BigOperators

namespace PrjOS.Ledger

open scoped BigOperators

/-- What is noted about the accounts `ι`, each of which has a sum for each kind
`κ` of charge: the clock is read, an account starts again, it is visited, or an
interval of time is charged to it. -/
inductive Entry (ι κ : Type)
  | read (time : ℕ)
  | opened (i : ι)
  | visited (i : ι)
  | charged (i : ι) (kind : κ) (start stop : ℕ)

variable {ι κ : Type}

def Entry.reading : Entry ι κ → Option ℕ
  | read time => some time
  | _ => none

def Entry.interval : Entry ι κ → Option (ℕ × ℕ)
  | charged _ _ start stop => some (start, stop)
  | _ => none

def readings (l : List (Entry ι κ)) : List ℕ := l.filterMap Entry.reading

def intervals (l : List (Entry ι κ)) : List (ℕ × ℕ) := l.filterMap Entry.interval

def Ordered (l : List (Entry ι κ)) : Prop := (readings l).Pairwise (· ≤ ·)

/-- The last reading of a clock that does not go back. -/
def Latest (time : ℕ) (l : List (Entry ι κ)) : Prop :=
  time ∈ readings l ∧ ∀ r ∈ readings l, r ≤ time

/-- The charged intervals lie between readings, one after the other. -/
structure Separate (l : List (Entry ι κ)) : Prop where
  separated : (intervals l).Pairwise fun x y ↦ x.2 ≤ y.1
  read : ∀ x ∈ intervals l, x.1 ∈ readings l ∧ x.2 ∈ readings l ∧ x.1 ≤ x.2

section Readings

variable {l : List (Entry ι κ)} {e : Entry ι κ}

@[simp] theorem readings_append (l l' : List (Entry ι κ)) :
    readings (l ++ l') = readings l ++ readings l' := List.filterMap_append

@[simp] theorem intervals_append (l l' : List (Entry ι κ)) :
    intervals (l ++ l') = intervals l ++ intervals l' := List.filterMap_append

theorem readings_singleton (e : Entry ι κ) : readings [e] = e.reading.toList := by
  cases e <;> rfl

theorem intervals_singleton (e : Entry ι κ) : intervals [e] = e.interval.toList := by
  cases e <;> rfl

theorem readings_append_of_none (l : List (Entry ι κ)) (he : e.reading = none) :
    readings (l ++ [e]) = readings l := by
  rw [readings_append, readings_singleton, he]
  exact List.append_nil _

theorem intervals_append_of_none (l : List (Entry ι κ)) (he : e.interval = none) :
    intervals (l ++ [e]) = intervals l := by
  rw [intervals_append, intervals_singleton, he]
  exact List.append_nil _

theorem Ordered.of_append {l l' : List (Entry ι κ)} (h : Ordered (l ++ l')) : Ordered l := by
  rw [Ordered, readings_append] at h
  exact (List.pairwise_append.mp h).1

theorem Ordered.latest {time : ℕ} (h : Ordered (l ++ [.read time])) :
    Latest time (l ++ [.read time]) := by
  rw [Ordered, readings_append] at h
  have hlast := (List.pairwise_append.mp h).2.2
  have htime : time ∈ readings [Entry.read (ι := ι) (κ := κ) time] := List.mem_singleton_self time
  rw [Latest, readings_append]
  refine ⟨List.mem_append_right _ htime, fun r hr ↦ ?_⟩
  rcases List.mem_append.mp hr with hr | hr
  · exact hlast r hr time htime
  · exact Nat.le_of_eq (List.mem_singleton.mp hr)

theorem Latest.append {time : ℕ} (h : Latest time l) (he : e.reading = none) :
    Latest time (l ++ [e]) := by
  rw [Latest, readings_append_of_none l he]
  exact h

theorem Latest.le {time next : ℕ} (h : Latest time l) (ho : Ordered (l ++ [.read next])) :
    time ≤ next := by
  refine ho.latest.2 time ?_
  rw [readings_append]
  exact List.mem_append_left _ h.1

end Readings

section Intervals

variable {l : List (Entry ι κ)}

theorem separate_nil : Separate ([] : List (Entry ι κ)) :=
  ⟨List.Pairwise.nil, fun _ hx ↦ absurd hx List.not_mem_nil⟩

theorem Separate.append (h : Separate l) {e : Entry ι κ} (he : e.interval = none) :
    Separate (l ++ [e]) := by
  constructor
  · rw [intervals_append_of_none l he]
    exact h.separated
  · rw [intervals_append_of_none l he, readings_append]
    intro x hx
    obtain ⟨hstart, hstop, hle⟩ := h.read x hx
    exact ⟨List.mem_append_left _ hstart, List.mem_append_left _ hstop, hle⟩

/-- What is charged from the last reading to the next one does not meet what
was charged before. -/
theorem Separate.charge (h : Separate l) {start stop : ℕ} (hstart : Latest start l)
    (ho : Ordered (l ++ [.read stop])) (i : ι) (kind : κ) :
    Separate (l ++ [.read stop] ++ [.charged i kind start stop]) := by
  have hread := h.append (e := .read stop) rfl
  have hle := hstart.le ho
  have hmem : start ∈ readings (l ++ [.read stop]) := by
    rw [readings_append]
    exact List.mem_append_left _ hstart.1
  constructor
  · rw [intervals_append, List.pairwise_append]
    refine ⟨hread.separated, List.pairwise_singleton _ _, fun x hx y hy ↦ ?_⟩
    rw [intervals_append_of_none l rfl] at hx
    rw [List.mem_singleton.mp hy]
    exact hstart.2 _ (h.read x hx).2.1
  · rw [intervals_append, readings_append_of_none _ rfl]
    intro x hx
    rcases List.mem_append.mp hx with hx | hx
    · exact hread.read x hx
    · rw [List.mem_singleton.mp hx]
      exact ⟨hmem, ho.latest.1, hle⟩

/-- Intervals that follow each other are not longer together than the time in
which they lie. -/
theorem sum_intervals_le {s : List (ℕ × ℕ)} {now : ℕ} (hs : s.Pairwise fun x y ↦ x.2 ≤ y.1)
    (hf : ∀ x ∈ s, x.1 ≤ x.2 ∧ x.2 ≤ now) : (s.map fun x ↦ x.2 - x.1).sum ≤ now := by
  induction s using List.reverseRecOn generalizing now with
  | nil => exact Nat.zero_le _
  | append_singleton s x ih =>
    obtain ⟨hs', -, hlast⟩ := List.pairwise_append.mp hs
    have hx := hf x (List.mem_append_right s (List.mem_singleton_self x))
    have hsum : (s.map fun x ↦ x.2 - x.1).sum ≤ x.1 := ih hs' fun y hy ↦
      ⟨(hf y (List.mem_append_left _ hy)).1, hlast y hy x (List.mem_singleton_self x)⟩
    rw [List.map_append, List.sum_append, List.map_singleton, List.sum_singleton]
    omega

end Intervals

section Sums

variable [DecidableEq ι]

def Entry.visit (i : ι) (n : ℕ) : Entry ι κ → ℕ
  | read _ => n
  | opened j => if j = i then 0 else n
  | visited j => if j = i then n + 1 else n
  | charged .. => n

def visits (i : ι) (l : List (Entry ι κ)) : ℕ := l.foldl (Entry.visit i) 0

@[simp] theorem visits_append (i : ι) (l : List (Entry ι κ)) (e : Entry ι κ) :
    visits i (l ++ [e]) = e.visit i (visits i l) := by
  rw [visits, List.foldl_append]
  rfl

variable [DecidableEq κ]

def Entry.spend (i : ι) (kind : κ) (n : ℕ) : Entry ι κ → ℕ
  | read _ => n
  | opened j => if j = i then 0 else n
  | visited _ => n
  | charged j k start stop => if j = i ∧ k = kind then n + (stop - start) else n

/-- The time charged to an account since it last started. -/
def spent (i : ι) (kind : κ) (l : List (Entry ι κ)) : ℕ := l.foldl (Entry.spend i kind) 0

@[simp] theorem spent_append (i : ι) (kind : κ) (l : List (Entry ι κ)) (e : Entry ι κ) :
    spent i kind (l ++ [e]) = e.spend i kind (spent i kind l) := by
  rw [spent, List.foldl_append]
  rfl

variable [Fintype ι] [Fintype κ]

theorem sum_spend_charged (f : ι → κ → ℕ) (j : ι) (k : κ) (start stop : ℕ) :
    ∑ i, ∑ kind, (Entry.charged j k start stop).spend i kind (f i kind) =
      ∑ i, ∑ kind, f i kind + (stop - start) := by
  have hsplit (i : ι) (kind : κ) : (Entry.charged j k start stop).spend i kind (f i kind) =
      f i kind + if j = i then if k = kind then stop - start else 0 else 0 := by
    simp only [Entry.spend, ite_and]
    split_ifs <;> rfl
  simp only [hsplit, Finset.sum_add_distrib]
  congr 1
  rw [Finset.sum_congr rfl fun i _ ↦ Finset.sum_ite_irrel ..]
  simp

/-- All accounts together hold no more than was charged. -/
theorem sum_spent_le_intervals (l : List (Entry ι κ)) :
    ∑ i, ∑ kind, spent i kind l ≤ ((intervals l).map fun x ↦ x.2 - x.1).sum := by
  induction l using List.reverseRecOn with
  | nil =>
    have hzero : ∑ i : ι, ∑ kind : κ, spent i kind [] = 0 :=
      Finset.sum_eq_zero fun i _ ↦ Finset.sum_eq_zero fun kind _ ↦ rfl
    exact Nat.le_of_eq hzero
  | append_singleton l e ih =>
    cases e with
    | read time =>
      simp only [spent_append, Entry.spend]
      rw [intervals_append_of_none l rfl]
      exact ih
    | opened j =>
      have hle : ∑ i, ∑ kind, spent i kind (l ++ [.opened j]) ≤ ∑ i, ∑ kind, spent i kind l := by
        refine Finset.sum_le_sum fun i _ ↦ Finset.sum_le_sum fun kind _ ↦ ?_
        rw [spent_append, Entry.spend]
        split_ifs
        · exact Nat.zero_le _
        · exact Nat.le_refl _
      rw [intervals_append_of_none l rfl]
      exact hle.trans ih
    | visited j =>
      simp only [spent_append, Entry.spend]
      rw [intervals_append_of_none l rfl]
      exact ih
    | charged j k start stop =>
      simp only [spent_append]
      rw [sum_spend_charged, intervals_append, intervals_singleton, List.map_append,
        List.sum_append]
      exact Nat.add_le_add_right ih _

/-- All accounts together hold no more than the time that went by. -/
theorem Separate.sum_spent_le {l : List (Entry ι κ)} (h : Separate l) {now : ℕ}
    (hnow : ∀ r ∈ readings l, r ≤ now) : ∑ i, ∑ kind, spent i kind l ≤ now := by
  refine (sum_spent_le_intervals l).trans (sum_intervals_le h.separated fun x hx ↦ ?_)
  obtain ⟨-, hstop, hle⟩ := h.read x hx
  exact ⟨hle, hnow _ hstop⟩

theorem Separate.spent_le {l : List (Entry ι κ)} (h : Separate l) {now : ℕ}
    (hnow : ∀ r ∈ readings l, r ≤ now) (i : ι) (kind : κ) : spent i kind l ≤ now := by
  have hkind : spent i kind l ≤ ∑ kind, spent i kind l :=
    Finset.single_le_sum (fun kind _ ↦ Nat.zero_le (spent i kind l)) (Finset.mem_univ kind)
  have haccount : ∑ kind, spent i kind l ≤ ∑ i, ∑ kind, spent i kind l :=
    Finset.single_le_sum (fun i _ ↦ Nat.zero_le (∑ kind, spent i kind l)) (Finset.mem_univ i)
  exact hkind.trans (haccount.trans (h.sum_spent_le hnow))

end Sums

end PrjOS.Ledger
