import PrjOS.Library.Transition
import Mathlib.Data.List.Nodup
import Mathlib.Data.List.TakeWhile
import Mathlib.Data.List.Perm.Subperm

namespace PrjOS.Overtaking

open Transition

section Ahead

variable {α : Type} [DecidableEq α] {x y : α} {l l' pre post : List α}

/-- Those who come before `x` in the queue `l`. -/
def ahead (x : α) (l : List α) : List α := l.takeWhile fun y ↦ decide (y ≠ x)

theorem ahead_of_not_mem (h : x ∉ pre) : ahead x (pre ++ post) = pre ++ ahead x post := by
  refine List.takeWhile_append_of_pos fun y hy ↦ ?_
  exact decide_eq_true (ne_of_mem_of_not_mem hy h)

theorem ahead_cons_of_ne (h : y ≠ x) : ahead x (y :: l) = y :: ahead x l :=
  List.takeWhile_cons_of_pos (decide_eq_true h)

/-- Who joins at the end is behind. -/
theorem ahead_of_append (h : l <+: l') (hx : x ∈ l) : ahead x l' = ahead x l := by
  obtain ⟨joined, rfl⟩ := h
  induction l with
  | nil => cases hx
  | cons y l ih =>
    by_cases hy : y = x
    · simp [ahead, hy]
    · rw [List.cons_append, ahead_cons_of_ne hy, ahead_cons_of_ne hy,
        ih ((List.mem_cons.mp hx).resolve_left (Ne.symm hy))]

/-- Who leaves from before `x` is no longer ahead of it. -/
theorem ahead_remove (hpre : x ∉ pre) (hy : y ≠ x) :
    (y :: ahead x (pre ++ post)).Perm (ahead x (pre ++ y :: post)) := by
  rw [ahead_of_not_mem hpre, ahead_of_not_mem hpre, ahead_cons_of_ne hy]
  exact List.perm_middle.symm

theorem ahead_subset (x : α) (l : List α) : ahead x l ⊆ l := List.takeWhile_subset _

theorem ahead_nodup (h : l.Nodup) (x : α) : (ahead x l).Nodup :=
  h.sublist (List.takeWhile_sublist _)

omit [DecidableEq α] in
theorem nodup_of_subperm (h : l.Subperm l') (hl : l'.Nodup) : l.Nodup := by
  obtain ⟨m, hm, hsub⟩ := h
  exact hm.nodup_iff.mp (hl.sublist hsub)

end Ahead

section Turns

variable {σ ℓ ε α : Type} {step : σ → ℓ → σ → Prop}

/-- Who has a turn in each step of a run of a deterministic system. -/
def turns (next : σ → ℓ → Option σ) (turn : σ → ℓ → Option ε) : σ → List ℓ → List ε
  | _, [] => []
  | s, l :: ls => (turn s l).toList ++ ((next s l).map fun s' ↦ turns next turn s' ls).getD []

theorem turns_cons {next : σ → ℓ → Option σ} {turn : σ → ℓ → Option ε} {s s' : σ} {l : ℓ}
    (h : next s l = some s') (ls : List ℓ) :
    turns next turn s (l :: ls) = (turn s l).toList ++ turns next turn s' ls := by
  simp [turns, h]

/-- Somebody waits in a queue behind `waiting s`. If in each step one of them
leaves or somebody from elsewhere has a turn, and nobody gets in between, then
each of them has at most one turn in the meantime. -/
theorem turns_of_run {next : σ → ℓ → Option σ} {turn : σ → ℓ → Option ε} (level : ε → Bool)
    (owner : ε → α) {other allowed : ε → Prop} {place : σ → List α → Prop} {Q : σ → ℓ → Prop}
    (hnext : ∀ s l s', step s l s' → next s l = some s')
    (hs : ∀ s l s' waiting, place s waiting → Q s l → (∀ u ∈ turn s l, other u) → step s l s' →
      ∃ u waiting', turn s l = some u ∧ allowed u ∧ place s' waiting' ∧
        ((([u].filter level).map owner) ++ waiting').Subperm waiting)
    {ls : List ℓ} {s s' : σ} {waiting : List α} (h : Run step s ls s') (hq : EachStep step s ls Q)
    (ho : ∀ u ∈ turns next turn s ls, other u) (hp : place s waiting) :
    (turns next turn s ls).length = ls.length ∧ (∀ u ∈ turns next turn s ls, allowed u) ∧
      (((turns next turn s ls).filter level).map owner).Subperm waiting := by
  induction ls generalizing s waiting with
  | nil => exact ⟨rfl, by simp [turns], List.nil_subperm⟩
  | cons l ls ih =>
    obtain ⟨s₁, hstep, hrun⟩ := h.cons_inv
    rw [turns_cons (hnext _ _ _ hstep)] at ho ⊢
    have hturn : ∀ u ∈ turn s l, other u := fun u hu ↦ ho u (by simp [Option.mem_def.mp hu])
    obtain ⟨u, waiting', hu, hallowed, hplace, hsub⟩ := hs s l s₁ waiting hp hq.head hturn hstep
    obtain ⟨hlength, hall, hrest⟩ :=
      ih hrun (hq.tail hstep) (fun v hv ↦ ho v (List.mem_append_right _ hv)) hplace
    rw [hu, Option.toList_some]
    refine ⟨by simp [hlength], fun v hv ↦ ?_, ?_⟩
    · rcases List.mem_append.mp hv with hv | hv
      · rw [List.mem_singleton.mp hv]
        exact hallowed
      · exact hall v hv
    · rw [List.filter_append, List.map_append]
      exact ((List.subperm_append_left _).mpr hrest).trans hsub

end Turns

end PrjOS.Overtaking
