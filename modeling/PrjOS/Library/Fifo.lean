import PrjOS.Library.Transition
import Mathlib.Logic.Function.Basic

namespace PrjOS.Fifo

open Function Transition

variable {ι α : Type} [DecidableEq ι]

inductive Event (ι α : Type)
  | put (i : ι) (x : α)
  | get (i : ι) (x : α)
  | reset (i : ι)
  deriving DecidableEq

inductive Step (l : ι → List α) : Event ι α → (ι → List α) → Prop
  | put (i : ι) (x : α) : Step l (.put i x) (update l i (l i ++ [x]))
  | get (i : ι) (x : α) (rest : List α) : l i = x :: rest → Step l (.get i x) (update l i rest)
  | reset (i : ι) : Step l (.reset i) (update l i [])

/-- What was put into the queue `i` since it was last reset. -/
def puts (i : ι) (es : List (Event ι α)) : List α :=
  es.foldl (fun l e ↦ match e with
    | .put j x => if j = i then l ++ [x] else l
    | .get .. => l
    | .reset j => if j = i then [] else l) []

/-- What was taken from the queue `i` since it was last reset. -/
def gets (i : ι) (es : List (Event ι α)) : List α :=
  es.foldl (fun l e ↦ match e with
    | .put .. => l
    | .get j x => if j = i then l ++ [x] else l
    | .reset j => if j = i then [] else l) []

theorem Step.gets_append {ls ls' : ι → List α} {e : Event ι α} (h : Step ls e ls')
    {es : List (Event ι α)} {i : ι} (hi : gets i es ++ ls i = puts i es) :
    gets i (es ++ [e]) ++ ls' i = puts i (es ++ [e]) := by
  unfold gets puts at hi ⊢
  rw [List.foldl_append, List.foldl_append]
  simp only [List.foldl_cons, List.foldl_nil]
  cases h with
  | put j x =>
    by_cases hj : j = i
    · subst hj
      simp only [update_self, if_true]
      rw [← List.append_assoc, hi]
    · simp only [update_of_ne (Ne.symm hj), hj, if_false]
      exact hi
  | get j x rest hrest =>
    by_cases hj : j = i
    · subst hj
      simp only [update_self, if_true, List.append_assoc, List.singleton_append]
      rw [← hrest, hi]
    · simp only [update_of_ne (Ne.symm hj), hj, if_false]
      exact hi
  | reset j =>
    by_cases hj : j = i
    · subst hj
      simp
    · simp only [update_of_ne (Ne.symm hj), hj, if_false]
      exact hi

theorem gets_append_eq_puts {es : List (Event ι α)} {ls : ι → List α}
    (h : Run Step (fun _ ↦ []) es ls) (i : ι) : gets i es ++ ls i = puts i es := by
  induction h with
  | nil => rfl
  | snoc _ hs ih => exact hs.gets_append ih

theorem Run.single {ls ls' : ι → List α} {e : Event ι α} (h : Step ls e ls') :
    Run Step ls [e] ls' := Run.snoc .nil h

end PrjOS.Fifo
