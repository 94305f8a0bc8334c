import Mathlib.Data.List.FinRange

namespace PrjOS.FirstIndex

variable {n : Nat}

theorem finRange_split {before after : List (Fin n)} {i j : Fin n}
    (h : List.finRange n = before ++ i :: after) : j ∈ before ↔ j < i := by
  have hs : List.Pairwise (· < ·) (before ++ i :: after) := h ▸ List.pairwise_lt_finRange n
  obtain ⟨-, hafter, hbefore⟩ := List.pairwise_append.mp hs
  refine ⟨fun hj ↦ hbefore j hj i List.mem_cons_self, fun hlt ↦ ?_⟩
  have hm : j ∈ before ++ i :: after := h ▸ List.mem_finRange j
  rcases List.mem_append.mp hm with hm | hm
  · exact hm
  · rcases List.mem_cons.mp hm with rfl | hm
    · exact absurd hlt (lt_irrefl _)
    · exact absurd ((List.pairwise_cons.mp hafter).1 j hm) (not_lt.mpr hlt.le)

/-- A search that starts at 0 stops at the first index with the property. -/
theorem find_finRange {p : Fin n → Bool} {i : Fin n} :
    (List.finRange n).find? p = some i ↔ p i = true ∧ ∀ j < i, p j = false := by
  rw [List.find?_eq_some_iff_append]
  constructor
  · rintro ⟨hi, before, after, hsplit, hb⟩
    exact ⟨hi, fun j hj ↦ by simpa using hb j ((finRange_split hsplit).mpr hj)⟩
  · rintro ⟨hi, hfirst⟩
    obtain ⟨before, after, hsplit⟩ := List.append_of_mem (List.mem_finRange i)
    refine ⟨hi, before, after, hsplit, fun j hj ↦ ?_⟩
    simpa using hfirst j ((finRange_split hsplit).mp hj)

theorem find_finRange_none {p : Fin n → Bool} :
    (List.finRange n).find? p = none ↔ ∀ i, p i = false := by
  simp [List.find?_eq_none]

end PrjOS.FirstIndex
