import PrjOS.Library.Bytes

namespace PrjOS.ByteMemory

section Words

variable {α : Type} {p : α → Bool}

/-- The longest pieces without separators. -/
def words (p : α → Bool) (l : List α) : List (List α) := (l.splitOnP p).filter (· ≠ [])

theorem words_nil : words p ([] : List α) = [] := by
  rw [words, List.splitOnP_nil]
  rfl

theorem words_cons_separator {a : α} (h : p a = true) (l : List α) :
    words p (a :: l) = words p l := by
  rw [words, List.splitOnP_cons_eq_if_modifyHead, if_pos h]
  rfl

theorem words_dropWhile (l : List α) : words p (l.dropWhile p) = words p l := by
  induction l with
  | nil => rfl
  | cons a l ih =>
    by_cases h : p a = true
    · rw [List.dropWhile_cons_of_pos h, words_cons_separator h, ih]
    · rw [List.dropWhile_cons_of_neg h]

/-- The first word ends at a separator or at the end. -/
theorem words_first {w : List α} (hne : w ≠ []) (hw : ∀ a ∈ w, p a = false) {rest : List α}
    (hrest : ∀ a ∈ rest.head?, p a = true) : words p (w ++ rest) = w :: words p rest.tail := by
  cases rest with
  | nil =>
    rw [List.append_nil, words, List.splitOnP_eq_singleton hw, List.filter_cons_of_pos (by simpa)]
    exact congrArg (w :: ·) words_nil.symm
  | cons a rest =>
    rw [words, List.splitOnP_append_cons_of_forall_mem hw a (hrest a rfl),
      List.filter_cons_of_pos (by simpa)]
    rfl

theorem head_dropWhile {q : α → Bool} (l : List α) : ∀ a ∈ (l.dropWhile q).head?, q a = false := by
  intro a ha
  induction l with
  | nil => simp at ha
  | cons b l ih =>
    by_cases h : q b = true
    · rw [List.dropWhile_cons_of_pos h] at ha
      exact ih ha
    · rw [List.dropWhile_cons_of_neg h] at ha
      rw [← Option.some.inj ha]
      simpa using h

theorem words_eq {l : List α} (hne : l.dropWhile p ≠ []) :
    words p l = (l.dropWhile p).takeWhile (fun a ↦ !p a) ::
      words p ((l.dropWhile p).dropWhile fun a ↦ !p a).tail := by
  have hsplit := List.takeWhile_append_dropWhile (p := fun a ↦ !p a) (l := l.dropWhile p)
  have hhead : ∀ a ∈ (l.dropWhile p).head?, p a = false := head_dropWhile l
  have hword : (l.dropWhile p).takeWhile (fun a ↦ !p a) ≠ [] := by
    cases hl : l.dropWhile p with
    | nil => exact absurd hl hne
    | cons a r =>
      rw [List.takeWhile_cons_of_pos (by rw [hhead a (by rw [hl]; rfl)]; rfl)]
      exact List.cons_ne_nil _ _
  have hw : ∀ a ∈ (l.dropWhile p).takeWhile (fun a ↦ !p a), p a = false := fun a ha ↦ by
    simpa using List.mem_takeWhile_imp ha
  have hrest : ∀ a ∈ ((l.dropWhile p).dropWhile fun a ↦ !p a).head?, p a = true := fun a ha ↦ by
    simpa using head_dropWhile _ a ha
  rw [← words_dropWhile, ← words_first hword hw hrest, hsplit]

/-- Words that are joined with a separator are found again. -/
theorem words_intercalate {ws : List (List α)} (hne : ∀ w ∈ ws, w ≠ [])
    (hws : ∀ w ∈ ws, ∀ a ∈ w, p a = false) {a : α} (ha : p a = true) :
    words p ([a].intercalate ws) = ws := by
  induction ws with
  | nil => exact words_nil
  | cons w ws ih =>
    have ih := ih (fun v hv ↦ hne v (List.mem_cons_of_mem w hv))
      fun v hv ↦ hws v (List.mem_cons_of_mem w hv)
    have hfirst (rest : List α) (hrest : ∀ b ∈ rest.head?, p b = true) :
        words p (w ++ rest) = w :: words p rest.tail :=
      words_first (hne w List.mem_cons_self) (hws w List.mem_cons_self) hrest
    cases ws with
    | nil =>
      have hlast := hfirst [] (by simp)
      rw [List.append_nil, List.tail_nil, words_nil] at hlast
      rw [List.intercalate_singleton, hlast]
    | cons v ws =>
      rw [List.intercalate_cons_cons, List.append_assoc, List.singleton_append,
        hfirst _ (by simpa using ha), List.tail_cons, ih]

end Words

section Tokens

variable {delims : List Byte} {s : List Byte × ℕ}

/-- A string ends at its zero. -/
theorem exists_cString {l : List Byte} (h : 0 ∈ l) : ∃ l', l = cString l ++ 0 :: l' := by
  have hsplit := List.takeWhile_append_dropWhile (p := fun b : Byte ↦ decide (b ≠ 0)) (l := l)
  cases hrest : l.dropWhile fun b ↦ decide (b ≠ 0) with
  | nil =>
    rw [hrest, List.append_nil] at hsplit
    rw [← hsplit] at h
    exact absurd rfl (ne_zero_of_mem_cString h)
  | cons b l' =>
    have hb : b = 0 := by
      have hhead := head_dropWhile (q := fun b : Byte ↦ decide (b ≠ 0)) l b (by rw [hrest]; rfl)
      simpa using hhead
    refine ⟨l', ?_⟩
    rw [hrest, hb] at hsplit
    exact hsplit.symm

/-- `strtok_r` finds the first word, and the string that it leaves is the one
behind the character that ends it. -/
theorem strtokR_eq (hzero : 0 ∈ s.1.drop s.2)
    (hne : (cString (s.1.drop s.2)).dropWhile delims.contains ≠ []) :
    ∃ buffer place,
      strtokR delims s =
        some (((cString (s.1.drop s.2)).dropWhile delims.contains).takeWhile fun b ↦ !delims.contains b,
          buffer, place) ∧
      buffer.length = s.1.length ∧ 0 ∈ buffer.drop place ∧
      cString (buffer.drop place) =
        (((cString (s.1.drop s.2)).dropWhile delims.contains).dropWhile fun b ↦ !delims.contains b).tail := by
  obtain ⟨l', hl'⟩ := exists_cString hzero
  set rest := cString (s.1.drop s.2) with hrest
  have hnonzero : ∀ b ∈ rest, b ≠ 0 := fun b hb ↦ ne_zero_of_mem_cString hb
  have hlead := List.takeWhile_append_dropWhile (p := delims.contains) (l := rest)
  set r := rest.dropWhile delims.contains with hr
  set lead := rest.takeWhile delims.contains with hleadDef
  have htoken := List.takeWhile_append_dropWhile (p := fun b ↦ !delims.contains b) (l := r)
  set token := r.takeWhile fun b ↦ !delims.contains b with htokenDef
  set more := r.dropWhile fun b ↦ !delims.contains b with hmore
  have hdrop : s.1.drop (s.2 + lead.length + token.length) = more ++ 0 :: l' := by
    rw [Nat.add_assoc, ← List.drop_drop, hl', ← hlead, ← htoken, List.append_assoc, ← List.drop_drop,
      List.drop_left, List.append_assoc, List.drop_left]
  have hmoreNonzero : ∀ b ∈ more, b ≠ 0 := fun b hb ↦
    hnonzero b (hlead ▸ List.mem_append_right _ (htoken ▸ List.mem_append_right _ hb))
  have htokenNe : token ≠ [] := by
    intro hempty
    cases hcons : r with
    | nil => exact hne hcons
    | cons b r' =>
      have hb := head_dropWhile (q := delims.contains) rest b (by
        rw [← hr, hcons]
        rfl)
      rw [htokenDef, hcons, List.takeWhile_cons_of_pos (by simpa using hb)] at hempty
      simp at hempty
  have hget : s.1.getD (s.2 + lead.length + token.length) 0 = (more ++ 0 :: l').getD 0 0 := by
    rw [← hdrop]
    simp [List.getD_eq_getElem?_getD]
  unfold strtokR
  simp only [← hrest, ← hr, ← hleadDef, ← htokenDef, if_neg htokenNe, hget]
  cases hm : more with
  | nil =>
    refine ⟨s.1, s.2 + lead.length + token.length, by simp, rfl, ?_, ?_⟩
    · rw [hdrop]
      simp
    · rw [hdrop, hm]
      rfl
  | cons b more' =>
    have hb : b ≠ 0 := hmoreNonzero b (by rw [hm]; exact List.mem_cons_self)
    have hdrop' : (s.1.set (s.2 + lead.length + token.length) 0).drop
        (s.2 + lead.length + token.length + 1) = more' ++ 0 :: l' := by
      rw [List.drop_set_of_lt (Nat.lt_add_one _), ← List.drop_drop, hdrop, hm]
      rfl
    refine ⟨s.1.set (s.2 + lead.length + token.length) 0, s.2 + lead.length + token.length + 1, ?_,
      List.length_set, ?_, ?_⟩
    · simp only [List.cons_append, List.getD_cons_zero, if_neg hb]
    · rw [hdrop']
      simp
    · rw [hdrop']
      exact cString_terminated (fun c hc ↦ hmoreNonzero c (by
        rw [hm]
        exact List.mem_cons_of_mem b hc)) l'

end Tokens

end PrjOS.ByteMemory
