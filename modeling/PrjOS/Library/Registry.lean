import Mathlib.Data.List.Basic

namespace PrjOS.Registry

/-- Something with a name that was put into a directory, for good: a command, or
a directory if there is none. -/
structure Registration (R N C : Type) where
  record : R
  directory : R
  name : N
  command : Option C
  deriving DecidableEq

variable {R N C : Type} {root : R}

/-- A hierarchy below `root`, as the list of what was registered. No record is
used twice, and each is put into a directory that was there before. -/
inductive WellFormed (root : R) : List (Registration R N C) → Prop
  | nil : WellFormed root []
  | snoc {log : List (Registration R N C)} {x : Registration R N C} : WellFormed root log →
      x.record ≠ root → (∀ y ∈ log, y.record ≠ x.record) →
      (x.directory = root ∨ ∃ y ∈ log, y.record = x.directory ∧ y.command = none) →
      WellFormed root (log ++ [x])

variable {log : List (Registration R N C)} {x : Registration R N C}

/-- All commands, the latest first. -/
def commands (log : List (Registration R N C)) : List (Registration R N C) :=
  (log.filter fun x ↦ x.command.isSome).reverse

theorem mem_commands : x ∈ commands log ↔ x ∈ log ∧ x.command.isSome = true := by
  simp [commands]

theorem commands_snoc : commands (log ++ [x]) =
    if x.command.isSome then x :: commands log else commands log := by
  unfold commands
  rw [List.filter_append, List.reverse_append]
  by_cases h : x.command.isSome = true
  · rw [if_pos h, List.filter_cons_of_pos (p := fun x : Registration R N C ↦ x.command.isSome) h]
    rfl
  · rw [if_neg h, List.filter_cons_of_neg (p := fun x : Registration R N C ↦ x.command.isSome) h]
    rfl

theorem WellFormed.ne_root (h : WellFormed root log) (hx : x ∈ log) : x.record ≠ root := by
  induction h with
  | nil => simp at hx
  | snoc _ hne _ _ ih =>
    rcases List.mem_append.mp hx with hx | hx
    · exact ih hx
    · rwa [List.mem_singleton.mp hx]

theorem WellFormed.eq_of_record (h : WellFormed root log) {y : Registration R N C} (hx : x ∈ log)
    (hy : y ∈ log) (he : x.record = y.record) : x = y := by
  induction h with
  | nil => simp at hx
  | snoc _ _ hfresh _ ih =>
    rcases List.mem_append.mp hx with hx | hx <;> rcases List.mem_append.mp hy with hy | hy
    · exact ih hx hy
    · rw [List.mem_singleton.mp hy] at he
      exact absurd he (hfresh x hx)
    · rw [List.mem_singleton.mp hx] at he
      exact absurd he.symm (hfresh y hy)
    · rw [List.mem_singleton.mp hx, List.mem_singleton.mp hy]

/-- The directory of a registration is none of its entries' commands. -/
theorem WellFormed.directory (h : WellFormed root log) (hx : x ∈ log) :
    x.directory = root ∨ ∃ y ∈ log, y.record = x.directory ∧ y.command = none := by
  induction h with
  | nil => simp at hx
  | snoc _ _ _ hdir ih =>
    rcases List.mem_append.mp hx with hx | hx
    · exact (ih hx).imp id fun ⟨y, hy, hdir⟩ ↦ ⟨y, List.mem_append_left _ hy, hdir⟩
    · rw [List.mem_singleton.mp hx]
      exact hdir.imp id fun ⟨y, hy, hdir⟩ ↦ ⟨y, List.mem_append_left _ hy, hdir⟩

section Entries

variable [DecidableEq R]

def entries (log : List (Registration R N C)) (directory : R) : List (Registration R N C) :=
  log.filter fun x ↦ x.directory = directory

theorem mem_entries {d : R} : x ∈ entries log d ↔ x ∈ log ∧ x.directory = d := by
  simp [entries]

theorem entries_snoc (d : R) : entries (log ++ [x]) d =
    if x.directory = d then entries log d ++ [x] else entries log d := by
  unfold entries
  rw [List.filter_append]
  split_ifs with h
  · rw [List.filter_cons_of_pos (by simpa using h), List.filter_nil]
  · rw [List.filter_cons_of_neg (by simpa using h), List.filter_nil, List.append_nil]

def DistinctNames (log : List (Registration R N C)) : Prop :=
  ∀ d, ((entries log d).map (·.name)).Nodup

theorem distinctNames_snoc : DistinctNames (log ++ [x]) ↔
    DistinctNames log ∧ x.name ∉ (entries log x.directory).map (·.name) := by
  have hentries (d : R) : (entries (log ++ [x]) d).map (·.name) =
      (entries log d).map (·.name) ++ if x.directory = d then [x.name] else [] := by
    rw [entries_snoc]
    split_ifs
    · rw [List.map_append]
      rfl
    · rw [List.append_nil]
  constructor
  · intro h
    refine ⟨fun d ↦ ?_, ?_⟩
    · have hd := h d
      rw [hentries] at hd
      exact (List.nodup_append.mp hd).1
    · have hd := h x.directory
      rw [hentries, if_pos rfl] at hd
      exact fun hmem ↦ (List.nodup_append.mp hd).2.2 _ hmem _ (List.mem_singleton_self _) rfl
  · rintro ⟨h, hnew⟩ d
    rw [hentries]
    by_cases hd : x.directory = d
    · subst hd
      rw [if_pos rfl]
      refine List.nodup_append.mpr ⟨h _, by simp, ?_⟩
      rintro a ha b hb rfl
      rw [List.mem_singleton.mp hb] at ha
      exact hnew ha
    · rw [if_neg hd, List.append_nil]
      exact h d

/-- A place in the hierarchy: the directories from it up to the root, which is
left out. -/
inductive Place (log : List (Registration R N C)) (root : R) : List R → Prop
  | root : Place log root []
  | enter {x : Registration R N C} {path : List R} : Place log root path →
      x ∈ entries log (path.headD root) → x.command = none → Place log root (x.record :: path)

theorem Place.tail {path : List R} (h : Place log root path) : Place log root path.tail := by
  cases h with
  | root => exact .root
  | enter h _ _ => exact h

theorem Place.known {path : List R} (h : Place log root path) :
    path.headD root = root ∨ ∃ x ∈ log, x.record = path.headD root := by
  cases h with
  | root => exact .inl rfl
  | @enter x path _ hx _ => exact .inr ⟨x, (mem_entries.mp hx).1, rfl⟩

/-- The directory above is the parent. -/
theorem Place.parent {path : List R} (h : Place log root path) :
    (path.headD root = root ∧ path.tail = []) ∨
      ∃ x ∈ log, x.record = path.headD root ∧ x.directory = path.tail.headD root := by
  cases h with
  | root => exact .inl ⟨rfl, rfl⟩
  | @enter x path _ hx _ => exact .inr ⟨x, (mem_entries.mp hx).1, rfl, (mem_entries.mp hx).2⟩

theorem Place.snoc {path : List R} (h : Place log root path) (x : Registration R N C) :
    Place (log ++ [x]) root path := by
  induction h with
  | root => exact .root
  | enter _ hx hc ih =>
    refine .enter ih ?_ hc
    rw [mem_entries] at hx ⊢
    exact ⟨List.mem_append_left _ hx.1, hx.2⟩

/-- Everything is at a place: there is no directory outside of the hierarchy. -/
theorem WellFormed.place (h : WellFormed root log) (hx : x ∈ log) :
    ∃ path, Place log root path ∧ x.directory = path.headD root := by
  induction h generalizing x with
  | nil => simp at hx
  | @snoc log x' _ _ _ hdir ih =>
    rcases List.mem_append.mp hx with hx | hx
    · obtain ⟨path, hpath, hd⟩ := ih hx
      exact ⟨path, hpath.snoc x', hd⟩
    · rw [List.mem_singleton.mp hx]
      rcases hdir with hdir | ⟨y, hy, hrecord, hcommand⟩
      · exact ⟨[], .root, hdir⟩
      · obtain ⟨path, hpath, hd⟩ := ih hy
        have henter : Place log root (y.record :: path) :=
          .enter hpath (mem_entries.mpr ⟨hy, hd⟩) hcommand
        exact ⟨y.record :: path, henter.snoc x', hrecord.symm⟩

end Entries

end PrjOS.Registry
