import Mathlib.Data.List.Basic
import Mathlib.Data.List.Infix

namespace PrjOS.Transition

variable {σ ℓ ε : Type}

inductive Run (step : σ → ℓ → σ → Prop) (start : σ) : List ℓ → σ → Prop
  | nil : Run step start [] start
  | snoc {ls : List ℓ} {s s' : σ} {l : ℓ} :
      Run step start ls s → step s l s' → Run step start (ls ++ [l]) s'

variable {step : σ → ℓ → σ → Prop} {start : σ}

theorem Run.invariant {P : σ → Prop} (h₀ : P start)
    (hs : ∀ s l s', P s → step s l s' → P s') {ls : List ℓ} {s : σ}
    (h : Run step start ls s) : P s := by
  induction h with
  | nil => exact h₀
  | snoc _ hl ih => exact hs _ _ _ ih hl

/-- An invariant of the runs whose labels all satisfy `Q`. -/
theorem Run.invariant_of_mem {P : σ → Prop} {Q : ℓ → Prop} (h₀ : P start)
    (hs : ∀ s l s', P s → Q l → step s l s' → P s') {ls : List ℓ} {s : σ}
    (h : Run step start ls s) (hq : ∀ l ∈ ls, Q l) : P s := by
  induction h with
  | nil => exact h₀
  | @snoc ls s s' l _ hl ih =>
    exact hs _ _ _ (ih fun l' hl' ↦ hq l' (by simp [hl'])) (hq l (by simp)) hl

theorem Run.trans {ls ls' : List ℓ} {s s' : σ} (h : Run step start ls s)
    (h' : Run step s ls' s') : Run step start (ls ++ ls') s' := by
  induction h' with
  | nil => simpa only [List.append_nil] using h
  | snoc _ hl ih => simpa only [List.append_assoc] using Run.snoc ih hl

theorem Run.unsnoc {ls : List ℓ} {l : ℓ} {s : σ} (h : Run step start (ls ++ [l]) s) :
    ∃ s', Run step start ls s' ∧ step s' l s := by
  generalize he : ls ++ [l] = ls' at h
  cases h with
  | nil => simp at he
  | snoc hr hl =>
    obtain ⟨rfl, hl'⟩ := List.append_inj' he rfl
    cases hl'
    exact ⟨_, hr, hl⟩

theorem Run.eq_of_nil {s : σ} (h : Run step start [] s) : s = start := by
  generalize he : ([] : List ℓ) = ls at h
  cases h with
  | nil => rfl
  | snoc => simp at he

theorem Run.split {pre post : List ℓ} {s : σ} (h : Run step start (pre ++ post) s) :
    ∃ s', Run step start pre s' ∧ Run step s' post s := by
  induction post using List.reverseRecOn generalizing s with
  | nil => exact ⟨s, by simpa using h, .nil⟩
  | append_singleton post l ih =>
    rw [← List.append_assoc] at h
    obtain ⟨s₁, hr, hl⟩ := h.unsnoc
    obtain ⟨s₂, hpre, hpost⟩ := ih hr
    exact ⟨s₂, hpre, hpost.snoc hl⟩

theorem Run.unique (hd : ∀ {s l s' s''}, step s l s' → step s l s'' → s' = s'') {ls : List ℓ}
    {s s' : σ} (h : Run step start ls s) (h' : Run step start ls s') : s = s' := by
  induction h generalizing s' with
  | nil => exact h'.eq_of_nil.symm
  | snoc _ hl ih =>
    obtain ⟨s₁, hr, hl'⟩ := h'.unsnoc
    obtain rfl := ih hr
    exact hd hl hl'

theorem Run.leaves {P : σ → Prop} {ls : List ℓ} {s : σ} (h : Run step start ls s) (h₀ : P start)
    (hs : ¬ P s) : ∃ pre l post s₁ s₂, ls = pre ++ l :: post ∧ Run step start pre s₁ ∧ P s₁ ∧
      step s₁ l s₂ ∧ ¬ P s₂ ∧ Run step s₂ post s := by
  induction h with
  | nil => exact absurd h₀ hs
  | @snoc ls s s' l hr hl ih =>
    by_cases hP : P s
    · exact ⟨ls, l, [], s, s', rfl, hr, hP, hl, hs, .nil⟩
    · obtain ⟨pre, l', post, s₁, s₂, rfl, hpre, h₁, hstep, h₂, hpost⟩ := ih hP
      exact ⟨pre, l', post ++ [l], s₁, s₂, by simp, hpre, h₁, hstep, h₂, hpost.snoc hl⟩

/-- `P` holds in every state that an initial part of the run `ls` reaches. -/
def Throughout (step : σ → ℓ → σ → Prop) (start : σ) (ls : List ℓ) (P : σ → Prop) : Prop :=
  ∀ pre, pre <+: ls → ∀ s, Run step start pre s → P s

/-- `Q` holds before every step of the run `ls`, of the state and the label. -/
def EachStep (step : σ → ℓ → σ → Prop) (start : σ) (ls : List ℓ) (Q : σ → ℓ → Prop) : Prop :=
  ∀ pre l, pre ++ [l] <+: ls → ∀ s, Run step start pre s → Q s l

theorem throughout_of_eachStep {P : σ → Prop} {Q : σ → ℓ → Prop} (h₀ : P start)
    (hs : ∀ s l s', P s → step s l s' → Q s l → P s') {ls : List ℓ}
    (h : EachStep step start ls Q) : Throughout step start ls P := by
  intro pre hpre s hr
  induction hr with
  | nil => exact h₀
  | @snoc pre s s' l hr hl ih =>
    exact hs s l s' (ih ((List.prefix_append _ _).trans hpre)) hl (h pre l hpre s hr)

/-- A system that also writes down what each of its steps emits. -/
def Logged (step : σ → ℓ → σ → Prop) (emit : σ → ℓ → List ε) :
    σ × List ε → ℓ → σ × List ε → Prop :=
  fun s l s' ↦ step s.1 l s'.1 ∧ s'.2 = s.2 ++ emit s.1 l

theorem Run.log {emit : σ → ℓ → List ε} {log₀ log : List ε} {ls : List ℓ} {s s' : σ} {l : ℓ}
    (h : Run (Logged step emit) (start, log₀) ls (s, log)) (hs : step s l s') :
    Run (Logged step emit) (start, log₀) (ls ++ [l]) (s', log ++ emit s l) :=
  h.snoc ⟨hs, rfl⟩

theorem Run.forget {emit : σ → ℓ → List ε} {log : List ε} {ls : List ℓ} {s : σ × List ε}
    (h : Run (Logged step emit) (start, log) ls s) : Run step start ls s.1 := by
  induction h with
  | nil => exact .nil
  | snoc _ hl ih => exact ih.snoc hl.1

/-- Writing a log does not restrict the runs. -/
theorem Run.logged (emit : σ → ℓ → List ε) (log₀ : List ε) {ls : List ℓ} {s : σ}
    (h : Run step start ls s) : ∃ log, Run (Logged step emit) (start, log₀) ls (s, log) := by
  induction h with
  | nil => exact ⟨log₀, .nil⟩
  | snoc _ hl ih =>
    obtain ⟨log, hr⟩ := ih
    exact ⟨_, hr.log hl⟩

def execute (next : σ → ℓ → Option σ) (start : σ) (ls : List ℓ) : Option σ :=
  ls.foldlM next start

theorem run_of_execute {next : σ → ℓ → Option σ} (hnext : ∀ s l s', next s l = some s' → step s l s')
    {ls : List ℓ} {s : σ} (h : execute next start ls = some s) : Run step start ls s := by
  induction ls generalizing start with
  | nil => exact Option.some.inj h ▸ .nil
  | cons l ls ih =>
    simp only [execute, List.foldlM_cons, Option.bind_eq_bind, Option.bind_eq_some_iff] at h
    obtain ⟨s', hs, h⟩ := h
    exact Run.trans (Run.snoc .nil (hnext _ _ _ hs)) (ih h)

theorem exists_run {next : σ → ℓ → Option σ} (hnext : ∀ s l s', next s l = some s' → step s l s')
    (start : σ) (ls : List ℓ) (P : σ → Bool) (h : (execute next start ls).any P = true) :
    ∃ s, Run step start ls s ∧ P s = true := by
  cases he : execute next start ls with
  | none => simp [he] at h
  | some s => exact ⟨s, run_of_execute hnext he, by simpa [he] using h⟩

def checkEach (next : σ → ℓ → Option σ) (Q : σ → ℓ → Bool) : σ → List ℓ → Bool
  | _, [] => true
  | s, l :: ls => Q s l && (next s l).all fun s' ↦ checkEach next Q s' ls

theorem Run.cons_inv {ls : List ℓ} {l : ℓ} {s : σ} (h : Run step start (l :: ls) s) :
    ∃ s', step start l s' ∧ Run step s' ls s := by
  rw [← List.singleton_append] at h
  obtain ⟨s', hl, hr⟩ := h.split
  rw [← List.nil_append [l]] at hl
  obtain ⟨s₀, hnil, hl⟩ := hl.unsnoc
  rw [hnil.eq_of_nil] at hl
  exact ⟨s', hl, hr⟩

theorem EachStep.head {Q : σ → ℓ → Prop} {l : ℓ} {ls : List ℓ}
    (h : EachStep step start (l :: ls) Q) : Q start l :=
  h [] l ⟨ls, rfl⟩ start .nil

theorem EachStep.after {Q : σ → ℓ → Prop} {ls ls' : List ℓ} {s : σ}
    (h : EachStep step start (ls ++ ls') Q) (hr : Run step start ls s) : EachStep step s ls' Q := by
  rintro pre l ⟨post, rfl⟩ s' hs
  exact h (ls ++ pre) l ⟨post, by simp⟩ s' (hr.trans hs)

theorem EachStep.tail {Q : σ → ℓ → Prop} {l : ℓ} {ls : List ℓ} {s : σ}
    (h : EachStep step start (l :: ls) Q) (hl : step start l s) : EachStep step s ls Q := by
  have hone : Run step start [l] s := Run.snoc .nil hl
  exact EachStep.after h hone

theorem eachStep_of_checkEach {next : σ → ℓ → Option σ} {Q : σ → ℓ → Bool}
    (hnext : ∀ s l s', step s l s' → next s l = some s') {ls : List ℓ}
    (h : checkEach next Q start ls = true) :
    EachStep step start ls fun s l ↦ Q s l = true := by
  intro pre l hpre s hr
  induction pre generalizing start ls with
  | nil =>
    obtain ⟨post, rfl⟩ := hpre
    obtain rfl := hr.eq_of_nil
    simp only [List.nil_append, List.singleton_append, checkEach, Bool.and_eq_true] at h
    exact h.1
  | cons l' pre ih =>
    obtain ⟨post, rfl⟩ := hpre
    obtain ⟨s', hl, hr⟩ := hr.cons_inv
    simp only [List.cons_append, checkEach, Bool.and_eq_true, hnext _ _ _ hl,
      Option.all_some] at h
    exact ih h.2 ⟨post, rfl⟩ hr

end PrjOS.Transition
