import PrjOS.Library.Transition

namespace PrjOS.Program

open Transition

/-- A program that calls out and goes on with the answers. `A c` is what a call
`c` is answered with. -/
inductive Prog (C : Type) (A : C → Type) (α : Type)
  | done (a : α)
  | call (c : C) (k : A c → Prog C A α)

abbrev CallEvent {C : Type} (A : C → Type) : Type := Σ c, A c

/-- What comes after each of the points at which a task can be, or `none` where
it ends. -/
abbrev Blocks (C : Type) (A : C → Type) (Pt : Type) : Type := Pt → Option (Prog C A Pt)

variable {C G α β Pt : Type} {A : C → Type}

def Prog.bind : Prog C A α → (α → Prog C A β) → Prog C A β
  | .done a, f => f a
  | .call c k, f => .call c fun x ↦ (k x).bind f

instance : Monad (Prog C A) where
  pure := .done
  bind := Prog.bind

@[simp] theorem pure_eq_done (a : α) : (pure a : Prog C A α) = .done a := rfl

@[simp] theorem done_bind (a : α) (f : α → Prog C A β) : Prog.done a >>= f = f a := rfl

@[simp] theorem call_bind (c : C) (k : A c → Prog C A α) (f : α → Prog C A β) :
    Prog.call c k >>= f = .call c fun x ↦ k x >>= f := rfl

theorem bind_assoc (p : Prog C A α) {γ : Type} (f : α → Prog C A β) (g : β → Prog C A γ) :
    p >>= f >>= g = p >>= fun a ↦ f a >>= g := by
  induction p with
  | done a => rfl
  | call c k ih => exact congrArg (Prog.call c) (funext ih)

inductive Exec : Prog C A α → List (CallEvent A) → α → Prop
  | done (a : α) : Exec (.done a) [] a
  | call {c : C} {k : A c → Prog C A α} {t : List (CallEvent A)} {a : α} (x : A c) :
      Exec (k x) t a → Exec (.call c k) (⟨c, x⟩ :: t) a

@[simp] theorem exec_done {a b : α} {t : List (CallEvent A)} :
    Exec (.done a) t b ↔ t = [] ∧ b = a := by
  constructor
  · intro h
    cases h with
    | done => exact ⟨rfl, rfl⟩
  · intro ⟨ht, hb⟩
    rw [ht, hb]
    exact .done a

theorem exec_call {c : C} {k : A c → Prog C A α} {t : List (CallEvent A)} {a : α} :
    Exec (.call c k) t a ↔ ∃ x t', t = ⟨c, x⟩ :: t' ∧ Exec (k x) t' a := by
  constructor
  · intro h
    cases h with
    | call x h => exact ⟨x, _, rfl, h⟩
  · rintro ⟨x, t', rfl, h⟩
    exact .call x h

theorem exec_call_cons {c : C} {k : A c → Prog C A α} {x : A c} {t : List (CallEvent A)} {a : α} :
    Exec (.call c k) (⟨c, x⟩ :: t) a ↔ Exec (k x) t a := by
  constructor
  · intro h
    cases h with
    | call x h => exact h
  · exact .call x

theorem exec_bind {p : Prog C A α} {f : α → Prog C A β} {t : List (CallEvent A)} {b : β} :
    Exec (p >>= f) t b ↔ ∃ t₁ t₂ a, t = t₁ ++ t₂ ∧ Exec p t₁ a ∧ Exec (f a) t₂ b := by
  induction p generalizing t with
  | done a =>
    constructor
    · intro h
      exact ⟨[], t, a, rfl, .done a, h⟩
    · rintro ⟨t₁, t₂, a', rfl, h₁, h₂⟩
      obtain ⟨rfl, rfl⟩ := exec_done.mp h₁
      exact h₂
  | call c k ih =>
    rw [call_bind, exec_call]
    constructor
    · rintro ⟨x, t', rfl, h⟩
      obtain ⟨t₁, t₂, a, rfl, h₁, h₂⟩ := (ih x).mp h
      exact ⟨⟨c, x⟩ :: t₁, t₂, a, rfl, .call x h₁, h₂⟩
    · rintro ⟨t₁, t₂, a, rfl, h₁, h₂⟩
      obtain ⟨x, t', rfl, h⟩ := exec_call.mp h₁
      exact ⟨x, t' ++ t₂, rfl, (ih x).mpr ⟨t', t₂, a, rfl, h, h₂⟩⟩

/-- Every program comes to its end, whatever the answers. -/
theorem exists_exec [∀ c, Nonempty (A c)] (p : Prog C A α) : ∃ t a, Exec p t a := by
  induction p with
  | done a => exact ⟨[], a, .done a⟩
  | call c k ih =>
    obtain ⟨t, a, h⟩ := ih (Classical.arbitrary _)
    exact ⟨_, a, .call _ h⟩

def Prog.run (answers : (c : C) → A c) : Prog C A α → List (CallEvent A) × α
  | .done a => ([], a)
  | .call c k => (⟨c, answers c⟩ :: ((k (answers c)).run answers).1,
      ((k (answers c)).run answers).2)

section Answers

variable (answers : (c : C) → A c)

@[simp] theorem run_done (a : α) : (.done a : Prog C A α).run answers = ([], a) := rfl

@[simp] theorem run_call (c : C) (k : A c → Prog C A α) : (Prog.call c k).run answers =
    (⟨c, answers c⟩ :: ((k (answers c)).run answers).1, ((k (answers c)).run answers).2) := rfl

theorem run_bind (p : Prog C A α) (f : α → Prog C A β) : (p >>= f).run answers =
    ((p.run answers).1 ++ ((f (p.run answers).2).run answers).1,
      ((f (p.run answers).2).run answers).2) := by
  induction p with
  | done a => rfl
  | call c k ih => rw [call_bind, run_call, ih, run_call, List.cons_append]

end Answers

/-- What a task may call in each state of its conversation with the others,
which answers it relies on, and where an exchange leads. -/
structure Contract (C : Type) (A : C → Type) (G : Type) where
  pre : G → C → Prop
  rely : G → (c : C) → A c → Prop
  next : G → (c : C) → A c → G

def Prog.Meets (S : Contract C A G) (post : α → G → Prop) : Prog C A α → G → Prop
  | .done a, g => post a g
  | .call c k, g => S.pre g c ∧ ∀ x, S.rely g c x → (k x).Meets S post (S.next g c x)

section Meets

variable {S : Contract C A G} {g : G}

theorem meets_call {post : α → G → Prop} {c : C} {k : A c → Prog C A α} :
    (Prog.call c k).Meets S post g ↔
      S.pre g c ∧ ∀ x, S.rely g c x → (k x).Meets S post (S.next g c x) := Iff.rfl

theorem meets_bind {p : Prog C A α} {f : α → Prog C A β} {post : β → G → Prop} :
    (p >>= f).Meets S post g ↔ p.Meets S (fun a g ↦ (f a).Meets S post g) g := by
  induction p generalizing g with
  | done a => exact Iff.rfl
  | call c k ih =>
    rw [call_bind, meets_call, meets_call]
    exact and_congr_right fun _ ↦ forall₂_congr fun x _ ↦ ih x

theorem Prog.Meets.mono {p : Prog C A α} {post post' : α → G → Prop} (h : p.Meets S post g)
    (hpost : ∀ a g, post a g → post' a g) : p.Meets S post' g := by
  induction p generalizing g with
  | done a => exact hpost a g h
  | call c k ih => exact ⟨h.1, fun x hx ↦ ih x (h.2 x hx)⟩

/-- A contract that contains another one, at the states `f g`. -/
theorem Prog.Meets.embed {G' : Type} {S' : Contract C A G'} (f : G → G')
    (hpre : ∀ g c, S.pre g c → S'.pre (f g) c)
    (hrely : ∀ g c x, S'.rely (f g) c x → S.rely g c x)
    (hnext : ∀ g c x, S'.next (f g) c x = f (S.next g c x)) {p : Prog C A α}
    {post : α → G → Prop} {post' : α → G' → Prop} (hpost : ∀ a g, post a g → post' a (f g))
    (h : p.Meets S post g) : p.Meets S' post' (f g) := by
  induction p generalizing g with
  | done a => exact hpost a g h
  | call c k ih =>
    refine ⟨hpre g c h.1, fun x hx ↦ ?_⟩
    rw [hnext]
    exact ih x (h.2 x (hrely g c x hx))

def Contract.after (S : Contract C A G) (g : G) (t : List (CallEvent A)) : G :=
  t.foldl (fun g e ↦ S.next g e.1 e.2) g

theorem after_append (S : Contract C A G) (g : G) (t t' : List (CallEvent A)) :
    S.after g (t ++ t') = S.after (S.after g t) t' := List.foldl_append

def Contract.Relied (S : Contract C A G) (g : G) (t : List (CallEvent A)) : Prop :=
  ∀ t₁ e t₂, t = t₁ ++ e :: t₂ → S.rely (S.after g t₁) e.1 e.2

def Contract.Allowed (S : Contract C A G) (g : G) (t : List (CallEvent A)) : Prop :=
  ∀ t₁ e t₂, t = t₁ ++ e :: t₂ → S.pre (S.after g t₁) e.1

theorem Contract.Allowed.snoc {t : List (CallEvent A)} {e : CallEvent A} (h : S.Allowed g t)
    (he : S.pre (S.after g t) e.1) : S.Allowed g (t ++ [e]) := by
  intro t₁ e' t₂ ht
  rcases List.eq_nil_or_concat t₂ with rfl | ⟨t, e'', rfl⟩
  · obtain ⟨rfl, he'⟩ := List.append_inj' ht rfl
    obtain rfl := List.singleton_inj.mp he'
    exact he
  · rw [List.concat_eq_append, ← List.cons_append, ← List.append_assoc] at ht
    exact h t₁ e' t (List.append_inj' ht rfl).1

/-- The contract is kept from every point of a task that satisfies `inv`. -/
def Contract.Kept (S : Contract C A G) (inv : Pt → G → Prop) (blocks : Blocks C A Pt) : Prop :=
  ∀ pt g p, inv pt g → blocks pt = some p → p.Meets S inv g

end Meets

/-- A task on its own, in a world that gives any answers. -/
inductive OpenStep (blocks : Blocks C A Pt) :
    Prog C A Pt → List (CallEvent A) → Prog C A Pt → Prop
  | call (c : C) (k : A c → Prog C A Pt) (x : A c) : OpenStep blocks (.call c k) [⟨c, x⟩] (k x)
  | jump {pt : Pt} {p : Prog C A Pt} : blocks pt = some p → OpenStep blocks (.done pt) [] p

/-- A task that keeps its contract point by point keeps it in every run. -/
theorem open_run_meets {S : Contract C A G} {inv : Pt → G → Prop} {blocks : Blocks C A Pt}
    (hblocks : S.Kept inv blocks) {p q : Prog C A Pt} {g : G} (hp : p.Meets S inv g)
    {ls : List (List (CallEvent A))} (h : Run (OpenStep blocks) p ls q) (hr : S.Relied g ls.flatten) :
    S.Allowed g ls.flatten ∧ q.Meets S inv (S.after g ls.flatten) := by
  induction h with
  | nil =>
    refine ⟨fun t₁ e t₂ ht ↦ ?_, hp⟩
    simp at ht
  | @snoc ls q q' l _ hl ih =>
    rw [List.flatten_append, List.flatten_singleton] at hr ⊢
    have hpre : S.Relied g ls.flatten := by
      intro t₁ e t₂ ht
      exact hr t₁ e (t₂ ++ l) (by rw [ht, List.append_assoc, List.cons_append])
    obtain ⟨hallowed, hq⟩ := ih hpre
    rw [after_append]
    cases hl with
    | call c k x =>
      exact ⟨hallowed.snoc hq.1, hq.2 x (hr ls.flatten ⟨c, x⟩ [] rfl)⟩
    | jump hpt =>
      rw [List.append_nil]
      exact ⟨hallowed, hblocks _ _ _ hq hpt⟩

end PrjOS.Program
