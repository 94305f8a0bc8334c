import PrjOS.Library.LinkedQueue
import Mathlib.Data.Set.Insert

namespace PrjOS.LinkedQueue

open Function

variable {ι α : Type}

/-- The link held by a queue's head or by a node. -/
def Queues.link (q : Queues ι α) : ι ⊕ α → Option α
  | .inl i => q.head i
  | .inr x => q.next x

/-- Places that following links from the heads may come to. -/
def Live (L : Set α) : ι ⊕ α → Prop
  | .inl _ => True
  | .inr x => x ∈ L

/-- Nodes reached from the heads lie in `L`, and each is linked from at most
one place there; only the node `shared` may be linked from two. -/
structure Linked (q : Queues ι α) (L : Set α) (shared : Option α) : Prop where
  closed : ∀ {a x}, Live L a → q.link a = some x → x ∈ L
  unique : ∀ {a b x}, shared ≠ some x → Live L a → Live L b → q.link a = some x →
    q.link b = some x → a = b
  twice : ∀ {a b c x}, Live L a → Live L b → Live L c → q.link a = some x →
    q.link b = some x → q.link c = some x → a = b ∨ a = c ∨ b = c

theorem Linked.empty (tail : ι → Option α) (next : α → Option α) :
    Linked ⟨fun _ ↦ none, tail, next⟩ ∅ none := by
  have hno {a : ι ⊕ α} {x : α} (ha : Live ∅ a)
      (h : Queues.link ⟨fun _ ↦ none, tail, next⟩ a = some x) : False := by
    cases a with
    | inl i => simp [Queues.link] at h
    | inr y => exact ha
  exact ⟨fun ha h ↦ (hno ha h).elim, fun _ ha _ h _ ↦ (hno ha h).elim,
    fun ha _ _ h _ _ ↦ (hno ha h).elim⟩

theorem Linked.share {q : Queues ι α} {L : Set α} (h : Linked q L none) (shared : Option α) :
    Linked q L shared :=
  ⟨h.closed, fun _ ↦ h.unique (by simp), h.twice⟩

theorem Linked.mono {q q' : Queues ι α} {L : Set α} {shared : Option α} (h : Linked q L shared)
    (hle : ∀ a x, q'.link a = some x → q.link a = some x) : Linked q' L shared :=
  ⟨fun ha hx ↦ h.closed ha (hle _ _ hx),
    fun hs ha hb hx hy ↦ h.unique hs ha hb (hle _ _ hx) (hle _ _ hy),
    fun ha hb hc hx hy hz ↦ h.twice ha hb hc (hle _ _ hx) (hle _ _ hy) (hle _ _ hz)⟩

theorem live_of_insert {L : Set α} {x : α} {a : ι ⊕ α} (ha : Live (insert x L) a) (hne : a ≠ .inr x) :
    Live L a := by
  cases a with
  | inl j => trivial
  | inr y => exact ha.resolve_left (by simpa using hne)

variable [DecidableEq ι] [DecidableEq α]

/-- A queue that holds a node also has a tail, so that a push finds it. -/
def Tailed (q : Queues ι α) : Prop := ∀ i, q.head i ≠ none → q.tail i ≠ none

theorem Tailed.pop {q : Queues ι α} (h : Tailed q) {i : ι} {x : α}
    (hi : q.head i = some x) : Tailed (q.pop i x) := by
  intro j hj
  by_cases he : j = i
  · subst he
    exact h j (by simp [hi])
  · exact h j (by simpa [Queues.pop, he] using hj)

theorem Tailed.push {q q' : Queues ι α} (h : Tailed q) {i : ι} {x : α}
    (hp : q.push i x = some q') : Tailed q' := by
  have htail : ∀ j, (if j = i then some x else q.tail j) = none → j ≠ i ∧ q.tail j = none := by
    intro j hj
    split_ifs at hj with he
    exact ⟨he, hj⟩
  unfold Queues.push at hp
  intro j hj ht
  split at hp
  · obtain rfl := Option.some.inj hp
    obtain ⟨he, hq⟩ := htail j (by simpa [update_apply] using ht)
    exact h j (by simpa [he] using hj) hq
  · split at hp
    · simp at hp
    · obtain rfl := Option.some.inj hp
      obtain ⟨he, hq⟩ := htail j (by simpa [update_apply] using ht)
      exact h j hj hq

theorem Tailed.exists_push {q : Queues ι α} (h : Tailed q) (i : ι) (x : α) :
    ∃ q', q.push i x = some q' := by
  unfold Queues.push
  cases hh : q.head i with
  | none => exact ⟨_, rfl⟩
  | some y =>
    cases ht : q.tail i with
    | none => exact absurd ht (h i (by simp [hh]))
    | some last => exact ⟨_, rfl⟩

/-- The place that held, before a `pop`, the link that `a` holds after it. -/
def origin (i : ι) (x : α) (a : ι ⊕ α) : ι ⊕ α := if a = .inl i then .inr x else a

section Pop

variable {q : Queues ι α} {L : Set α} {i : ι} {x : α}

theorem pop_link {a : ι ⊕ α} {y : α} (h : (q.pop i x).link a = some y) :
    a ≠ .inr x ∧ q.link (origin i x a) = some y := by
  cases a with
  | inl j =>
    refine ⟨by simp, ?_⟩
    by_cases hj : j = i
    · subst hj
      simpa [origin, Queues.link, Queues.pop] using h
    · simpa [origin, Queues.link, Queues.pop, hj] using h
  | inr z =>
    by_cases hz : z = x
    · subst hz
      simp [Queues.link, Queues.pop] at h
    · exact ⟨by simpa using hz, by simpa [origin, Queues.link, Queues.pop, hz] using h⟩

theorem origin_inj {a b : ι ⊕ α} (ha : a ≠ .inr x) (hb : b ≠ .inr x)
    (h : origin i x a = origin i x b) : a = b := by
  unfold origin at h
  split_ifs at h with h₁ h₂ h₂
  · rw [h₁, h₂]
  · exact absurd h.symm hb
  · exact absurd h ha
  · exact h

theorem origin_ne (a : ι ⊕ α) : origin i x a ≠ .inl i := by
  unfold origin
  split_ifs with h
  · simp
  · exact h

theorem origin_live {a : ι ⊕ α} (hx : x ∈ L) (ha : Live L a) : Live L (origin i x a) := by
  unfold origin
  split_ifs
  · exact hx
  · exact ha

variable {shared : Option α}

theorem Linked.pop_live (h : Linked q L shared) (hi : q.head i = some x) :
    Linked (q.pop i x) L shared := by
  have hx : x ∈ L := h.closed (a := .inl i) trivial hi
  refine ⟨fun ha hy ↦ h.closed (origin_live hx ha) (pop_link hy).2, fun hs ha hb hy hy' ↦ ?_,
    fun ha hb hc hy hy' hy'' ↦ ?_⟩
  · exact origin_inj (pop_link hy).1 (pop_link hy').1 (h.unique hs (origin_live hx ha)
      (origin_live hx hb) (pop_link hy).2 (pop_link hy').2)
  · rcases h.twice (origin_live hx ha) (origin_live hx hb) (origin_live hx hc) (pop_link hy).2
      (pop_link hy').2 (pop_link hy'').2 with he | he | he
    · exact .inl (origin_inj (pop_link hy).1 (pop_link hy').1 he)
    · exact .inr (.inl (origin_inj (pop_link hy).1 (pop_link hy'').1 he))
    · exact .inr (.inr (origin_inj (pop_link hy').1 (pop_link hy'').1 he))

theorem Linked.pop_shared (h : Linked q L (some x)) (hi : q.head i = some x) :
    Linked (q.pop i x) L none := by
  have hx : x ∈ L := h.closed (a := .inl i) trivial hi
  have hp := h.pop_live hi
  refine ⟨hp.closed, fun {a b y} _ ha hb hy hy' ↦ ?_, hp.twice⟩
  by_cases hyx : y = x
  · subst hyx
    rcases h.twice (a := .inl i) trivial (origin_live hx ha) (origin_live hx hb) hi
      (pop_link hy).2 (pop_link hy').2 with he | he | he
    · exact absurd he.symm (origin_ne a)
    · exact absurd he.symm (origin_ne b)
    · exact origin_inj (pop_link hy).1 (pop_link hy').1 he
  · exact hp.unique (by simpa using Ne.symm hyx) ha hb hy hy'

theorem Linked.pop_free (h : Linked q L shared) (hi : q.head i = some x) (hs : shared ≠ some x) :
    Linked (q.pop i x) (L \ {x}) shared := by
  have hx : x ∈ L := h.closed (a := .inl i) trivial hi
  have hp := h.pop_live hi
  have hlive {a : ι ⊕ α} (ha : Live (L \ {x}) a) : Live L a := by
    cases a with
    | inl j => trivial
    | inr y => exact ha.1
  refine ⟨fun ha hy ↦ ⟨hp.closed (hlive ha) hy, ?_⟩,
    fun hs ha hb ↦ hp.unique hs (hlive ha) (hlive hb),
    fun ha hb hc ↦ hp.twice (hlive ha) (hlive hb) (hlive hc)⟩
  rintro rfl
  exact origin_ne _ (h.unique hs (origin_live hx (hlive ha)) (b := .inl i) trivial
    (pop_link hy).2 hi)

end Pop

section Push

variable {q q' : Queues ι α} {L : Set α} {i : ι} {x : α}

/-- A `push` sets one link to the new node and clears the node's own. -/
theorem push_link (h : q.push i x = some q') : ∃ a₀, ∀ a, q'.link a =
    if a = .inr x then none else if a = a₀ then some x else q.link a := by
  unfold Queues.push at h
  split at h
  · obtain rfl := Option.some.inj h
    refine ⟨.inl i, fun a ↦ ?_⟩
    cases a with
    | inl j => by_cases hj : j = i <;> simp [Queues.link, hj]
    | inr y => by_cases hy : y = x <;> simp [Queues.link, hy]
  · split at h
    · simp at h
    · rename_i last _
      obtain rfl := Option.some.inj h
      refine ⟨.inr last, fun a ↦ ?_⟩
      cases a with
      | inl j => simp [Queues.link]
      | inr y => by_cases hy : y = x <;> by_cases hl : y = last <;> simp_all [Queues.link]

variable {shared : Option α}

theorem push_old {a₀ a : ι ⊕ α} {y : α} (hlink : ∀ a, q'.link a =
      if a = .inr x then none else if a = a₀ then some x else q.link a)
    (hy : q'.link a = some y) : a ≠ .inr x ∧ ((a = a₀ ∧ y = x) ∨ q.link a = some y) := by
  rw [hlink] at hy
  split_ifs at hy with h₁ h₂
  · exact ⟨h₁, .inl ⟨h₂, (Option.some.inj hy).symm⟩⟩
  · exact ⟨h₁, .inr hy⟩

theorem Linked.push_free (h : Linked q L shared) (hx : x ∉ L) (hp : q.push i x = some q') :
    Linked q' (insert x L) shared := by
  obtain ⟨a₀, hlink⟩ := push_link hp
  have hold {a : ι ⊕ α} {y : α} (ha : Live (insert x L) a) (hy : q'.link a = some y) :
      (a = a₀ ∧ y = x) ∨ (Live L a ∧ q.link a = some y ∧ y ≠ x) := by
    obtain ⟨hne, hcase⟩ := push_old hlink hy
    refine hcase.imp_right fun he ↦ ⟨live_of_insert ha hne, he, ?_⟩
    rintro rfl
    exact hx (h.closed (live_of_insert ha hne) he)
  refine ⟨fun ha hy ↦ ?_, fun hs ha hb hy hy' ↦ ?_, fun ha hb hc hy hy' hy'' ↦ ?_⟩
  · rcases hold ha hy with ⟨-, rfl⟩ | ⟨hl, he, -⟩
    · exact Set.mem_insert ..
    · exact Set.mem_insert_of_mem _ (h.closed hl he)
  · rcases hold ha hy with ⟨rfl, rfl⟩ | ⟨hl, he, hne⟩
    · rcases hold hb hy' with ⟨rfl, -⟩ | ⟨-, -, hne⟩
      · rfl
      · exact absurd rfl hne
    · rcases hold hb hy' with ⟨-, rfl⟩ | ⟨hl', he', -⟩
      · exact absurd rfl hne
      · exact h.unique hs hl hl' he he'
  · rcases hold ha hy with ⟨rfl, rfl⟩ | ⟨hl, he, hne⟩
    · rcases hold hb hy' with ⟨rfl, -⟩ | ⟨-, -, hne⟩
      · exact .inl rfl
      · exact absurd rfl hne
    · rcases hold hb hy' with ⟨-, rfl⟩ | ⟨hl', he', -⟩
      · exact absurd rfl hne
      · rcases hold hc hy'' with ⟨-, rfl⟩ | ⟨hl'', he'', -⟩
        · exact absurd rfl hne
        · exact h.twice hl hl' hl'' he he' he''

theorem Linked.push_shared (h : Linked q L none) (hx : x ∈ L) (hp : q.push i x = some q') :
    Linked q' L (some x) := by
  obtain ⟨a₀, hlink⟩ := push_link hp
  refine ⟨fun ha hy ↦ ?_, fun hs ha hb hy hy' ↦ ?_, fun ha hb hc hy hy' hy'' ↦ ?_⟩
  · rcases (push_old hlink hy).2 with ⟨-, rfl⟩ | he
    · exact hx
    · exact h.closed ha he
  · have hy := (push_old hlink hy).2.resolve_left fun he ↦ hs (congrArg some he.2.symm)
    have hy' := (push_old hlink hy').2.resolve_left fun he ↦ hs (congrArg some he.2.symm)
    exact h.unique (by simp) ha hb hy hy'
  · rcases (push_old hlink hy).2 with ⟨rfl, -⟩ | he
    · rcases (push_old hlink hy').2 with ⟨rfl, -⟩ | he'
      · exact .inl rfl
      · rcases (push_old hlink hy'').2 with ⟨rfl, -⟩ | he''
        · exact .inr (.inl rfl)
        · exact .inr (.inr (h.unique (by simp) hb hc he' he''))
    · rcases (push_old hlink hy').2 with ⟨rfl, -⟩ | he'
      · rcases (push_old hlink hy'').2 with ⟨rfl, -⟩ | he''
        · exact .inr (.inr rfl)
        · exact .inr (.inl (h.unique (by simp) ha hc he he''))
      · exact .inl (h.unique (by simp) ha hb he he')

end Push

end PrjOS.LinkedQueue
