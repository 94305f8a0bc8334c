import PrjOS.Properties.Formats

namespace PrjOS

open ByteMemory

inductive ArgumentKind
  | word
  | long
  deriving DecidableEq

inductive Argument
  | word (w : Word)
  | long (x : BitVec 64)
  deriving DecidableEq

def numberFormat (letter : Byte) : Option (Word × Word × Word) :=
  if letter = 100 then some (10, 1, 97)
  else if letter = 120 then some (16, 1, 97)
  else if letter = 88 then some (16, 1, 65)
  else if letter = 117 then some (10, 0, 97)
  else none

/-- What a directive takes. Unknown letters are passed over. -/
def kindOf (isLong : Bool) (letter : Byte) : Option ArgumentKind :=
  if (numberFormat letter).isSome then some (if isLong then .long else .word)
  else if letter = 115 ∨ letter = 102 ∨ letter = 99 then some .word
  else none

def Piece.kind : Piece → Option ArgumentKind
  | .directive f letter _ => kindOf f.long letter
  | _ => none

def kinds (ps : List Piece) : List ArgumentKind := ps.filterMap Piece.kind

/-- The arguments as `print` reads them from `varg` on. -/
def readArguments (word : ℕ → Word) : ℕ → List ArgumentKind → List Argument
  | _, [] => []
  | varg, .word :: ks => .word (word varg) :: readArguments word (varg + 1) ks
  | varg, .long :: ks =>
    .long (word (varg + 2) ++ word (varg + 1)) :: readArguments word (varg + 2) ks

/-- The arguments where the caller puts them: behind the `named` parameters, one
of `bwprintf` and two of `bwsprintf`, and a long starts at an even word. -/
def placedArguments (named : ℕ) (word : ℕ → Word) : ℕ → List ArgumentKind → List Argument
  | _, [] => []
  | varg, .word :: ks => .word (word varg) :: placedArguments named word (varg + 1) ks
  | varg, .long :: ks =>
    let varg := if (named + varg) % 2 = 0 then varg else varg + 1
    .long (word (varg + 1) ++ word varg) :: placedArguments named word (varg + 2) ks

/-- Words and then longs, which come an odd number of words behind the start of
the parameters, or no longs at all. -/
def Aligned (named : ℕ) (ks : List ArgumentKind) : Prop :=
  ∃ n m, ks = List.replicate n .word ++ List.replicate m .long ∧ (m = 0 ∨ Odd (named + n))

section Alignment

variable {named : ℕ} {ks : List ArgumentKind} {varg : ℕ}

/-- After the first long, `print` is one word behind the caller. -/
theorem read_longs (word : ℕ → Word) (m : ℕ) (h : (named + varg) % 2 = 1) :
    readArguments word varg (List.replicate m .long) =
      placedArguments named word (varg + 1) (List.replicate m .long) := by
  induction m generalizing varg with
  | zero => rfl
  | succ m ih =>
    have heven : (named + (varg + 1)) % 2 = 0 := by omega
    rw [List.replicate_succ, readArguments, placedArguments, ih (by omega)]
    simp only [if_pos heven]

theorem placed_longs (word : ℕ → Word) (m : ℕ) (h : (named + varg) % 2 = 1) :
    placedArguments named word varg (List.replicate m .long) =
      placedArguments named word (varg + 1) (List.replicate m .long) := by
  cases m with
  | zero => rfl
  | succ m =>
    have hodd : ¬ (named + varg) % 2 = 0 := by omega
    have heven : (named + (varg + 1)) % 2 = 0 := by omega
    rw [List.replicate_succ, placedArguments, placedArguments]
    simp only [if_neg hodd, if_pos heven]

theorem read_aligned (word : ℕ → Word) (n m : ℕ) (h : m = 0 ∨ (named + varg + n) % 2 = 1) :
    readArguments word varg (List.replicate n .word ++ List.replicate m .long) =
      placedArguments named word varg (List.replicate n .word ++ List.replicate m .long) := by
  induction n generalizing varg with
  | zero =>
    rw [List.replicate_zero, List.nil_append]
    rcases h with rfl | h
    · rfl
    · rw [Nat.add_zero] at h
      rw [read_longs word m h, placed_longs word m h]
  | succ n ih =>
    rw [List.replicate_succ, List.cons_append, readArguments, placedArguments,
      ih (h.imp id fun h ↦ by omega)]

def onlyWord (i : ℕ) : ℕ → Word := fun j ↦ if j = i then 1 else 0

/-- Once it is behind, `print` reads no word where the caller put it. -/
theorem longs_of_behind (h : (named + varg) % 2 = 1)
    (hread : ∀ word, readArguments word varg ks = placedArguments named word (varg + 1) ks) :
    ∃ m, ks = List.replicate m .long := by
  induction ks generalizing varg with
  | nil => exact ⟨0, rfl⟩
  | cons k ks ih =>
    cases k with
    | word =>
      have hwords := (List.cons.inj (hread (onlyWord varg))).1
      simp [onlyWord] at hwords
    | long =>
      have heven : (named + (varg + 1)) % 2 = 0 := by omega
      have hrest (word : ℕ → Word) : readArguments word (varg + 2) ks =
          placedArguments named word (varg + 2 + 1) ks := by
        have hcons := hread word
        rw [readArguments, placedArguments] at hcons
        simp only [if_pos heven] at hcons
        exact (List.cons.inj hcons).2
      obtain ⟨m, rfl⟩ := ih (by omega) hrest
      exact ⟨m + 1, rfl⟩

theorem aligned_of_read
    (hread : ∀ word, readArguments word varg ks = placedArguments named word varg ks) :
    ∃ n m, ks = List.replicate n .word ++ List.replicate m .long ∧
      (m = 0 ∨ (named + varg + n) % 2 = 1) := by
  induction ks generalizing varg with
  | nil => exact ⟨0, 0, rfl, .inl rfl⟩
  | cons k ks ih =>
    cases k with
    | word =>
      obtain ⟨n, m, rfl, h⟩ := ih fun word ↦ (List.cons.inj (hread word)).2
      exact ⟨n + 1, m, rfl, h.imp id fun h ↦ by omega⟩
    | long =>
      by_cases heven : (named + varg) % 2 = 0
      · have hfirst := hread (onlyWord varg)
        rw [readArguments, placedArguments] at hfirst
        simp only [if_pos heven] at hfirst
        have hlongs := Argument.long.inj (List.cons.inj hfirst).1
        simp [onlyWord] at hlongs
      · have hrest (word : ℕ → Word) : readArguments word (varg + 2) ks =
            placedArguments named word (varg + 2 + 1) ks := by
          have hcons := hread word
          rw [readArguments, placedArguments] at hcons
          simp only [if_neg heven] at hcons
          exact (List.cons.inj hcons).2
        obtain ⟨m, rfl⟩ := longs_of_behind (by omega) hrest
        exact ⟨0, m + 1, rfl, .inr (by omega)⟩

theorem read_placed_iff :
    (∀ word, readArguments word 0 ks = placedArguments named word 0 ks) ↔ Aligned named ks := by
  constructor
  · intro hread
    obtain ⟨n, m, rfl, h⟩ := aligned_of_read hread
    exact ⟨n, m, rfl, h.imp id fun h ↦ Nat.odd_iff.mpr (by omega)⟩
  · rintro ⟨n, m, rfl, h⟩ word
    exact read_aligned word n m (h.imp id fun h ↦ by rw [Nat.add_zero]; exact Nat.odd_iff.mp h)

end Alignment

def argumentText (v : VarArgs) (f : FormatSpec) (letter : Byte) : Argument → List Byte
  | .word w =>
    match numberFormat letter with
    | some (b, sg, letbase) => formatted w b sg f.width f.pad letbase
    | none =>
      if letter = 115 then
        padded (if w = 0 then nullString else cString (v.memory w)) f.width.toInt f.pad
      else if letter = 102 then
        formatted (v.floatTop w) 10 1 0 f.pad 97 ++
          46 :: formatted (v.floatBottom w) 10 0 0 f.pad 97
      else padded (cString [byteOf w 0]) f.width.toInt f.pad
  | .long x =>
    match numberFormat letter with
    | some (b, sg, letbase) => formatted x b sg f.width f.pad letbase
    | none => []

def printedText (v : VarArgs) : List Piece → List Argument → List Byte
  | [], _ => []
  | .text c _ :: ps, args => c :: printedText v ps args
  | .percent :: ps, args => 37 :: printedText v ps args
  | .directive f letter _ :: ps, args =>
    match kindOf f.long letter, args with
    | none, args => printedText v ps args
    | some _, [] => []
    | some _, a :: args => argumentText v f.spec letter a ++ printedText v ps args

/-- The argument fits the array in which its numeral is made, and strings and
widths have a length. -/
def ArgumentFits (v : VarArgs) (f : FormatSpec) (letter : Byte) : Argument → Prop
  | .word w => letter = 115 → (cString (v.memory w)).length < 2 ^ 31
  | .long x => ∀ b sg letbase, numberFormat letter = some (b, sg, letbase) → Fits x b sg f.width f.pad

def ArgumentsFit (v : VarArgs) : List Piece → List Argument → Prop
  | .directive f letter _ :: ps, args =>
    Flags.decimalValue f.digits < 2 ^ 31 ∧
      match kindOf f.long letter, args with
      | none, args => ArgumentsFit v ps args
      | some _, [] => True
      | some _, a :: args => ArgumentFits v f.spec letter a ∧ ArgumentsFit v ps args
  | _ :: ps, args => ArgumentsFit v ps args
  | [], _ => True

section Text

variable {v : VarArgs}

def Printed.Shows (p : Printed) (chars : List Byte) : Prop :=
  p.chars = chars ∧ p.pc = BitVec.ofNat 32 chars.length

theorem Printed.Shows.append {p q : Printed} {l l' : List Byte} (h : p.Shows l) (h' : q.Shows l') :
    (p.append q).Shows (l ++ l') := by
  refine ⟨by rw [Printed.append, h.1, h'.1], ?_⟩
  rw [Printed.append, h.2, h'.2, List.length_append, BitVec.ofNat_add]

theorem Printed.Shows.printchar {p : Printed} {l : List Byte} (h : p.Shows l) (c : Byte) :
    (p.printchar c).Shows (l ++ [c]) := h.append (q := ⟨[c], 1⟩) ⟨rfl, rfl⟩

theorem Prints.shows {r : Option Printed} {chars : List Byte} (h : Prints r chars) :
    ∃ p, inPrintBuf r = .ok p ∧ p.Shows chars := by
  obtain ⟨p, rfl, hchars, hpc⟩ := h
  have hlt : p.pc.toInt < 2 ^ 31 := BitVec.toInt_lt
  refine ⟨p, rfl, hchars, BitVec.eq_of_toInt_eq ?_⟩
  rw [toInt_length (by omega), hpc]

theorem prints_shows {s : List Byte} (hs : s.length < 2 ^ 31) (width pad : Word) :
    (prints s width pad).Shows (padded s width.toInt pad) := by
  have hchars := prints_chars hs width pad
  have hcounted := prints_counted s width pad
  rw [Printed.Counted, hchars] at hcounted
  exact ⟨hchars, hcounted⟩

theorem Flags.width_ne {f : Flags} (h : decimalValue f.digits < 2 ^ 31) :
    f.spec.width.toInt ≠ -2 ^ 31 := by
  have hwidth : f.spec.width.toNat = decimalValue f.digits := by
    change (BitVec.ofNat 32 _).toNat = _
    rw [BitVec.toNat_ofNat, Nat.mod_eq_of_lt (by omega)]
  rw [BitVec.toInt_eq_toNat_of_lt (by omega)]
  omega

theorem numberFormat_letters {letter : Byte} {b sg letbase : Word}
    (h : numberFormat letter = some (b, sg, letbase)) :
    (b = 10 ∨ b = 16) ∧ (letbase = 97 ∨ letbase = 65) := by
  unfold numberFormat at h
  split_ifs at h <;> simp only [Option.some.injEq, Prod.mk.injEq] at h <;>
    obtain ⟨rfl, -, rfl⟩ := h <;> decide

theorem printDirective_number {letter : Byte} {b sg letbase : Word}
    (h : numberFormat letter = some (b, sg, letbase)) (varg : ℕ) (f : FormatSpec) :
    printDirective v varg f letter = printArgument v varg f b sg letbase := by
  unfold numberFormat at h
  split_ifs at h with h₁ h₂ h₃ h₄ <;> simp only [Option.some.injEq, Prod.mk.injEq] at h <;>
    obtain ⟨rfl, rfl, rfl⟩ := h
  · subst h₁
    rfl
  · subst h₂
    rfl
  · subst h₃
    rfl
  · subst h₄
    rfl

/-- A number is printed as its numeral. -/
theorem printArgument_shows {f : Flags} (hwidth : Flags.decimalValue f.digits < 2 ^ 31)
    {letter : Byte} {b sg letbase : Word} (h : numberFormat letter = some (b, sg, letbase))
    (varg : ℕ) {a : Argument} {ks : List ArgumentKind} {args : List Argument}
    (hread : a :: args =
      readArguments v.word varg ((if f.long then .long else .word) :: ks))
    (hfits : ArgumentFits v f.spec letter a) :
    ∃ p next, printArgument v varg f.spec b sg letbase = .ok (p, next) ∧
      p.Shows (argumentText v f.spec letter a) ∧ args = readArguments v.word next ks := by
  obtain ⟨hb, hl⟩ := numberFormat_letters h
  unfold printArgument
  cases hlong : f.long with
  | true =>
    rw [hlong, if_pos rfl, readArguments, List.cons.injEq] at hread
    obtain ⟨rfl, rfl⟩ := hread
    have hprints := (printNumber_iff (letters_of (.inr rfl) hb hl) (by decide) v.printLongBuf
      (v.word (varg + 2) ++ v.word (varg + 1)) sg f.spec.width f.spec.pad).mpr (hfits b sg letbase h)
    obtain ⟨p, hp, hshows⟩ := hprints.shows
    refine ⟨p, varg + 2, ?_, ?_, rfl⟩
    · rw [if_pos (show f.spec.isLong = true from hlong)]
      exact congrArg (· >>= fun p ↦ pure (p, varg + 2)) hp
    · rwa [argumentText, h]
  | false =>
    rw [hlong, if_neg Bool.false_ne_true, readArguments, List.cons.injEq] at hread
    obtain ⟨rfl, rfl⟩ := hread
    obtain ⟨p, hp, hshows⟩ := (printi_prints v.printBuf (v.word varg) hb hl sg
      (Flags.width_ne hwidth) f.spec.pad).shows
    refine ⟨p, varg + 1, ?_, ?_, rfl⟩
    · rw [if_neg (show ¬ f.spec.isLong = true by rw [Flags.spec, hlong]; exact Bool.false_ne_true)]
      exact congrArg (· >>= fun p ↦ pure (p, varg + 1)) hp
    · rwa [argumentText, h]

theorem printFloat_shows (varg : ℕ) (f : FormatSpec) : ∃ p,
    printFloat v varg f = .ok (p, varg + 1) ∧
    p.Shows (formatted (v.floatTop (v.word varg)) 10 1 0 f.pad 97 ++
      46 :: formatted (v.floatBottom (v.word varg)) 10 0 0 f.pad 97) := by
  have hzero : (0 : Word).toInt ≠ -2 ^ 31 := by decide
  obtain ⟨top, htop, hts⟩ := (printi_prints v.printBuf (v.floatTop (v.word varg)) (.inl rfl)
    (.inl rfl) 1 hzero f.pad).shows
  obtain ⟨bottom, hbottom, hbs⟩ := (printi_prints v.printBuf (v.floatBottom (v.word varg))
    (.inl rfl) (.inl rfl) 0 hzero f.pad).shows
  have hpoint : (prints [46] 0 f.pad).Shows [46] := by
    have hshows := prints_shows (s := [46]) (by decide) 0 f.pad
    rwa [padded_of_le (by decide)] at hshows
  refine ⟨(top.append (prints [46] 0 f.pad)).append bottom, ?_, ?_⟩
  · unfold printFloat
    rw [htop, hbottom]
    rfl
  · rw [List.append_cons]
    exact (hts.append hpoint).append hbs

theorem kindOf_eq_word {isLong : Bool} {letter : Byte} {k : ArgumentKind}
    (hn : numberFormat letter = none) (hk : kindOf isLong letter = some k) :
    (letter = 115 ∨ letter = 102 ∨ letter = 99) ∧ k = .word := by
  unfold kindOf at hk
  rw [hn, if_neg (by simp)] at hk
  split_ifs at hk with hletter
  exact ⟨hletter, (Option.some.inj hk).symm⟩

/-- A directive prints its argument, and goes on to the next one. -/
theorem printDirective_shows {f : Flags} (hwidth : Flags.decimalValue f.digits < 2 ^ 31)
    {letter : Byte} {k : ArgumentKind} (hk : kindOf f.long letter = some k) (varg : ℕ)
    {a : Argument} {ks : List ArgumentKind} {args : List Argument}
    (hread : a :: args = readArguments v.word varg (k :: ks))
    (hfits : ArgumentFits v f.spec letter a) :
    ∃ p next, printDirective v varg f.spec letter = .ok (p, next) ∧
      p.Shows (argumentText v f.spec letter a) ∧ args = readArguments v.word next ks := by
  cases hn : numberFormat letter with
  | some format =>
    obtain ⟨b, sg, letbase⟩ := format
    have hkind : k = if f.long then .long else .word := by
      rw [kindOf, hn] at hk
      exact (Option.some.inj hk).symm
    subst hkind
    rw [printDirective_number hn]
    exact printArgument_shows hwidth hn varg hread hfits
  | none =>
    obtain ⟨hletter, rfl⟩ := kindOf_eq_word hn hk
    rw [readArguments, List.cons.injEq] at hread
    obtain ⟨rfl, rfl⟩ := hread
    rw [argumentText, hn]
    rcases hletter with rfl | rfl | rfl
    · refine ⟨_, varg + 1, rfl, ?_, rfl⟩
      refine prints_shows ?_ _ _
      split_ifs
      · decide
      · exact hfits rfl
    · obtain ⟨p, hp, hshows⟩ := printFloat_shows (v := v) varg f.spec
      exact ⟨p, varg + 1, hp, hshows, rfl⟩
    · have hlen : (cString [byteOf (v.word varg) 0]).length ≤ 1 :=
        (List.takeWhile_prefix _).length_le
      exact ⟨_, varg + 1, rfl, prints_shows (by omega) _ _, rfl⟩

theorem printDirective_nothing {isLong : Bool} {letter : Byte} (hk : kindOf isLong letter = none)
    (varg : ℕ) (f : FormatSpec) : printDirective v varg f letter = .ok (⟨[], 0⟩, varg) := by
  unfold kindOf numberFormat at hk
  unfold printDirective
  simp only
  split_ifs at hk ⊢ <;> simp_all [pure, Except.pure]

theorem printPieces_shows (ps : List Piece) {varg : ℕ} {p : Printed} {l : List Byte}
    (hp : p.Shows l) (hfit : ArgumentsFit v ps (readArguments v.word varg (kinds ps))) :
    ∃ r, printPieces v ps varg p = .ok r ∧
      r.2.Shows (l ++ printedText v ps (readArguments v.word varg (kinds ps))) := by
  induction ps generalizing varg p l with
  | nil => exact ⟨_, rfl, by simpa [printedText] using hp⟩
  | cons piece ps ih =>
    cases piece with
    | text c h =>
      obtain ⟨r, hr, hshows⟩ := ih (hp.printchar c) hfit
      exact ⟨r, hr, by rwa [List.append_assoc] at hshows⟩
    | percent =>
      obtain ⟨r, hr, hshows⟩ := ih (hp.printchar 37) hfit
      exact ⟨r, hr, by rwa [List.append_assoc] at hshows⟩
    | directive f letter h =>
      cases hk : kindOf f.long letter with
      | none =>
        have hkinds : kinds (.directive f letter h :: ps) = kinds ps := List.filterMap_cons_none hk
        rw [hkinds] at hfit ⊢
        simp only [ArgumentsFit, hk] at hfit
        have hnothing : Printed.Shows ⟨[], 0⟩ [] := ⟨rfl, rfl⟩
        obtain ⟨r, hr, hshows⟩ := ih (hp.append hnothing) hfit.2
        refine ⟨r, ?_, ?_⟩
        · rw [printPieces, printDirective_nothing hk]
          exact hr
        · simp only [printedText, hk]
          rwa [List.append_nil] at hshows
      | some k =>
        have hkinds : kinds (.directive f letter h :: ps) = k :: kinds ps :=
          List.filterMap_cons_some hk
        rw [hkinds] at hfit ⊢
        obtain ⟨a, args, hread⟩ : ∃ a args, readArguments v.word varg (k :: kinds ps) = a :: args := by
          cases k <;> exact ⟨_, _, rfl⟩
        rw [hread] at hfit
        simp only [ArgumentsFit, hk] at hfit
        obtain ⟨hwidth, hfits, hrest⟩ := hfit
        obtain ⟨q, next, hq, hshows, rfl⟩ := printDirective_shows hwidth hk varg hread.symm hfits
        obtain ⟨r, hr, hshows'⟩ := ih (hp.append hshows) hrest
        refine ⟨r, ?_, ?_⟩
        · rw [printPieces, hq]
          exact hr
        · rw [hread]
          simp only [printedText, hk]
          rwa [List.append_assoc] at hshows'

theorem print_shows (v : VarArgs) (ps : List Piece)
    (hfit : ArgumentsFit v ps (readArguments v.word 0 (kinds ps))) :
    ∃ p, print v (render ps) = .ok p ∧
      p.Shows (printedText v ps (readArguments v.word 0 (kinds ps))) := by
  obtain ⟨r, hr, hshows⟩ := printPieces_shows ps (p := ⟨[], 0⟩) (l := []) ⟨rfl, rfl⟩ hfit
  have hprint := print_render v ps .complete
  rw [hr, Ending.bytes, List.append_nil] at hprint
  exact ⟨r.2, hprint, hshows⟩

end Text

end PrjOS
