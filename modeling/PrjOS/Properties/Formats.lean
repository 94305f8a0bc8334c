import PrjOS.Properties.NumberFormat

namespace PrjOS

open ByteMemory

def IsDigit (c : Byte) : Prop := 48 ≤ c ∧ c ≤ 57

instance (c : Byte) : Decidable (IsDigit c) := inferInstanceAs (Decidable (_ ∧ _))

/-- What stands between the `%` of a directive and its letter: `-`, digits and
`l`, each of which may be missing. -/
structure Flags where
  left : Bool
  digits : List Byte
  long : Bool
  isDigit : ∀ c ∈ digits, IsDigit c

namespace Flags

def bytes (f : Flags) : List Byte :=
  (if f.left then [45] else []) ++ (f.digits ++ if f.long then [108] else [])

def decimalValue (digits : List Byte) : ℕ := digits.foldl (fun n c ↦ n * 10 + (c.toNat - 48)) 0

def spec (f : Flags) : FormatSpec where
  width := BitVec.ofNat 32 (decimalValue f.digits)
  pad :=
    if f.digits.head? = some 48 then (if f.left then padRight else 0) ||| padZero
    else if f.left then padRight else 0
  isLong := f.long

/-- The flags do not go on with `c`. -/
def Ends (f : Flags) (c : Byte) : Prop :=
  (f.bytes = [] → c ≠ 45 ∧ c ≠ 37) ∧ (f.long = false → c ≠ 108 ∧ ¬ IsDigit c)

instance (f : Flags) (c : Byte) : Decidable (f.Ends c) := inferInstanceAs (Decidable (_ ∧ _))

end Flags

inductive Piece
  | text (c : Byte) (h : c ≠ 37)
  | percent
  | directive (f : Flags) (letter : Byte) (h : f.Ends letter)

def Piece.bytes : Piece → List Byte
  | .text c _ => [c]
  | .percent => [37, 37]
  | .directive f letter _ => 37 :: (f.bytes ++ [letter])

def render (ps : List Piece) : List Byte := ps.flatMap Piece.bytes

theorem render_cons (p : Piece) (ps : List Piece) (l : List Byte) :
    render (p :: ps) ++ l = p.bytes ++ (render ps ++ l) := by
  rw [render, List.flatMap_cons, List.append_assoc]
  rfl

/-- How a format ends after its last piece: at once, with a single `%`, or
within a directive. -/
inductive Ending
  | complete
  | percent
  | cut (f : Flags) (h : f.bytes ≠ [])

def Ending.bytes : Ending → List Byte
  | .complete => []
  | .percent => [37]
  | .cut f _ => 37 :: f.bytes

section Reading

theorem IsDigit.value {c : Byte} (hc : IsDigit c) :
    c.setWidth 32 - 48 = BitVec.ofNat 32 (c.toNat - 48) := by
  have hle : 48 ≤ c.toNat := hc.1
  have hlt := c.isLt
  refine BitVec.eq_of_toNat_eq ?_
  rw [BitVec.toNat_sub_of_le, BitVec.toNat_setWidth, BitVec.toNat_ofNat]
  · change c.toNat % 2 ^ 32 - 48 = (c.toNat - 48) % 2 ^ 32
    omega
  · rw [BitVec.le_def, BitVec.toNat_setWidth]
    change 48 ≤ c.toNat % 2 ^ 32
    omega

theorem readWidth_digits {digits r : List Byte} (hd : ∀ c ∈ digits, IsDigit c)
    (hr : ∀ c ∈ r.head?, ¬ IsDigit c) (n : ℕ) :
    readWidth (BitVec.ofNat 32 n) (digits ++ r) =
      (BitVec.ofNat 32 (digits.foldl (fun n c ↦ n * 10 + (c.toNat - 48)) n), r) := by
  induction digits generalizing n with
  | nil =>
    cases r with
    | nil => rfl
    | cons c r => exact if_neg (hr c rfl)
  | cons c digits ih =>
    have hc : IsDigit c := hd c List.mem_cons_self
    have hvalue : BitVec.ofNat 32 n * 10 + (c.setWidth 32 - 48) =
        BitVec.ofNat 32 (n * 10 + (c.toNat - 48)) := by
      rw [hc.value, BitVec.ofNat_add, BitVec.ofNat_mul]
      rfl
    rw [List.cons_append, readWidth, if_pos (show 48 ≤ c ∧ c ≤ 57 from hc), hvalue,
      ih fun c' hc' ↦ hd c' (List.mem_cons_of_mem c hc')]
    rfl

theorem readWidth_zeros {digits r : List Byte} (hd : ∀ c ∈ digits, IsDigit c)
    (hr : ∀ c ∈ r.head?, ¬ IsDigit c) :
    readWidth 0 ((digits ++ r).dropWhile (· = 48)) =
      (BitVec.ofNat 32 (Flags.decimalValue digits), r) := by
  induction digits with
  | nil =>
    cases r with
    | nil => rfl
    | cons c r =>
      have hc : ¬ IsDigit c := hr c rfl
      have hne : c ≠ 48 := by
        rintro rfl
        exact hc (by decide)
      rw [List.nil_append, List.dropWhile_cons_of_neg (by simpa using hne)]
      exact if_neg hc
  | cons c digits ih =>
    by_cases hc : c = 48
    · subst hc
      rw [List.cons_append, List.dropWhile_cons_of_pos (by simp),
        ih fun c' hc' ↦ hd c' (List.mem_cons_of_mem 48 hc')]
      rfl
    · rw [List.cons_append, List.dropWhile_cons_of_neg (by simpa using hc), ← List.cons_append]
      exact readWidth_digits hd hr 0

/-- Behind the flags the format ends, or a letter follows that is no flag. -/
def Flags.EndsAt (f : Flags) (r : List Byte) : Prop := ∀ c ∈ r.head?, f.Ends c

theorem Flags.readSpec_bytes (f : Flags) {r : List Byte} (h : f.EndsAt r) :
    readSpec (f.bytes ++ r) = (f.spec, r) := by
  obtain ⟨left, digits, long, hd⟩ := f
  let rest : List Byte := (if long then [108] else []) ++ r
  have hrest : ∀ c ∈ rest.head?, ¬ IsDigit c := by
    intro c hc
    cases long with
    | true =>
      obtain rfl : (108 : Byte) = c := Option.some.inj hc
      decide
    | false => exact ((h c hc).2 rfl).2
  have hwidth : readWidth 0 ((digits ++ rest).dropWhile (· = 48)) = _ := readWidth_zeros hd hrest
  have hzero : (digits ++ rest).head? = some 48 ↔ digits.head? = some 48 := by
    cases digits with
    | cons c digits => rfl
    | nil =>
      refine iff_of_false (fun hc ↦ hrest 48 hc (by decide)) ?_
      simp
  have hlong : rest.head? = some 108 ↔ long = true := by
    cases long with
    | true => exact iff_of_true rfl rfl
    | false => exact iff_of_false (fun hc ↦ ((h 108 hc).2 rfl).1 rfl) Bool.false_ne_true
  have hbytes : bytes ⟨left, digits, long, hd⟩ ++ r =
      (if left then [45] else []) ++ (digits ++ rest) := by
    simp only [bytes, rest, List.append_assoc]
  have hminus : left = false → (digits ++ rest).head? ≠ some 45 := by
    rintro rfl hc
    cases digits with
    | cons c digits =>
      obtain rfl : c = 45 := Option.some.inj hc
      exact absurd (hd 45 List.mem_cons_self) (by decide)
    | nil =>
      cases long with
      | true => exact absurd (Option.some.inj hc) (by decide)
      | false => exact ((h 45 hc).1 rfl).1 rfl
  have htail : rest.head? = some 108 → rest.tail = r := by
    intro hc
    rw [hlong] at hc
    subst hc
    rfl
  have hplain : rest.head? ≠ some 108 → rest = r := by
    intro hc
    rw [Ne, hlong, Bool.not_eq_true] at hc
    subst hc
    rfl
  rw [hbytes, readSpec]
  cases left with
  | true =>
    simp only [if_true, List.singleton_append, List.head?_cons, List.tail_cons, hzero, hwidth]
    by_cases hc : rest.head? = some 108
    · rw [if_pos hc, htail hc]
      simp only [spec, hlong.mp hc, if_true]
    · rw [if_neg hc, hplain hc]
      rw [hlong, Bool.not_eq_true] at hc
      simp only [spec, hc, if_true]
  | false =>
    simp only [if_false, Bool.false_eq_true, List.nil_append, hminus rfl, hzero, hwidth]
    by_cases hc : rest.head? = some 108
    · rw [if_pos hc, htail hc]
      simp only [spec, hlong.mp hc, if_false, Bool.false_eq_true]
    · rw [if_neg hc, hplain hc]
      rw [hlong, Bool.not_eq_true] at hc
      simp only [spec, hc, if_false, Bool.false_eq_true]

end Reading

section Decomposition

/-- Every string starts with some flags, which it does not go on with. -/
theorem exists_flags {l : List Byte} (h : l.head? ≠ some 37) :
    ∃ (f : Flags) (r : List Byte), l = f.bytes ++ r ∧ f.EndsAt r := by
  have hdigits (l : List Byte) : ∃ digits r : List Byte, l = digits ++ r ∧
      (∀ c ∈ digits, IsDigit c) ∧ ∀ c ∈ r.head?, ¬ IsDigit c := by
    induction l with
    | nil => exact ⟨[], [], rfl, by simp, by simp⟩
    | cons c l ih =>
      by_cases hc : IsDigit c
      · obtain ⟨digits, r, rfl, hd, hr⟩ := ih
        refine ⟨c :: digits, r, rfl, fun c' hc' ↦ ?_, hr⟩
        rcases List.mem_cons.mp hc' with rfl | hc'
        · exact hc
        · exact hd c' hc'
      · exact ⟨[], c :: l, rfl, by simp, by simpa using hc⟩
  obtain ⟨left, l', rfl, hleft⟩ : ∃ (left : Bool) (l' : List Byte),
      l = (if left then [45] else []) ++ l' ∧ (left = false → l'.head? ≠ some 45) := by
    by_cases hminus : l.head? = some 45
    · cases l with
      | nil => simp at hminus
      | cons c l =>
        obtain rfl : c = 45 := Option.some.inj hminus
        exact ⟨true, l, rfl, by simp⟩
    · exact ⟨false, l, rfl, fun _ ↦ hminus⟩
  obtain ⟨digits, r, rfl, hd, hr⟩ := hdigits l'
  by_cases hlong : r.head? = some 108
  · cases r with
    | nil => simp at hlong
    | cons c r =>
      obtain rfl : c = 108 := Option.some.inj hlong
      refine ⟨⟨left, digits, true, hd⟩, r, by simp [Flags.bytes], fun c _ ↦ ⟨?_, by simp⟩⟩
      intro hnil
      simp [Flags.bytes] at hnil
  · refine ⟨⟨left, digits, false, hd⟩, r, by simp [Flags.bytes], fun c hc ↦ ⟨?_, ?_⟩⟩
    · intro hnil
      have hnone : left = false ∧ digits = [] := by
        cases left <;> simp_all [Flags.bytes]
      obtain ⟨rfl, rfl⟩ := hnone
      constructor
      · rintro rfl
        exact hleft rfl hc
      · rintro rfl
        exact h hc
    · rintro -
      refine ⟨?_, hr c hc⟩
      rintro rfl
      exact hlong hc

/-- Every format consists of pieces and an ending. -/
theorem exists_pieces (format : List Byte) :
    ∃ (ps : List Piece) (e : Ending), format = render ps ++ e.bytes := by
  induction hn : format.length using Nat.strong_induction_on generalizing format with
  | _ n ih =>
    cases format with
    | nil => exact ⟨[], .complete, rfl⟩
    | cons c format =>
      have hshort (format' : List Byte) (p : Piece) (h : c :: format = p.bytes ++ format') :
          ∃ (ps : List Piece) (e : Ending), c :: format = render ps ++ e.bytes := by
        have hp : 0 < p.bytes.length := by cases p <;> simp [Piece.bytes]
        have hlen := congrArg List.length h
        rw [hn, List.length_append] at hlen
        obtain ⟨ps, e, rfl⟩ := ih format'.length (by omega) format' rfl
        exact ⟨p :: ps, e, by rw [h, render_cons]⟩
      by_cases hc : c = 37
      · subst hc
        by_cases hpercent : format.head? = some 37
        · cases format with
          | nil => simp at hpercent
          | cons c format =>
            obtain rfl : c = 37 := Option.some.inj hpercent
            exact hshort format .percent rfl
        · obtain ⟨f, r, rfl, hr⟩ := exists_flags hpercent
          cases r with
          | nil =>
            by_cases hnil : f.bytes = []
            · exact ⟨[], .percent, by simp [hnil, render, Ending.bytes]⟩
            · exact ⟨[], .cut f hnil, by simp [render, Ending.bytes]⟩
          | cons letter r =>
            exact hshort r (.directive f letter (hr letter rfl)) (by simp [Piece.bytes])
      · exact hshort format (.text c hc) rfl

end Decomposition

section Running

variable {v : VarArgs}

def printPieces (v : VarArgs) : List Piece → ℕ → Printed → Except PrintFault (ℕ × Printed)
  | [], varg, p => .ok (varg, p)
  | .text c _ :: ps, varg, p => printPieces v ps varg (p.printchar c)
  | .percent :: ps, varg, p => printPieces v ps varg (p.printchar 37)
  | .directive f letter _ :: ps, varg, p => do
    let (q, varg) ← printDirective v varg f.spec letter
    printPieces v ps varg (p.append q)

def Ending.result (e : Ending) (p : Printed) : Except PrintFault Printed :=
  match e with
  | .cut .. => .error .format
  | _ => .ok p

theorem Flags.head_bytes (f : Flags) {r : List Byte} (hr : f.EndsAt r) :
    (f.bytes ++ r).head? ≠ some 37 := by
  intro h
  have hpercent : ¬ IsDigit 37 := by decide
  obtain ⟨left, digits, long, hd⟩ := f
  cases left with
  | true => exact absurd (Option.some.inj h) (by decide)
  | false =>
    cases digits with
    | cons c digits =>
      obtain rfl : c = 37 := Option.some.inj h
      exact hpercent (hd 37 List.mem_cons_self)
    | nil =>
      cases long with
      | true => exact absurd (Option.some.inj h) (by decide)
      | false => exact ((hr 37 h).1 rfl).2 rfl

theorem printLoop_cut {fuel varg : ℕ} {p : Printed} (f : Flags) (h : f.bytes ≠ []) :
    printLoop v (fuel + 1) (37 :: f.bytes) varg p = .error .format := by
  have hends : f.EndsAt [] := by simp [Flags.EndsAt]
  have hhead := f.head_bytes hends
  have hspec := f.readSpec_bytes hends
  rw [List.append_nil] at hhead hspec
  rw [printLoop, if_neg (not_not.mpr rfl), if_neg h, if_neg hhead, hspec]

theorem printLoop_directive {fuel varg : ℕ} {p : Printed} (f : Flags) {letter : Byte}
    (h : f.Ends letter) (format : List Byte) :
    printLoop v (fuel + 1) (37 :: (f.bytes ++ letter :: format)) varg p =
      (printDirective v varg f.spec letter).bind fun r ↦
        printLoop v fuel format r.2 (p.append r.1) := by
  have hends : f.EndsAt (letter :: format) := by simpa [Flags.EndsAt] using h
  have hne : f.bytes ++ letter :: format ≠ [] := by simp
  rw [printLoop, if_neg (not_not.mpr rfl), if_neg hne, if_neg (f.head_bytes hends),
    f.readSpec_bytes hends]
  rfl

theorem printLoop_ending (e : Ending) {fuel : ℕ} (hfuel : e.bytes.length ≤ fuel) (varg : ℕ)
    (p : Printed) : printLoop v fuel e.bytes varg p = e.result p := by
  cases e with
  | complete => cases fuel <;> rfl
  | percent =>
    cases fuel with
    | zero => exact absurd hfuel (by decide)
    | succ fuel => rfl
  | cut f h =>
    cases fuel with
    | zero => exact absurd hfuel (by simp [Ending.bytes])
    | succ fuel =>
      exact printLoop_cut f h

/-- The loop handles piece by piece, and then the ending. -/
theorem printLoop_render (ps : List Piece) (e : Ending) {fuel : ℕ}
    (hfuel : (render ps ++ e.bytes).length ≤ fuel) (varg : ℕ) (p : Printed) :
    printLoop v fuel (render ps ++ e.bytes) varg p =
      (printPieces v ps varg p).bind fun r ↦ e.result r.2 := by
  induction ps generalizing fuel varg p with
  | nil => exact printLoop_ending e hfuel varg p
  | cons piece ps ih =>
    rw [render_cons] at hfuel ⊢
    cases fuel with
    | zero => cases piece <;> simp [Piece.bytes] at hfuel
    | succ fuel =>
      cases piece with
      | text c h =>
        change printLoop v (fuel + 1) (c :: (render ps ++ e.bytes)) varg p = _
        rw [printLoop, if_pos h]
        refine ih ?_ varg _
        simp only [Piece.bytes, List.singleton_append, List.length_cons] at hfuel
        omega
      | percent =>
        refine ih ?_ varg _
        simp only [Piece.bytes, List.cons_append, List.nil_append, List.length_cons] at hfuel
        omega
      | directive f letter h =>
        have hbytes : (Piece.directive f letter h).bytes ++ (render ps ++ e.bytes) =
            37 :: (f.bytes ++ letter :: (render ps ++ e.bytes)) := by simp [Piece.bytes]
        rw [hbytes] at hfuel ⊢
        rw [printLoop_directive f h, printPieces]
        cases hq : printDirective v varg f.spec letter with
        | error fault => rfl
        | ok q =>
          refine ih ?_ q.2 _
          simp only [List.length_cons, List.length_append] at hfuel ⊢
          omega

theorem print_render (v : VarArgs) (ps : List Piece) (e : Ending) :
    print v (render ps ++ e.bytes) =
      (printPieces v ps 0 ⟨[], 0⟩).bind fun r ↦ e.result r.2 :=
  printLoop_render ps e le_rfl 0 ⟨[], 0⟩

end Running

section Overreads

variable {v : VarArgs}

theorem inPrintBuf_ne_format (r : Option Printed) : inPrintBuf r ≠ .error .format := by
  cases r <;> simp [inPrintBuf]

theorem bind_ne_format {α β : Type} {r : Except PrintFault α} {f : α → Except PrintFault β}
    (hr : r ≠ .error .format) (hf : ∀ a, f a ≠ .error .format) : r >>= f ≠ .error .format := by
  cases r with
  | error fault => exact fun h ↦ hr (congrArg Except.error (Except.error.inj h))
  | ok a => exact hf a

theorem printArgument_ne_format (varg : ℕ) (f : FormatSpec) (b sg letbase : Word) :
    printArgument v varg f b sg letbase ≠ .error .format := by
  unfold printArgument
  simp only
  split_ifs
  · exact bind_ne_format (inPrintBuf_ne_format _) fun _ ↦ by simp [pure, Except.pure]
  · exact bind_ne_format (inPrintBuf_ne_format _) fun _ ↦ by simp [pure, Except.pure]

def printFloat (v : VarArgs) (varg : ℕ) (f : FormatSpec) : Except PrintFault (Printed × ℕ) := do
  let top ← inPrintBuf (printi v.printBuf (v.floatTop (v.word varg)) 10 1 0 f.pad 97)
  let bottom ← inPrintBuf (printi v.printBuf (v.floatBottom (v.word varg)) 10 0 0 f.pad 97)
  return ((top.append (prints [46] 0 f.pad)).append bottom, varg + 1)

/-- A directive prints a string, a number, a fraction or nothing. -/
theorem printDirective_cases {P : Except PrintFault (Printed × ℕ) → Prop} (varg : ℕ)
    (f : FormatSpec) (letter : Byte)
    (string : ∀ s, P (.ok (prints s f.width f.pad, varg + 1)))
    (number : ∀ b sg letbase, P (printArgument v varg f b sg letbase))
    (fraction : P (printFloat v varg f)) (nothing : P (.ok (⟨[], 0⟩, varg))) :
    P (printDirective v varg f letter) := by
  unfold printDirective
  simp only
  by_cases h : letter = 115
  · rw [if_pos h]
    exact string _
  rw [if_neg h]
  split_ifs
  · exact number ..
  · exact number ..
  · exact number ..
  · exact number ..
  · exact fraction
  · exact string _
  · exact nothing

/-- A directive with its letter reads no more of the format. -/
theorem printDirective_ne_format (varg : ℕ) (f : FormatSpec) (letter : Byte) :
    printDirective v varg f letter ≠ .error .format := by
  refine printDirective_cases (P := (· ≠ .error .format)) varg f letter (fun _ ↦ ?_)
    (fun b sg letbase ↦ printArgument_ne_format varg f b sg letbase) ?_ ?_
  · simp
  · exact bind_ne_format (inPrintBuf_ne_format _) fun _ ↦
      bind_ne_format (inPrintBuf_ne_format _) fun _ ↦ by simp [pure, Except.pure]
  · simp

theorem printPieces_ne_format (ps : List Piece) (varg : ℕ) (p : Printed) :
    printPieces v ps varg p ≠ .error .format := by
  induction ps generalizing varg p with
  | nil => simp [printPieces]
  | cons piece ps ih =>
    cases piece with
    | text c h => exact ih varg _
    | percent => exact ih varg _
    | directive f letter h =>
      exact bind_ne_format (printDirective_ne_format varg _ letter) fun r ↦ ih r.2 _

def VarArgs.zero : VarArgs where
  word := fun _ ↦ 0
  memory := fun _ ↦ []
  floatTop := fun _ ↦ 0
  floatBottom := fun _ ↦ 0
  printBuf := .replicate _ 0
  printLongBuf := .replicate _ 0

theorem printNumber_zero_some {n w : ℕ} (hn : 11 < n) (buf : PrintBuf n)
    (b sg width pad letbase : Word) :
    ∃ p, inPrintBuf (printNumber buf (0 : BitVec w) b sg width pad letbase) = .ok p := by
  obtain ⟨p, hp, -⟩ := printNumber_zero (w := w) hn buf b sg width pad letbase
  exact ⟨p, congrArg inPrintBuf hp⟩

theorem printArgument_zero (varg : ℕ) (f : FormatSpec) (b sg letbase : Word) :
    ∃ r, printArgument .zero varg f b sg letbase = .ok r := by
  obtain ⟨p, hp⟩ := printNumber_zero_some (w := 64) (n := printLongBufLen) (by decide)
    VarArgs.zero.printLongBuf b sg f.width f.pad letbase
  obtain ⟨q, hq⟩ := printNumber_zero_some (w := 32) (n := printBufLen) (by decide)
    VarArgs.zero.printBuf b sg f.width f.pad letbase
  have hzero : VarArgs.zero.word (varg + 2) ++ VarArgs.zero.word (varg + 1) = (0 : BitVec 64) := by
    change (0 : Word) ++ (0 : Word) = (0 : BitVec 64)
    decide
  have hlong : inPrintBuf (printli VarArgs.zero.printLongBuf
      (VarArgs.zero.word (varg + 2) ++ VarArgs.zero.word (varg + 1)) b sg f.width f.pad letbase) =
      .ok p := by
    rw [hzero]
    exact hp
  have hshort : inPrintBuf (printi VarArgs.zero.printBuf (VarArgs.zero.word varg) b sg f.width
      f.pad letbase) = .ok q := hq
  unfold printArgument
  simp only [hlong, hshort]
  split_ifs
  · exact ⟨_, rfl⟩
  · exact ⟨_, rfl⟩

theorem printFloat_zero (varg : ℕ) (f : FormatSpec) : ∃ r, printFloat .zero varg f = .ok r := by
  have hprint (sg : Word) := printNumber_zero_some (w := 32) (n := printBufLen) (by decide)
    VarArgs.zero.printBuf 10 sg 0 f.pad 97
  obtain ⟨p, hp⟩ := hprint 1
  obtain ⟨q, hq⟩ := hprint 0
  have htop : inPrintBuf (printi VarArgs.zero.printBuf
      (VarArgs.zero.floatTop (VarArgs.zero.word varg)) 10 1 0 f.pad 97) = .ok p := hp
  have hbottom : inPrintBuf (printi VarArgs.zero.printBuf
      (VarArgs.zero.floatBottom (VarArgs.zero.word varg)) 10 0 0 f.pad 97) = .ok q := hq
  unfold printFloat
  rw [htop, hbottom]
  exact ⟨_, rfl⟩

theorem printDirective_zero (varg : ℕ) (f : FormatSpec) (letter : Byte) :
    ∃ r, printDirective .zero varg f letter = .ok r :=
  printDirective_cases (P := fun r ↦ ∃ a, r = .ok a) varg f letter (fun _ ↦ ⟨_, rfl⟩)
    (fun b sg letbase ↦ printArgument_zero varg f b sg letbase) (printFloat_zero varg f) ⟨_, rfl⟩

theorem printPieces_zero (ps : List Piece) (varg : ℕ) (p : Printed) :
    ∃ r, printPieces .zero ps varg p = .ok r := by
  induction ps generalizing varg p with
  | nil => exact ⟨_, rfl⟩
  | cons piece ps ih =>
    cases piece with
    | text c h => exact ih varg _
    | percent => exact ih varg _
    | directive f letter h =>
      obtain ⟨r, hr⟩ := printDirective_zero varg f.spec letter
      rw [printPieces, hr]
      exact ih r.2 _

/-- Only the ending of a format can be overread. -/
theorem print_ne_format (ps : List Piece) {e : Ending} (he : ∀ p, e.result p ≠ .error .format) :
    print v (render ps ++ e.bytes) ≠ .error .format := by
  rw [print_render]
  exact bind_ne_format (printPieces_ne_format ps 0 _) fun r ↦ he r.2

theorem print_cut (ps : List Piece) {f : Flags} (h : f.bytes ≠ []) :
    print .zero (render ps ++ 37 :: f.bytes) = .error .format := by
  obtain ⟨r, hr⟩ := printPieces_zero ps 0 ⟨[], 0⟩
  refine (print_render .zero ps (.cut f h)).trans ?_
  rw [hr]
  rfl

/-- `print` stays within a format, whatever it is given to print, exactly when
the format does not end within a directive. Any other format breaks off behind
the `%` and some flags of a directive. -/
theorem print_stays_inside_iff (format : List Byte) :
    ((∀ v, print v format ≠ .error .format) ↔
      ∃ ps, format = render ps ∨ format = render ps ++ [37]) ∧
    ((∃ v, print v format = .error .format) ↔
      ∃ ps f, Flags.bytes f ≠ [] ∧ format = render ps ++ 37 :: f.bytes) := by
  have hstays (ps : List Piece) (v : VarArgs) : print v (render ps) ≠ .error .format ∧
      print v (render ps ++ [37]) ≠ .error .format := by
    refine ⟨?_, print_ne_format (e := .percent) ps (by simp [Ending.result])⟩
    have hcomplete := print_ne_format (v := v) (e := .complete) ps (by simp [Ending.result])
    rwa [Ending.bytes, List.append_nil] at hcomplete
  obtain ⟨ps, e, rfl⟩ := exists_pieces format
  constructor
  · constructor
    · intro hinside
      refine ⟨ps, ?_⟩
      cases e with
      | complete => exact .inl (List.append_nil _)
      | percent => exact .inr rfl
      | cut f h => exact absurd (print_cut ps h) (hinside .zero)
    · rintro ⟨ps', hformat⟩ v
      rcases hformat with h | h <;> rw [h]
      · exact (hstays ps' v).1
      · exact (hstays ps' v).2
  · constructor
    · rintro ⟨v, hout⟩
      cases e with
      | complete =>
        rw [Ending.bytes, List.append_nil] at hout
        exact absurd hout (hstays ps v).1
      | percent => exact absurd hout (hstays ps v).2
      | cut f h => exact ⟨ps, f, h, rfl⟩
    · rintro ⟨ps', f, h, hformat⟩
      exact ⟨.zero, hformat ▸ print_cut ps' h⟩

end Overreads

end PrjOS
