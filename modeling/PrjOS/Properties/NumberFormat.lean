import PrjOS.Bwio
import Mathlib.Data.Nat.Digits.Lemmas

namespace PrjOS

open ByteMemory

/-- The character of a digit: `0` to `9`, then letters from `letbase` on. -/
def digitByte (letbase : Word) (d : ℕ) : Byte :=
  BitVec.ofNat 8 (if d < 10 then 48 + d else letbase.toNat + (d - 10))

def numeral (letbase : Word) (base n : ℕ) : List Byte :=
  if n = 0 then [48] else ((base.digits n).map (digitByte letbase)).reverse

/-- Pad to a width, on the left unless `PAD_RIGHT` is set, with blanks unless
`PAD_ZERO` is set. -/
def padded (s : List Byte) (width : ℤ) (pad : Word) : List Byte :=
  let fill := List.replicate (width - s.length).toNat (if pad &&& padZero = 0 then 32 else 48)
  if pad &&& padRight = 0 then fill ++ s else s ++ fill

section Numbers

variable {n w : ℕ}

def Negative (i : BitVec w) (b sg : Word) : Prop := sg ≠ 0 ∧ b = 10 ∧ i.toInt < 0

instance (i : BitVec w) (b sg : Word) : Decidable (Negative i b sg) :=
  inferInstanceAs (Decidable (_ ∧ _))

theorem not_negative_zero (b sg : Word) : ¬ Negative (0 : BitVec w) b sg := by
  rintro ⟨-, -, h⟩
  simp at h

/-- The numeral of `i`, padded. Zeros stand between the sign and the digits. -/
def formatted (i : BitVec w) (b sg width pad letbase : Word) : List Byte :=
  if Negative i b sg then
    let digits := numeral letbase b.toNat i.toInt.natAbs
    if pad &&& padZero = 0 then padded (45 :: digits) width.toInt pad
    else 45 :: padded digits (width.toInt - 1) pad
  else padded (numeral letbase b.toNat i.toNat) width.toInt pad

/-- Eleven characters of the array stand before the final zero, and only a
sign ahead of zeros is not put there. The least width has no predecessor. -/
def Fits (i : BitVec w) (b sg width pad : Word) : Prop :=
  if Negative i b sg then
    if width ≠ 0 ∧ pad &&& padZero ≠ 0 then
      i.toInt.natAbs < b.toNat ^ 11 ∧ width.toInt ≠ -2 ^ 31
    else i.toInt.natAbs < b.toNat ^ 10
  else i.toNat < b.toNat ^ 11

end Numbers

section Prints

theorem Printed.pad_eq (padchar : Byte) (count : ℕ) (p : Printed) : p.pad padchar count =
    ⟨p.chars ++ List.replicate count padchar, p.pc + BitVec.ofNat 32 count⟩ := by
  induction count generalizing p with
  | zero => simp [Printed.pad]
  | succ count ih =>
    rw [Printed.pad, ih, Printed.printchar, List.replicate_succ, List.append_assoc,
      List.singleton_append, Nat.add_comm, BitVec.ofNat_add, BitVec.add_assoc]
    rfl

theorem foldl_printchar (string : List Byte) (p : Printed) : string.foldl Printed.printchar p =
    ⟨p.chars ++ string, p.pc + BitVec.ofNat 32 string.length⟩ := by
  induction string generalizing p with
  | nil => simp
  | cons c string ih =>
    rw [List.foldl_cons, ih, Printed.printchar, List.append_assoc, List.singleton_append,
      List.length_cons, Nat.add_comm, BitVec.ofNat_add, BitVec.add_assoc]
    rfl

def Printed.Counted (p : Printed) : Prop := p.pc = BitVec.ofNat 32 p.chars.length

theorem prints_counted (string : List Byte) (width pad : Word) :
    (prints string width pad).Counted := by
  simp only [prints, Printed.pad_eq, foldl_printchar, Printed.Counted, List.length_append,
    List.length_replicate, List.length_nil, BitVec.ofNat_add]
  rfl

theorem toInt_length {string : List Byte} (hlen : string.length < 2 ^ 31) :
    (BitVec.ofNat 32 string.length).toInt = string.length := by
  have htoNat : (BitVec.ofNat 32 string.length).toNat = string.length := by
    rw [BitVec.toNat_ofNat, Nat.mod_eq_of_lt (by omega)]
  rw [BitVec.toInt_eq_toNat_of_lt (by omega), htoNat]

theorem toInt_sub_length {string : List Byte} {width : Word} (hlen : string.length < 2 ^ 31)
    (hw : 0 < width.toInt) : (width - BitVec.ofNat 32 string.length).toInt =
      width.toInt - string.length := by
  have hlt : width.toInt < 2 ^ 31 := BitVec.toInt_lt
  rw [BitVec.toInt_sub, toInt_length hlen, Int.bmod_eq_of_le] <;> omega

theorem prints_chars {string : List Byte} (hlen : string.length < 2 ^ 31) (width pad : Word) :
    (prints string width pad).chars = padded string width.toInt pad := by
  simp only [prints, Printed.pad_eq, foldl_printchar, padded, toInt_length hlen, List.nil_append]
  by_cases hw : 0 < width.toInt
  · have hcount : (if width.toInt ≤ string.length then 0
        else width - BitVec.ofNat 32 string.length).toInt.toNat =
        (width.toInt - string.length).toNat := by
      split_ifs with hle
      · have hzero : (0 : Word).toInt = 0 := rfl
        omega
      · rw [toInt_sub_length hlen hw]
    have hpadchar : (if 0 < width.toInt ∧ pad &&& padZero ≠ 0 then (48 : Byte) else 32) =
        if pad &&& padZero = 0 then 32 else 48 := by
      simp only [hw, true_and]
      exact ite_not ..
    rw [if_pos hw, hcount, hpadchar]
    by_cases hr : pad &&& padRight = 0
    · simp only [if_pos hr, List.replicate_zero, List.append_nil]
    · simp only [if_neg hr, List.replicate_zero, List.nil_append]
  · have hcount : (width.toInt - string.length).toNat = 0 := by omega
    have hleft : width.toInt.toNat = 0 := by omega
    rw [if_neg hw, hcount, hleft]
    simp

theorem length_padded (s : List Byte) (width : ℤ) (pad : Word) :
    (padded s width pad).length = max s.length width.toNat := by
  unfold padded
  simp only
  split_ifs <;> simp only [List.length_append, List.length_replicate] <;> omega

theorem padded_of_le {s : List Byte} {width : ℤ} (h : width ≤ s.length) (pad : Word) :
    padded s width pad = s := by
  have hfill : (width - s.length).toNat = 0 := by omega
  simp [padded, hfill]

def Prints (r : Option Printed) (chars : List Byte) : Prop :=
  ∃ p, r = some p ∧ p.chars = chars ∧ p.pc.toInt = chars.length

theorem not_prints_none (chars : List Byte) : ¬ Prints none chars := by
  rintro ⟨p, hp, -⟩
  cases hp

theorem Printed.Counted.prints {p : Printed} (h : p.Counted) (hlen : p.chars.length < 2 ^ 31) :
    Prints (some p) p.chars := ⟨p, rfl, rfl, by rw [h, toInt_length hlen]⟩

theorem prints_padded {string : List Byte} (hlen : string.length < 2 ^ 31) (width pad : Word) :
    Prints (some (prints string width pad)) (padded string width.toInt pad) := by
  have hwidth : width.toInt < 2 ^ 31 := BitVec.toInt_lt
  have hlong : (padded string width.toInt pad).length < 2 ^ 31 := by
    rw [length_padded]
    omega
  have hchars := prints_chars hlen width pad
  rw [← hchars] at hlong ⊢
  exact (prints_counted string width pad).prints hlong

theorem prints_signed {string : List Byte} (hlen : string.length < 2 ^ 31 - 1) {width : Word}
    (hwidth : width.toInt ≠ -2 ^ 31) (pad : Word) :
    Prints (some ⟨45 :: (prints string (width - 1) pad).chars,
        1 + (prints string (width - 1) pad).pc⟩)
      (45 :: padded string (width.toInt - 1) pad) := by
  have hlt : width.toInt < 2 ^ 31 := BitVec.toInt_lt
  have hle : -2 ^ 31 ≤ width.toInt := BitVec.le_toInt width
  have hpred : (width - 1).toInt = width.toInt - 1 := by
    have hone : (1 : Word).toInt = 1 := rfl
    rw [BitVec.toInt_sub, hone, Int.bmod_eq_of_le] <;> omega
  have hchars := prints_chars (Nat.lt_of_lt_of_le hlen (by omega)) (width - 1) pad
  rw [hpred] at hchars
  have hlong : (45 :: padded string (width.toInt - 1) pad).length < 2 ^ 31 := by
    rw [List.length_cons, length_padded]
    omega
  rw [← hchars] at hlong ⊢
  refine Printed.Counted.prints ?_ hlong
  rw [Printed.Counted, prints_counted, List.length_cons, Nat.add_comm, BitVec.ofNat_add]
  rfl

/-- The least width becomes the greatest one, and far too much is printed. -/
theorem not_prints_least {string : List Byte} (hlen : string.length < 2 ^ 31 - 1) {width : Word}
    (hwidth : width.toInt = -2 ^ 31) (pad pc : Word) :
    ¬ Prints (some ⟨45 :: (prints string (width - 1) pad).chars, pc⟩)
      (45 :: padded string (width.toInt - 1) pad) := by
  have hleast : width = BitVec.ofNat 32 (2 ^ 31) := BitVec.eq_of_toInt_eq hwidth
  have hpred : (width - 1).toInt = 2 ^ 31 - 1 := by
    rw [hleast]
    rfl
  have hchars := prints_chars (Nat.lt_of_lt_of_le hlen (by omega)) (width - 1) pad
  rw [hpred] at hchars
  rintro ⟨p, hp, hsame, -⟩
  obtain rfl := Option.some.inj hp
  have hlong := congrArg List.length (hchars.symm.trans (List.cons.inj hsame).2)
  rw [length_padded, length_padded, hwidth] at hlong
  omega

end Prints

section Digits

variable {n w : ℕ} {b letbase : Word} {base : ℕ}

theorem store_eq (buf : PrintBuf n) {s : ℕ} (h : s < n) (c : Byte) :
    buf.store s c = some (buf.set s c h) := dif_pos h

theorem drop_set (buf : PrintBuf n) {s : ℕ} (h : s < n) (c : Byte) :
    (buf.set s c h).toList.drop s = c :: buf.toList.drop (s + 1) := by
  have hlen : s < buf.toList.length := by rwa [Vector.length_toList]
  rw [Vector.toList_set, List.drop_set, if_neg (Nat.lt_irrefl s), Nat.sub_self,
    List.drop_eq_getElem_cons hlen, List.set_cons_zero]

structure Letters (w : ℕ) (b letbase : Word) (base : ℕ) : Prop where
  value : (b.signExtend w).toNat = base
  two_le : 1 < base
  char : ∀ t : BitVec w, t.toNat < base → digitChar letbase t = digitByte letbase t.toNat
  ne_zero : ∀ d < base, digitByte letbase d ≠ 0

theorem Letters.digits (h : Letters w b letbase base) {u : BitVec w} (hu : u ≠ 0) :
    base.digits u.toNat = (u % b.signExtend w).toNat :: base.digits (u / b.signExtend w).toNat := by
  have hpos : 0 < u.toNat := by
    rw [Nat.pos_iff_ne_zero]
    exact fun hz ↦ hu (BitVec.eq_of_toNat_eq hz)
  rw [Nat.digits_def' h.two_le hpos, BitVec.toNat_umod, BitVec.toNat_udiv, h.value]

theorem Letters.char_umod (h : Letters w b letbase base) (u : BitVec w) :
    digitChar letbase (u % b.signExtend w) = digitByte letbase (u % b.signExtend w).toNat := by
  refine h.char _ ?_
  rw [BitVec.toNat_umod, h.value]
  exact Nat.mod_lt _ (Nat.lt_of_succ_lt h.two_le)

/-- The digits are put in front of `s`, if there is room for them. -/
theorem printDigits_fits (h : Letters w b letbase base) {s : ℕ} (hs : s ≤ n) {u : BitVec w}
    {buf : PrintBuf n} (hlen : (base.digits u.toNat).length ≤ s) :
    ∃ buf', printDigits b letbase s u buf = some (s - (base.digits u.toNat).length, buf') ∧
      buf'.toList.drop (s - (base.digits u.toNat).length) =
        ((base.digits u.toNat).map (digitByte letbase)).reverse ++ buf.toList.drop s := by
  induction s generalizing u buf with
  | zero =>
    have hu : u = 0 := by
      by_contra hu
      rw [h.digits hu] at hlen
      simp at hlen
    subst hu
    exact ⟨buf, by simp [printDigits], by simp⟩
  | succ s ih =>
    by_cases hu : u = 0
    · subst hu
      exact ⟨buf, by simp [printDigits], by simp⟩
    · have hnext := h.digits hu
      rw [hnext, List.length_cons] at hlen
      rw [printDigits, if_neg hu, store_eq buf hs, h.char_umod, hnext]
      have hrest : (base.digits (u / b.signExtend w).toNat).length ≤ s := by omega
      obtain ⟨buf', hrun, hdrop⟩ := ih (Nat.le_of_lt hs) hrest
      refine ⟨buf', ?_, ?_⟩
      · rw [List.length_cons, Nat.add_sub_add_right]
        exact hrun
      · rw [List.length_cons, Nat.add_sub_add_right, hdrop, drop_set, List.map_cons,
          List.reverse_cons, List.append_assoc, List.singleton_append]

/-- Else the loop writes in front of the array. -/
theorem printDigits_overruns (h : Letters w b letbase base) {s : ℕ} (hs : s ≤ n) {u : BitVec w}
    (buf : PrintBuf n) (hlen : s < (base.digits u.toNat).length) :
    printDigits b letbase s u buf = none := by
  induction s generalizing u buf with
  | zero =>
    have hu : u ≠ 0 := by
      rintro rfl
      simp at hlen
    rw [printDigits, if_neg hu]
  | succ s ih =>
    have hu : u ≠ 0 := by
      rintro rfl
      simp at hlen
    rw [h.digits hu, List.length_cons] at hlen
    rw [printDigits, if_neg hu, store_eq buf hs]
    exact ih (by omega) _ (by omega)

theorem length_numeral {base m : ℕ} (hm : m ≠ 0) :
    (numeral letbase base m).length = (base.digits m).length := by
  rw [numeral, if_neg hm, List.length_reverse, List.length_map]

theorem Letters.numeral_ne_zero (h : Letters w b letbase base) (m : ℕ) :
    ∀ c ∈ numeral letbase base m, c ≠ 0 := by
  intro c hc
  unfold numeral at hc
  split_ifs at hc
  · rw [List.mem_singleton.mp hc]
    decide
  · obtain ⟨d, hd, rfl⟩ := List.mem_map.mp (List.mem_reverse.mp hc)
    exact h.ne_zero d (Nat.digits_lt_base h.two_le hd)

theorem string_of_drop {buf : PrintBuf n} {s : ℕ} {l r : List Byte}
    (h : buf.toList.drop s = l ++ 0 :: r) (hl : ∀ c ∈ l, c ≠ 0) : buf.string s = l := by
  rw [PrintBuf.string, h, cString_terminated hl]

end Digits

section Numbers

variable {n w : ℕ} {b letbase : Word}

def magnitude (i : BitVec w) (b sg : Word) : BitVec w := if Negative i b sg then -i else i

theorem magnitude_of_negative {i : BitVec w} {b sg : Word} (h : Negative i b sg) :
    (magnitude i b sg).toNat = i.toInt.natAbs := by
  have hneg := h.2.2
  rw [magnitude, if_pos h, BitVec.toNat_neg]
  rw [BitVec.toInt_eq_toNat_cond] at hneg ⊢
  have hlt := i.isLt
  split_ifs at hneg ⊢ with hhalf
  · omega
  · rw [Nat.mod_eq_of_lt (by omega)]
    omega

theorem magnitude_of_not_negative {i : BitVec w} {b sg : Word} (h : ¬ Negative i b sg) :
    (magnitude i b sg).toNat = i.toNat := by rw [magnitude, if_neg h]

theorem magnitude_ne_zero {i : BitVec w} (hi : i ≠ 0) (b sg : Word) :
    (magnitude i b sg).toNat ≠ 0 := by
  intro hz
  apply hi
  by_cases h : Negative i b sg
  · rw [magnitude_of_negative h] at hz
    exact BitVec.eq_of_toInt_eq (by simpa using hz)
  · rw [magnitude_of_not_negative h] at hz
    exact BitVec.eq_of_toNat_eq (by simpa using hz)

def finishNumber (neg : Prop) [Decidable neg] (width pad : Word) (r : ℕ × PrintBuf n) :
    Option Printed :=
  if neg then
    if width ≠ 0 ∧ pad &&& padZero ≠ 0 then
      some ⟨45 :: (prints (r.2.string r.1) (width - 1) pad).chars,
        1 + (prints (r.2.string r.1) (width - 1) pad).pc⟩
    else (r.2.push r.1 45).bind fun r ↦ some (prints (r.2.string r.1) width pad)
  else some (prints (r.2.string r.1) width pad)

theorem printNumber_of_ne (hn : 11 < n) (buf : PrintBuf n) {i : BitVec w} (hi : i ≠ 0)
    (b sg width pad letbase : Word) : printNumber buf i b sg width pad letbase =
      (printDigits b letbase 11 (magnitude i b sg) (buf.set 11 0 hn)).bind
        (finishNumber (Negative i b sg) width pad) := by
  rw [printNumber, if_neg hi]
  simp only [printBufLen, store_eq buf hn]
  rfl

/-- The array after the digit loop: from `s` on, it holds a string that ends at
its place 11. -/
structure Placed (buf : PrintBuf n) (s : ℕ) (l : List Byte) : Prop where
  length : s + l.length = 11
  ne_zero : ∀ c ∈ l, c ≠ 0
  drop : ∃ r, buf.toList.drop s = l ++ 0 :: r

theorem Placed.string {buf : PrintBuf n} {s : ℕ} {l : List Byte} (h : Placed buf s l) :
    buf.string s = l := by
  obtain ⟨r, hr⟩ := h.drop
  exact string_of_drop hr h.ne_zero

theorem Placed.push {buf : PrintBuf n} {s : ℕ} {l : List Byte} (h : Placed buf (s + 1) l)
    (hn : 11 < n) {c : Byte} (hc : c ≠ 0) :
    ∃ buf', buf.push (s + 1) c = some (s, buf') ∧ Placed buf' s (c :: l) := by
  have hlength := h.length
  have hs : s < n := by omega
  obtain ⟨r, hr⟩ := h.drop
  refine ⟨buf.set s c hs, ?_, ?_, ?_, r, ?_⟩
  · rw [PrintBuf.push, store_eq buf hs]
    rfl
  · rw [List.length_cons]
    omega
  · intro c' hc'
    rcases List.mem_cons.mp hc' with rfl | hc'
    · exact hc
    · exact h.ne_zero c' hc'
  · rw [drop_set, hr]
    rfl

/-- The loop puts the numeral into the array, if it has at most eleven digits. -/
theorem printDigits_placed {base : ℕ} (h : Letters w b letbase base) (hn : 11 < n)
    (buf : PrintBuf n) {u : BitVec w} (hu : u.toNat ≠ 0) (hlt : u.toNat < base ^ 11) :
    ∃ s buf', printDigits b letbase 11 u (buf.set 11 0 hn) = some (s, buf') ∧
      Placed buf' s (numeral letbase base u.toNat) := by
  have hlen := (Nat.digits_length_le_iff h.two_le u.toNat).mpr hlt
  obtain ⟨buf', hrun, hdrop⟩ := printDigits_fits h (Nat.le_of_lt hn) hlen
  refine ⟨_, buf', hrun, ?_, h.numeral_ne_zero u.toNat, buf.toList.drop 12, ?_⟩
  · rw [length_numeral hu]
    omega
  · rw [hdrop, drop_set, numeral, if_neg hu]

theorem printDigits_none {base : ℕ} (h : Letters w b letbase base) (hn : 11 < n)
    (buf : PrintBuf n) {u : BitVec w} (hle : ¬ u.toNat < base ^ 11) :
    printDigits b letbase 11 u buf = none := by
  refine printDigits_overruns h (Nat.le_of_lt hn) buf ?_
  rw [← Nat.not_le, Nat.digits_length_le_iff h.two_le]
  exact hle

theorem string_zero (buf : PrintBuf n) (h₀ : 0 < n) (h₁ : 1 < n) :
    PrintBuf.string ((buf.set 0 48 h₀).set 1 0 h₁) 0 = [48] := by
  have hlen : buf.toList.length = n := Vector.length_toList
  have hdigit : ∀ c ∈ ([48] : List Byte), c ≠ 0 := by decide
  apply string_of_drop ?_ hdigit
  · exact buf.toList.drop 2
  · rw [Vector.toList_set, Vector.toList_set, List.drop_zero]
    cases hl : buf.toList with
    | nil =>
      rw [hl, List.length_nil] at hlen
      omega
    | cons x l =>
      cases l with
      | nil =>
        rw [hl, List.length_singleton] at hlen
        omega
      | cons y r => rfl

theorem printNumber_zero (hn : 11 < n) (buf : PrintBuf n) (b sg width pad letbase : Word) :
    Prints (printNumber buf (0 : BitVec w) b sg width pad letbase)
      (formatted (0 : BitVec w) b sg width pad letbase) := by
  have h₀ : 0 < n := by omega
  have h₁ : 1 < n := by omega
  have hnumeral : numeral letbase b.toNat (0 : BitVec w).toNat = [48] := if_pos BitVec.toNat_zero
  have hprints : Prints (some (prints [48] width pad)) (padded [48] width.toInt pad) :=
    prints_padded (by decide) width pad
  rw [← string_zero buf h₀ h₁] at hprints
  rw [formatted, if_neg (not_negative_zero b sg), hnumeral, ← string_zero buf h₀ h₁, printNumber,
    if_pos rfl]
  simp only [store_eq _ h₀, store_eq _ h₁]
  exact hprints

/-- A number without a sign is printed if its digits have room. -/
theorem printNumber_unsigned (h : Letters w b letbase b.toNat) (hn : 11 < n) (buf : PrintBuf n)
    {i : BitVec w} (hi : i ≠ 0) {sg : Word} (hneg : ¬ Negative i b sg) (width pad : Word) :
    Prints (printNumber buf i b sg width pad letbase) (formatted i b sg width pad letbase) ↔
      i.toNat < b.toNat ^ 11 := by
  have hmagnitude := magnitude_of_not_negative hneg
  have hne := magnitude_ne_zero hi b sg
  rw [printNumber_of_ne hn buf hi, formatted, if_neg hneg, ← hmagnitude]
  by_cases hlt : (magnitude i b sg).toNat < b.toNat ^ 11
  · obtain ⟨s, buf', hrun, hplaced⟩ := printDigits_placed h hn buf hne hlt
    have hlength := hplaced.length
    rw [hrun, Option.bind_some, finishNumber, if_neg hneg, hplaced.string]
    exact iff_of_true (prints_padded (by omega) width pad) hlt
  · rw [printDigits_none h hn _ hlt]
    exact iff_of_false (not_prints_none _) hlt

/-- The sign needs a place in front of the digits. -/
theorem Placed.prints_sign {buf : PrintBuf n} {s : ℕ} {l : List Byte} (h : Placed buf s l)
    (hn : 11 < n) (width pad : Word) :
    Prints ((buf.push s 45).bind fun r ↦ some (prints (r.2.string r.1) width pad))
      (padded (45 :: l) width.toInt pad) ↔ s ≠ 0 := by
  cases s with
  | zero => exact iff_of_false (not_prints_none _) (not_not.mpr rfl)
  | succ s =>
    have hlength := h.length
    obtain ⟨buf', hpush, hplaced⟩ := h.push hn (c := 45) (by decide)
    rw [hpush, Option.bind_some, hplaced.string]
    refine iff_of_true (prints_padded ?_ width pad) (Nat.succ_ne_zero s)
    rw [List.length_cons]
    omega

/-- A negative number is printed if its digits have room, and its sign too
unless it stands ahead of zeros. -/
theorem printNumber_signed (h : Letters w b letbase b.toNat) (hn : 11 < n) (buf : PrintBuf n)
    {i : BitVec w} (hi : i ≠ 0) {sg : Word} (hneg : Negative i b sg) (width pad : Word) :
    Prints (printNumber buf i b sg width pad letbase) (formatted i b sg width pad letbase) ↔
      if width ≠ 0 ∧ pad &&& padZero ≠ 0 then
        i.toInt.natAbs < b.toNat ^ 11 ∧ width.toInt ≠ -2 ^ 31
      else i.toInt.natAbs < b.toNat ^ 10 := by
  have hmagnitude := magnitude_of_negative hneg
  have hne := magnitude_ne_zero hi b sg
  have hpow : b.toNat ^ 10 ≤ b.toNat ^ 11 :=
    Nat.pow_le_pow_right (by have := h.two_le; omega) (by omega)
  rw [printNumber_of_ne hn buf hi, formatted, if_pos hneg, ← hmagnitude]
  by_cases hlt : (magnitude i b sg).toNat < b.toNat ^ 11
  · obtain ⟨s, buf', hrun, hplaced⟩ := printDigits_placed h hn buf hne hlt
    have hlength := hplaced.length
    rw [hrun, Option.bind_some, finishNumber, if_pos hneg, hplaced.string]
    by_cases hzeros : width ≠ 0 ∧ pad &&& padZero ≠ 0
    · rw [if_pos hzeros, if_pos hzeros, if_neg hzeros.2]
      by_cases hwidth : width.toInt = -2 ^ 31
      · exact iff_of_false (not_prints_least (by omega) hwidth pad _) fun hfits ↦ hfits.2 hwidth
      · exact iff_of_true (prints_signed (by omega) hwidth pad) ⟨hlt, hwidth⟩
    · have hformat : (if pad &&& padZero = 0
          then padded (45 :: numeral letbase b.toNat (magnitude i b sg).toNat) width.toInt pad
          else 45 :: padded (numeral letbase b.toNat (magnitude i b sg).toNat) (width.toInt - 1)
            pad) =
          padded (45 :: numeral letbase b.toNat (magnitude i b sg).toNat) width.toInt pad := by
        split_ifs with hz
        · rfl
        · -- Without padding the sign is next to the digits in any case.
          have hwidth : width = 0 := not_not.mp fun hw ↦ hzeros ⟨hw, hz⟩
          have hzero : width.toInt = 0 := by rw [hwidth]; rfl
          rw [hzero, padded_of_le (by omega), padded_of_le (by omega)]
      have hdigits : (numeral letbase b.toNat (magnitude i b sg).toNat).length =
        (b.toNat.digits (magnitude i b sg).toNat).length := length_numeral hne
      rw [if_neg hzeros, if_neg hzeros, hformat, hplaced.prints_sign hn,
        ← Nat.digits_length_le_iff h.two_le, ← hdigits]
      omega
  · rw [printDigits_none h hn _ hlt]
    refine iff_of_false (not_prints_none _) ?_
    split_ifs
    · exact fun hfits ↦ hlt hfits.1
    · omega

theorem printNumber_iff (h : Letters w b letbase b.toNat) (hn : 11 < n) (buf : PrintBuf n)
    (i : BitVec w) (sg width pad : Word) :
    Prints (printNumber buf i b sg width pad letbase) (formatted i b sg width pad letbase) ↔
      Fits i b sg width pad := by
  by_cases hi : i = 0
  · subst hi
    have hzero : (0 : BitVec w).toNat = 0 := BitVec.toNat_zero
    refine iff_of_true (printNumber_zero hn buf b sg width pad letbase) ?_
    rw [Fits, if_neg (not_negative_zero b sg), hzero]
    exact Nat.pow_pos (Nat.lt_of_succ_lt h.two_le)
  · unfold Fits
    by_cases hneg : Negative i b sg
    · rw [if_pos hneg]
      exact printNumber_signed h hn buf hi hneg width pad
    · rw [if_neg hneg]
      exact printNumber_unsigned h hn buf hi hneg width pad

/-- The bases and letters that `print` asks for, in both widths. -/
theorem letters_of (hw : w = 32 ∨ w = 64) (hb : b = 10 ∨ b = 16)
    (hl : letbase = 97 ∨ letbase = 65) : Letters w b letbase b.toNat := by
  have hchar : ∀ d < b.toNat, digitChar letbase (BitVec.ofNat w d) = digitByte letbase d := by
    rcases hw with rfl | rfl <;> rcases hb with rfl | rfl <;> rcases hl with rfl | rfl <;> decide
  refine ⟨?_, ?_, fun t ht ↦ ?_, ?_⟩
  · rcases hw with rfl | rfl <;> rcases hb with rfl | rfl <;> rfl
  · rcases hb with rfl | rfl <;> decide
  · have hsame := hchar t.toNat ht
    rwa [BitVec.ofNat_toNat, BitVec.setWidth_eq] at hsame
  · rcases hb with rfl | rfl <;> rcases hl with rfl | rfl <;> decide

end Numbers

/-- The array of `printi` has room for every number of 32 bits. -/
theorem printi_prints (buf : PrintBuf printBufLen) (i : Word) {b letbase : Word}
    (hb : b = 10 ∨ b = 16) (hl : letbase = 97 ∨ letbase = 65) (sg : Word) {width : Word}
    (hwidth : width.toInt ≠ -2 ^ 31) (pad : Word) :
    Prints (printi buf i b sg width pad letbase) (formatted i b sg width pad letbase) := by
  have hpow : 2 ^ 32 ≤ b.toNat ^ 10 ∧ b.toNat ^ 10 ≤ b.toNat ^ 11 := by
    rcases hb with rfl | rfl <;> decide
  have hlt := i.isLt
  have habs : i.toInt.natAbs ≤ 2 ^ 31 := by
    have hle : -2 ^ 31 ≤ i.toInt := BitVec.le_toInt i
    have hgt : i.toInt < 2 ^ 31 := BitVec.toInt_lt
    omega
  refine (printNumber_iff (letters_of (.inl rfl) hb hl) (by decide) buf i sg width pad).mpr ?_
  unfold Fits
  split_ifs
  · exact ⟨by omega, hwidth⟩
  · omega
  · omega

/-- The array of `printli` has room for eleven characters only: it starts in
the middle. -/
theorem printli_prints_iff (buf : PrintBuf printLongBufLen) (i : BitVec 64) {b letbase : Word}
    (hb : b = 10 ∨ b = 16) (hl : letbase = 97 ∨ letbase = 65) (sg width pad : Word) :
    Prints (printli buf i b sg width pad letbase) (formatted i b sg width pad letbase) ↔
      Fits i b sg width pad :=
  printNumber_iff (letters_of (.inr rfl) hb hl) (by decide) buf i sg width pad

theorem printli_prints_iff_elevenDigits :
    Prints (printli (Vector.replicate 22 0) 99999999999#64 10 0 15 padZero 97)
      (formatted 99999999999#64 10 0 15 padZero 97) :=
  (printli_prints_iff (Vector.replicate 22 0) 99999999999#64 (.inl rfl) (.inl rfl) 0 15
    padZero).mpr (by unfold Fits; decide)

/-- After 28 hours, the time in microseconds has twelve digits. -/
theorem uptime_overruns : printli (Vector.replicate 22 0) 100000000000#64 10 0 0 0 97 = none ∧
    ¬ Prints (printli (Vector.replicate 22 0) 100000000000#64 10 0 0 0 97)
      (formatted 100000000000#64 10 0 0 0 97) := by
  have hnone : printli (Vector.replicate 22 0) 100000000000#64 10 0 0 0 97 = none := by decide
  refine ⟨hnone, ?_⟩
  rw [hnone]
  exact not_prints_none _

end PrjOS
