import PrjOS.Cli.Commands
import PrjOS.Properties.Formats

namespace PrjOS

open ByteMemory

section Digits

theorem IsDigit.append {c : Byte} (hc : IsDigit c) (res : ℕ) :
    BitVec.ofNat 32 res * 10 + c.setWidth 32 - 48 =
      BitVec.ofNat 32 (res * 10 + (c.toNat - 48)) := by
  rw [BitVec.sub_eq_add_neg, BitVec.add_assoc, ← BitVec.sub_eq_add_neg, hc.value, BitVec.ofNat_add,
    BitVec.ofNat_mul]
  rfl

/-- The digits are read up to their end, or up to another character. -/
theorem atoiDigits_eq (sign : Word) (res : ℕ) {i : ℕ} {str : List Byte}
    (h : i + str.length < 128) :
    atoiDigits sign (BitVec.ofNat 32 res) i str = some
      (if ∀ c ∈ str, IsDigit c then
        sign * BitVec.ofNat 32 (str.foldl (fun n c ↦ n * 10 + (c.toNat - 48)) res)
      else 0) := by
  induction str generalizing res i with
  | nil => simp [atoiDigits, show i < 128 by simpa using h]
  | cons c str ih =>
    rw [List.length_cons] at h
    rw [atoiDigits, if_pos (by omega)]
    by_cases hc : IsDigit c
    · rw [if_pos (show 48 ≤ c ∧ c ≤ 57 from hc), hc.append, ih _ (by omega)]
      simp [hc]
    · rw [if_neg (show ¬ (48 ≤ c ∧ c ≤ 57) from hc)]
      simp [hc]

def digitsValue (str : List Byte) : ℕ :=
  if str.all fun c ↦ decide (IsDigit c) then Flags.decimalValue str else 0

theorem digitsValue_eq (str : List Byte) : digitsValue str =
    if ∀ c ∈ str, IsDigit c then Flags.decimalValue str else 0 := by
  simp only [digitsValue, List.all_eq_true, decide_eq_true_eq]

/-- The number that a string stands for, or 0 if it is no numeral. -/
def atoiValue : List Byte → ℤ
  | [] => 0
  | c :: str => if c = 45 then -digitsValue str else digitsValue (c :: str)

theorem atoiDigits_start (sign : Word) {i : ℕ} {str : List Byte} (h : i + str.length < 128) :
    atoiDigits sign 0 i str = some (sign * BitVec.ofNat 32 (digitsValue str)) := by
  refine (atoiDigits_eq sign 0 h).trans (congrArg some ?_)
  rw [digitsValue_eq]
  split_ifs
  · rfl
  · exact BitVec.mul_zero.symm

theorem myAtoi_eq {str : List Byte} (h : str.length < 128) :
    myAtoi str = some (BitVec.ofInt 32 (atoiValue str)) := by
  cases str with
  | nil => rfl
  | cons c str =>
    rw [List.length_cons] at h
    rw [myAtoi, atoiValue]
    split_ifs
    · rw [atoiDigits_start _ (by omega), BitVec.ofInt_neg, BitVec.ofInt_natCast, BitVec.neg_mul]
      exact congrArg (fun v ↦ some (-v)) (BitVec.one_mul _)
    · rw [atoiDigits_start _ (by simpa using h), BitVec.ofInt_natCast]
      exact congrArg some (BitVec.one_mul _)

end Digits

section RoundTrip

theorem toNat_digitByte {d : ℕ} (hd : d < 10) : (digitByte 97 d).toNat = 48 + d := by
  rw [digitByte, if_pos hd, BitVec.toNat_ofNat]
  omega

theorem isDigit_digitByte {d : ℕ} (hd : d < 10) : IsDigit (digitByte 97 d) := by
  have htoNat := toNat_digitByte hd
  refine ⟨BitVec.le_def.mpr ?_, BitVec.le_def.mpr ?_⟩
  · change 48 ≤ (digitByte 97 d).toNat
    omega
  · change (digitByte 97 d).toNat ≤ 57
    omega

theorem decimalValue_digits {l : List ℕ} (hl : ∀ d ∈ l, d < 10) :
    Flags.decimalValue (l.map (digitByte 97)).reverse = Nat.ofDigits 10 l := by
  rw [Flags.decimalValue, List.foldl_reverse]
  induction l with
  | nil => rfl
  | cons d l ih =>
    rw [List.map_cons, List.foldr_cons, ih fun e he ↦ hl e (List.mem_cons_of_mem d he),
      toNat_digitByte (hl d List.mem_cons_self), Nat.ofDigits_cons]
    omega

theorem decimalValue_numeral (m : ℕ) :
    (∀ c ∈ numeral 97 10 m, IsDigit c) ∧ Flags.decimalValue (numeral 97 10 m) = m := by
  unfold numeral
  have hl : ∀ d ∈ Nat.digits 10 m, d < 10 := fun d hd ↦ Nat.digits_lt_base (by decide) hd
  split_ifs with hm
  · subst hm
    decide
  · refine ⟨fun c hc ↦ ?_, ?_⟩
    · obtain ⟨d, hd, rfl⟩ := List.mem_map.mp (List.mem_reverse.mp hc)
      exact isDigit_digitByte (hl d hd)
    · rw [decimalValue_digits hl, Nat.ofDigits_digits]

theorem length_numeral_lt {m : ℕ} (hm : m < 2 ^ 32) : (numeral 97 10 m).length < 12 := by
  by_cases hzero : m = 0
  · subst hzero
    decide
  · have hdigits : (Nat.digits 10 m).length ≤ 10 :=
      (Nat.digits_length_le_iff (by decide) m).mpr (by omega)
    rw [length_numeral hzero]
    omega

theorem digitsValue_numeral (m : ℕ) : digitsValue (numeral 97 10 m) = m := by
  obtain ⟨hdigits, hvalue⟩ := decimalValue_numeral m
  rw [digitsValue_eq, if_pos hdigits, hvalue]

theorem formatted_signed (v : Word) : formatted v 10 1 0 0 97 =
    if v.toInt < 0 then 45 :: numeral 97 10 v.toInt.natAbs else numeral 97 10 v.toNat := by
  have hneg : Negative v 10 1 ↔ v.toInt < 0 := ⟨fun h ↦ h.2.2, fun h ↦ ⟨by decide, rfl, h⟩⟩
  have hpad (s : List Byte) : padded s (0 : Word).toInt 0 = s :=
    padded_of_le (Int.natCast_nonneg _) 0
  unfold formatted
  simp only [hneg, hpad]
  rfl

theorem atoiValue_formatted (v : Word) : atoiValue (formatted v 10 1 0 0 97) = v.toInt := by
  rw [formatted_signed]
  split_ifs with hneg
  · rw [atoiValue, if_pos rfl, digitsValue_numeral]
    omega
  · have hvalue := digitsValue_numeral v.toNat
    have hdigits := (decimalValue_numeral v.toNat).1
    have htoInt : (v.toNat : ℤ) = v.toInt := by
      have hcond := BitVec.toInt_eq_toNat_cond v
      split_ifs at hcond <;> omega
    cases hs : numeral 97 10 v.toNat with
    | nil =>
      rw [hs] at hvalue
      rw [← htoInt, ← hvalue]
      rfl
    | cons c s =>
      have hc : c ≠ 45 := by
        rintro rfl
        exact absurd (hdigits 45 (by rw [hs]; exact List.mem_cons_self)) (by decide)
      rw [atoiValue, if_neg hc, ← hs, hvalue, htoInt]

/-- What `%d` prints is read as the number that was printed. -/
theorem printed_number_is_read (buf : PrintBuf printBufLen) (v : Word) :
    ∃ p, printi buf v 10 1 0 0 97 = some p ∧ myAtoi p.chars = some v := by
  have hwidth : (0 : Word).toInt ≠ -2 ^ 31 := by decide
  obtain ⟨p, hp, hchars, -⟩ := printi_prints buf v (.inl rfl) (.inl rfl) 1 hwidth 0
  refine ⟨p, hp, ?_⟩
  have hlen : (formatted v 10 1 0 0 97).length < 128 := by
    have habs : v.toInt.natAbs < 2 ^ 32 := by
      have hle := BitVec.le_toInt v
      have hlt := BitVec.toInt_lt (x := v)
      omega
    rw [formatted_signed]
    split_ifs
    · have hshort := length_numeral_lt habs
      rw [List.length_cons]
      omega
    · have hshort := length_numeral_lt v.isLt
      omega
  rw [hchars, myAtoi_eq hlen, atoiValue_formatted, BitVec.ofInt_toInt]

end RoundTrip

end PrjOS
