import PrjOS.Library.Memory
import Mathlib.Data.List.TakeWhile

namespace PrjOS.ByteMemory

/-- The bytes of a word, the low one first. -/
def wordBytes (w : Word) : List Byte := [byteOf w 0, byteOf w 1, byteOf w 2, byteOf w 3]

def halfBytes (h : BitVec 16) : List Byte := [h.extractLsb' 0 8, h.extractLsb' 8 8]

def wordAt (l : List Byte) (i : Nat) : Word :=
  l.getD (i + 3) 0 ++ l.getD (i + 2) 0 ++ l.getD (i + 1) 0 ++ l.getD i 0

def halfAt (l : List Byte) (i : Nat) : BitVec 16 := l.getD (i + 1) 0 ++ l.getD i 0

@[simp] theorem length_wordBytes (w : Word) : (wordBytes w).length = 4 := rfl

@[simp] theorem length_halfBytes (h : BitVec 16) : (halfBytes h).length = 2 := rfl

@[simp] theorem wordAt_wordBytes (w : Word) (l : List Byte) : wordAt (wordBytes w ++ l) 0 = w :=
  append_bytes w

@[simp] theorem wordAt_wordBytes_self (w : Word) : wordAt (wordBytes w) 0 = w := append_bytes w

theorem append_halves (h : BitVec 16) : h.extractLsb' 8 8 ++ h.extractLsb' 0 8 = h := by
  refine BitVec.eq_of_getLsbD_eq fun i hi ↦ ?_
  rw [BitVec.getLsbD_append, BitVec.getLsbD_extractLsb', BitVec.getLsbD_extractLsb']
  by_cases h8 : i < 8
  · simp [h8]
  · have hsub : i - 8 < 8 := by omega
    have hadd : 8 + (i - 8) = i := by omega
    simp [h8, hsub, hadd]

theorem getD_length_add (l l' : List Byte) (i : Nat) :
    (l ++ l').getD (l.length + i) 0 = l'.getD i 0 := by
  rw [List.getD_append_right _ _ _ _ (by omega), Nat.add_sub_cancel_left]

theorem wordAt_append (l l' : List Byte) (i : Nat) :
    wordAt (l ++ l') (l.length + i) = wordAt l' i := by
  simp only [wordAt, Nat.add_assoc, getD_length_add]

theorem wordAt_append_left {l : List Byte} {i : Nat} (h : i + 4 ≤ l.length) (l' : List Byte) :
    wordAt (l ++ l') i = wordAt l i := by
  unfold wordAt
  rw [List.getD_append _ _ _ _ (by omega), List.getD_append _ _ _ _ (by omega),
    List.getD_append _ _ _ _ (by omega), List.getD_append _ _ _ _ (by omega)]

theorem halfAt_append (l l' : List Byte) (i : Nat) :
    halfAt (l ++ l') (l.length + i) = halfAt l' i := by
  simp only [halfAt, Nat.add_assoc, getD_length_add]

@[simp] theorem halfAt_halfBytes (h : BitVec 16) (l : List Byte) :
    halfAt (halfBytes h ++ l) 0 = h := append_halves h

def bytesAt (m : Memory) (a : Word) (n : ℕ) : List Byte :=
  (List.range n).map fun i ↦ m (a + BitVec.ofNat 32 i)

@[simp] theorem length_bytesAt (m : Memory) (a : Word) (n : ℕ) : (bytesAt m a n).length = n := by
  simp [bytesAt]

theorem take_bytesAt (m : Memory) (a : Word) (n k : ℕ) :
    (bytesAt m a n).take k = bytesAt m a (min k n) := by
  rw [bytesAt, ← List.map_take, List.take_range]
  rfl

theorem bytesAt_congr {m m' : Memory} {a : Word} {n : ℕ} (h : SameOn a n m m') :
    bytesAt m' a n = bytesAt m a n :=
  List.map_congr_left fun i hi ↦ sameOn_iff.mp h i (List.mem_range.mp hi)

theorem bytesAt_memcpy (m : Memory) (dest src : Word) {n : ℕ} (hn : n ≤ 2 ^ 32) :
    bytesAt (memcpy m dest src n) dest n = bytesAt m src n := by
  refine List.map_congr_left fun i hi ↦ ?_
  have hlt := List.mem_range.mp hi
  exact store_offset hlt (by omega)

/-- The string that a buffer holds: its bytes before the first zero. -/
def cString (buffer : List Byte) : List Byte := buffer.takeWhile (· ≠ 0)

/-- Put the string of `src` and its zero at the start of `dest`. -/
def strcpy (dest src : List Byte) : List Byte :=
  cString src ++ 0 :: dest.drop ((cString src).length + 1)

/-- `strtok_r` from place `s.2` of the buffer `s.1` on: the token, and where the
next call goes on. The character behind the token is overwritten with a zero. -/
def strtokR (delims : List Byte) (s : List Byte × ℕ) : Option (List Byte × (List Byte × ℕ)) :=
  let rest := cString (s.1.drop s.2)
  let start := s.2 + (rest.takeWhile delims.contains).length
  let token := (rest.dropWhile delims.contains).takeWhile fun b ↦ !delims.contains b
  let stop := start + token.length
  if token = [] then none
  else if s.1.getD stop 0 = 0 then some (token, s.1, stop)
  else some (token, s.1.set stop 0, stop + 1)

theorem ne_zero_of_mem_cString {buffer : List Byte} {b : Byte} (h : b ∈ cString buffer) :
    b ≠ 0 := by
  simpa using List.mem_takeWhile_imp h

theorem cString_terminated {s : List Byte} (h : ∀ b ∈ s, b ≠ 0) (l : List Byte) :
    cString (s ++ 0 :: l) = s := by
  unfold cString
  rw [List.takeWhile_append_of_pos (by simpa using h), List.takeWhile_cons_of_neg (by simp),
    List.append_nil]

theorem length_cString_lt {l : List Byte} (h : 0 ∈ l) : (cString l).length < l.length := by
  refine Nat.lt_of_le_of_ne (List.takeWhile_prefix _).length_le fun heq ↦ ?_
  have hall : cString l = l := (List.takeWhile_prefix _).eq_of_length heq
  rw [← hall] at h
  exact ne_zero_of_mem_cString h rfl

theorem cString_append_of_mem {l : List Byte} (h : 0 ∈ l) (l' : List Byte) :
    cString (l ++ l') = cString l := by
  unfold cString
  rw [List.takeWhile_append, if_neg]
  exact Nat.ne_of_lt (length_cString_lt h)

theorem le_length_cString_append {l : List Byte} (h : 0 ∉ l) (l' : List Byte) :
    l.length ≤ (cString (l ++ l')).length := by
  unfold cString
  rw [List.takeWhile_append_of_pos, List.length_append]
  · omega
  · intro b hb
    simpa using fun hzero : b = 0 ↦ h (hzero ▸ hb)

@[simp] theorem cString_strcpy (dest src : List Byte) : cString (strcpy dest src) = cString src :=
  cString_terminated (fun _ ↦ ne_zero_of_mem_cString) _

end PrjOS.ByteMemory
