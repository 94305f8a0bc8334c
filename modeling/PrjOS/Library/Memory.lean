import Mathlib.Data.BitVec
import Mathlib.Data.List.GetD
import Mathlib.Logic.Function.Basic

namespace PrjOS.ByteMemory

abbrev Byte := BitVec 8
abbrev Word := BitVec 32

/-- A byte for each 32-bit address. Addresses wrap at the end of the space. -/
abbrev Memory := Word → Byte

def Within (a : Word) (n : Nat) (b : Word) : Prop := (b - a).toNat < n

instance (a : Word) (n : Nat) (b : Word) : Decidable (Within a n b) :=
  inferInstanceAs (Decidable ((b - a).toNat < n))

def Apart (a : Word) (n : Nat) (b : Word) (k : Nat) : Prop :=
  ∀ x, Within a n x → ¬ Within b k x

def store (m : Memory) (a : Word) (n : Nat) (f : Nat → Byte) : Memory := fun b ↦
  if Within a n b then f (b - a).toNat else m b

def byteOf (w : Word) (i : Nat) : Byte := w.extractLsb' (8 * i) 8

def readWord (m : Memory) (a : Word) : Word := m (a + 3#32) ++ m (a + 2#32) ++ m (a + 1#32) ++ m a

def writeWord (m : Memory) (a : Word) (w : Word) : Memory := store m a 4 (byteOf w)

/-- All source bytes are read before the first one is written. -/
def memcpy (m : Memory) (dest src : Word) (n : Nat) : Memory :=
  store m dest n (fun i ↦ m (src + BitVec.ofNat 32 i))

theorem Apart.symm {a b : Word} {n k : Nat} (h : Apart a n b k) : Apart b k a n :=
  fun x hb ha ↦ h x ha hb

theorem Apart.mono {a b : Word} {n n' k k' : Nat} (h : Apart a n b k) (hn : n' ≤ n) (hk : k' ≤ k) :
    Apart a n' b k' :=
  fun x ha hb ↦ h x (Nat.lt_of_lt_of_le ha hn) (Nat.lt_of_lt_of_le hb hk)

theorem apart_of_le {a b : Word} {n k : Nat} (ha : n ≤ (b - a).toNat) (hb : k ≤ (a - b).toNat) :
    Apart a n b k := by
  unfold Apart Within
  intro x hx hx'
  bv_omega

theorem within_offset {a : Word} {n i : Nat} (hi : i < n) (hn : i < 2 ^ 32) :
    Within a n (a + BitVec.ofNat 32 i) := by
  unfold Within
  rw [add_sub_cancel_left, BitVec.toNat_ofNat, Nat.mod_eq_of_lt hn]
  exact hi

@[simp] theorem store_out {m : Memory} {a b : Word} {n : Nat} {f : Nat → Byte}
    (h : ¬ Within a n b) : store m a n f b = m b := if_neg h

theorem store_in {m : Memory} {a b : Word} {n : Nat} {f : Nat → Byte}
    (h : Within a n b) : store m a n f b = f (b - a).toNat := if_pos h

theorem store_offset {m : Memory} {a : Word} {n i : Nat} {f : Nat → Byte}
    (hi : i < n) (hn : i < 2 ^ 32) : store m a n f (a + BitVec.ofNat 32 i) = f i := by
  rw [store_in (within_offset hi hn), add_sub_cancel_left, BitVec.toNat_ofNat,
    Nat.mod_eq_of_lt hn]

theorem within_of_store {m : Memory} {a b : Word} {n : Nat} {f : Nat → Byte}
    (h : store m a n f b ≠ m b) : Within a n b := by
  by_contra hout
  exact h (store_out hout)

theorem store_congr {m : Memory} {a : Word} {n : Nat} {f g : Nat → Byte}
    (h : ∀ i < n, f i = g i) : store m a n f = store m a n g := by
  funext b
  by_cases hb : Within a n b
  · rw [store_in hb, store_in hb, h _ hb]
  · rw [store_out hb, store_out hb]

theorem store_comm {m : Memory} {a b : Word} {n k : Nat} {f g : Nat → Byte}
    (h : Apart a n b k) :
    store (store m a n f) b k g = store (store m b k g) a n f := by
  funext x
  by_cases ha : Within a n x
  · rw [store_out (h x ha), store_in ha, store_in ha]
  · by_cases hb : Within b k x
    · rw [store_in hb, store_out ha, store_in hb]
    · rw [store_out hb, store_out ha, store_out ha, store_out hb]

theorem readWord_congr {m m' : Memory} {a : Word}
    (h : ∀ b, Within a 4 b → m' b = m b) : readWord m' a = readWord m a := by
  have hh (i : Nat) (hi : i < 4) : m' (a + BitVec.ofNat 32 i) = m (a + BitVec.ofNat 32 i) :=
    h _ (within_offset hi (by omega))
  have h0 := hh 0 (by decide)
  have h1 := hh 1 (by decide)
  have h2 := hh 2 (by decide)
  have h3 := hh 3 (by decide)
  simp only [BitVec.add_zero] at h0
  simp only [readWord, h0, h1, h2, h3]

theorem readWord_store_apart {m : Memory} {a b : Word} {n : Nat} {f : Nat → Byte}
    (h : Apart a n b 4) : readWord (store m a n f) b = readWord m b :=
  readWord_congr (fun _ hb ↦ store_out (fun ha ↦ h _ ha hb))

theorem append_bytes (w : Word) : byteOf w 3 ++ byteOf w 2 ++ byteOf w 1 ++ byteOf w 0 = w := by
  unfold byteOf
  rw [BitVec.extractLsb'_append_extractLsb'_eq_extractLsb' (by rfl),
    BitVec.extractLsb'_append_extractLsb'_eq_extractLsb' (by rfl),
    BitVec.extractLsb'_append_extractLsb'_eq_extractLsb' (by rfl)]
  simp

theorem readWord_writeWord (m : Memory) (a w : Word) : readWord (writeWord m a w) a = w := by
  have hh (i : Nat) (hi : i < 4) : writeWord m a w (a + BitVec.ofNat 32 i) = byteOf w i :=
    store_offset hi (by omega)
  have h0 := hh 0 (by decide)
  have h1 := hh 1 (by decide)
  have h2 := hh 2 (by decide)
  have h3 := hh 3 (by decide)
  simp only [BitVec.add_zero] at h0
  simp only [readWord, h0, h1, h2, h3, append_bytes]

theorem memcpy_store_comm {m : Memory} {dest src a : Word} {n k : Nat} {f : Nat → Byte}
    (hn : n ≤ 2 ^ 32) (hd : Apart a k dest n) (hs : Apart a k src n) :
    memcpy (store m a k f) dest src n = store (memcpy m dest src n) a k f := by
  unfold memcpy
  rw [store_congr (g := fun i ↦ m (src + BitVec.ofNat 32 i)), store_comm hd]
  intro i hi
  exact store_out (fun ha ↦ hs _ ha (within_offset hi (by omega)))

def word (m : Memory) (a : Word) (k : Nat) : Word := readWord m (a + BitVec.ofNat 32 (4 * k))

def writeWords (m : Memory) (a : Word) (ws : List Word) : Memory :=
  store m a (4 * ws.length) fun i ↦ byteOf (ws.getD (i / 4) 0) (i % 4)

def SameOn (a : Word) (n : Nat) (m m' : Memory) : Prop := ∀ b, Within a n b → m' b = m b

theorem sameOn_iff {a : Word} {n : Nat} {m m' : Memory} :
    SameOn a n m m' ↔ ∀ i < n, m' (a + BitVec.ofNat 32 i) = m (a + BitVec.ofNat 32 i) := by
  constructor
  · intro h i hi
    refine h _ ?_
    unfold Within
    rw [add_sub_cancel_left, BitVec.toNat_ofNat]
    exact Nat.lt_of_le_of_lt (Nat.mod_le _ _) hi
  · intro h b hb
    have hofs := h (b - a).toNat hb
    rwa [BitVec.ofNat_toNat, BitVec.setWidth_eq, add_sub_cancel] at hofs

instance (a : Word) (n : Nat) (m m' : Memory) : Decidable (SameOn a n m m') :=
  decidable_of_iff _ sameOn_iff.symm

theorem SameOn.refl (a : Word) (n : Nat) (m : Memory) : SameOn a n m m := fun _ _ ↦ rfl

theorem SameOn.trans {a : Word} {n : Nat} {m m' m'' : Memory} (h : SameOn a n m m')
    (h' : SameOn a n m' m'') : SameOn a n m m'' := fun b hb ↦ (h' b hb).trans (h b hb)

theorem SameOn.store {a b : Word} {n k : Nat} (h : Apart b k a n) (m : Memory) (f : Nat → Byte) :
    SameOn a n m (store m b k f) := fun _ hx ↦ store_out fun hb ↦ h _ hb hx

theorem within_word {a b : Word} {n k : Nat} (hk : k < n) (hn : 4 * n ≤ 2 ^ 32)
    (h : Within (a + BitVec.ofNat 32 (4 * k)) 4 b) : Within a (4 * n) b := by
  unfold Within at h ⊢
  have hofs : (BitVec.ofNat 32 (4 * k)).toNat = 4 * k := by
    rw [BitVec.toNat_ofNat, Nat.mod_eq_of_lt (by omega)]
  have he : b - a = (b - (a + BitVec.ofNat 32 (4 * k))) + BitVec.ofNat 32 (4 * k) := by
    rw [sub_add_eq_sub_sub, sub_add_cancel]
  rw [he, BitVec.toNat_add, hofs, Nat.mod_eq_of_lt (by omega)]
  omega

theorem SameOn.word {a : Word} {n k : Nat} {m m' : Memory} (h : SameOn a (4 * n) m m')
    (hk : k < n) (hn : 4 * n ≤ 2 ^ 32) : word m' a k = word m a k :=
  readWord_congr fun b hb ↦ h b (within_word hk hn hb)

theorem word_writeWords (m : Memory) (a : Word) {ws : List Word} {k : Nat} (hk : k < ws.length)
    (hn : 4 * ws.length ≤ 2 ^ 32) : word (writeWords m a ws) a k = ws.getD k 0 := by
  have hbyte (i : Nat) (hi : i < 4) : writeWords m a ws
      (a + BitVec.ofNat 32 (4 * k) + BitVec.ofNat 32 i) = byteOf (ws.getD k 0) i := by
    rw [BitVec.add_assoc, ← BitVec.ofNat_add, writeWords, store_offset (by omega) (by omega)]
    congr 2 <;> omega
  have h0 := hbyte 0 (by decide)
  have h1 := hbyte 1 (by decide)
  have h2 := hbyte 2 (by decide)
  have h3 := hbyte 3 (by decide)
  simp only [BitVec.add_zero] at h0
  simp only [word, readWord, h0, h1, h2, h3, append_bytes]

def setWord (m : Memory) (a : Word) (k : Nat) (w : Word) : Memory :=
  writeWord m (a + BitVec.ofNat 32 (4 * k)) w

theorem Within.of_offset {a b : Word} {n i j : Nat} (h : Within (a + BitVec.ofNat 32 i) j b)
    (hij : i + j ≤ n) : Within a n b := by
  unfold Within at h ⊢
  have he : b - a = (b - (a + BitVec.ofNat 32 i)) + BitVec.ofNat 32 i := by
    rw [sub_add_eq_sub_sub, sub_add_cancel]
  rw [he, BitVec.toNat_add, BitVec.toNat_ofNat]
  omega

theorem Apart.offset {a b : Word} {n i j k : Nat} (h : Apart a n b k) (hij : i + j ≤ n) :
    Apart (a + BitVec.ofNat 32 i) j b k := fun _ hx ↦ h _ (hx.of_offset hij)

/-- Memories that differ in none but the `n` bytes from `a` on. -/
def SameOutside (a : Word) (n : Nat) (m m' : Memory) : Prop := ∀ b, m' b ≠ m b → Within a n b

theorem SameOutside.refl (a : Word) (n : Nat) (m : Memory) : SameOutside a n m m :=
  fun _ h ↦ absurd rfl h

theorem SameOutside.store {a b : Word} {n k : Nat} {m m' : Memory} (h : SameOutside a n m m')
    (hb : ∀ x, Within b k x → Within a n x) (f : Nat → Byte) :
    SameOutside a n m (ByteMemory.store m' b k f) := by
  intro x hx
  by_cases hm : m' x = m x
  · exact hb x (within_of_store fun he ↦ hx (he.trans hm))
  · exact h x hm

theorem SameOutside.first {a : Word} {n j : Nat} {m m' : Memory} (h : SameOutside a n m m')
    (hj : j ≤ n) (f : Nat → Byte) : SameOutside a n m (ByteMemory.store m' a j f) :=
  h.store (fun _ hx ↦ Nat.lt_of_lt_of_le hx hj) f

theorem SameOutside.field {a : Word} {n j : Nat} {m m' : Memory} (h : SameOutside a n m m')
    (i : Nat) (hij : i + j ≤ n) (f : Nat → Byte) :
    SameOutside a n m (ByteMemory.store m' (a + BitVec.ofNat 32 i) j f) :=
  h.store (fun _ hx ↦ hx.of_offset hij) f

theorem word_add (m : Memory) (a : Word) (i k : Nat) :
    word m (a + BitVec.ofNat 32 (4 * i)) k = word m a (i + k) := by
  unfold word
  rw [BitVec.add_assoc, ← BitVec.ofNat_add, ← Nat.mul_add]

theorem word_setWord_self (m : Memory) (a : Word) (k : Nat) (w : Word) :
    word (setWord m a k w) a k = w := readWord_writeWord m _ w

theorem word_setWord_ne (m : Memory) (a w : Word) {i j : Nat} (h : i ≠ j) (hi : i < 2 ^ 30)
    (hj : j < 2 ^ 30) : word (setWord m a i w) a j = word m a j := by
  refine readWord_store_apart (apart_of_le ?_ ?_) <;> bv_omega

theorem SameOn.setWord {a b : Word} {n k i : Nat} (h : Apart a n b k) (hi : 4 * i + 4 ≤ n)
    (m : Memory) (w : Word) : SameOn b k m (setWord m a i w) :=
  SameOn.store (h.offset hi) m _

theorem SameOn.writeWords {a b : Word} {n k : Nat} {ws : List Word} (h : Apart a n b k)
    (hws : 4 * ws.length ≤ n) (m : Memory) : SameOn b k m (writeWords m a ws) :=
  SameOn.store (h.mono hws le_rfl) m _

theorem writeWords_singleton (m : Memory) (a w : Word) : writeWords m a [w] = writeWord m a w := by
  refine store_congr fun i hi ↦ ?_
  have hi : i < 4 := hi
  rw [Nat.div_eq_of_lt hi, Nat.mod_eq_of_lt hi, List.getD_cons_zero]

theorem within_append (a b : Word) {n k : Nat} (hn : n ≤ 2 ^ 32) (hk : n + k ≤ 2 ^ 32) :
    Within a (n + k) b ↔ Within a n b ∨ Within (a + BitVec.ofNat 32 n) k b := by
  have hsub : (b - (a + BitVec.ofNat 32 n)).toNat = ((b - a).toNat + 2 ^ 32 - n) % 2 ^ 32 := by
    rw [sub_add_eq_sub_sub, BitVec.toNat_sub, BitVec.toNat_ofNat]
    omega
  have hlt := (b - a).isLt
  unfold Within
  omega

theorem writeWords_append (m : Memory) (a : Word) (ws ws' : List Word)
    (h : 4 * (ws.length + ws'.length) ≤ 2 ^ 32) :
    writeWords (writeWords m (a + BitVec.ofNat 32 (4 * ws.length)) ws') a ws =
      writeWords m a (ws ++ ws') := by
  funext b
  have hlt := (b - a).isLt
  have happ := within_append a b (n := 4 * ws.length) (k := 4 * ws'.length) (by omega) (by omega)
  rw [← Nat.mul_add, ← List.length_append] at happ
  unfold writeWords
  by_cases hl : Within a (4 * ws.length) b
  · rw [store_in hl, store_in (happ.mpr (.inl hl)), List.getD_append]
    unfold Within at hl
    omega
  rw [store_out hl]
  by_cases hr : Within (a + BitVec.ofNat 32 (4 * ws.length)) (4 * ws'.length) b
  · have hsub : (b - (a + BitVec.ofNat 32 (4 * ws.length))).toNat =
        (b - a).toNat - 4 * ws.length := by
      unfold Within at hl
      rw [sub_add_eq_sub_sub, BitVec.toNat_sub, BitVec.toNat_ofNat]
      omega
    unfold Within at hl
    have hdiv : ((b - a).toNat - 4 * ws.length) / 4 = (b - a).toNat / 4 - ws.length := by omega
    have hmod : ((b - a).toNat - 4 * ws.length) % 4 = (b - a).toNat % 4 := by omega
    rw [store_in hr, store_in (happ.mpr (.inr hr)), hsub, List.getD_append_right _ _ _ _ (by omega),
      hdiv, hmod]
  · rw [store_out hr, store_out (fun hb ↦ (happ.mp hb).elim hl hr)]

/-- A word is made of the bits under a mask and the others. -/
theorem and_not_add_and (w mask : Word) : (w &&& ~~~mask) + (w &&& mask) = w := by
  rw [BitVec.add_eq_or_of_and_eq_zero]
  · refine BitVec.eq_of_getLsbD_eq fun i hi ↦ ?_
    simp only [BitVec.getLsbD_or, BitVec.getLsbD_and, BitVec.getLsbD_not, hi, decide_true,
      Bool.true_and]
    cases w.getLsbD i <;> cases mask.getLsbD i <;> rfl
  · refine BitVec.eq_of_getLsbD_eq fun i hi ↦ ?_
    simp only [BitVec.getLsbD_and, BitVec.getLsbD_not, hi, decide_true, Bool.true_and,
      BitVec.getLsbD_zero]
    cases w.getLsbD i <;> cases mask.getLsbD i <;> rfl

theorem readWord_and_255 (m : Memory) (a : Word) : readWord m a &&& 255#32 = (m a).setWidth 32 := by
  have hmask : (255#32 : Word) = BitVec.setWidth 32 (BitVec.allOnes 8) := rfl
  refine BitVec.eq_of_getLsbD_eq fun i hi ↦ ?_
  rw [BitVec.getLsbD_and, hmask, BitVec.getLsbD_setWidth, BitVec.getLsbD_allOnes,
    BitVec.getLsbD_setWidth, readWord, BitVec.getLsbD_append]
  by_cases h : i < 8
  · simp [h, hi]
  · simp [h, BitVec.getLsbD_of_ge _ _ (Nat.le_of_not_lt h)]

theorem word_setWord_apart {m : Memory} {a b w : Word} {n i j : Nat}
    (h : Apart a (4 * n) (b + BitVec.ofNat 32 (4 * j)) 4) (hi : i < n) :
    word (setWord m a i w) b j = word m b j :=
  readWord_store_apart (h.offset (by omega))

end PrjOS.ByteMemory
