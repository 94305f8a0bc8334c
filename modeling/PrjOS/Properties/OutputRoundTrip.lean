import PrjOS.BaseTasks.SerialDriver

namespace PrjOS

open ByteMemory Program Rendezvous

def outputs (t : List BaseEvent) : List Word := t.filterMap fun e ↦
  match e with
  | ⟨.outside (.putCharBlocking ch), _⟩ => some ch
  | _ => none

def strays (t : List BaseEvent) : List Nat := t.filterMap fun e ↦
  match e with
  | ⟨.outside (.stray i), _⟩ => some i
  | _ => none

def repliedTo (t : List BaseEvent) : List Word := t.filterMap fun e ↦
  match e with
  | ⟨.reply target _ _, _⟩ => some target
  | _ => none

/-- The driver serves one message, from its Receive to the next head of its
loop. -/
def Serves (data : SerialDriverData) (caller : Word) (message : List Byte) (t : List BaseEvent)
    (pt : Point) : Prop :=
  Exec (serialDriverLoop data)
    (⟨.receive (BitVec.ofNat 32 maxMessageLen), driverReceives caller message⟩ :: t) pt

/-- The message had the bytes `bytes` put out, and was answered. -/
structure PutOut (bytes : List Byte) (caller : Word) (t : List BaseEvent) : Prop where
  output : outputs t = bytes.map (BitVec.setWidth 32)
  inside : strays t = []
  answered : repliedTo t = [caller]

/-- `prjPutBuf` sends a message that has the first bytes of `str` put out, and
returns their number. -/
structure RoundTrip (str : List Byte) (len : BitVec 16) (serialTid : Word) : Prop where
  client : ∃ k, prjPutBuf str len serialTid = .call (.send serialTid (putBufMessage str len) 2) k ∧
    ∀ returned, k returned = .done (BitVec.ofNat 32 (min len.toNat maxMessageLen))
  server : ∀ data caller t pt, Serves data caller (putBufMessage str len) t pt →
    PutOut (str.take (min len.toNat maxMessageLen)) caller t ∧ pt = .serialDriver data
  completes : ∀ data caller, ∃ t pt, Serves data caller (putBufMessage str len) t pt

section Traces

variable {t t' : List BaseEvent}

@[simp] theorem outputs_append : outputs (t ++ t') = outputs t ++ outputs t' :=
  List.filterMap_append

@[simp] theorem strays_append : strays (t ++ t') = strays t ++ strays t' := List.filterMap_append

@[simp] theorem repliedTo_append : repliedTo (t ++ t') = repliedTo t ++ repliedTo t' :=
  List.filterMap_append

end Traces

theorem exec_messageByte {message : List Byte} {i : Nat} {t : List BaseEvent} {b : Byte}
    (h : Exec (messageByte message i) t b) :
    outputs t = [] ∧ repliedTo t = [] ∧ strays t = (if i < message.length then [] else [i]) ∧
      (i < message.length → b = message.getD i 0) := by
  by_cases hi : i < message.length
  · rw [messageByte_of_lt hi, exec_done] at h
    obtain ⟨rfl, rfl⟩ := h
    exact ⟨rfl, rfl, (if_pos hi).symm, fun _ ↦ rfl⟩
  · rw [messageByte_of_le (Nat.le_of_not_lt hi), exec_call] at h
    obtain ⟨x, t', rfl, h⟩ := h
    obtain ⟨rfl, -⟩ := exec_done.mp h
    exact ⟨rfl, rfl, (if_neg hi).symm, fun hlt ↦ absurd hlt hi⟩

/-- The loop of the driver that puts out a message reads from place `i` on. -/
theorem exec_putChars {message : List Byte} {i n : Nat} {t : List BaseEvent} {u : Unit}
    (h : Exec (putChars message i n) t u) : repliedTo t = [] ∧
      (strays t = [] ↔ i + n ≤ message.length ∨ n = 0) ∧
      (i + n ≤ message.length → outputs t = ((message.drop i).take n).map (BitVec.setWidth 32)) := by
  induction n generalizing i t with
  | zero =>
    obtain ⟨rfl, -⟩ := exec_done.mp h
    exact ⟨rfl, by simp [strays], fun _ ↦ by simp [outputs]⟩
  | succ n ih =>
    rw [putChars] at h
    simp only [putCharBlocking_bind] at h
    obtain ⟨t₁, t₂, b, rfl, h₁, h₂⟩ := exec_bind.mp h
    obtain ⟨x, t₃, rfl, h₃⟩ := exec_call.mp h₂
    obtain ⟨ho₁, hr₁, hs₁, hb⟩ := exec_messageByte h₁
    obtain ⟨hr₃, hs₃, ho₃⟩ := ih h₃
    rw [← List.singleton_append, repliedTo_append, repliedTo_append, strays_append, strays_append,
      outputs_append, outputs_append, hr₁, hr₃, hs₁, ho₁]
    refine ⟨rfl, ?_, fun hle ↦ ?_⟩
    · change (if i < message.length then [] else [i]) ++ ([] ++ strays t₃) = [] ↔ _
      rw [List.nil_append, List.append_eq_nil_iff, hs₃]
      by_cases hi : i < message.length
      · rw [if_pos hi]
        simp only [true_and]
        omega
      · rw [if_neg hi]
        simp only [List.cons_ne_nil, false_and, false_iff]
        omega
    · have hi : i < message.length := by omega
      have hdrop : message.drop i = b :: message.drop (i + 1) := by
        rw [hb hi, List.getD_eq_getElem _ _ hi, List.drop_eq_getElem_cons hi]
      rw [ho₃ (by omega), hdrop, List.take_succ_cons, List.map_cons]
      rfl

section Message

variable {str : List Byte} {len : BitVec 16} {data data' : SerialDriverData} {caller : Word}
variable {t : List BaseEvent} {pt : Point}

theorem toNat_putBufLen (len : BitVec 16) :
    (putBufLen len).toNat = min len.toNat maxMessageLen := by
  have hmax : (BitVec.ofNat 16 maxMessageLen).toNat = maxMessageLen := by decide
  unfold putBufLen
  split_ifs with h
  · rw [BitVec.lt_def, hmax] at h
    rw [hmax, Nat.min_eq_right (Nat.le_of_lt h)]
  · rw [BitVec.lt_def, hmax] at h
    rw [Nat.min_eq_left (Nat.le_of_not_lt h)]

theorem putBufLen_putBufLen (len : BitVec 16) : putBufLen (putBufLen len) = putBufLen len := by
  apply BitVec.eq_of_toNat_eq
  rw [toNat_putBufLen, toNat_putBufLen, Nat.min_assoc, Nat.min_self]

theorem length_putBufMessage (h : len.toNat ≤ str.length) :
    (putBufMessage str len).length = 6 + min len.toNat maxMessageLen := by
  simp only [putBufMessage, List.length_append, length_wordBytes, length_halfBytes,
    List.length_take, toNat_putBufLen]
  omega

theorem wordAt_putBufMessage (str : List Byte) (len : BitVec 16) :
    wordAt (putBufMessage str len) 0 = messageTypeSendMessage := by
  rw [putBufMessage, List.append_assoc, wordAt_wordBytes]

theorem halfAt_putBufMessage (str : List Byte) (len : BitVec 16) :
    halfAt (putBufMessage str len) 4 = putBufLen len := by
  rw [putBufMessage, List.append_assoc]
  exact (halfAt_append (wordBytes messageTypeSendMessage) _ 0).trans (halfAt_halfBytes _ _)

theorem drop_putBufMessage (str : List Byte) (len : BitVec 16) :
    (putBufMessage str len).drop 6 = str.take (min len.toNat maxMessageLen) := by
  rw [putBufMessage, List.drop_left' (by simp), toNat_putBufLen]

/-- The driver handles one message, and is then at the head of its loop. -/
theorem serves_iff {message : List Byte} (hne : message ≠ []) :
    Serves data caller message t pt ↔
      ∃ data', Exec (processMessage data caller (driverReceives caller message).bytes
        (driverReceives caller message).size) t data' ∧ pt = .serialDriver data' := by
  have hpos := (driverReceives_size_pos caller message).mpr hne
  unfold Serves serialDriverLoop
  rw [prjReceive_bind, exec_call_cons, if_pos hpos, driverReceives_sender]
  constructor
  · intro hx
    obtain ⟨t₁, t₂, data', rfl, h₁, h₂⟩ := exec_bind.mp hx
    obtain ⟨rfl, rfl⟩ := exec_done.mp h₂
    exact ⟨data', by rwa [List.append_nil], rfl⟩
  · rintro ⟨data', hx, rfl⟩
    exact exec_bind.mpr ⟨t, [], data', (List.append_nil t).symm, hx, .done _⟩

theorem serves_nil (h : Serves data caller [] t pt) : t = [] := by
  have hpos : ¬ 0 < (driverReceives caller []).size := fun hlt ↦
    (driverReceives_size_pos caller []).mp hlt rfl
  unfold Serves serialDriverLoop at h
  rw [prjReceive_bind, exec_call_cons, if_neg hpos] at h
  exact (exec_done.mp h).1

/-- What the driver does with an output message is its case `MESSAGE_SEND_MESSAGE`. -/
theorem serves_putBufMessage (h : len.toNat ≤ str.length) :
    Serves data caller (putBufMessage str len) t pt ↔
      ∃ data', Exec (sendMessage data caller (driverReceives caller (putBufMessage str len)).bytes
        (driverReceives caller (putBufMessage str len)).size) t data' ∧
          pt = .serialDriver data' := by
  let message := putBufMessage str len
  have hlen : message.length = 6 + min len.toNat maxMessageLen := length_putBufMessage h
  have hne : message ≠ [] := by
    intro hnil
    rw [← List.length_eq_zero_iff] at hnil
    omega
  have hfour : ¬ (driverReceives caller message).size < 4 := by
    intro hlt
    have hshort := (driverReceives_size_lt caller message (n := 4) (by omega)).mp hlt
    omega
  have hbytes := (le_length_driverReceives caller message (n := 4) (by omega)).mpr (by omega)
  have htype : wordAt (driverReceives caller message).bytes 0 = messageTypeSendMessage :=
    (driverReceives_wordAt caller message).trans (wordAt_putBufMessage str len)
  have hprocess : processMessage data caller (driverReceives caller message).bytes
      (driverReceives caller message).size = sendMessage data caller
        (driverReceives caller message).bytes (driverReceives caller message).size := by
    rw [processMessage, if_neg hfour, messageWord_of_le hbytes, done_bind, htype,
      if_neg (by decide), if_neg (by decide), if_neg (by decide), if_pos rfl]
  rw [serves_iff hne, hprocess]

/-- The driver does not even answer an output message without a byte. -/
theorem exec_sendMessage_empty (h : len.toNat ≤ str.length) (hzero : len.toNat = 0) :
    Exec (sendMessage data caller (driverReceives caller (putBufMessage str len)).bytes
      (driverReceives caller (putBufMessage str len)).size) t data' ↔ t = [] ∧ data' = data := by
  have hsmall : (driverReceives caller (putBufMessage str len)).size < 7 := by
    refine (driverReceives_size_lt caller _ (n := 7) (by omega)).mpr ?_
    rw [length_putBufMessage h]
    omega
  rw [sendMessage, if_pos hsmall, pure_eq_done, exec_done]

/-- Otherwise it puts out the bytes that its header announces, and replies. -/
theorem exec_sendMessage (h : len.toNat ≤ str.length) (hpos : 0 < len.toNat)
    (hexec : Exec (sendMessage data caller (driverReceives caller (putBufMessage str len)).bytes
      (driverReceives caller (putBufMessage str len)).size) t data') :
    data' = data ∧ repliedTo t = [caller] ∧
      (strays t = [] ↔ min len.toNat maxMessageLen ≤ 506) ∧
      (min len.toNat maxMessageLen ≤ 506 →
        outputs t = (str.take (min len.toNat maxMessageLen)).map (BitVec.setWidth 32)) := by
  have hlen := length_putBufMessage h
  have hmax : maxMessageLen = 512 := rfl
  have hlarge : ¬ (driverReceives caller (putBufMessage str len)).size < 7 := by
    intro hlt
    have hshort := (driverReceives_size_lt caller _ (n := 7) (by omega)).mp hlt
    omega
  have hbytes := (le_length_driverReceives caller (putBufMessage str len) (n := 6)
    (by omega)).mpr (by omega)
  rw [sendMessage, if_neg hlarge, messageHalf_of_le hbytes, done_bind, driverReceives_halfAt,
    halfAt_putBufMessage, putBufLen_putBufLen] at hexec
  dsimp only at hexec
  rw [toNat_putBufLen] at hexec
  obtain ⟨t₁, t₂, u, rfl, h₁, h₂⟩ := exec_bind.mp hexec
  rw [prjReply_bind] at h₂
  obtain ⟨x, t₃, rfl, h₃⟩ := exec_call.mp h₂
  obtain ⟨rfl, rfl⟩ := exec_done.mp h₃
  obtain ⟨hr, hs, ho⟩ := exec_putChars h₁
  rw [driverReceives_bytes, List.length_take, hlen] at hs ho
  refine ⟨rfl, ?_, ?_, fun hle ↦ ?_⟩
  · rw [repliedTo_append, hr]
    rfl
  · rw [strays_append]
    change strays t₁ ++ [] = [] ↔ _
    rw [List.append_nil, hs]
    omega
  · have hall : (putBufMessage str len).take 512 = putBufMessage str len :=
      List.take_of_length_le (by omega)
    rw [outputs_append, ho (by omega), hall, drop_putBufMessage, List.take_take, Nat.min_self]
    exact List.append_nil _

end Message

section Lengths

variable {str : List Byte} {len : BitVec 16} {serialTid : Word}

theorem exists_serves (h : len.toNat ≤ str.length) (data : SerialDriverData) (caller : Word) :
    ∃ t pt, Serves data caller (putBufMessage str len) t pt := by
  obtain ⟨t, data', hexec⟩ := exists_exec (sendMessage data caller
    (driverReceives caller (putBufMessage str len)).bytes
    (driverReceives caller (putBufMessage str len)).size)
  exact ⟨t, _, (serves_putBufMessage h).mpr ⟨data', hexec, rfl⟩⟩

/-- No other length makes the round trip. -/
theorem RoundTrip.bounds (h : RoundTrip str len serialTid) (hlen : len.toNat ≤ str.length) :
    1 ≤ len.toNat ∧ len.toNat ≤ 506 := by
  have hmax : maxMessageLen = 512 := rfl
  obtain ⟨t, pt, hs⟩ := exists_serves hlen ⟨true, 0, 0⟩ 1
  obtain ⟨⟨-, hinside, hanswered⟩, -⟩ := h.server _ _ t pt hs
  obtain ⟨data', hexec, -⟩ := (serves_putBufMessage hlen).mp hs
  by_cases hzero : len.toNat = 0
  · obtain ⟨rfl, -⟩ := (exec_sendMessage_empty hlen hzero).mp hexec
    cases hanswered
  · have hfits := (exec_sendMessage hlen (by omega) hexec).2.2.1.mp hinside
    omega

theorem roundTrip_of_bounds (htid : serialTid ≠ 0) (hlen : len.toNat ≤ str.length)
    (hpos : 1 ≤ len.toNat) (hfits : len.toNat ≤ 506) : RoundTrip str len serialTid := by
  refine ⟨⟨fun _ ↦ .done (BitVec.ofNat 32 (min len.toNat maxMessageLen)), ?_, fun _ ↦ rfl⟩,
    fun data caller t pt hs ↦ ?_, exists_serves hlen⟩
  · rw [prjPutBuf, if_neg htid, prjSend_bind, pure_eq_done, ← BitVec.ofNat_toNat,
      toNat_putBufLen]
  · obtain ⟨data', hexec, rfl⟩ := (serves_putBufMessage hlen).mp hs
    obtain ⟨rfl, hr, hi, ho⟩ := exec_sendMessage hlen (by omega) hexec
    have hle : min len.toNat maxMessageLen ≤ 506 := (Nat.min_le_left _ _).trans hfits
    exact ⟨⟨ho hle, hi.mpr hle, hr⟩, rfl⟩

end Lengths

/-- The round trip works for the lengths for which header and bytes fit the
driver's buffer, and are not empty. -/
theorem output_roundTrip_iff {str : List Byte} {len : BitVec 16} {serialTid : Word}
    (htid : serialTid ≠ 0) (hlen : len.toNat ≤ str.length) :
    RoundTrip str len serialTid ↔ 1 ≤ len.toNat ∧ len.toNat ≤ 506 :=
  ⟨fun h ↦ h.bounds hlen, fun ⟨hpos, hfits⟩ ↦ roundTrip_of_bounds htid hlen hpos hfits⟩

theorem output_roundTrip_two :
    RoundTrip [72, 105] 2 0x2000 ↔ 1 ≤ (2 : BitVec 16).toNat ∧ (2 : BitVec 16).toNat ≤ 506 :=
  output_roundTrip_iff (by decide) (by decide)

/-- The empty string is never answered, and of 507 bytes the driver reads the
last one from outside the message. -/
theorem output_ends_broken :
    ¬ RoundTrip [] 0 0x2000 ∧ ¬ RoundTrip (List.replicate 507 65) 507 0x2000 := by
  constructor
  · intro h
    have hbounds := h.bounds (Nat.zero_le _)
    exact absurd hbounds.1 (by decide)
  · intro h
    have hbounds := h.bounds (by rw [List.length_replicate]; decide)
    exact absurd hbounds.2 (by decide)

end PrjOS
