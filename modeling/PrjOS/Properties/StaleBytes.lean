import PrjOS.Properties.OutputRoundTrip
import PrjOS.Syscall.NameService

namespace PrjOS

open ByteMemory Program Rendezvous

/-- The first `n` bytes of a reply from the message `m`. Where `m` ends the
reply goes on with what is behind the received message. -/
def copied (stale : Nat → Byte) (received : Nat) (m : List Byte) (n : Nat) : List Byte :=
  (List.range n).map fun j ↦ m.getD j (stale (received + (j - m.length)))

section Copied

variable {stale stale' : Nat → Byte} {received n : Nat} {m : List Byte}

theorem copied_of_le (h : n ≤ m.length) : copied stale received m n = m.take n := by
  apply List.ext_getElem
  · rw [copied, List.length_map, List.length_range, List.length_take]
    omega
  · intro j hj _
    rw [copied, List.length_map, List.length_range] at hj
    have hlt : j < m.length := by omega
    simp [copied, hlt]

theorem getD_copied {j : Nat} (h : j < n) (d : Byte) :
    (copied stale received m n).getD j d = m.getD j (stale (received + (j - m.length))) := by
  simp [copied, List.getD_eq_getElem?_getD, h]

/-- A byte behind the message shows what was there. -/
theorem stale_of_copied_eq (h : m.length < n)
    (heq : copied stale received m n = copied stale' received m n) :
    stale received = stale' received := by
  have hbyte := congrArg (fun l : List Byte ↦ l.getD m.length 0) heq
  simpa only [getD_copied h, List.getD_eq_default _ _ (Nat.le_refl m.length), Nat.sub_self,
    Nat.add_zero] using hbyte

end Copied

section Driver

/-- A world for the driver while it serves one message: `stale` is what the
places hold that the message did not fill. -/
def driverWorld (answers : (c : BaseCall) → BaseAnswer c) (received : Incoming)
    (stale : Nat → Byte) : (c : BaseCall) → BaseAnswer c
  | .receive _ => received
  | .outside (.stray i) => stale i
  | c => answers c

def driverRun (data : SerialDriverData) (answers : (c : BaseCall) → BaseAnswer c) (caller : Word)
    (message : List Byte) (stale : Nat → Byte) : List BaseEvent :=
  ((serialDriverLoop data).run (driverWorld answers (driverReceives caller message) stale)).1

def copies (room : Word → Word) (stale : Nat → Byte) (received : Nat) (t : List BaseEvent) :
    List (Word × List Byte) := t.filterMap fun e ↦
  match e with
  | ⟨.reply target m size, _⟩ =>
    some (target, copied stale received m (min (room target).toNat size.toNat))
  | _ => none

def replySizes (t : List BaseEvent) : List Word := t.filterMap fun e ↦
  match e with
  | ⟨.reply _ _ size, _⟩ => some size
  | _ => none

def DriverKnows (message : List Byte) : Prop :=
  4 ≤ message.length ∧ wordAt message 0 ∈ [messageTypeGetChar, messageTypeGetCharNonblocking,
    messageTypeSendMessage, messageTypeQuit, messageTypeCharacterReceived]

/-- The driver answers from the message alone. `room` is what the tasks have
room for. -/
structure DriverFaithful (data : SerialDriverData) (answers : (c : BaseCall) → BaseAnswer c)
    (caller : Word) (message : List Byte) (room : Word → Word) : Prop where
  same : ∀ stale stale',
    outputs (driverRun data answers caller message stale) =
      outputs (driverRun data answers caller message stale') ∧
    copies room stale (driverReceives caller message).bytes.length
        (driverRun data answers caller message stale) =
      copies room stale' (driverReceives caller message).bytes.length
        (driverRun data answers caller message stale')
  inside : ∀ stale,
    (outputs (driverRun data answers caller message stale)).length ≤
        (driverReceives caller message).bytes.length ∧
      ∀ size ∈ replySizes (driverRun data answers caller message stale),
        size.toNat ≤ (driverReceives caller message).bytes.length
  echoed : ¬ DriverKnows message → ∀ stale,
    copies room stale (driverReceives caller message).bytes.length
        (driverRun data answers caller message stale) =
      [(caller, (driverReceives caller message).bytes.take (room caller).toNat)]

def DriverSafe (message : List Byte) (room : Nat) : Prop :=
  if message.length < 4 then message ≠ []
  else if wordAt message 0 = messageTypeSendMessage then
    message.length < 7 ∨ (putBufLen (halfAt message 4)).toNat = 0 ∨
      6 + (putBufLen (halfAt message 4)).toNat ≤ min message.length maxMessageLen
  else DriverKnows message ∨
    (message.length ≤ maxMessageLen ∧ room + 4 ≤ message.length ∧
      (message.drop 4).take room = message.take room)

variable {data : SerialDriverData} {answers : (c : BaseCall) → BaseAnswer c}
variable {caller size : Word} {message bytes : List Byte} {room : Word → Word} {received : Nat}
variable {rc : Incoming} {stale : Nat → Byte}

/-- What a piece of the driver puts out and copies is the same for all stale
bytes, and not more than was received. -/
def Settles {α : Type} (answers : (c : BaseCall) → BaseAnswer c) (room : Word → Word)
    (rc : Incoming) (p : BaseProg α) : Prop :=
  ∃ (out : List Word) (cs : List (Word × List Byte)), out.length ≤ rc.bytes.length ∧
    ∀ stale, outputs (p.run (driverWorld answers rc stale)).1 = out ∧
      copies room stale rc.bytes.length (p.run (driverWorld answers rc stale)).1 = cs ∧
      ∀ size ∈ replySizes (p.run (driverWorld answers rc stale)).1, size.toNat ≤ rc.bytes.length

section Events

variable {t t' : List BaseEvent} {ch ret target : Word} {m : List Byte}

@[simp] theorem copies_append : copies room stale received (t ++ t') =
    copies room stale received t ++ copies room stale received t' := List.filterMap_append

@[simp] theorem replySizes_append : replySizes (t ++ t') = replySizes t ++ replySizes t' :=
  List.filterMap_append

@[simp] theorem outputs_reply :
    outputs (⟨.reply target m size, ret⟩ :: t) = outputs t := rfl

@[simp] theorem copies_reply : copies room stale received (⟨.reply target m size, ret⟩ :: t) =
    (target, copied stale received m (min (room target).toNat size.toNat)) ::
      copies room stale received t := rfl

@[simp] theorem replySizes_reply :
    replySizes (⟨.reply target m size, ret⟩ :: t) = size :: replySizes t := rfl

end Events

section Settles

variable {α : Type} {f : Word → BaseProg α} {target : Word} {m : List Byte}

theorem settles_done (a : α) : Settles answers room rc (.done a : BaseProg α) :=
  ⟨[], [], Nat.zero_le _, fun _ ↦ ⟨rfl, rfl, by simp [replySizes]⟩⟩

theorem settles_reply (hm : min (room target).toNat size.toNat ≤ m.length)
    (hle : size.toNat ≤ rc.bytes.length)
    (h : ∀ ret, Settles answers room rc (f ret)) :
    Settles answers room rc (.call (.reply target m size) f) := by
  obtain ⟨out, cs, hout, heq⟩ := h (answers (.reply target m size))
  refine ⟨out, (target, m.take (min (room target).toNat size.toNat)) :: cs, hout,
    fun stale ↦ ?_⟩
  obtain ⟨ho, hc, hs⟩ := heq stale
  rw [run_call, outputs_reply, copies_reply, replySizes_reply, copied_of_le hm,
    List.forall_mem_cons]
  exact ⟨ho, congrArg _ hc, hle, hs⟩

theorem settles_replyWord {w : Word} (h : 4 ≤ rc.bytes.length)
    (hf : ∀ ret, Settles answers room rc (f ret)) :
    Settles answers room rc (.call (.reply target (wordBytes w) 4) f) :=
  settles_reply (Nat.min_le_right _ _) h hf

theorem settles_getCharNonBlocking (h : ∀ ch, Settles answers room rc (f ch)) :
    Settles answers room rc (.call (.outside .getCharNonBlocking) f) := by
  obtain ⟨out, cs, hout, heq⟩ := h (answers (.outside .getCharNonBlocking))
  exact ⟨out, cs, hout, heq⟩

end Settles

theorem settles_getChar (h : 4 ≤ rc.bytes.length) :
    Settles answers room rc (getChar data caller) := by
  rw [getChar, getCharNonBlocking_bind]
  refine settles_getCharNonBlocking fun ch ↦ ?_
  split_ifs
  · exact settles_done _
  · exact settles_replyWord h fun _ ↦ settles_done _
  · exact settles_replyWord h fun _ ↦ settles_done _

theorem settles_characterReceived (h : 4 ≤ rc.bytes.length) :
    Settles answers room rc (characterReceived data caller) := by
  rw [characterReceived, prjReply_bind]
  refine settles_replyWord h fun ret ↦ ?_
  split_ifs with hparked
  · rw [getCharNonBlocking_bind]
    refine settles_getCharNonBlocking fun ch ↦ ?_
    split_ifs
    · exact settles_replyWord h fun _ ↦ settles_done _
    · exact settles_done _
  · exact settles_done _

variable (answers room received rc stale) in
theorem run_messageByte (message : List Byte) (i : Nat) :
    ∃ t, (messageByte message i).run (driverWorld answers rc stale) =
        (t, message.getD i (stale i)) ∧
      outputs t = [] ∧ copies room stale received t = [] ∧ replySizes t = [] := by
  by_cases hi : i < message.length
  · refine ⟨[], ?_, rfl, rfl, rfl⟩
    rw [messageByte_of_lt hi, run_done, List.getD_eq_getElem _ _ hi, List.getD_eq_getElem _ _ hi]
  · refine ⟨[⟨.outside (.stray i), stale i⟩], ?_, rfl, rfl, rfl⟩
    rw [messageByte_of_le (Nat.le_of_not_lt hi), run_call,
      List.getD_eq_default _ _ (Nat.le_of_not_lt hi)]
    rfl

variable (answers room received rc stale) in
theorem run_putChars (message : List Byte) (i n : Nat) :
    outputs ((putChars message i n).run (driverWorld answers rc stale)).1 =
        (List.range n).map (fun j ↦ (message.getD (i + j) (stale (i + j))).setWidth 32) ∧
      copies room stale received ((putChars message i n).run (driverWorld answers rc stale)).1 =
        [] ∧
      replySizes ((putChars message i n).run (driverWorld answers rc stale)).1 = [] := by
  induction n generalizing i with
  | zero => exact ⟨rfl, rfl, rfl⟩
  | succ n ih =>
    obtain ⟨t, hrun, hout, hcopies, hsizes⟩ := run_messageByte answers room received rc
      stale message i
    obtain ⟨ho, hc, hs⟩ := ih (i + 1)
    have hnext (j : Nat) : i + 1 + j = i + (j + 1) := by omega
    rw [putChars]
    simp only [putCharBlocking_bind]
    rw [run_bind, hrun, run_call]
    refine ⟨?_, ?_, ?_⟩
    · rw [outputs_append, hout, List.nil_append, List.range_succ_eq_map, List.map_cons,
        List.map_map]
      change _ :: outputs _ = _
      rw [ho]
      simp only [hnext, Nat.add_zero, Function.comp_def, Nat.succ_eq_add_one]
    · rw [copies_append, hcopies]
      exact hc
    · rw [replySizes_append, hsizes]
      exact hs

variable (data answers caller room received rc stale) in
theorem run_sendMessage (h : ¬ size < 7) (h6 : 6 ≤ bytes.length) :
    outputs ((sendMessage data caller bytes size).run (driverWorld answers rc stale)).1 =
        (List.range (putBufLen (halfAt bytes 4)).toNat).map
          (fun j ↦ (bytes.getD (6 + j) (stale (6 + j))).setWidth 32) ∧
      copies room stale received
          ((sendMessage data caller bytes size).run (driverWorld answers rc stale)).1 =
        [(caller, (halfBytes (putBufLen (halfAt bytes 4))).take (min (room caller).toNat 2))] ∧
      replySizes ((sendMessage data caller bytes size).run (driverWorld answers rc stale)).1 =
        [2] := by
  obtain ⟨ho, hc, hs⟩ :=
    run_putChars answers room received rc stale bytes 6 (putBufLen (halfAt bytes 4)).toNat
  rw [sendMessage, if_neg h, messageHalf_of_le h6, done_bind]
  dsimp only
  rw [run_bind, prjReply_bind, run_call, pure_eq_done, run_done, outputs_append, copies_append,
    replySizes_append, ho, hc, hs]
  refine ⟨List.append_nil _, ?_, rfl⟩
  have htwo : (2 : Word).toNat = 2 := rfl
  rw [List.nil_append, copies_reply, htwo, copied_of_le (by rw [length_halfBytes]; omega)]
  rfl

end Driver

section DriverMessages

variable {data : SerialDriverData} {answers : (c : BaseCall) → BaseAnswer c}
variable {caller : Word} {message : List Byte} {room : Word → Word} {stale : Nat → Byte}

theorem driverReceives_toNat (caller : Word) (message : List Byte) :
    (driverReceives caller message).size.toNat =
      if maxMessageLen < message.length then 4294967295 else message.length := by
  have hroom : (BitVec.ofNat 32 maxMessageLen).toNat = maxMessageLen := by decide
  have hmax : maxMessageLen = 512 := rfl
  have hcode : errReceiveBufferTooSmall.toNat = 4294967295 := by decide
  simp only [driverReceives, Incoming.of, hroom]
  split_ifs with hlong
  · exact hcode
  · rw [BitVec.toNat_ofNat, Nat.mod_eq_of_lt (by omega)]

theorem length_driverReceives (caller : Word) (message : List Byte) :
    (driverReceives caller message).bytes.length = min maxMessageLen message.length :=
  List.length_take

variable (data answers caller) in
theorem driverRun_eq (hne : message ≠ []) (stale : Nat → Byte) :
    driverRun data answers caller message stale =
      ⟨.receive (BitVec.ofNat 32 maxMessageLen), driverReceives caller message⟩ ::
        ((processMessage data caller (driverReceives caller message).bytes
          (driverReceives caller message).size).run
            (driverWorld answers (driverReceives caller message) stale)).1 := by
  have hpos := (driverReceives_size_pos caller message).mpr hne
  have hrc : driverWorld answers (driverReceives caller message) stale
      (.receive (BitVec.ofNat 32 maxMessageLen)) = driverReceives caller message := rfl
  rw [driverRun, serialDriverLoop, prjReceive_bind, run_call, hrc, if_pos hpos,
    driverReceives_sender, run_bind]
  exact congrArg _ (List.append_nil _)

theorem driverRun_nil (stale : Nat → Byte) : driverRun data answers caller [] stale =
    [⟨.receive (BitVec.ofNat 32 maxMessageLen), driverReceives caller []⟩] := rfl

theorem driverFaithful_iff (hne : message ≠ []) :
    DriverFaithful data answers caller message room ↔
      Settles answers room (driverReceives caller message)
          (processMessage data caller (driverReceives caller message).bytes
            (driverReceives caller message).size) ∧
        (¬ DriverKnows message → ∀ stale, copies room stale
            (driverReceives caller message).bytes.length
            ((processMessage data caller (driverReceives caller message).bytes
              (driverReceives caller message).size).run
                (driverWorld answers (driverReceives caller message) stale)).1 =
          [(caller, (driverReceives caller message).bytes.take (room caller).toNat)]) := by
  have hrun (stale : Nat → Byte) := driverRun_eq data answers caller hne stale
  constructor
  · intro h
    refine ⟨⟨outputs (driverRun data answers caller message 0),
      copies room 0 (driverReceives caller message).bytes.length
        (driverRun data answers caller message 0), (h.inside 0).1, fun stale ↦ ?_⟩,
      fun hknows stale ↦ ?_⟩
    · have hsame := h.same stale 0
      have hinside := (h.inside stale).2
      rw [hrun stale] at hsame hinside
      exact ⟨hsame.1, hsame.2, hinside⟩
    · have hechoed := h.echoed hknows stale
      rw [hrun stale] at hechoed
      exact hechoed
  · rintro ⟨⟨out, cs, hout, heq⟩, hechoed⟩
    refine ⟨fun stale stale' ↦ ?_, fun stale ↦ ?_, fun hknows stale ↦ ?_⟩
    · rw [hrun stale, hrun stale']
      exact ⟨(heq stale).1.trans (heq stale').1.symm,
        (heq stale).2.1.trans (heq stale').2.1.symm⟩
    · rw [hrun stale]
      refine ⟨?_, (heq stale).2.2⟩
      exact (congrArg List.length (heq stale).1).trans_le hout
    · rw [hrun stale]
      exact hechoed hknows stale

/-- A message too short for a type is sent back as it is. -/
theorem driverFaithful_short (hne : message ≠ []) (h : message.length < 4) :
    DriverFaithful data answers caller message room := by
  have hmax : maxMessageLen = 512 := rfl
  have hsmall := (driverReceives_size_lt caller message (n := 4) (by omega)).mpr h
  have hsize := driverReceives_toNat caller message
  rw [if_neg (by omega)] at hsize
  have hbytes := length_driverReceives caller message
  have hprocess : processMessage data caller (driverReceives caller message).bytes
      (driverReceives caller message).size = .call (.reply caller
        (driverReceives caller message).bytes (driverReceives caller message).size)
          fun _ ↦ .done data := if_pos hsmall
  rw [driverFaithful_iff hne, hprocess]
  refine ⟨settles_reply (by omega) (by omega) fun _ ↦ settles_done _, fun _ stale ↦ ?_⟩
  have hall : (driverReceives caller message).size.toNat =
      (driverReceives caller message).bytes.length := by omega
  rw [run_call, copies_reply, copied_of_le (by omega), hall, ← List.take_eq_take_min]
  rfl

/-- What the driver does with a message that has a type. -/
theorem processMessage_typed (h : 4 ≤ message.length) :
    processMessage data caller (driverReceives caller message).bytes
        (driverReceives caller message).size =
      if wordAt message 0 = messageTypeCharacterReceived then characterReceived data caller
      else if wordAt message 0 = messageTypeGetChar then getChar data caller
      else if wordAt message 0 = messageTypeGetCharNonblocking then
        .call (.outside .getCharNonBlocking) fun ch ↦
          .call (.reply caller (wordBytes ch) 4) fun _ ↦ .done data
      else if wordAt message 0 = messageTypeSendMessage then
        sendMessage data caller (driverReceives caller message).bytes
          (driverReceives caller message).size
      else if wordAt message 0 = messageTypeQuit then
        .done { data with keepRunning := false }
      else .call (.reply caller ((driverReceives caller message).bytes.drop 4)
        (driverReceives caller message).size) fun _ ↦ .done data := by
  have hlarge : ¬ (driverReceives caller message).size < 4 := by
    intro hlt
    have hshort := (driverReceives_size_lt caller message (n := 4) (by omega)).mp hlt
    omega
  rw [processMessage, if_neg hlarge, messageWord_of_le
    ((le_length_driverReceives caller message (n := 4) (by omega)).mpr h), done_bind,
    driverReceives_wordAt]
  rfl

theorem driverFaithful_known (hknows : DriverKnows message)
    (hsend : wordAt message 0 ≠ messageTypeSendMessage) :
    DriverFaithful data answers caller message room := by
  have hlen := hknows.1
  have hne : message ≠ [] := List.ne_nil_of_length_pos (by omega)
  have hmax : maxMessageLen = 512 := rfl
  have hbytes : 4 ≤ (driverReceives caller message).bytes.length := by
    rw [length_driverReceives]
    omega
  rw [driverFaithful_iff hne, processMessage_typed hlen]
  refine ⟨?_, fun hnot ↦ absurd hknows hnot⟩
  split_ifs with hreceived hget hnonblocking hquit
  · exact settles_characterReceived hbytes
  · exact settles_getChar hbytes
  · exact settles_getCharNonBlocking fun ch ↦
      settles_replyWord hbytes fun _ ↦ settles_done _
  · exact settles_done _
  · exact absurd hknows.2 (by simp [hreceived, hget, hnonblocking, hsend, hquit])

/-- An output message must not announce more bytes than arrived. -/
theorem settles_sendMessage_iff {bytes : List Byte} {size : Word} (rc : Incoming)
    (hrc : rc.bytes = bytes) (h : ¬ size < 7) (h6 : 6 ≤ bytes.length) :
    Settles answers room rc (sendMessage data caller bytes size) ↔
      (putBufLen (halfAt bytes 4)).toNat = 0 ∨
        6 + (putBufLen (halfAt bytes 4)).toNat ≤ bytes.length := by
  have hrun (stale : Nat → Byte) := run_sendMessage data answers caller room rc.bytes.length rc stale
    h h6
  generalize (putBufLen (halfAt bytes 4)).toNat = k at hrun ⊢
  constructor
  · rintro ⟨out, cs, -, heq⟩
    by_contra hout
    have hzero := (hrun fun _ ↦ 0).1.symm.trans (heq fun _ ↦ 0).1
    have hone := (hrun fun _ ↦ 1).1.symm.trans (heq fun _ ↦ 1).1
    have hlast := congrArg (fun l : List Word ↦ l.getD (k - 1) 0) (hzero.trans hone.symm)
    have hk : k - 1 < k := by omega
    have hbehind : bytes.length ≤ 6 + (k - 1) := by omega
    simp [List.getD_eq_getElem?_getD, hk, hbehind] at hlast
  · intro hfits
    refine ⟨(List.range k).map fun j ↦ (bytes.getD (6 + j) 0).setWidth 32, _, ?_,
      fun stale ↦ ⟨(hrun stale).1.trans ?_, (hrun stale).2.1, ?_⟩⟩
    · rw [List.length_map, List.length_range, hrc]
      omega
    · refine List.map_congr_left fun j hj ↦ ?_
      have hlt : 6 + j < bytes.length := by
        have hjk := List.mem_range.mp hj
        omega
      rw [List.getD_eq_getElem _ _ hlt, List.getD_eq_getElem _ _ hlt]
    · rw [(hrun stale).2.2, hrc]
      intro size hsize
      rw [List.mem_singleton.mp hsize]
      exact Nat.le_trans (by decide) h6

theorem driverFaithful_output_iff (hlen : 4 ≤ message.length)
    (hsend : wordAt message 0 = messageTypeSendMessage) :
    DriverFaithful data answers caller message room ↔
      message.length < 7 ∨ (putBufLen (halfAt message 4)).toNat = 0 ∨
        6 + (putBufLen (halfAt message 4)).toNat ≤ min message.length maxMessageLen := by
  have hne : message ≠ [] := List.ne_nil_of_length_pos (by omega)
  have hmax : maxMessageLen = 512 := rfl
  have hknows : DriverKnows message := ⟨hlen, by simp [hsend]⟩
  have hbytes := length_driverReceives caller message
  have hseven : (driverReceives caller message).size < 7 ↔ message.length < 7 :=
    driverReceives_size_lt caller message (n := 7) (by omega)
  rw [driverFaithful_iff hne, processMessage_typed hlen, hsend, if_neg (by decide),
    if_neg (by decide), if_neg (by decide), if_pos rfl,
    and_iff_left fun hnot ↦ absurd hknows hnot]
  by_cases hshort : message.length < 7
  · refine iff_of_true ?_ (.inl hshort)
    rw [sendMessage, if_pos (hseven.mpr hshort)]
    exact settles_done _
  · rw [settles_sendMessage_iff _ rfl (mt hseven.mp hshort) (by omega), driverReceives_halfAt,
      or_iff_right hshort, hbytes, Nat.min_comm]

/-- The driver sends a message of another type back from its fifth byte on, with
the size of the whole. -/
theorem driverFaithful_unknown_iff (hlen : 4 ≤ message.length) (hknows : ¬ DriverKnows message) :
    DriverFaithful data answers caller message room ↔
      message.length ≤ maxMessageLen ∧ (room caller).toNat + 4 ≤ message.length ∧
        (message.drop 4).take (room caller).toNat = message.take (room caller).toNat := by
  have hne : message ≠ [] := List.ne_nil_of_length_pos (by omega)
  have hmax : maxMessageLen = 512 := rfl
  have htype {w : Word} (hw : w ∈ [messageTypeGetChar, messageTypeGetCharNonblocking,
      messageTypeSendMessage, messageTypeQuit, messageTypeCharacterReceived]) :
      wordAt message 0 ≠ w := by
    intro heq
    exact hknows ⟨hlen, heq ▸ hw⟩
  have hbytes := length_driverReceives caller message
  have hsize := driverReceives_toNat caller message
  rw [driverFaithful_iff hne, processMessage_typed hlen, if_neg (htype (by simp)),
    if_neg (htype (by simp)), if_neg (htype (by simp)), if_neg (htype (by simp)),
    if_neg (htype (by simp))]
  by_cases hlong : maxMessageLen < message.length
  · rw [if_pos hlong] at hsize
    refine iff_of_false ?_ fun h ↦ Nat.not_lt_of_le h.1 hlong
    rintro ⟨⟨out, cs, -, heq⟩, -⟩
    have hle := (heq 0).2.2 (driverReceives caller message).size (by simp [replySizes])
    omega
  · rw [if_neg hlong] at hsize
    have hall : (driverReceives caller message).bytes = message :=
      List.take_of_length_le (Nat.le_of_not_lt hlong)
    have hcopies (stale : Nat → Byte) : copies room stale message.length
        ((Prog.call (.reply caller (message.drop 4) (driverReceives caller message).size)
          fun _ ↦ .done data : BaseProg SerialDriverData).run
            (driverWorld answers (driverReceives caller message) stale)).1 =
        [(caller, copied stale message.length (message.drop 4)
          (min (room caller).toNat message.length))] := by
      rw [run_call, copies_reply, hsize]
      rfl
    rw [and_iff_right (Nat.le_of_not_lt hlong)]
    constructor
    · rintro ⟨⟨out, cs, -, heq⟩, hechoed⟩
      have hzero := (hcopies 0).symm.trans (hall ▸ (heq 0).2.1)
      have hone := (hcopies 1).symm.trans (hall ▸ (heq 1).2.1)
      have hroom : (room caller).toNat + 4 ≤ message.length := by
        by_contra hlarge
        have hsame := hzero.trans hone.symm
        simp only [List.cons.injEq, Prod.mk.injEq, and_true, true_and] at hsame
        have hstale : (0 : Byte) = 1 :=
          stale_of_copied_eq (by rw [List.length_drop]; omega) hsame
        exact absurd hstale (by decide)
      refine ⟨hroom, ?_⟩
      have hecho := hechoed hknows 0
      rw [hall, hcopies 0, copied_of_le (by rw [List.length_drop]; omega),
        Nat.min_eq_left (by omega)] at hecho
      simpa using hecho
    · rintro ⟨hroom, hsame⟩
      refine ⟨settles_reply ?_ ?_ fun _ ↦ settles_done _, fun _ stale ↦ ?_⟩
      · rw [hall, List.length_drop, hsize]
        omega
      · rw [hall, hsize]
      · rw [hall, hcopies stale, copied_of_le (by rw [List.length_drop]; omega),
          Nat.min_eq_left (by omega), hsame]

/-- The messages for which the driver answers from the message alone. -/
theorem driverFaithful_iff_safe : DriverFaithful data answers caller message room ↔
    DriverSafe message (room caller).toNat := by
  unfold DriverSafe
  by_cases hne : message = []
  · subst hne
    refine iff_of_false (fun h ↦ ?_) (by simp)
    have hnot : ¬ DriverKnows [] := fun hknows ↦ absurd hknows.1 (by decide)
    have hechoed := h.echoed hnot 0
    rw [driverRun_nil] at hechoed
    cases hechoed
  split_ifs with hshort hsend
  · exact iff_of_true (driverFaithful_short hne hshort) hne
  · exact driverFaithful_output_iff (Nat.le_of_not_lt hshort) hsend
  · by_cases hknows : DriverKnows message
    · exact iff_of_true (driverFaithful_known hknows hsend) (.inl hknows)
    · rw [or_iff_right hknows]
      exact driverFaithful_unknown_iff (Nat.le_of_not_lt hshort) hknows

end DriverMessages

section Nameserver

/-- A table of which every name ends inside its field. -/
structure NameTable where
  entries : NameEntries
  length : ∀ i, (entries i).name.length = nameserverMaxNameLength
  ended : ∀ i, 0 ∈ (entries i).name

/-- What the nameserver's memory holds apart from its table and the received
bytes: what is behind the query and behind each name, the variables that it has
not set, and the bytes of its reply that it never sets. -/
structure Leftover where
  behindQuery : Nat → Byte
  behindName : Fin 16 → List Byte
  returnValue : Word
  replyRest : Fin 28 → Byte
  pad : Byte

/-- Memory that is empty but for the parts that a reply shows. -/
def leftoverWith (returnValue : Word) (rest : Byte) : Leftover where
  behindQuery := fun _ ↦ 0
  behindName := fun _ ↦ []
  returnValue := returnValue
  replyRest := fun _ ↦ rest
  pad := 0

/-- The table as `strcmp` sees it, which does not know where a field ends. -/
def NameTable.view (table : NameTable) (leftover : Leftover) : NameEntries := fun i ↦
  { table.entries i with name := (table.entries i).name ++ leftover.behindName i }

/-- The query in the variable of the nameserver, and behind its buffer the rest
of the memory. -/
def queryOf (bytes : List Byte) (leftover : Leftover) : NameserverQuery where
  senderTid := wordAt bytes 0
  buffer := bytes.drop 4 ++ List.ofFn fun i : Fin (2 ^ 32) ↦ leftover.behindQuery i
  bufferLen := halfAt bytes 36
  operation := bytes.getD 38 0

def queryBytes (query : NameserverQuery) (pad : Byte) : List Byte :=
  wordBytes query.senderTid ++ (query.buffer ++ (halfBytes query.bufferLen ++
    [query.operation, pad]))

def nameserverReceives (sender : Word) (message : List Byte) : Incoming :=
  .of errReceiveBufferTooSmall sender nameserverQuerySize message

def nameserverReply (table : NameTable) (nameserverTid sender : Word) (message : List Byte)
    (leftover : Leftover) : Option (List Byte × Word) :=
  let received := nameserverReceives sender message
  match (nameserverEntry ⟨table.view leftover, true⟩
    ⟨sender, received.size, queryOf received.bytes leftover⟩).2 with
  | .echo => some (received.bytes, received.size)
  | .ignored => none
  | .answer a => some (queryBytes (replyQuery nameserverTid a leftover.returnValue
      (List.ofFn leftover.replyRest)) leftover.pad, nameserverQuerySize)

def nameserverCopies (table : NameTable) (nameserverTid sender : Word) (message : List Byte)
    (room : Word) (leftover : Leftover) : Option (List Byte) :=
  (nameserverReply table nameserverTid sender message leftover).map fun reply ↦
    copied leftover.behindQuery (nameserverReceives sender message).bytes.length reply.1
      (min room.toNat reply.2.toNat)

/-- The nameserver answers from the message alone. -/
structure NameserverFaithful (table : NameTable) (nameserverTid sender : Word)
    (message : List Byte) (room : Word) : Prop where
  same : ∀ leftover leftover',
    nameserverCopies table nameserverTid sender message room leftover =
      nameserverCopies table nameserverTid sender message room leftover'
  inside : ∀ leftover reply,
    nameserverReply table nameserverTid sender message leftover = some reply →
      reply.2.toNat ≤ (nameserverReceives sender message).bytes.length
  echoed : message.length ≠ 40 → ∀ leftover,
    nameserverCopies table nameserverTid sender message room leftover =
      some ((nameserverReceives sender message).bytes.take room.toNat)

def NameserverSafe (sender : Word) (message : List Byte) (room : Nat) : Prop :=
  message.length < 40 ∨ message.length = 40 ∧
    (sender = 0 ∨ room ≤ 4 ∨ message.getD 38 0 = nameserverOperationWhois ∧ room ≤ 8)

variable {table : NameTable} {nameserverTid sender room : Word} {message : List Byte}
variable {leftover : Leftover}

/-- What is behind the fields plays no part in `strcmp` if the string of one of
them ends. -/
theorem sameString_append {a b : List Byte} (hb : 0 ∈ b) (hle : b.length ≤ a.length)
    (l l' : List Byte) : sameString (a ++ l) (b ++ l') = sameString a b := by
  unfold sameString
  rw [cString_append_of_mem hb]
  by_cases ha : 0 ∈ a
  · rw [cString_append_of_mem ha]
  · have hshort := length_cString_lt hb
    have hlong := le_length_cString_append ha l
    have hself := le_length_cString_append ha []
    rw [List.append_nil] at hself
    have hne : cString (a ++ l) ≠ cString b := by
      intro heq
      rw [heq] at hlong
      omega
    have hne' : cString a ≠ cString b := by
      intro heq
      rw [heq] at hself
      omega
    rw [decide_eq_false hne, decide_eq_false hne']

/-- The nameserver finds the same entry whatever is behind the fields. -/
theorem whois_view {bytes : List Byte} (h : bytes.length = 40) (leftover leftover' : Leftover) :
    whois (table.view leftover) (queryOf bytes leftover) =
      whois (table.view leftover') (queryOf bytes leftover') := by
  have hsame (x : Leftover) (i : Fin 16) : sameString (queryOf bytes x).buffer
      (table.view x i).name = sameString (bytes.drop 4) (table.entries i).name := by
    refine sameString_append (table.ended i) ?_ _ _
    have hname : nameserverMaxNameLength = 32 := rfl
    rw [table.length, List.length_drop]
    omega
  simp only [whois, hsame]
  rfl

theorem register_returnValue (e : NameEntries) (sender : Word) (query : NameserverQuery) :
    (register e sender query).2.returnValue = none := by
  unfold register
  split
  · rfl
  · split_ifs <;> rfl

theorem whois_returnValue (e : NameEntries) (query : NameserverQuery) :
    ∃ v, (whois e query).returnValue = some v := by
  unfold whois
  split
  · exact ⟨_, rfl⟩
  · exact ⟨_, rfl⟩

theorem nameserverReceives_toNat (sender : Word) (message : List Byte) :
    (nameserverReceives sender message).size.toNat =
      if 40 < message.length then 4294967295 else message.length := by
  have hroom : nameserverQuerySize.toNat = 40 := rfl
  have hcode : errReceiveBufferTooSmall.toNat = 4294967295 := by decide
  simp only [nameserverReceives, Incoming.of, hroom]
  split_ifs with hlong
  · exact hcode
  · rw [BitVec.toNat_ofNat, Nat.mod_eq_of_lt (by omega)]

theorem nameserverReceives_bytes (sender : Word) (message : List Byte) :
    (nameserverReceives sender message).bytes = message.take 40 := rfl

theorem nameserverReceives_query (h : message.length = 40) :
    (nameserverReceives sender message).size = nameserverQuerySize := by
  apply BitVec.eq_of_toNat_eq
  rw [nameserverReceives_toNat, if_neg (by omega), h]
  rfl

theorem nameserverReply_echo (h : message.length ≠ 40) :
    nameserverReply table nameserverTid sender message leftover =
      some ((nameserverReceives sender message).bytes,
        (nameserverReceives sender message).size) := by
  have hsize := nameserverReceives_toNat sender message
  have hne : (nameserverReceives sender message).size ≠ nameserverQuerySize := by
    intro heq
    have hforty : nameserverQuerySize.toNat = 40 := rfl
    rw [heq, hforty] at hsize
    split_ifs at hsize <;> omega
  simp only [nameserverReply, nameserverEntry, if_pos hne]

theorem nameserverFaithful_short (h : message.length < 40) :
    NameserverFaithful table nameserverTid sender message room := by
  have hsize := nameserverReceives_toNat sender message
  rw [if_neg (by omega)] at hsize
  have hbytes : (nameserverReceives sender message).bytes = message :=
    List.take_of_length_le (Nat.le_of_lt h)
  have hcopies (x : Leftover) : nameserverCopies table nameserverTid sender message room x =
      some (message.take room.toNat) := by
    rw [nameserverCopies, nameserverReply_echo (Nat.ne_of_lt h), hbytes, Option.map_some, hsize,
      copied_of_le (Nat.min_le_right _ _), ← List.take_eq_take_min]
  refine ⟨fun x x' ↦ (hcopies x).trans (hcopies x').symm, fun x reply hreply ↦ ?_, fun _ x ↦ ?_⟩
  · rw [nameserverReply_echo (Nat.ne_of_lt h), Option.some_inj] at hreply
    rw [← hreply, hsize, hbytes]
  · rw [hcopies, hbytes]

theorem not_nameserverFaithful_long (h : 40 < message.length) :
    ¬ NameserverFaithful table nameserverTid sender message room := by
  intro hfaithful
  have hsize := nameserverReceives_toNat sender message
  rw [if_pos h] at hsize
  have hinside := hfaithful.inside (leftoverWith 0 0) _ (nameserverReply_echo (Nat.ne_of_gt h))
  rw [hsize, nameserverReceives_bytes, List.length_take] at hinside
  omega

variable (table nameserverTid) in
/-- The answer to a query of which the value is set for `WHOIS` only. -/
theorem exists_answer (h : message.length = 40) (hsender : sender ≠ 0) :
    ∃ a : Leftover → Answer,
      (∀ x, nameserverReply table nameserverTid sender message x =
        some (queryBytes (replyQuery nameserverTid (a x) x.returnValue
          (List.ofFn x.replyRest)) x.pad, nameserverQuerySize)) ∧
      (message.getD 38 0 = nameserverOperationWhois → ∃ v, ∀ x, (a x).returnValue = some v) ∧
      (message.getD 38 0 ≠ nameserverOperationWhois → ∀ x, (a x).returnValue = none) := by
  have hbytes : (nameserverReceives sender message).bytes = message :=
    List.take_of_length_le (Nat.le_of_eq h)
  have hsize : (nameserverReceives sender message).size = nameserverQuerySize :=
    nameserverReceives_query h
  have hoperation (x : Leftover) : (queryOf message x).operation = message.getD 38 0 := rfl
  have hregister : nameserverOperationWhois ≠ nameserverOperationRegister := by decide
  by_cases hwhois : message.getD 38 0 = nameserverOperationWhois
  · obtain ⟨v, hv⟩ := whois_returnValue (table.view (leftoverWith 0 0))
      (queryOf message (leftoverWith 0 0))
    refine ⟨fun x ↦ whois (table.view x) (queryOf message x), fun x ↦ ?_,
      fun _ ↦ ⟨v, fun x ↦ ?_⟩, fun hne ↦ absurd hwhois hne⟩
    · simp only [nameserverReply, nameserverEntry, hsize, hbytes, ne_eq, not_true_eq_false,
        if_false, if_neg hsender, hoperation, hwhois, if_neg hregister, if_true]
    · exact (congrArg Answer.returnValue (whois_view h x _)).trans hv
  · refine ⟨fun x ↦ (if message.getD 38 0 = nameserverOperationRegister then
        (register (table.view x) sender (queryOf message x)).2
      else if message.getD 38 0 = nameserverOperationExit then ⟨nameserverOperationWhois, none⟩
      else ⟨nameserverOperationInvalid, none⟩), fun x ↦ ?_, fun heq ↦ absurd heq hwhois,
      fun _ x ↦ ?_⟩
    · simp only [nameserverReply, nameserverEntry, hsize, hbytes, ne_eq, not_true_eq_false,
        if_false, if_neg hsender, hoperation, if_neg hwhois]
      split_ifs <;> rfl
    · dsimp only
      split_ifs
      · exact register_returnValue _ _ _
      · rfl
      · rfl

theorem length_queryBytes (a : Answer) (x : Leftover) :
    (queryBytes (replyQuery nameserverTid a x.returnValue (List.ofFn x.replyRest)) x.pad).length =
      40 := by
  simp [queryBytes, replyQuery]

theorem queryBytes_take_four (a : Answer) (x : Leftover) :
    (queryBytes (replyQuery nameserverTid a x.returnValue (List.ofFn x.replyRest)) x.pad).take 4 =
      wordBytes nameserverTid := rfl

variable (nameserverTid) in
theorem queryBytes_take_eight (a : Answer) (x : Leftover) :
    (queryBytes (replyQuery nameserverTid a x.returnValue (List.ofFn x.replyRest)) x.pad).take 8 =
      wordBytes nameserverTid ++ wordBytes (a.returnValue.getD x.returnValue) := rfl

theorem queryBytes_getD_four (a : Answer) (x : Leftover) :
    (queryBytes (replyQuery nameserverTid a x.returnValue
      (List.ofFn x.replyRest)) x.pad).getD 4 0 =
        byteOf (a.returnValue.getD x.returnValue) 0 := rfl

theorem queryBytes_getD_eight (a : Answer) (x : Leftover) :
    (queryBytes (replyQuery nameserverTid a x.returnValue
      (List.ofFn x.replyRest)) x.pad).getD 8 0 = x.replyRest 0 := by
  simp [queryBytes, replyQuery, wordBytes, List.ofFn_succ]

/-- A query is answered with the id of the nameserver, a value, and bytes that
were never set. -/
theorem nameserverFaithful_query_iff (h : message.length = 40) (hsender : sender ≠ 0) :
    NameserverFaithful table nameserverTid sender message room ↔
      room.toNat ≤ 4 ∨ message.getD 38 0 = nameserverOperationWhois ∧ room.toNat ≤ 8 := by
  obtain ⟨a, hreply, hwhois, hother⟩ := exists_answer table nameserverTid h hsender
  have hforty : nameserverQuerySize.toNat = 40 := rfl
  have hcopies (x : Leftover) : nameserverCopies table nameserverTid sender message room x =
      some ((queryBytes (replyQuery nameserverTid (a x) x.returnValue (List.ofFn x.replyRest))
        x.pad).take room.toNat) := by
    rw [nameserverCopies, hreply, Option.map_some, hforty,
      copied_of_le (by rw [length_queryBytes]; omega), ← length_queryBytes (a x) x,
      ← List.take_eq_take_min]
  constructor
  · intro hfaithful
    by_contra hroom
    have hbyte {j : Nat} (hj : j < room.toNat) (x x' : Leftover) :
        (queryBytes (replyQuery nameserverTid (a x) x.returnValue (List.ofFn x.replyRest))
            x.pad).getD j 0 =
          (queryBytes (replyQuery nameserverTid (a x') x'.returnValue (List.ofFn x'.replyRest))
            x'.pad).getD j 0 := by
      have hsame := ((hcopies x).symm.trans (hfaithful.same x x')).trans (hcopies x')
      have hget := congrArg (fun l : List Byte ↦ l.getD j 0) (Option.some_inj.mp hsame)
      simpa [List.getD_eq_getElem?_getD, List.getElem?_take_of_lt hj] using hget
    by_cases hop : message.getD 38 0 = nameserverOperationWhois
    · have hlarge : 8 < room.toNat := by
        by_contra hle
        exact hroom (.inr ⟨hop, Nat.le_of_not_lt hle⟩)
      have height := hbyte hlarge (leftoverWith 0 0) (leftoverWith 0 1)
      rw [queryBytes_getD_eight, queryBytes_getD_eight] at height
      exact absurd height (by decide)
    · have hlarge : 4 < room.toNat := by
        by_contra hle
        exact hroom (.inl (Nat.le_of_not_lt hle))
      have hfour := hbyte hlarge (leftoverWith 0 0) (leftoverWith 1 0)
      rw [queryBytes_getD_four, queryBytes_getD_four, hother hop, hother hop] at hfour
      exact absurd hfour (by decide)
  · intro hroom
    have hshown : ∃ l : List Byte, ∀ x, nameserverCopies table nameserverTid sender message room x =
        some (l.take room.toNat) := by
      rcases hroom with hfour | ⟨hop, height⟩
      · refine ⟨wordBytes nameserverTid, fun x ↦ ?_⟩
        rw [hcopies, ← queryBytes_take_four (a x) x, List.take_take, Nat.min_eq_left hfour]
      · obtain ⟨v, hv⟩ := hwhois hop
        refine ⟨wordBytes nameserverTid ++ wordBytes v, fun x ↦ ?_⟩
        have htake := queryBytes_take_eight nameserverTid (a x) x
        rw [hv, Option.getD_some] at htake
        rw [hcopies, ← htake, List.take_take, Nat.min_eq_left height]
    obtain ⟨l, hl⟩ := hshown
    refine ⟨fun x x' ↦ (hl x).trans (hl x').symm, fun x reply hx ↦ ?_,
      fun hne ↦ absurd h hne⟩
    rw [hreply, Option.some_inj] at hx
    rw [← hx, nameserverReceives_bytes, List.length_take, h]
    exact Nat.le_refl 40

theorem nameserverFaithful_zero (h : message.length = 40) :
    NameserverFaithful table nameserverTid 0 message room := by
  have hreply (x : Leftover) : nameserverReply table nameserverTid 0 message x = none := by
    have hsize : (nameserverReceives 0 message).size = nameserverQuerySize :=
      nameserverReceives_query h
    simp only [nameserverReply, nameserverEntry, hsize, ne_eq, not_true_eq_false, if_false,
      if_true]
  refine ⟨fun x x' ↦ ?_, fun x reply hx ↦ ?_, fun hne ↦ absurd h hne⟩
  · rw [nameserverCopies, nameserverCopies, hreply, hreply]
    rfl
  · rw [hreply] at hx
    cases hx

/-- The messages for which the nameserver answers from the message alone. -/
theorem nameserverFaithful_iff_safe :
    NameserverFaithful table nameserverTid sender message room ↔
      NameserverSafe sender message room.toNat := by
  unfold NameserverSafe
  rcases Nat.lt_trichotomy message.length 40 with hshort | hquery | hlong
  · exact iff_of_true (nameserverFaithful_short hshort) (.inl hshort)
  · rw [or_iff_right (by omega), and_iff_right hquery]
    by_cases hsender : sender = 0
    · subst hsender
      exact iff_of_true (nameserverFaithful_zero hquery) (.inl rfl)
    · rw [nameserverFaithful_query_iff hquery hsender, or_iff_right hsender]
  · refine iff_of_false (not_nameserverFaithful_long hlong) ?_
    rintro (hshort | ⟨hquery, -⟩) <;> omega

end Nameserver

/-- The servers answer from the message alone where the message is one of those
that they answer properly, and on no other message. -/
theorem servers_answer_iff (data : SerialDriverData) (answers : (c : BaseCall) → BaseAnswer c)
    (table : NameTable) (nameserverTid caller : Word) (message : List Byte)
    (room : Word → Word) :
    (DriverFaithful data answers caller message room ↔
      DriverSafe message (room caller).toNat) ∧
    (NameserverFaithful table nameserverTid caller message (room caller) ↔
      NameserverSafe caller message (room caller).toNat) :=
  ⟨driverFaithful_iff_safe, nameserverFaithful_iff_safe⟩

def longHeader : List Byte := wordBytes messageTypeSendMessage ++ [12, 0, 65]

def NameTable.empty : NameTable where
  entries := noEntries
  length := fun _ ↦ List.length_replicate
  ended := fun _ ↦ List.mem_replicate.mpr ⟨by decide, rfl⟩

/-- The driver puts out bytes that it never received, and a query for a name
comes back with bytes that the nameserver never set. -/
theorem stale_bytes_shown :
    (∀ answers, ¬ DriverFaithful ⟨true, 0, 0⟩ answers 0x2000 longHeader fun _ ↦ 4) ∧
    ¬ NameserverFaithful .empty 0x1000 0x2000
      (List.replicate 38 65 ++ [nameserverOperationWhois, 0]) nameserverQuerySize := by
  constructor
  · intro answers h
    have hsafe := driverFaithful_iff_safe.mp h
    rw [DriverSafe, if_neg (by decide), if_pos (by decide)] at hsafe
    exact absurd hsafe (by decide)
  · intro h
    have hsafe := nameserverFaithful_iff_safe.mp h
    revert hsafe
    unfold NameserverSafe
    decide

end PrjOS
