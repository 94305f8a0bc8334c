import PrjOS.Cli.CommandExecutor
import PrjOS.Syscall.Messages

namespace PrjOS

open ByteMemory Program Rendezvous Transition

/-- A message that the driver has received and not answered. `missed` tells that
no character was there for it when it was the only one, and `read` is what the
device gave at the latest look since then. -/
structure Owed where
  sender : Word
  message : List Byte
  missed : Bool
  read : Option Word

/-- A look at the device concerns the only open message. -/
def noteRead (ch : Word) : List Owed → List Owed
  | [q] => [{ q with missed := q.missed || ch == -1, read := some ch }]
  | owed => owed

def owedNext (owed : List Owed) : (c : BaseCall) → BaseAnswer c → List Owed
  | .receive _, received => ⟨received.sender, received.bytes, false, none⟩ :: owed
  | .reply target _ _, _ => owed.eraseP fun q ↦ q.sender == target
  | .outside .getCharNonBlocking, ch => noteRead ch owed
  | _, _ => owed

def owedAfter (t : List BaseEvent) : List Owed := t.foldl (fun owed e ↦ owedNext owed e.1 e.2) []

def Owed.Parked (q : Owed) : Prop :=
  4 ≤ q.message.length ∧ wordAt q.message 0 = messageTypeGetChar ∧ q.missed = true

/-- Nobody is owed a reply, apart from one parked reader. -/
def AtRest (owed : List Owed) : Prop := owed = [] ∨ ∃ q, owed = [q] ∧ q.Parked

def isMessageFrom (x : Word) : BaseEvent → Bool
  | ⟨.receive _, received⟩ => received.sender == x
  | _ => false

def isReplyTo (x : Word) : BaseEvent → Bool
  | ⟨.reply target _ _, _⟩ => target == x
  | _ => false

/-- The reply to a parked reader is the character that the device has just
given. -/
def HandsOver (owed : List Owed) (message : List Byte) (size : Word) : Prop :=
  ∀ q, owed = [q] → q.Parked →
    ∃ ch, ch ≠ -1 ∧ q.read = some ch ∧ message = wordBytes ch ∧ size = 4

/-- Every message gets one reply: no reply goes to a task that waits for none,
a parked reader gets a character, between two messages only a parked reader is
owed a reply, and at the end nobody. -/
structure ReplyDiscipline (t : List BaseEvent) (p : BaseProg Point) : Prop where
  once : ∀ t₁ target message size a t₂,
    t = t₁ ++ ⟨.reply target message size, a⟩ :: t₂ → ∃ q ∈ owedAfter t₁, q.sender = target
  late : ∀ t₁ target message size a t₂,
    t = t₁ ++ ⟨.reply target message size, a⟩ :: t₂ → HandsOver (owedAfter t₁) message size
  counted : ∀ x, t.countP (isReplyTo x) + (owedAfter t).countP (fun q ↦ q.sender == x) =
    t.countP (isMessageFrom x)
  settled : ∀ room k, p = .call (.receive room) k → AtRest (owedAfter t)
  finished : ∀ pt, p = .done pt → baseTasks pt = none → owedAfter t = []

def Receipt (sender : Word) (message : List Byte) (received : Incoming) : Prop :=
  sender ≠ tasksIdInvalid ∧ received = driverReceives sender message

def Answerable (message : List Byte) : Prop :=
  message ≠ [] ∧ (4 ≤ message.length → wordAt message 0 ≠ messageTypeQuit ∧
    (wordAt message 0 = messageTypeSendMessage → 7 ≤ message.length))

instance (message : List Byte) : Decidable (Answerable message) :=
  inferInstanceAs (Decidable (_ ∧ _))

def replyContract : Contract BaseCall BaseAnswer (List Owed) where
  pre owed
    | .receive _ => AtRest owed
    | .reply target message size =>
      (∃ q ∈ owed, q.sender = target) ∧ HandsOver owed message size
    | _ => True
  rely _
    | .receive room, received => room = BitVec.ofNat 32 maxMessageLen →
      ∃ sender message, Receipt sender message received ∧ Answerable message
    | _, _ => True
  next := owedNext

/-- Between two messages the driver owes a reply to the parked reader only. -/
def SerialDriverData.Owes (data : SerialDriverData) (owed : List Owed) : Prop :=
  data.blockedCharTid = 0 ∧ owed = [] ∨
    data.blockedCharTid ≠ 0 ∧ ∃ q, owed = [q] ∧ q.sender = data.blockedCharTid ∧ q.Parked

def driverOwes : Point → List Owed → Prop
  | .serialDriverTask, owed => owed = []
  | .serialDriver data, owed => data.keepRunning = true ∧ data.Owes owed
  | _, _ => False

section Replies

variable {data : SerialDriverData} {owed : List Owed} {q : Owed}

theorem meets_reply {α : Type} {post : α → List Owed → Prop} {m : List Byte} {size : Word}
    {k : Word → BaseProg α} (hm : HandsOver (q :: owed) m size)
    (h : ∀ x, (k x).Meets replyContract post owed) :
    (Prog.call (.reply q.sender m size) k : BaseProg α).Meets replyContract post (q :: owed) := by
  refine ⟨⟨⟨q, List.mem_cons_self, rfl⟩, hm⟩, fun x _ ↦ ?_⟩
  have hnext : replyContract.next (q :: owed) (.reply q.sender m size) x = owed := by
    change List.eraseP (fun q' ↦ q'.sender == q.sender) (q :: owed) = owed
    simp
  rw [hnext]
  exact h x

/-- The message at hand is not parked. -/
theorem handsOver_of_not_parked {m : List Byte} {size : Word} (h : ¬ q.Parked) :
    HandsOver (q :: owed) m size := by
  intro q' hq' hparked
  obtain ⟨rfl, -⟩ := List.cons.inj hq'
  exact absurd hparked h

theorem Owed.not_parked (h : q.missed = false) : ¬ q.Parked :=
  fun hparked ↦ Bool.false_ne_true (h.symm.trans hparked.2.2)

def DriverRests (data : SerialDriverData) (owed : List Owed) : Prop :=
  data.keepRunning = true ∧ data.Owes owed

theorem characterReceived_meets (hrun : data.keepRunning = true) (howes : data.Owes owed)
    (hnew : q.missed = false) :
    (characterReceived data q.sender).Meets replyContract DriverRests (q :: owed) := by
  simp only [characterReceived, prjReply_bind, getCharNonBlocking_bind, pure_eq_done]
  refine meets_reply (handsOver_of_not_parked (Owed.not_parked hnew)) fun _ ↦ ?_
  rcases howes with ⟨hfree, rfl⟩ | ⟨hblocked, q', rfl, hsender, hparked⟩
  · rw [if_neg (not_not.mpr hfree)]
    exact ⟨hrun, .inl ⟨hfree, rfl⟩⟩
  rw [if_pos hblocked]
  refine ⟨trivial, fun ch _ ↦ ?_⟩
  set looked : Owed := { q' with missed := q'.missed || ch == -1, read := some ch } with hlooked
  have hparked' : looked.Parked := ⟨hparked.1, hparked.2.1, by rw [hlooked, hparked.2.2]; rfl⟩
  change Prog.Meets replyContract DriverRests _ [looked]
  beta_reduce
  split_ifs with hch
  · rw [← hsender]
    refine meets_reply (q := looked) (fun q'' hq'' _ ↦ ?_) fun _ ↦ ⟨hrun, .inl ⟨rfl, rfl⟩⟩
    obtain ⟨rfl, -⟩ := List.cons.inj hq''
    exact ⟨ch, hch, rfl, rfl, rfl⟩
  · exact ⟨hrun, .inr ⟨hblocked, looked, rfl, hsender, hparked'⟩⟩

theorem getChar_meets (hrun : data.keepRunning = true) (howes : data.Owes owed)
    (hnew : q.missed = false) (hsender : q.sender ≠ 0) (hlen : 4 ≤ q.message.length)
    (htype : wordAt q.message 0 = messageTypeGetChar) :
    (getChar data q.sender).Meets replyContract DriverRests (q :: owed) := by
  simp only [getChar, prjReply_bind, getCharNonBlocking_bind, pure_eq_done]
  refine ⟨trivial, fun ch _ ↦ ?_⟩
  change Prog.Meets replyContract DriverRests _ (noteRead ch (q :: owed))
  beta_reduce
  rcases howes with ⟨hfree, rfl⟩ | ⟨hblocked, q', rfl, hparked⟩
  · split_ifs with hch
    · refine ⟨hrun, .inr ⟨hsender, _, rfl, rfl, hlen, htype, ?_⟩⟩
      rw [hch]
      exact Bool.or_true _
    · have hfound : (q.missed || ch == -1) = false := by
        rw [hnew, Bool.false_or]
        exact beq_false_of_ne hch
      exact meets_reply (q := { q with missed := q.missed || ch == -1, read := some ch })
        (handsOver_of_not_parked (Owed.not_parked hfound)) fun _ ↦ ⟨hrun, .inl ⟨hfree, rfl⟩⟩
  · rw [if_neg hblocked]
    have hrest : data.Owes [q'] := .inr ⟨hblocked, q', rfl, hparked⟩
    split_ifs
    · exact meets_reply (handsOver_of_not_parked (Owed.not_parked hnew)) fun _ ↦ ⟨hrun, hrest⟩
    · exact meets_reply (handsOver_of_not_parked (Owed.not_parked hnew)) fun _ ↦ ⟨hrun, hrest⟩

/-- Reading the message and putting out characters answers nobody. -/
theorem messageByte_meets {α : Type} {post : α → List Owed → Prop} {message : List Byte} {i : Nat}
    {f : Byte → BaseProg α} (h : ∀ b, (f b).Meets replyContract post owed) :
    (messageByte message i >>= f).Meets replyContract post owed := by
  by_cases hi : i < message.length
  · rw [messageByte_of_lt hi]
    exact h _
  · rw [messageByte_of_le (Nat.le_of_not_lt hi)]
    exact ⟨trivial, fun b _ ↦ h b⟩

theorem putChars_meets {message : List Byte} {post : Unit → List Owed → Prop}
    (hpost : post () owed) (i n : Nat) :
    (putChars message i n).Meets replyContract post owed := by
  induction n generalizing i with
  | zero => exact hpost
  | succ n ih =>
    rw [putChars]
    simp only [putCharBlocking_bind]
    exact messageByte_meets fun b ↦ ⟨trivial, fun _ _ ↦ ih (i + 1)⟩

theorem sendMessage_meets {size : Word} (hsize : ¬ size < 7) (hrun : data.keepRunning = true)
    (howes : data.Owes owed) (hnew : q.missed = false) :
    (sendMessage data q.sender q.message size).Meets replyContract DriverRests (q :: owed) := by
  rw [sendMessage, if_neg hsize, messageHalf, Program.bind_assoc]
  refine messageByte_meets fun b₀ ↦ ?_
  rw [Program.bind_assoc]
  refine messageByte_meets fun b₁ ↦ ?_
  simp only [pure_eq_done, done_bind, prjReply_bind]
  rw [meets_bind]
  refine putChars_meets ?_ _ _
  exact meets_reply (handsOver_of_not_parked (Owed.not_parked hnew)) fun _ ↦ ⟨hrun, howes⟩

theorem processMessage_meets {sender : Word} {message : List Byte} {received : Incoming}
    (hd : Receipt sender message received) (ha : Answerable message)
    (hrun : data.keepRunning = true) (howes : data.Owes owed) :
    (processMessage data received.sender received.bytes received.size).Meets replyContract
      DriverRests (⟨received.sender, received.bytes, false, none⟩ :: owed) := by
  obtain ⟨hsender, rfl⟩ := hd
  let q : Owed := ⟨sender, (driverReceives sender message).bytes, false, none⟩
  have hnew {m : List Byte} {size : Word} : HandsOver (q :: owed) m size :=
    handsOver_of_not_parked (Owed.not_parked rfl)
  have hrest : DriverRests data owed := ⟨hrun, howes⟩
  have hfour := driverReceives_size_lt sender message (n := 4) (by omega)
  unfold processMessage
  by_cases hshort : message.length < 4
  · have hsmall : (driverReceives sender message).size < 4 := hfour.mpr hshort
    rw [if_pos hsmall]
    exact meets_reply (q := q) hnew fun _ ↦ hrest
  have hlen := (le_length_driverReceives sender message (n := 4) (by omega)).mpr
    (Nat.le_of_not_lt hshort)
  obtain ⟨hquit, hseven⟩ := ha.2 (Nat.le_of_not_lt hshort)
  have hlarge : ¬ (driverReceives sender message).size < 4 := fun hlt ↦ hshort (hfour.mp hlt)
  rw [if_neg hlarge, messageWord_of_le hlen, done_bind, driverReceives_wordAt]
  simp only [prjReply_bind, getCharNonBlocking_bind, pure_eq_done]
  split_ifs with hreceived hget hnonblocking hsend
  · exact characterReceived_meets (q := q) hrun howes rfl
  · exact getChar_meets (q := q) hrun howes rfl hsender hlen
      ((driverReceives_wordAt sender message).trans hget)
  · refine ⟨trivial, fun ch _ ↦ ?_⟩
    change Prog.Meets replyContract DriverRests _ (noteRead ch (q :: owed))
    rcases howes with ⟨hfree, rfl⟩ | ⟨hblocked, q', rfl, hparked⟩
    · refine meets_reply (q := { q with missed := q.missed || ch == -1, read := some ch })
        (handsOver_of_not_parked fun hparked ↦ hget ?_) fun _ ↦ hrest
      exact (driverReceives_wordAt sender message).symm.trans hparked.2.1
    · exact meets_reply (q := q) hnew fun _ ↦ hrest
  · refine sendMessage_meets (q := q) (fun hlt ↦ ?_) hrun howes rfl
    have hlt' := (driverReceives_size_lt sender message (n := 7) (by omega)).mp hlt
    have hle := hseven hsend
    omega
  · exact meets_reply (q := q) hnew fun _ ↦ hrest

end Replies

theorem replyContract_kept : replyContract.Kept driverOwes baseTasks := by
  intro pt owed p h hb
  cases pt with
  | serialDriverTask =>
    obtain rfl : owed = [] := h
    obtain rfl : serialDriverTask = p := Option.some.inj hb
    simp only [serialDriverTask, unset_bind, prjReceive_bind, prjCreate_bind, prjSend_bind,
      prjReply_bind, pure_eq_done]
    refine ⟨trivial, fun _ _ ↦ ⟨.inl rfl, fun received _ ↦ ⟨trivial, fun _ _ ↦ ⟨trivial,
      fun _ _ ↦ ?_⟩⟩⟩⟩
    exact meets_reply (q := ⟨received.sender, received.bytes, false, none⟩)
      (handsOver_of_not_parked (Owed.not_parked rfl)) fun _ ↦ ⟨rfl, .inl ⟨rfl, rfl⟩⟩
  | serialDriver data =>
    obtain ⟨hrun, howes⟩ := h
    obtain rfl : serialDriverLoop data = p := by
      rw [baseTasks, if_pos hrun] at hb
      exact Option.some.inj hb
    simp only [serialDriverLoop, prjReceive_bind, pure_eq_done]
    refine ⟨?_, fun received hreceived ↦ ?_⟩
    · rcases howes with ⟨-, hnone⟩ | ⟨-, q, hq, -, hparked⟩
      · exact .inl hnone
      · exact .inr ⟨q, hq, hparked⟩
    obtain ⟨sender, message, hd, ha⟩ := hreceived rfl
    have hsize : 0 < received.size := by
      rw [hd.2]
      exact (driverReceives_size_pos sender message).mpr ha.1
    beta_reduce
    rw [if_pos hsize, meets_bind]
    exact (processMessage_meets hd ha hrun howes).mono fun _ _ h ↦ h
  | _ => exact h.elim

theorem countP_eraseP {owed : List Owed} {target : Word} (h : ∃ q ∈ owed, q.sender = target)
    (x : Word) : (owed.eraseP fun q ↦ q.sender == target).countP (fun q ↦ q.sender == x) +
      (if target == x then 1 else 0) = owed.countP fun q ↦ q.sender == x := by
  induction owed with
  | nil => simp at h
  | cons q owed ih =>
    by_cases hq : q.sender = target
    · simp [hq, List.countP_cons]
    · have hmem : ∃ q ∈ owed, q.sender = target := by simpa [hq] using h
      have hcount := ih hmem
      have herase : (q :: owed).eraseP (fun q ↦ q.sender == target) =
          q :: owed.eraseP fun q ↦ q.sender == target := by simp [hq]
      rw [herase, List.countP_cons, List.countP_cons]
      omega

theorem countP_noteRead (ch : Word) (owed : List Owed) (x : Word) :
    (noteRead ch owed).countP (fun q ↦ q.sender == x) =
      owed.countP fun q ↦ q.sender == x := by
  match owed with
  | [] => rfl
  | [q] => rfl
  | _ :: _ :: _ => rfl

theorem countP_owedNext {owed : List Owed} {e : BaseEvent} (h : replyContract.pre owed e.1)
    (x : Word) : [e].countP (isReplyTo x) +
      (owedNext owed e.1 e.2).countP (fun q ↦ q.sender == x) =
        owed.countP (fun q ↦ q.sender == x) + [e].countP (isMessageFrom x) := by
  obtain ⟨c, a⟩ := e
  rw [List.countP_singleton, List.countP_singleton]
  cases c with
  | receive room =>
    change 0 + (_ :: owed).countP (fun q ↦ q.sender == x) = _
    rw [List.countP_cons, Nat.zero_add]
    rfl
  | reply target message size =>
    have hcount := countP_eraseP h.1 x
    change (if target == x then 1 else 0) +
      (owed.eraseP fun q ↦ q.sender == target).countP (fun q ↦ q.sender == x) = _ + 0
    omega
  | outside e =>
    cases e with
    | getCharNonBlocking =>
      change 0 + (noteRead a owed).countP (fun q ↦ q.sender == x) = _ + 0
      rw [countP_noteRead, Nat.zero_add, Nat.add_zero]
    | _ => exact Nat.zero_add _
  | _ => exact Nat.zero_add _

theorem owedAfter_append (t : List BaseEvent) (e : BaseEvent) :
    owedAfter (t ++ [e]) = owedNext (owedAfter t) e.1 e.2 := by
  rw [owedAfter, List.foldl_append]
  rfl

/-- What is owed is what came in and was not answered. -/
theorem replies_counted {t : List BaseEvent} (h : replyContract.Allowed [] t) (x : Word) :
    t.countP (isReplyTo x) + (owedAfter t).countP (fun q ↦ q.sender == x) =
      t.countP (isMessageFrom x) := by
  induction t using List.reverseRecOn with
  | nil => rfl
  | append_singleton t e ih =>
    have hroot : replyContract.Allowed [] t := by
      intro t₁ e' t₂ ht
      exact h t₁ e' (t₂ ++ [e]) (by rw [ht, List.append_assoc, List.cons_append])
    have hlast : replyContract.pre (owedAfter t) e.1 := h t e [] rfl
    have hstep := countP_owedNext hlast x
    specialize ih hroot
    rw [owedAfter_append, List.countP_append, List.countP_append]
    omega

/-- The driver answers every message once, whoever sends what, as long as it
gets no empty message, no output message without a byte and no quit. -/
theorem serialDriver_replies {ls : List (List BaseEvent)} {p : BaseProg Point}
    (hrun : Run (OpenStep baseTasks) (.done .serialDriverTask) ls p)
    (hmessages : ∀ received, ⟨.receive (BitVec.ofNat 32 maxMessageLen), received⟩ ∈ ls.flatten →
      ∃ sender message, Receipt sender message received ∧ Answerable message) :
    ReplyDiscipline ls.flatten p := by
  have hrelied : replyContract.Relied [] ls.flatten := by
    intro t₁ e t₂ ht
    obtain ⟨c, a⟩ := e
    cases c with
    | receive room =>
      rintro rfl
      exact hmessages a (by rw [ht]; exact List.mem_append_right _ List.mem_cons_self)
    | _ => trivial
  have hstart : (Prog.done .serialDriverTask : BaseProg Point).Meets replyContract driverOwes [] :=
    rfl
  obtain ⟨hallowed, hmeets⟩ := open_run_meets replyContract_kept hstart hrun hrelied
  refine ⟨fun t₁ target message size a t₂ ht ↦ (hallowed t₁ _ t₂ ht).1,
    fun t₁ target message size a t₂ ht ↦ (hallowed t₁ _ t₂ ht).2, replies_counted hallowed, ?_, ?_⟩
  · rintro room k rfl
    exact hmeets.1
  · rintro pt rfl hend
    have hpt : driverOwes pt (owedAfter ls.flatten) := hmeets
    cases pt with
    | serialDriver data => simp [baseTasks, hpt.1] at hend
    | serialDriverTask => exact hpt
    | _ => exact hpt.elim

/-- How the driver starts: the initialiser 0x1000 sends its data, and the
polling task is 0x3000. -/
def driverStart : List (List BaseEvent) :=
  [[], [⟨.outside (.unset 20), fun _ ↦ 0⟩],
    [⟨.receive serialDriverDataSize, ⟨0x1000, 20, List.replicate 20 0⟩⟩],
    [⟨.create .incomingCharacterPollingTask, 0x3000⟩],
    [⟨.send 0x3000 (wordBytes 0) 4, ⟨4, wordBytes 0⟩⟩],
    [⟨.reply 0x1000 (wordBytes 0x1000) 4, 0⟩], []]

theorem driverStart_run : Run (OpenStep baseTasks) (.done .serialDriverTask) driverStart
    (serialDriverLoop ⟨true, 0, 0⟩) := by
  have hserving : Run (OpenStep baseTasks) (.done .serialDriverTask) (driverStart.take 6)
      (.done (.serialDriver ⟨true, 0, 0⟩)) :=
    Run.snoc (Run.snoc (Run.snoc (Run.snoc (Run.snoc (Run.snoc .nil (.jump rfl))
      (.call _ _ _)) (.call _ _ _)) (.call _ _ _)) (.call _ _ _)) (.call _ _ _)
  exact hserving.snoc (.jump rfl)

def receives (message : List Byte) : List BaseEvent :=
  [⟨.receive (BitVec.ofNat 32 maxMessageLen), driverReceives 0x2000 message⟩]

theorem driverStart_receives {message : List Byte} {received : Incoming}
    (h : ⟨.receive (BitVec.ofNat 32 maxMessageLen), received⟩ ∈
      (driverStart ++ [receives message]).flatten) : Receipt 0x2000 message received := by
  have hreceived : received = driverReceives 0x2000 message := by
    simpa [driverStart, receives, maxMessageLen, serialDriverDataSize] using h
  exact ⟨by decide, hreceived⟩

/-- A reader is parked, and gets the next character. -/
def lateRead : List (List BaseEvent) :=
  driverStart ++ [receives (wordBytes messageTypeGetChar)] ++
    [[⟨.outside .getCharNonBlocking, -1⟩], [],
      [⟨.receive (BitVec.ofNat 32 maxMessageLen),
        driverReceives 0x3000 (wordBytes messageTypeCharacterReceived)⟩],
      [⟨.reply 0x3000 (wordBytes 0) 4, 0⟩], [⟨.outside .getCharNonBlocking, 97⟩],
      [⟨.reply 0x2000 (wordBytes 97) 4, 0⟩]]

theorem lateRead_run : Run (OpenStep baseTasks) (.done .serialDriverTask) lateRead
    (.done (.serialDriver ⟨true, 0, 0⟩)) := by
  have hasked : Run (OpenStep baseTasks) (.done .serialDriverTask)
      (driverStart ++ [receives (wordBytes messageTypeGetChar)])
      (getChar ⟨true, 0, 0⟩ 0x2000 >>= fun data ↦ .done (.serialDriver data)) :=
    driverStart_run.snoc (.call _ _ _)
  have hparked : Run (OpenStep baseTasks) (.done .serialDriverTask)
      (driverStart ++ [receives (wordBytes messageTypeGetChar)] ++
        [[⟨.outside .getCharNonBlocking, -1⟩]]) (.done (.serialDriver ⟨true, 0x2000, 0⟩)) :=
    hasked.snoc (.call _ _ _)
  have hcharacter : Run (OpenStep baseTasks) (.done .serialDriverTask)
      (driverStart ++ [receives (wordBytes messageTypeGetChar)] ++
        [[⟨.outside .getCharNonBlocking, -1⟩]] ++ [[]] ++
        [[⟨.receive (BitVec.ofNat 32 maxMessageLen),
          driverReceives 0x3000 (wordBytes messageTypeCharacterReceived)⟩]])
      (characterReceived ⟨true, 0x2000, 0⟩ 0x3000 >>= fun data ↦ .done (.serialDriver data)) :=
    (hparked.snoc (.jump rfl)).snoc (.call _ _ _)
  exact ((hcharacter.snoc (.call _ _ _)).snoc (.call _ _ _)).snoc (.call _ _ _)

theorem serialDriver_replies_read :
    ReplyDiscipline lateRead.flatten (.done (.serialDriver ⟨true, 0, 0⟩)) := by
  refine serialDriver_replies lateRead_run fun received h ↦ ?_
  have hreceived : received = driverReceives 0x2000 (wordBytes messageTypeGetChar) ∨
      received = driverReceives 0x3000 (wordBytes messageTypeCharacterReceived) := by
    simpa [lateRead, driverStart, receives, maxMessageLen, serialDriverDataSize] using h
  rcases hreceived with rfl | rfl
  · exact ⟨0x2000, _, ⟨by decide, rfl⟩, by decide⟩
  · exact ⟨0x3000, _, ⟨by decide, rfl⟩, by decide⟩

/-- An output message without a byte, as `prjPutBuf` sends it for an empty
string, is never answered. -/
theorem emptyOutput_unanswered :
    (∃ p, Run (OpenStep baseTasks) (.done .serialDriverTask)
      (driverStart ++ [receives (putBufMessage [] 0)] ++ [[]]) p ∧
        ¬ ReplyDiscipline (driverStart ++ [receives (putBufMessage [] 0)] ++ [[]]).flatten p) ∧
    ∀ received, ⟨.receive (BitVec.ofNat 32 maxMessageLen), received⟩ ∈
      (driverStart ++ [receives (putBufMessage [] 0)]).flatten →
        Receipt 0x2000 (putBufMessage [] 0) received := by
  refine ⟨⟨serialDriverLoop ⟨true, 0, 0⟩, ?_, fun h ↦ ?_⟩, fun received h ↦ driverStart_receives h⟩
  · refine Run.snoc (s := .done (.serialDriver ⟨true, 0, 0⟩)) ?_ (.jump rfl)
    exact driverStart_run.snoc (.call _ _ _)
  · rcases h.settled _ _ rfl with hnone | ⟨q, hq, -, -, hmissed⟩
    · simp [driverStart, receives, owedAfter, owedNext] at hnone
    · have hkept : q.missed = false := by
        have hq' : ⟨0x2000, (driverReceives 0x2000 (putBufMessage [] 0)).bytes, false, none⟩ = q := by
          simpa [driverStart, receives, owedAfter, owedNext] using hq
        rw [← hq']
      exact absurd (hkept.symm.trans hmissed) (by decide)

end PrjOS
