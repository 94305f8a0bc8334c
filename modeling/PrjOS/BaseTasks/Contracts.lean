import PrjOS.Cli.CommandExecutor
import PrjOS.Syscall.Events

namespace PrjOS

open ByteMemory Program Rendezvous

/-- The kernel below the base tasks, with its return codes. The task ids and the
world around the tasks differ from system to system. -/
def kernelSetting {ι W : Type} (tid : ι → Word) (home : Point → ι)
    (outside : W → (e : Outside) → e.Answer → W → Prop) (change : W → W → Prop)
    (interrupt : W → Word → W → Prop) : Setting ι Outside Point W Outside.Answer where
  tid := tid
  home := home
  tooSmall := errReceiveBufferTooSmall
  incomplete := errSendIncomplete
  noTask := errSendTaskidNotfound
  replyError := errReplyError
  notBlocked := errReplyNotReplyBlocked
  badEvent := errAwaiteventBadEventId
  happened := errAwaiteventVolatileInBuffer
  validEvent event := event.toNat < eventsNumTypes
  outside := outside
  change := change
  interrupt := interrupt

/-- Where the serving driver is. `parked` is the reader that it keeps waiting,
or 0. -/
inductive DriverPhase
  | idle (parked : Word) (client : Option Word)
  | asked (reader parked : Word)
  | notified (notifier parked : Word)
  | checking (parked : Word)
  | handing (reader ch parked : Word)
  deriving DecidableEq

inductive DriverMessage : List Byte → Prop
  | getChar : DriverMessage (wordBytes messageTypeGetChar)
  | characterReceived : DriverMessage (wordBytes messageTypeCharacterReceived)
  | output (str : List Byte) (len : BitVec 16) : DriverMessage (putBufMessage str len)

def DriverPhase.pre : DriverPhase → BaseCall → Prop
  | idle _ _, .receive room => room = BitVec.ofNat 32 maxMessageLen
  | idle _ client, .reply target _ _ => client = some target
  | idle _ client, .outside (.putCharBlocking _) => client ≠ none
  | idle _ client, .outside (.stray _) => client ≠ none
  | asked _ _, .outside .getCharNonBlocking => True
  | notified notifier _, .reply target _ _ => target = notifier
  | checking _, .outside .getCharNonBlocking => True
  | handing reader ch _, .reply target message size =>
    target = reader ∧ message = wordBytes ch ∧ size = 4
  | _, _ => False

def DriverPhase.rely : DriverPhase → (c : BaseCall) → BaseAnswer c → Prop
  | idle _ _, .receive _, received => ∃ sender message, DriverMessage message ∧ sender ≠ 0 ∧
      received = driverReceives sender message
  | _, _, _ => True

def DriverPhase.received (parked : Word) (received : Incoming) : DriverPhase :=
  if wordAt received.bytes 0 = messageTypeCharacterReceived then notified received.sender parked
  else if wordAt received.bytes 0 = messageTypeGetChar then asked received.sender parked
  else idle parked (some received.sender)

def DriverPhase.next : DriverPhase → (c : BaseCall) → BaseAnswer c → DriverPhase
  | idle parked _, .receive _, received => .received parked received
  | idle parked _, .reply .., _ => idle parked none
  | asked reader parked, .outside .getCharNonBlocking, ch =>
    if ch = -1 then if parked = 0 then idle reader none else idle parked (some reader)
    else handing reader ch parked
  | notified _ parked, .reply .., _ => if parked ≠ 0 then checking parked else idle 0 none
  | checking parked, .outside .getCharNonBlocking, ch =>
    if ch = -1 then idle parked none else handing parked ch 0
  | handing _ _ parked, .reply .., _ => idle parked none
  | phase, _, _ => phase

def driverContract : Contract BaseCall BaseAnswer DriverPhase :=
  ⟨DriverPhase.pre, DriverPhase.rely, DriverPhase.next⟩

theorem driver_sends_nothing {d : DriverPhase} {target : Word} {message : List Byte} {room : Word} :
    ¬ d.pre (.send target message room) := by
  cases d <;> exact id

def driverAt : Point → DriverPhase → Prop
  | .serialDriver data, phase =>
    data.keepRunning = true ∧ ∃ client, phase = .idle data.blockedCharTid client
  | _, _ => False

section Driver

variable {data : SerialDriverData} {post : SerialDriverData → DriverPhase → Prop}

def DriverIdle (data : SerialDriverData) (phase : DriverPhase) : Prop :=
  data.keepRunning = true ∧ ∃ client, phase = .idle data.blockedCharTid client

theorem characterReceived_follows (hrun : data.keepRunning = true) (notifier : Word) :
    (characterReceived data notifier).Meets driverContract DriverIdle
      (.notified notifier data.blockedCharTid) := by
  simp only [characterReceived, prjReply_bind, getCharNonBlocking_bind, pure_eq_done]
  refine ⟨rfl, fun _ _ ↦ ?_⟩
  change Prog.Meets _ _ _ (if data.blockedCharTid ≠ 0 then _ else _)
  split_ifs with hblocked
  · refine ⟨trivial, fun ch _ ↦ ?_⟩
    change Prog.Meets _ _ (if ch ≠ -1 then _ else _) (if ch = -1 then _ else _)
    by_cases hch : ch = -1
    · rw [if_neg (not_not.mpr hch), if_pos hch]
      exact ⟨hrun, none, rfl⟩
    · rw [if_pos hch, if_neg hch]
      exact ⟨⟨rfl, rfl, rfl⟩, fun _ _ ↦ ⟨hrun, none, rfl⟩⟩
  · exact ⟨hrun, none, by rw [not_not.mp hblocked]⟩

theorem getChar_follows (hrun : data.keepRunning = true) (reader : Word) :
    (getChar data reader).Meets driverContract DriverIdle (.asked reader data.blockedCharTid) := by
  simp only [getChar, prjReply_bind, getCharNonBlocking_bind, pure_eq_done]
  refine ⟨trivial, fun ch _ ↦ ?_⟩
  change Prog.Meets _ _ (if ch = -1 then _ else _) (if ch = -1 then _ else _)
  split_ifs with hch hfree
  · exact ⟨hrun, none, rfl⟩
  · exact ⟨rfl, fun _ _ ↦ ⟨hrun, none, rfl⟩⟩
  · exact ⟨⟨rfl, rfl, rfl⟩, fun _ _ ↦ ⟨hrun, none, rfl⟩⟩

theorem messageByte_follows {α : Type} {post : α → DriverPhase → Prop} {message : List Byte}
    {i : Nat} {parked client : Word} {f : Byte → BaseProg α}
    (h : ∀ b, (f b).Meets driverContract post (.idle parked (some client))) :
    (messageByte message i >>= f).Meets driverContract post (.idle parked (some client)) := by
  by_cases hi : i < message.length
  · rw [messageByte_of_lt hi]
    exact h _
  · rw [messageByte_of_le (Nat.le_of_not_lt hi)]
    exact ⟨Option.some_ne_none client, fun b _ ↦ h b⟩

theorem putChars_follows {message : List Byte} {post : Unit → DriverPhase → Prop}
    {parked client : Word} (hpost : post () (.idle parked (some client))) (i n : Nat) :
    (putChars message i n).Meets driverContract post (.idle parked (some client)) := by
  induction n generalizing i with
  | zero => exact hpost
  | succ n ih =>
    rw [putChars]
    simp only [putCharBlocking_bind]
    exact messageByte_follows fun b ↦ ⟨Option.some_ne_none client, fun _ _ ↦ ih (i + 1)⟩

theorem sendMessage_follows (hrun : data.keepRunning = true) (client : Word) (message : List Byte)
    (size : Word) : (sendMessage data client message size).Meets driverContract DriverIdle
      (.idle data.blockedCharTid (some client)) := by
  unfold sendMessage
  split_ifs with hsize
  · exact ⟨hrun, some client, rfl⟩
  rw [messageHalf, Program.bind_assoc]
  refine messageByte_follows fun b₀ ↦ ?_
  rw [Program.bind_assoc]
  refine messageByte_follows fun b₁ ↦ ?_
  simp only [pure_eq_done, done_bind, prjReply_bind]
  rw [meets_bind]
  refine putChars_follows ?_ _ _
  exact ⟨rfl, fun _ _ ↦ ⟨hrun, none, rfl⟩⟩

theorem DriverMessage.four_le {message : List Byte} (h : DriverMessage message) :
    4 ≤ message.length := by
  cases h with
  | getChar => exact le_refl 4
  | characterReceived => exact le_refl 4
  | output str len =>
    simp only [putBufMessage, List.length_append, length_wordBytes]
    omega

theorem DriverMessage.wordAt {message : List Byte} (h : DriverMessage message) :
    wordAt message 0 = messageTypeGetChar ∨ wordAt message 0 = messageTypeCharacterReceived ∨
      wordAt message 0 = messageTypeSendMessage := by
  cases h with
  | getChar => exact .inl rfl
  | characterReceived => exact .inr (.inl rfl)
  | output str len =>
    refine .inr (.inr ?_)
    rw [putBufMessage, List.append_assoc, wordAt_wordBytes]

theorem processMessage_follows {message : List Byte} (h : DriverMessage message)
    (hrun : data.keepRunning = true) (sender : Word) :
    (processMessage data sender (driverReceives sender message).bytes
      (driverReceives sender message).size).Meets driverContract DriverIdle
        (.received data.blockedCharTid (driverReceives sender message)) := by
  have hsize : ¬ (driverReceives sender message).size < 4 := by
    intro hlt
    have hshort := (driverReceives_size_lt sender message (n := 4) (by omega)).mp hlt
    have hfour := h.four_le
    omega
  have hbytes := (le_length_driverReceives sender message (n := 4) (by omega)).mpr h.four_le
  rw [processMessage, if_neg hsize, messageWord_of_le hbytes, done_bind, DriverPhase.received,
    driverReceives_sender]
  have htype := h.wordAt
  rw [← driverReceives_wordAt sender] at htype
  split_ifs with hreceived hget hnonblocking hsend hquit
  · exact characterReceived_follows hrun sender
  · exact getChar_follows hrun sender
  · rw [hnonblocking] at htype
    exact absurd htype (by decide)
  · exact sendMessage_follows hrun sender _ _
  · rw [hquit] at htype
    exact absurd htype (by decide)
  · rcases htype with htype | htype | htype
    · exact absurd htype hget
    · exact absurd htype hreceived
    · exact absurd htype hsend

theorem driverContract_kept : driverContract.Kept driverAt baseTasks := by
  intro pt phase p h hb
  cases pt with
  | serialDriver data =>
    obtain ⟨hrun, client, rfl⟩ := h
    obtain rfl : serialDriverLoop data = p := by
      rw [baseTasks, if_pos hrun] at hb
      exact Option.some.inj hb
    simp only [serialDriverLoop, prjReceive_bind, pure_eq_done]
    refine ⟨rfl, fun received hreceived ↦ ?_⟩
    obtain ⟨sender, message, hmessage, -, rfl⟩ := hreceived
    have hne : message ≠ [] :=
      List.ne_nil_of_length_pos (Nat.lt_of_lt_of_le (by decide) hmessage.four_le)
    beta_reduce
    rw [if_pos ((driverReceives_size_pos sender message).mpr hne), meets_bind]
    exact (processMessage_follows hmessage hrun sender).mono fun _ _ h ↦ h
  | _ => exact h.elim

/-- The reader that the waiting driver keeps is the one of its contract: an
output message without characters would bring it back to its loop. -/
theorem parked_of_follows {parked : Word} {client : Option Word}
    (h : (serialDriverLoop data).Meets driverContract driverAt (.idle parked client)) :
    data.blockedCharTid = parked := by
  have hnext := h.2 (driverReceives 1 (putBufMessage [] 0))
    ⟨1, _, .output [] 0, by decide, rfl⟩
  have hat : driverAt (.serialDriver data) (.idle parked (some 1)) := hnext
  obtain ⟨-, client, he⟩ := hat
  injection he with he
  exact he.symm

/-- A reader that the driver has not answered is the one with the id
`readerTid`, and it waits. -/
def DriverPhase.Serves (readerTid : Word) (waits : Prop) : DriverPhase → Prop
  | .idle parked client => (parked = 0 ∨ parked = readerTid ∧ waits) ∧ client ≠ some readerTid
  | .asked reader parked => reader = readerTid ∧ parked = 0 ∧ waits
  | .notified notifier parked => notifier ≠ readerTid ∧ (parked = 0 ∨ parked = readerTid ∧ waits)
  | .checking parked => parked = readerTid ∧ waits
  | .handing reader _ parked => reader = readerTid ∧ parked = 0 ∧ waits

/-- The characters that the courier passes on: `(int8_t)ch > 0`. -/
def passesOn (ch : Word) : Bool := 0 < (byteOf ch 0).toInt

def DriverPhase.carries : DriverPhase → List Word
  | .handing _ ch _ => [ch].filter passesOn
  | _ => []

section Serves

variable {readerTid : Word} {waits waits' : Prop} {d : DriverPhase}

theorem DriverPhase.Serves.mono (h : d.Serves readerTid waits) (hw : waits → waits') :
    d.Serves readerTid waits' := by
  cases d with
  | idle parked client => exact ⟨h.1.imp_right (And.imp_right hw), h.2⟩
  | asked reader parked => exact ⟨h.1, h.2.1, hw h.2.2⟩
  | notified notifier parked => exact ⟨h.1, h.2.imp_right (And.imp_right hw)⟩
  | checking parked => exact ⟨h.1, hw h.2⟩
  | handing reader ch parked => exact ⟨h.1, h.2.1, hw h.2.2⟩

theorem DriverPhase.Serves.next_getCharNonBlocking (h : d.Serves readerTid waits)
    (hpre : d.pre (.outside .getCharNonBlocking)) (ch : Word) :
    waits ∧ d.carries = [] ∧ d.next (.outside .getCharNonBlocking) ch =
      if ch = -1 then .idle readerTid none else .handing readerTid ch 0 := by
  cases d with
  | asked reader parked =>
    obtain ⟨rfl, rfl, hwaits⟩ := h
    exact ⟨hwaits, rfl, rfl⟩
  | checking parked =>
    obtain ⟨rfl, hwaits⟩ := h
    exact ⟨hwaits, rfl, rfl⟩
  | _ => exact hpre.elim

theorem DriverPhase.Serves.answers (h : d.Serves readerTid waits) {message : List Byte}
    {size : Word} (hpre : d.pre (.reply readerTid message size)) :
    ∃ ch, d = .handing readerTid ch 0 ∧ message = wordBytes ch ∧ size = 4 ∧ waits := by
  cases d with
  | idle parked client => exact absurd hpre h.2
  | notified notifier parked => exact absurd hpre.symm h.1
  | handing reader ch parked =>
    obtain ⟨rfl, rfl, hwaits⟩ := h
    exact ⟨ch, rfl, hpre.2.1, hpre.2.2, hwaits⟩
  | _ => exact hpre.elim

end Serves

end Driver

inductive PollingPhase
  | calm
  | woken
  deriving DecidableEq

def pollingContract (driverTid eventId : Word) : Contract BaseCall BaseAnswer PollingPhase where
  pre
    | .calm, .awaitEvent event => event = eventId
    | .woken, .send target message _ =>
      target = driverTid ∧ message = wordBytes messageTypeCharacterReceived
    | _, _ => False
  rely _ _ _ := True
  next
    | .calm, .awaitEvent _, _ => .woken
    | .woken, .send .., _ => .calm
    | phase, _, _ => phase

def pollingAt (driverTid eventId : Word) : Point → PollingPhase → Prop
  | .polling parentTid event, phase => phase = .calm ∧ parentTid = driverTid ∧ event = eventId
  | _, _ => False

theorem pollingContract_kept (driverTid eventId : Word) :
    (pollingContract driverTid eventId).Kept (pollingAt driverTid eventId) baseTasks := by
  intro pt phase p h hb
  cases pt with
  | polling parentTid event =>
    obtain ⟨rfl, rfl, rfl⟩ := h
    obtain rfl := Option.some.inj hb
    simp only [pollingLoop, prjAwaitEvent_bind, prjSend_bind, pure_eq_done]
    exact ⟨rfl, fun _ _ ↦ ⟨⟨rfl, rfl⟩, fun _ _ ↦ ⟨rfl, rfl, rfl⟩⟩⟩
  | _ => exact h.elim

def readerContract (driverTid : Word) : Contract BaseCall BaseAnswer Unit where
  pre _
    | .outside (.unset _) => True
    | .send target message room =>
      target = driverTid ∧ message = wordBytes messageTypeGetChar ∧ room = 4
    | _ => False
  rely _ _ _ := True
  next _ _ _ := ()

def readerAt (driverTid : Word) : Point → Unit → Prop
  | .reader serialTid _, _ => serialTid = driverTid
  | _, _ => False

theorem readerContract_kept {driverTid : Word} (hne : driverTid ≠ 0) :
    (readerContract driverTid).Kept (readerAt driverTid) baseTasks := by
  intro pt u p h hb
  cases pt with
  | reader serialTid ch =>
    obtain rfl : serialTid = driverTid := h
    obtain rfl := Option.some.inj hb
    rw [readerLoop, meets_bind, prjGetCh, if_neg hne]
    simp only [unset_bind, prjSend_bind, pure_eq_done]
    refine ⟨trivial, fun _ _ ↦ ⟨⟨rfl, rfl, rfl⟩, fun sent _ ↦ ?_⟩⟩
    beta_reduce
    split_ifs
    · rfl
    · rfl
  | _ => exact h.elim

inductive CourierPhase
  | asking
  | holding (ch : Word)
  deriving DecidableEq

def CourierPhase.read (ch : Word) : CourierPhase := if passesOn ch then holding ch else asking

def courierContract (driverTid uiTid : Word) : Contract BaseCall BaseAnswer CourierPhase where
  pre
    | .asking, .outside (.unset _) => True
    | .asking, .send target message room =>
      target = driverTid ∧ message = wordBytes messageTypeGetChar ∧ room = 4
    | .holding ch, .send target message _ => target = uiTid ∧ message.length = 8 ∧
      messageType message = serialUiMessageTypeCharacterReceived ∧ messageData message = ch
    | _, _ => False
  rely
    | .asking, .send .., returned => ∃ ch, returned = ⟨4, wordBytes ch⟩
    | _, _, _ => True
  next
    | .asking, .send .., returned => .read (wordAt returned.bytes 0)
    | .holding _, .send .., _ => .asking
    | phase, _, _ => phase

def courierAt (driverTid uiTid : Word) : Point → CourierPhase → Prop
  | .courier c, phase => phase = .asking ∧ c.serialDriverTid = driverTid ∧ c.uiTaskTid = uiTid ∧
    c.message.length = 8 ∧ messageType c.message = serialUiMessageTypeCharacterReceived
  | _, _ => False

theorem length_withData {message : List Byte} (h : message.length = 8) (data : Word) :
    (withData message data).length = 8 := by
  simp [withData, h]

theorem messageType_withData {message : List Byte} (h : message.length = 8) (data : Word) :
    messageType (withData message data) = messageType message := by
  simp [messageType, withData, h]

theorem messageData_withData {message : List Byte} (h : message.length = 8) (data : Word) :
    messageData (withData message data) = data := by
  have htake : (message.take 4).length = 4 := by simp [h]
  have hword := wordAt_append (message.take 4) (wordBytes data) 0
  rw [htake, wordAt_wordBytes_self] at hword
  exact hword

theorem courierContract_kept {driverTid : Word} (hne : driverTid ≠ 0) (uiTid : Word) :
    (courierContract driverTid uiTid).Kept (courierAt driverTid uiTid) baseTasks := by
  intro pt phase p h hb
  cases pt with
  | courier c =>
    obtain ⟨rfl, rfl, rfl, hlen, htype⟩ := h
    obtain rfl := Option.some.inj hb
    rw [courierLoop, meets_bind, prjGetCh, if_neg hne]
    simp only [unset_bind, prjSend_bind, pure_eq_done]
    refine ⟨trivial, fun ch _ ↦ ⟨⟨rfl, rfl, rfl⟩, fun sent hsent ↦ ?_⟩⟩
    obtain ⟨v, rfl⟩ := hsent
    beta_reduce
    have hread : wordAt (overwrite (List.ofFn ch) (wordBytes v)) 0 = v := wordAt_wordBytes v _
    have hsize : ¬ (4 : Word) < 1 := by decide
    rw [if_neg hsize, hread]
    have hnext : (courierContract c.serialDriverTid c.uiTaskTid).next .asking
        (.send c.serialDriverTid (wordBytes messageTypeGetChar) 4) ⟨4, wordBytes v⟩ = .read v :=
      congrArg CourierPhase.read (wordAt_wordBytes_self v)
    change Prog.Meets _ _ (if _ then _ else _) ((courierContract _ _).next .asking
      (.send c.serialDriverTid (wordBytes messageTypeGetChar) 4) ⟨4, wordBytes v⟩)
    rw [hnext]
    by_cases hpass : 0 < (byteOf v 0).toInt
    · have hpos : (0 : Word) < 1 := by decide
      have hphase : CourierPhase.read v = .holding v := if_pos (decide_eq_true hpass)
      rw [if_pos ⟨hpos, hpass⟩, hphase]
      refine ⟨⟨rfl, length_withData hlen v, ?_, messageData_withData hlen v⟩, fun _ _ ↦ ?_⟩
      · exact (messageType_withData hlen v).trans htype
      · exact ⟨rfl, rfl, rfl, length_withData hlen v, (messageType_withData hlen v).trans htype⟩
    · have hphase : CourierPhase.read v = .asking := if_neg fun h ↦ hpass (of_decide_eq_true h)
      rw [if_neg fun h ↦ hpass h.2, hphase]
      exact ⟨rfl, rfl, rfl, hlen, htype⟩
  | _ => exact h.elim

/-- Where the user interface is. `subscriber` waits for a command, or is 0, and
`client` is the sender of the message at hand while it may be replied to. -/
inductive UIPhase
  | idle (subscriber : Word) (client : Option Word)
  deriving DecidableEq

def uiReceives (sender : Word) (message : List Byte) : Incoming :=
  .of errReceiveBufferTooSmall sender serialUIMessageSize message

theorem uiReceives_bytes {sender : Word} {message : List Byte} (h : message.length = 8) :
    (uiReceives sender message).bytes = message :=
  List.take_of_length_le (by rw [h]; decide)

theorem uiReceives_size {sender : Word} {message : List Byte} (h : message.length = 8) :
    (uiReceives sender message).size = 8 := by
  simp only [uiReceives, Incoming.of, h]
  decide

def UIPhase.received (subscriber : Word) (received : Incoming) : UIPhase :=
  if messageType received.bytes = serialUiMessageTypeCommandSubscribe ∧ subscriber = 0 then
    idle received.sender none
  else idle subscriber (some received.sender)

def uiContract (driverTid : Word) : Contract BaseCall BaseAnswer UIPhase where
  pre
    | .idle _ _, .receive room => room = serialUIMessageSize
    | .idle subscriber client, .reply target _ _ =>
      client = some target ∨ client = none ∧ target = subscriber ∧ subscriber ≠ 0
    | .idle _ _, .send target message _ =>
      target = driverTid ∧ ∃ str len, message = putBufMessage str len
    | _, _ => False
  rely
    | _, .receive _, received =>
      ∃ sender message, message.length = 8 ∧ received = uiReceives sender message
    | _, _, _ => True
  next
    | .idle subscriber _, .receive _, received => .received subscriber received
    | .idle subscriber (some _), .reply .., _ => .idle subscriber none
    | .idle _ none, .reply .., _ => .idle 0 none
    | phase, _, _ => phase

def uiAt (driverTid : Word) : Point → UIPhase → Prop
  | .serialUI ui, phase => ui.serialDriverTid = driverTid ∧ ui.message.length = 8 ∧
    ∃ client, phase = .idle ui.commandExecutorTid client
  | _, _ => False

section UI

variable {driverTid : Word} {ui : SerialUI} {phase : UIPhase}

theorem prjPutStr_follows {α : Type} {post : α → UIPhase → Prop} {str : List Byte}
    {f : Word → BaseProg α} (h : ∀ x, (f x).Meets (uiContract driverTid) post phase) :
    (prjPutStr str driverTid >>= f).Meets (uiContract driverTid) post phase := by
  obtain ⟨subscriber, client⟩ := phase
  unfold prjPutStr
  dsimp only
  split_ifs with hlen
  · exact h _
  unfold prjPutBuf
  split_ifs with htid
  · exact h _
  · exact ⟨⟨rfl, _, _, rfl⟩, fun _ _ ↦ h _⟩

theorem redraw_follows {α : Type} {post : α → UIPhase → Prop} {f : Unit → BaseProg α}
    (h : (f ()).Meets (uiContract ui.serialDriverTid) post phase) :
    (ui.redraw >>= f).Meets (uiContract ui.serialDriverTid) post phase := by
  rw [SerialUI.redraw, Program.bind_assoc]
  refine prjPutStr_follows fun _ ↦ ?_
  rw [Program.bind_assoc]
  exact prjPutStr_follows fun _ ↦ h

def UIIdle (driverTid : Word) (ui : SerialUI) (phase : UIPhase) : Prop :=
  ui.serialDriverTid = driverTid ∧ ui.message.length = 8 ∧
    ∃ client, phase = .idle ui.commandExecutorTid client

theorem enter_follows (hlen : ui.message.length = 8) :
    ui.enter.Meets (uiContract ui.serialDriverTid) (UIIdle ui.serialDriverTid)
      (.idle ui.commandExecutorTid none) := by
  unfold SerialUI.enter
  refine prjPutStr_follows fun _ ↦ ?_
  dsimp only
  split_ifs with hsubscriber
  · exact ⟨.inr ⟨rfl, rfl, hsubscriber⟩, fun _ _ ↦ ⟨rfl, hlen, none, rfl⟩⟩
  · exact prjPutStr_follows fun _ ↦ ⟨rfl, hlen, none, rfl⟩

theorem character_follows (hlen : ui.message.length = 8) (ch : Byte) :
    (ui.character ch).Meets (uiContract ui.serialDriverTid) (UIIdle ui.serialDriverTid)
      (.idle ui.commandExecutorTid none) := by
  unfold SerialUI.character
  split_ifs
  · have hadd : (ui.addchar ch).serialDriverTid = ui.serialDriverTid ∧
        (ui.addchar ch).message = ui.message ∧
          (ui.addchar ch).commandExecutorTid = ui.commandExecutorTid := by
      unfold SerialUI.addchar
      split_ifs <;> exact ⟨rfl, rfl, rfl⟩
    rw [← hadd.1, ← hadd.2.2]
    exact redraw_follows ⟨rfl, by rw [hadd.2.1]; exact hlen, none, rfl⟩
  · have hback : ui.backspace.serialDriverTid = ui.serialDriverTid ∧
        ui.backspace.message = ui.message ∧
          ui.backspace.commandExecutorTid = ui.commandExecutorTid := by
      unfold SerialUI.backspace
      split_ifs <;> exact ⟨rfl, rfl, rfl⟩
    rw [← hback.1, ← hback.2.2]
    have hlen' : ui.backspace.shortenLine.message.length = 8 :=
      (congrArg List.length hback.2.1).trans hlen
    have hidle : UIIdle ui.backspace.serialDriverTid ui.backspace.shortenLine
      (.idle ui.backspace.commandExecutorTid none) := ⟨rfl, hlen', none, rfl⟩
    exact redraw_follows (@redraw_follows ui.backspace.shortenLine _ _ _ _ hidle)
  · exact enter_follows hlen
  · exact ⟨rfl, hlen, none, rfl⟩

theorem handle_follows {sender : Word} (hlen : ui.message.length = 8) {subscriber : Word}
    (hsubscriber : ui.commandExecutorTid = subscriber) (received : Incoming)
    (hsender : received.sender = sender) (hbytes : received.bytes = ui.message) :
    (ui.handle sender).Meets (uiContract ui.serialDriverTid) (UIIdle ui.serialDriverTid)
      (.received subscriber received) := by
  subst hsubscriber hsender
  unfold SerialUI.handle UIPhase.received
  rw [hbytes]
  by_cases hsubscribe : messageType ui.message = serialUiMessageTypeCommandSubscribe
  · by_cases hfree : ui.commandExecutorTid = 0
    · rw [if_pos hsubscribe, if_pos hfree, if_pos ⟨hsubscribe, hfree⟩]
      exact ⟨rfl, hlen, none, rfl⟩
    · rw [if_pos hsubscribe, if_neg hfree, if_neg fun h ↦ hfree h.2]
      exact ⟨.inl rfl, fun _ _ ↦ ⟨rfl, hlen, none, rfl⟩⟩
  have hnot : ¬ (messageType ui.message = serialUiMessageTypeCommandSubscribe ∧
      ui.commandExecutorTid = 0) := fun h ↦ hsubscribe h.1
  rw [if_neg hsubscribe, if_neg hnot]
  split_ifs
  · refine redraw_follows ?_
    exact ⟨.inl rfl, fun _ _ ↦ ⟨rfl, hlen, none, rfl⟩⟩
  · exact ⟨.inl rfl, fun _ _ ↦ character_follows hlen _⟩
  · exact ⟨rfl, hlen, _, rfl⟩

theorem uiContract_kept (driverTid : Word) :
    (uiContract driverTid).Kept (uiAt driverTid) baseTasks := by
  intro pt phase p h hb
  cases pt with
  | serialUI ui =>
    obtain ⟨rfl, hlen, client, rfl⟩ := h
    obtain rfl := Option.some.inj hb
    simp only [serialUILoop, prjReceive_bind, pure_eq_done]
    refine ⟨rfl, fun received hreceived ↦ ?_⟩
    obtain ⟨sender, message, hmessage, rfl⟩ := hreceived
    have hsize : 0 < (uiReceives sender message).size := by
      simp only [uiReceives, Incoming.of, hmessage]
      decide
    have hall : (uiReceives sender message).bytes = message :=
      List.take_of_length_le (by rw [hmessage]; decide)
    have hover : overwrite ui.message (uiReceives sender message).bytes = message := by
      rw [hall, overwrite, List.drop_of_length_le (by omega), List.append_nil]
    beta_reduce
    rw [if_pos hsize, hover, meets_bind]
    have hhandle := @handle_follows { ui with message := message } sender hmessage _ rfl
      (uiReceives sender message) rfl hall
    exact hhandle.mono fun _ _ h ↦ h
  | _ => exact h.elim

end UI

/-- Any other client: output to the driver, and messages to the user interface
that are no characters. -/
def applicationContract (driverTid uiTid : Word) : Contract BaseCall BaseAnswer Unit where
  pre _
    | .outside .request => True
    | .outside (.unset _) => True
    | .send target message _ => target = driverTid ∧ (∃ str len, message = putBufMessage str len) ∨
      target = uiTid ∧ message.length = 8 ∧
        messageType message ≠ serialUiMessageTypeCharacterReceived
    | _ => False
  rely _ _ _ := True
  next _ _ _ := ()

def applicationAt (driverTid uiTid : Word) : Point → Unit → Prop
  | .application serialDriverTid serialUITid, _ =>
    serialDriverTid = driverTid ∧ serialUITid = uiTid
  | _, _ => False

theorem messageType_set {n : Nat} (bytes : Fin (n + 1) → Byte) (b : Byte) :
    messageType ((List.ofFn bytes).set 0 b) = b := by
  rw [List.ofFn_succ]
  rfl

theorem applicationContract_kept (driverTid uiTid : Word) :
    (applicationContract driverTid uiTid).Kept (applicationAt driverTid uiTid) baseTasks := by
  intro pt u p h hb
  cases pt with
  | application serialDriverTid serialUITid =>
    obtain ⟨rfl, rfl⟩ := h
    obtain rfl := Option.some.inj hb
    refine ⟨trivial, fun request _ ↦ ?_⟩
    cases request with
    | output str len =>
      change Prog.Meets _ _ (prjPutBuf str len serialDriverTid >>= _) _
      unfold prjPutBuf
      split_ifs
      · exact ⟨rfl, rfl⟩
      · exact ⟨.inl ⟨rfl, _, _, rfl⟩, fun _ _ ↦ ⟨rfl, rfl⟩⟩
    | redraw =>
      refine ⟨trivial, fun bytes _ ↦ ⟨.inr ⟨rfl, ?_, ?_⟩, fun _ _ ↦ ⟨rfl, rfl⟩⟩⟩
      · rw [List.length_set, List.length_ofFn]
      · rw [messageType_set]
        decide
    | subscribe =>
      refine ⟨trivial, fun bytes _ ↦ ⟨.inr ⟨rfl, ?_, ?_⟩, fun _ _ ↦ ⟨rfl, rfl⟩⟩⟩
      · rw [List.length_set, List.length_ofFn]
      · rw [messageType_set]
        decide
  | _ => exact h.elim

end PrjOS
