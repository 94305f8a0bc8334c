import PrjOS.Properties.OutputRoundTrip
import PrjOS.BaseTasks.Contracts

namespace PrjOS

open ByteMemory Program Rendezvous Transition

/-- What a character other than the carriage return does to the content of a
line. -/
def edit (content : List Byte) (ch : Byte) : List Byte :=
  if 32 ≤ ch ∧ ch ≤ 126 then
    if content.length < 78 then content ++ [ch] else content
  else if ch = 8 then content.dropLast
  else content

def sinceReturn (chs : List Byte) : List Byte := (chs.reverse.takeWhile (· ≠ 13)).reverse

def typed (chs : List Byte) : List Byte := (sinceReturn chs).foldl edit []

theorem typed_append (chs : List Byte) (ch : Byte) :
    typed (chs ++ [ch]) = if ch = 13 then [] else edit (typed chs) ch := by
  unfold typed sinceReturn
  rw [List.reverse_append, List.reverse_singleton, List.singleton_append]
  split_ifs with h
  · rw [List.takeWhile_cons_of_neg (by simp [h])]
    rfl
  · rw [List.takeWhile_cons_of_pos (by simpa using h), List.reverse_cons, List.foldl_append]
    rfl

/-- What the user interface is for: it collects a line and hands it to the task
that asked for it. A `subscriber` of 0 is none. -/
structure LineEditor where
  content : List Byte
  subscriber : Word

inductive UIInput
  | character (ch : Byte)
  | subscribe (sender : Word)
  | other
  deriving DecidableEq

/-- The editor after an input, and the answers to subscriptions. -/
def LineEditor.next (e : LineEditor) : UIInput → LineEditor × List (Word × List Byte)
  | .character ch =>
    if ch = 13 then
      (⟨[], 0⟩, if e.subscriber = 0 then [] else [(e.subscriber, e.content ++ [0])])
    else (⟨edit e.content ch, e.subscriber⟩, [])
  | .subscribe sender =>
    if e.subscriber = 0 then (⟨e.content, sender⟩, []) else (e, [(sender, [0])])
  | .other => (e, [])

structure UiRepresents (ui : SerialUI) (e : LineEditor) : Prop where
  line : ui.line = 62 :: (e.content ++ List.replicate (79 - e.content.length) 0)
  cursor : ui.cursor = e.content.length + 1
  short : e.content.length ≤ 78
  printable : ∀ b ∈ e.content, 32 ≤ b ∧ b ≤ 126
  command : ui.command.length = maxLineLength
  subscriber : ui.commandExecutorTid = e.subscriber

section Buffer

variable {ui : SerialUI} {e : LineEditor}

theorem UiRepresents.clearLine (h : UiRepresents ui e) :
    UiRepresents ui.clearLine ⟨[], e.subscriber⟩ :=
  ⟨rfl, rfl, Nat.zero_le _, by simp, h.command, h.subscriber⟩

/-- The end of the line is free, and the terminator moves one place on. -/
theorem UiRepresents.addchar (h : UiRepresents ui e) {ch : Byte} (hch : 32 ≤ ch ∧ ch ≤ 126) :
    UiRepresents (ui.addchar ch) ⟨edit e.content ch, e.subscriber⟩ := by
  have hmax : maxLineLength = 80 := rfl
  have hcursor := h.cursor
  unfold SerialUI.addchar edit
  rw [if_pos hch]
  split_ifs with hroom hshort hshort
  · refine ⟨?_, ?_, ?_, ?_, h.command, h.subscriber⟩
    · have hzeros : List.replicate (79 - e.content.length) (0 : Byte) =
          0 :: 0 :: List.replicate (77 - e.content.length) 0 := by
        have hcount : 79 - e.content.length = 77 - e.content.length + 1 + 1 := by omega
        rw [hcount, List.replicate_succ, List.replicate_succ]
      have hrest : List.replicate (79 - (e.content ++ [ch]).length) (0 : Byte) =
          0 :: List.replicate (77 - e.content.length) 0 := by
        have hcount : 79 - (e.content ++ [ch]).length = 77 - e.content.length + 1 := by
          rw [List.length_append, List.length_singleton]
          omega
        rw [hcount, List.replicate_succ]
      rw [h.line, hzeros, hrest, hcursor]
      simp
    · rw [List.length_append, List.length_singleton, ← h.cursor]
    · rw [List.length_append, List.length_singleton]
      omega
    · intro b hb
      rcases List.mem_append.mp hb with hb | hb
      · exact h.printable b hb
      · rw [List.mem_singleton.mp hb]
        exact hch
  · omega
  · omega
  · exact h

/-- The space that `backspace` leaves is behind the cursor. -/
theorem UiRepresents.backspace_line (h : UiRepresents ui e) :
    ui.backspace.cursor = e.content.dropLast.length + 1 ∧
      ui.backspace.line.take (e.content.dropLast.length + 1) = 62 :: e.content.dropLast := by
  have hcursor := h.cursor
  have hlength : e.content.dropLast.length = e.content.length - 1 := List.length_dropLast
  have hline : ui.line.take (e.content.dropLast.length + 1) = 62 :: e.content.dropLast := by
    rw [h.line, List.take_succ_cons, List.take_append_of_le_length (by omega), hlength,
      List.dropLast_eq_take]
  unfold SerialUI.backspace
  split_ifs with hpos
  · refine ⟨by dsimp only; omega, ?_⟩
    dsimp only
    rw [List.take_set_of_le (by omega), List.take_set_of_le (by omega), hline]
  · exact ⟨by omega, hline⟩

theorem UiRepresents.backspace (h : UiRepresents ui e) :
    UiRepresents ui.backspace.shortenLine ⟨edit e.content 8, e.subscriber⟩ := by
  have hmax : maxLineLength = 80 := rfl
  have hlength : e.content.dropLast.length = e.content.length - 1 := List.length_dropLast
  have hedit : edit e.content 8 = e.content.dropLast := by
    unfold edit
    rw [if_neg (by decide), if_pos rfl]
  have hshort := h.short
  have hothers : ui.backspace.command = ui.command ∧
      ui.backspace.commandExecutorTid = ui.commandExecutorTid := by
    unfold SerialUI.backspace
    split_ifs <;> exact ⟨rfl, rfl⟩
  obtain ⟨hcursor, hline⟩ := h.backspace_line
  rw [hedit]
  refine ⟨?_, hcursor, ?_, fun b hb ↦ h.printable b (List.mem_of_mem_dropLast hb), ?_, ?_⟩
  · have hcount : maxLineLength - (e.content.dropLast.length + 1) =
        79 - e.content.dropLast.length := by omega
    rw [SerialUI.shortenLine, hcursor, hline, hcount, List.cons_append]
  · dsimp only
    omega
  · exact (congrArg List.length hothers.1).trans h.command
  · exact hothers.2.trans h.subscriber

theorem zero_not_mem_content (h : UiRepresents ui e) : ∀ b ∈ e.content, b ≠ 0 := by
  intro b hb hzero
  have hprintable := (h.printable b hb).1
  rw [hzero] at hprintable
  exact absurd hprintable (by decide)

theorem UiRepresents.getCommand (h : UiRepresents ui e) :
    UiRepresents ui.getCommand e ∧ cString ui.getCommand.command = e.content := by
  have hmax : maxLineLength = 80 := rfl
  have hshort := h.short
  have hzeros : List.replicate (79 - e.content.length) (0 : Byte) =
      0 :: List.replicate (78 - e.content.length) 0 := by
    have hcount : 79 - e.content.length = 78 - e.content.length + 1 := by omega
    rw [hcount, List.replicate_succ]
  have hsrc : cString ((ui.line.drop 1).take maxLineLength) = e.content := by
    rw [h.line, List.drop_succ_cons, List.drop_zero, List.take_of_length_le, hzeros]
    · exact cString_terminated (zero_not_mem_content h) _
    · rw [List.length_append, List.length_replicate]
      omega
  have hcommand : ui.getCommand.command = overwrite ui.command (e.content ++ [0]) := by
    rw [SerialUI.getCommand, hsrc]
  refine ⟨⟨h.line, h.cursor, hshort, h.printable, ?_, h.subscriber⟩, ?_⟩
  · rw [hcommand, overwrite, List.length_append, List.length_drop, h.command, List.length_append,
      List.length_singleton]
    omega
  · rw [hcommand, overwrite, List.append_assoc]
    exact cString_terminated (zero_not_mem_content h) _

theorem UiRepresents.isCommandOk (h : UiRepresents ui e) (command : List Byte) :
    isCommandOk (overwrite command (e.content ++ [0])) = true := by
  have hshort := h.short
  obtain ⟨rest, hrest⟩ : ∃ rest, (overwrite command (e.content ++ [0])).take maxLineLength =
      e.content ++ 0 :: rest := by
    have hcount : maxLineLength - e.content.length = 79 - e.content.length + 1 := by
      have hmax : maxLineLength = 80 := rfl
      omega
    refine ⟨(command.drop (e.content ++ [0]).length).take (79 - e.content.length), ?_⟩
    rw [overwrite, List.append_assoc, List.singleton_append, List.take_append, hcount,
      List.take_succ_cons, List.take_of_length_le]
    have hmax : maxLineLength = 80 := rfl
    omega
  rw [PrjOS.isCommandOk, hrest, cString_terminated (zero_not_mem_content h)]
  simpa using h.printable

end Buffer

section Traces

def replies (t : List BaseEvent) : List (Word × List Byte × Word) := t.filterMap fun e ↦
  match e with
  | ⟨.reply target message size, _⟩ => some (target, message, size)
  | _ => none

def wholeReply (answer : Word × List Byte) : Word × List Byte × Word :=
  (answer.1, answer.2, BitVec.ofNat 32 answer.2.length)

@[simp] theorem replies_append (t t' : List BaseEvent) :
    replies (t ++ t') = replies t ++ replies t' := List.filterMap_append

variable {ui ui' : SerialUI} {e : LineEditor} {t : List BaseEvent}

theorem exec_prjPutStr {str : List Byte} {serialTid x : Word}
    (h : Exec (prjPutStr str serialTid) t x) : replies t = [] := by
  unfold prjPutStr at h
  dsimp only at h
  split_ifs at h with hlen
  · rw [(exec_done.mp h).1]
    rfl
  unfold prjPutBuf at h
  split_ifs at h with htid
  · rw [(exec_done.mp h).1]
    rfl
  · obtain ⟨y, t', rfl, h'⟩ := exec_call.mp h
    rw [(exec_done.mp h').1]
    rfl

theorem exec_redraw {u : Unit} (h : Exec ui.redraw t u) : replies t = [] := by
  unfold SerialUI.redraw at h
  obtain ⟨t₁, t₂, x, rfl, h₁, h₂⟩ := exec_bind.mp h
  obtain ⟨t₃, t₄, y, rfl, h₃, h₄⟩ := exec_bind.mp h₂
  rw [(exec_done.mp h₄).1, replies_append, replies_append, exec_prjPutStr h₁, exec_prjPutStr h₃]
  rfl

theorem exec_enter (h : UiRepresents ui e) (hx : Exec ui.enter t ui') :
    UiRepresents ui' (e.next (.character 13)).1 ∧
      replies t = (e.next (.character 13)).2.map wholeReply := by
  obtain ⟨hget, hcommand⟩ := h.getCommand
  have hclear := hget.clearLine
  have hsend : cString ui.getCommand.clearLine.command ++ [0] = e.content ++ [0] :=
    congrArg (· ++ [0]) hcommand
  unfold SerialUI.enter at hx
  obtain ⟨t₁, t₂, x, rfl, h₁, h₂⟩ := exec_bind.mp hx
  dsimp only at h₂
  rw [hclear.subscriber, hsend] at h₂
  rw [replies_append, exec_prjPutStr h₁, List.nil_append]
  simp only [LineEditor.next, if_true]
  by_cases hnone : e.subscriber = 0
  · rw [if_neg (not_not_intro hnone)] at h₂
    rw [if_pos hnone]
    obtain ⟨t₃, t₄, y, rfl, h₃, h₄⟩ := exec_bind.mp h₂
    obtain ⟨rfl, rfl⟩ := exec_done.mp h₄
    rw [hnone] at hclear
    rw [replies_append, exec_prjPutStr h₃]
    exact ⟨hclear, rfl⟩
  · rw [if_pos hnone] at h₂
    rw [if_neg hnone]
    obtain ⟨y, t₃, rfl, h₃⟩ := exec_call.mp h₂
    obtain ⟨rfl, rfl⟩ := exec_done.mp h₃
    exact ⟨⟨hclear.line, hclear.cursor, hclear.short, hclear.printable, hclear.command, rfl⟩, rfl⟩

theorem exec_character {ch : Byte} (h : UiRepresents ui e) (hx : Exec (ui.character ch) t ui') :
    UiRepresents ui' (e.next (.character ch)).1 ∧
      replies t = (e.next (.character ch)).2.map wholeReply := by
  unfold SerialUI.character at hx
  split_ifs at hx with hprintable hback hreturn
  · obtain ⟨t₁, t₂, u, rfl, h₁, h₂⟩ := exec_bind.mp hx
    obtain ⟨rfl, rfl⟩ := exec_done.mp h₂
    have hne : ch ≠ 13 := by
      rintro rfl
      exact absurd hprintable (by decide)
    rw [replies_append, exec_redraw h₁]
    simp only [LineEditor.next, if_neg hne]
    exact ⟨h.addchar hprintable, rfl⟩
  · obtain ⟨t₁, t₂, u, rfl, h₁, h₂⟩ := exec_bind.mp hx
    obtain ⟨t₃, t₄, v, rfl, h₃, h₄⟩ := exec_bind.mp h₂
    obtain ⟨rfl, rfl⟩ := exec_done.mp h₄
    subst hback
    rw [replies_append, replies_append, exec_redraw h₁, exec_redraw h₃]
    exact ⟨h.backspace, rfl⟩
  · subst hreturn
    exact exec_enter h hx
  · obtain ⟨rfl, rfl⟩ := exec_done.mp hx
    have hedit : edit e.content ch = e.content := by
      unfold edit
      rw [if_neg hprintable, if_neg hback]
    simp only [LineEditor.next, if_neg hreturn, hedit]
    exact ⟨h, rfl⟩

end Traces

/-- A message as `serialUITask` handles it: what Receive delivered, what its
variable holds afterwards, and the calls up to the next head of the loop. -/
structure Handled where
  received : Incoming
  message : List Byte
  trace : List BaseEvent

structure UIStep (ui : SerialUI) (h : Handled) (ui' : SerialUI) : Prop where
  delivered : ∃ sender message, h.received = uiReceives sender message
  variable_eq : h.message = overwrite ui.message h.received.bytes
  exec : Exec (serialUILoop ui) (⟨.receive serialUIMessageSize, h.received⟩ :: h.trace)
    (.serialUI ui')

def Handled.input (h : Handled) : UIInput :=
  if h.received.size = 0 then .other
  else if messageType h.message = serialUiMessageTypeCommandSubscribe then
    .subscribe h.received.sender
  else if messageType h.message = serialUiMessageTypeCharacterReceived then
    .character (byteOf (messageData h.message) 0)
  else .other

/-- The replies apart from the first one to a character or a redraw, which only
lets its sender go on. -/
def Handled.answers (h : Handled) : List (Word × List Byte × Word) :=
  match h.input with
  | .subscribe _ => replies h.trace
  | _ => (replies h.trace).tail

/-- What the switch of the user interface does with a message. -/
theorem exec_handle {ui ui' : SerialUI} {e : LineEditor} {sender : Word} {t : List BaseEvent}
    (h : UiRepresents ui e) (hx : Exec (ui.handle sender) t ui') :
    if messageType ui.message = serialUiMessageTypeCommandSubscribe then
      UiRepresents ui' (e.next (.subscribe sender)).1 ∧
        replies t = (e.next (.subscribe sender)).2.map wholeReply
    else if messageType ui.message = serialUiMessageTypeCharacterReceived then
      UiRepresents ui' (e.next (.character (byteOf (messageData ui.message) 0))).1 ∧
        (replies t).tail =
          (e.next (.character (byteOf (messageData ui.message) 0))).2.map wholeReply
    else UiRepresents ui' e ∧ (replies t).tail = [] := by
  have hne : serialUiMessageTypeCharacterReceived ≠ serialUiMessageTypeRedraw := by decide
  unfold SerialUI.handle at hx
  by_cases hsubscribe : messageType ui.message = serialUiMessageTypeCommandSubscribe
  · rw [if_pos hsubscribe, h.subscriber] at hx
    rw [if_pos hsubscribe]
    simp only [LineEditor.next]
    by_cases hfree : e.subscriber = 0
    · rw [if_pos hfree] at hx ⊢
      obtain ⟨rfl, rfl⟩ := exec_done.mp hx
      exact ⟨⟨h.line, h.cursor, h.short, h.printable, h.command, rfl⟩, rfl⟩
    · rw [if_neg hfree] at hx ⊢
      obtain ⟨y, t', rfl, h'⟩ := exec_call.mp hx
      obtain ⟨rfl, rfl⟩ := exec_done.mp h'
      exact ⟨h, rfl⟩
  rw [if_neg hsubscribe] at hx ⊢
  by_cases hcharacter : messageType ui.message = serialUiMessageTypeCharacterReceived
  · rw [if_neg (hcharacter ▸ hne), if_pos hcharacter] at hx
    rw [if_pos hcharacter]
    obtain ⟨y, t', rfl, h'⟩ := exec_call.mp hx
    exact exec_character h h'
  rw [if_neg hcharacter] at hx ⊢
  by_cases hredraw : messageType ui.message = serialUiMessageTypeRedraw
  · rw [if_pos hredraw] at hx
    obtain ⟨t₁, t₂, u, rfl, h₁, h₂⟩ := exec_bind.mp hx
    obtain ⟨y, t', rfl, h'⟩ := exec_call.mp h₂
    obtain ⟨rfl, rfl⟩ := exec_done.mp h'
    rw [replies_append, exec_redraw h₁]
    exact ⟨h, rfl⟩
  · rw [if_neg hredraw] at hx
    obtain ⟨rfl, rfl⟩ := exec_done.mp hx
    exact ⟨h, rfl⟩

/-- The user interface refines the editor. -/
theorem uiStep_refines {ui ui' : SerialUI} {e : LineEditor} {h : Handled} (hr : UiRepresents ui e)
    (hstep : UIStep ui h ui') :
    UiRepresents ui' (e.next h.input).1 ∧ h.answers = (e.next h.input).2.map wholeReply := by
  obtain ⟨-, hmessage, hexec⟩ := hstep
  rw [serialUILoop, prjReceive_bind, exec_call_cons, ← hmessage] at hexec
  dsimp only at hexec
  have hvar : UiRepresents { ui with message := h.message } e :=
    ⟨hr.line, hr.cursor, hr.short, hr.printable, hr.command, hr.subscriber⟩
  unfold Handled.answers Handled.input
  by_cases hsize : h.received.size = 0
  · rw [if_neg (by rw [hsize]; decide)] at hexec
    obtain ⟨htrace, hui⟩ := exec_done.mp hexec
    obtain rfl := Point.serialUI.inj hui
    rw [if_pos hsize, htrace]
    exact ⟨hvar, rfl⟩
  have hpos : 0 < h.received.size := by bv_omega
  rw [if_pos hpos] at hexec
  obtain ⟨t₁, t₂, ui₁, ht, h₁, h₂⟩ := exec_bind.mp hexec
  obtain ⟨rfl, hui⟩ := exec_done.mp h₂
  obtain rfl := Point.serialUI.inj hui
  rw [List.append_nil] at ht
  rw [if_neg hsize, ht]
  have hhandle := exec_handle hvar h₁
  dsimp only at hhandle
  split_ifs at hhandle ⊢ <;> exact hhandle

section Runs

def editorAfter (hs : List Handled) : LineEditor :=
  hs.foldl (fun e h ↦ (e.next h.input).1) ⟨[], 0⟩

def UIInput.typed : UIInput → Option Byte
  | .character ch => some ch
  | _ => none

def characters (hs : List Handled) : List Byte := hs.filterMap fun h ↦ h.input.typed

def subscriptions (x : Word) (hs : List Handled) : Nat :=
  hs.countP fun h ↦ h.input = .subscribe x

def answersTo (x : Word) (hs : List Handled) : Nat :=
  (hs.flatMap Handled.answers).countP fun answer ↦ answer.1 = x

variable {start ui ui' : SerialUI} {hs : List Handled} {h : Handled} {t : List BaseEvent}
variable {pt : Point}

theorem editorAfter_append (hs : List Handled) (h : Handled) :
    editorAfter (hs ++ [h]) = ((editorAfter hs).next h.input).1 := by
  rw [editorAfter, List.foldl_append]
  rfl

theorem exec_serialUITask (h : Exec serialUITask t pt) :
    ∃ start, pt = .serialUI start ∧ UiRepresents start ⟨[], 0⟩ := by
  unfold serialUITask at h
  simp only [unset_bind, prjReceive_bind, prjCreate_bind, prjSend_bind, prjReply_bind] at h
  obtain ⟨tid, t₁, -, h₁⟩ := exec_call.mp h
  obtain ⟨command, t₂, -, h₂⟩ := exec_call.mp h₁
  obtain ⟨message, t₃, -, h₃⟩ := exec_call.mp h₂
  obtain ⟨received, t₄, -, h₄⟩ := exec_call.mp h₃
  obtain ⟨courier, t₅, -, h₅⟩ := exec_call.mp h₄
  obtain ⟨sent, t₆, -, h₆⟩ := exec_call.mp h₅
  obtain ⟨ret, t₇, -, h₇⟩ := exec_call.mp h₆
  obtain ⟨t₈, t₉, x, -, -, h₈⟩ := exec_bind.mp h₇
  obtain ⟨-, rfl⟩ := exec_done.mp h₈
  exact ⟨_, rfl, rfl, rfl, Nat.zero_le _, by simp, List.length_ofFn, rfl⟩

theorem run_represents (hstart : UiRepresents start ⟨[], 0⟩) (hrun : Run UIStep start hs ui) :
    UiRepresents ui (editorAfter hs) := by
  induction hrun with
  | nil => exact hstart
  | snoc _ hstep ih =>
    rw [editorAfter_append]
    exact (uiStep_refines ih hstep).1

theorem editorAfter_content (hs : List Handled) :
    (editorAfter hs).content = typed (characters hs) := by
  induction hs using List.reverseRecOn with
  | nil => rfl
  | append_singleton hs h ih =>
    rw [editorAfter_append, characters, List.filterMap_append, ← characters]
    cases hinput : h.input with
    | character ch =>
      simp only [List.filterMap_cons, hinput, UIInput.typed, List.filterMap_nil, typed_append,
        LineEditor.next, ← ih]
      split_ifs <;> rfl
    | subscribe sender =>
      simp only [List.filterMap_cons, hinput, UIInput.typed, List.filterMap_nil, List.append_nil,
        LineEditor.next, ← ih]
      split_ifs <;> rfl
    | other =>
      simp only [List.filterMap_cons, hinput, UIInput.typed, List.filterMap_nil, List.append_nil,
        LineEditor.next, ih]

/-- One input answers a subscription, or makes one wait. -/
theorem next_counts (e : LineEditor) (input : UIInput) {x : Word} (hx : x ≠ 0) :
    (e.next input).2.countP (fun answer ↦ answer.1 = x) +
        (if (e.next input).1.subscriber = x then 1 else 0) =
      (if e.subscriber = x then 1 else 0) + if input = .subscribe x then 1 else 0 := by
  have hzero : (0 : Word) ≠ x := hx.symm
  cases input with
  | character ch =>
    rw [if_neg (by simp : UIInput.character ch ≠ .subscribe x), Nat.add_zero]
    unfold LineEditor.next
    by_cases hreturn : ch = 13
    · simp only [if_pos hreturn, if_neg hzero, Nat.add_zero]
      by_cases hnone : e.subscriber = 0
      · rw [if_pos hnone, List.countP_nil, hnone, if_neg hzero]
      · simp only [if_neg hnone, List.countP_singleton, decide_eq_true_eq]
    · simp only [if_neg hreturn, List.countP_nil, Nat.zero_add]
  | subscribe sender =>
    unfold LineEditor.next
    simp only [UIInput.subscribe.injEq]
    by_cases hnone : e.subscriber = 0
    · simp only [if_pos hnone, List.countP_nil, Nat.zero_add]
      rw [hnone, if_neg hzero, Nat.zero_add]
    · simp only [if_neg hnone, List.countP_singleton, decide_eq_true_eq]
      exact Nat.add_comm _ _
  | other =>
    rw [if_neg (by simp : UIInput.other ≠ .subscribe x)]
    exact Nat.zero_add _

/-- Every subscription was answered once, or still waits. -/
theorem run_counts (hstart : UiRepresents start ⟨[], 0⟩) (hrun : Run UIStep start hs ui) {x : Word}
    (hx : x ≠ 0) :
    answersTo x hs + (if (editorAfter hs).subscriber = x then 1 else 0) = subscriptions x hs := by
  induction hrun with
  | nil => exact (Nat.zero_add _).trans (if_neg hx.symm)
  | @snoc hs ui ui' h hrun hstep ih =>
    have hanswers := (uiStep_refines (run_represents hstart hrun) hstep).2
    have hcounts := next_counts (editorAfter hs) h.input hx
    have hmap : h.answers.countP (fun answer ↦ answer.1 = x) =
        ((editorAfter hs).next h.input).2.countP fun answer ↦ answer.1 = x := by
      rw [hanswers, List.countP_map]
      rfl
    rw [editorAfter_append]
    simp only [answersTo, subscriptions, List.flatMap_append, List.countP_append,
      List.flatMap_singleton, hmap, List.countP_singleton, decide_eq_true_eq] at ih ⊢
    omega

theorem exists_uiStep (ui : SerialUI) (sender : Word) (message : List Byte) :
    ∃ t ui', UIStep ui ⟨uiReceives sender message,
      overwrite ui.message (uiReceives sender message).bytes, t⟩ ui' := by
  obtain ⟨k, hk⟩ : ∃ k, serialUILoop ui = .call (.receive serialUIMessageSize) k := ⟨_, rfl⟩
  obtain ⟨t, pt, hexec⟩ := exists_exec (k (uiReceives sender message))
  have hloop : Exec (serialUILoop ui)
      (⟨.receive serialUIMessageSize, uiReceives sender message⟩ :: t) pt := by
    rw [hk]
    exact .call _ hexec
  have hpt : ∃ ui', pt = .serialUI ui' := by
    rw [serialUILoop, prjReceive_bind, exec_call_cons] at hloop
    dsimp only at hloop
    split_ifs at hloop
    · obtain ⟨t₁, t₂, ui', -, -, h₂⟩ := exec_bind.mp hloop
      exact ⟨ui', (exec_done.mp h₂).2⟩
    · exact ⟨_, (exec_done.mp hloop).2⟩
  obtain ⟨ui', rfl⟩ := hpt
  exact ⟨t, ui', ⟨sender, message, rfl⟩, rfl, hloop⟩

end Runs

/-- The line on the screen and its cursor, for the content that was typed. -/
structure Shows (ui : SerialUI) (content : List Byte) : Prop where
  cursor_pos : 1 ≤ ui.cursor
  cursor_le : ui.cursor ≤ maxLineLength - 1
  prompt : ui.line[0]? = some 62
  terminated : ui.line[ui.cursor]? = some 0
  content : (ui.line.take ui.cursor).drop 1 = content
  lines : ui.line.length = maxLineLength ∧ ui.command.length = maxLineLength

structure Answers (ui : SerialUI) (content : List Byte) (h : Handled) (ui' : SerialUI) :
    Prop where
  entered : h.input = .character 13 → ui.commandExecutorTid ≠ 0 →
    h.answers = [wholeReply (ui.commandExecutorTid, content ++ [0])] ∧
      ui'.commandExecutorTid = 0
  unattended : h.input = .character 13 → ui.commandExecutorTid = 0 → h.answers = []
  first : ∀ sender, h.input = .subscribe sender → ui.commandExecutorTid = 0 →
    h.answers = [] ∧ ui'.commandExecutorTid = sender
  second : ∀ sender, h.input = .subscribe sender → ui.commandExecutorTid ≠ 0 →
    h.answers = [wholeReply (sender, [0])] ∧ ui'.commandExecutorTid = ui.commandExecutorTid
  others : h.input ≠ .character 13 → (∀ sender, h.input ≠ .subscribe sender) →
    h.answers = [] ∧ ui'.commandExecutorTid = ui.commandExecutorTid

/-- A content with its zero fits all the buffers, and is a command. -/
structure IsCommand (content : List Byte) : Prop where
  fits : (content ++ [0]).length ≤ maxLineLength - 1
  accepted : ∀ command, isCommandOk (overwrite command (content ++ [0])) = true

theorem UiRepresents.shows {ui : SerialUI} {e : LineEditor} (h : UiRepresents ui e) :
    Shows ui e.content := by
  have hmax : maxLineLength = 80 := rfl
  have hshort := h.short
  have hcursor := h.cursor
  refine ⟨by omega, by omega, ?_, ?_, ?_, ?_, h.command⟩
  · rw [h.line]
    rfl
  · rw [hcursor, h.line, List.getElem?_cons_succ, List.getElem?_append_right (Nat.le_refl _),
      Nat.sub_self, List.getElem?_replicate, if_pos (by omega)]
  · rw [hcursor, h.line, List.take_succ_cons, List.drop_succ_cons, List.drop_zero,
      List.take_left]
  · rw [h.line, List.length_cons, List.length_append, List.length_replicate]
    omega

theorem UiRepresents.isCommand {ui : SerialUI} {e : LineEditor} (h : UiRepresents ui e) :
    IsCommand e.content := by
  refine ⟨?_, h.isCommandOk⟩
  have hmax : maxLineLength = 80 := rfl
  have hshort := h.short
  rw [List.length_append, List.length_singleton]
  omega

theorem UiRepresents.answers {ui ui' : SerialUI} {e : LineEditor} {h : Handled}
    (hr : UiRepresents ui e) (hstep : UIStep ui h ui') : Answers ui e.content h ui' := by
  obtain ⟨hr', hanswers⟩ := uiStep_refines hr hstep
  have hsubscriber := hr'.subscriber
  have htid := hr.subscriber
  refine ⟨fun hinput hne ↦ ?_, fun hinput hnone ↦ ?_, fun sender hinput hnone ↦ ?_,
    fun sender hinput hne ↦ ?_, fun hreturn hsubscribe ↦ ?_⟩
  · rw [hinput] at hanswers hsubscriber
    rw [htid] at hne ⊢
    simp only [LineEditor.next, if_true, if_neg hne] at hanswers hsubscriber
    exact ⟨hanswers, hsubscriber⟩
  · rw [hinput] at hanswers
    rw [htid] at hnone
    simp only [LineEditor.next, if_true, if_pos hnone] at hanswers
    exact hanswers
  · rw [hinput] at hanswers hsubscriber
    rw [htid] at hnone
    simp only [LineEditor.next, if_pos hnone] at hanswers hsubscriber
    exact ⟨hanswers, hsubscriber⟩
  · rw [hinput] at hanswers hsubscriber
    rw [htid] at hne ⊢
    simp only [LineEditor.next, if_neg hne] at hanswers hsubscriber
    exact ⟨hanswers, hsubscriber⟩
  · rw [htid]
    cases hinput : h.input with
    | character ch =>
      have hne : ch ≠ 13 := fun heq ↦ hreturn (heq ▸ hinput)
      rw [hinput] at hanswers hsubscriber
      simp only [LineEditor.next, if_neg hne] at hanswers hsubscriber
      exact ⟨hanswers, hsubscriber⟩
    | subscribe sender => exact absurd hinput (hsubscribe sender)
    | other =>
      rw [hinput] at hanswers hsubscriber
      exact ⟨hanswers, hsubscriber⟩

section Conversation

def inputOf (sender : Word) (message : List Byte) : UIInput :=
  if messageType message = serialUiMessageTypeCommandSubscribe then .subscribe sender
  else if messageType message = serialUiMessageTypeCharacterReceived then
    .character (byteOf (messageData message) 0)
  else .other

theorem input_uiReceives (ui : SerialUI) (sender : Word) (message : List Byte)
    (hlen : message.length = 8) (t : List BaseEvent) :
    Handled.input ⟨uiReceives sender message,
        overwrite ui.message (uiReceives sender message).bytes, t⟩ = inputOf sender message := by
  obtain ⟨b, rest, rfl⟩ := List.exists_cons_of_length_eq_add_one hlen
  have hsize : (uiReceives sender (b :: rest)).size ≠ 0 := by
    rw [uiReceives_size hlen]
    decide
  have htype : messageType (overwrite ui.message (b :: rest)) = messageType (b :: rest) := rfl
  have hdata : messageData (overwrite ui.message (b :: rest)) = messageData (b :: rest) :=
    wordAt_append_left (by omega) _
  unfold Handled.input inputOf
  dsimp only
  rw [if_neg hsize, uiReceives_bytes hlen, htype, hdata]
  rfl

/-- The user interface can be sent any messages. -/
theorem exists_uiRun (ui : SerialUI) (ms : List (Word × List Byte))
    (hms : ∀ m ∈ ms, m.2.length = 8) :
    ∃ hs ui', Run UIStep ui hs ui' ∧ hs.map Handled.input = ms.map fun m ↦ inputOf m.1 m.2 := by
  induction ms using List.reverseRecOn with
  | nil => exact ⟨[], ui, .nil, rfl⟩
  | append_singleton ms m ih =>
    obtain ⟨hs, ui', hrun, hinputs⟩ := ih fun m hm ↦ hms m (List.mem_append_left _ hm)
    obtain ⟨t, ui'', hstep⟩ := exists_uiStep ui' m.1 m.2
    refine ⟨_, ui'', hrun.snoc hstep, ?_⟩
    rw [List.map_append, List.map_append, hinputs, List.map_singleton, List.map_singleton,
      input_uiReceives ui' m.1 m.2 (hms m (by simp))]

def characterMessage (ch : Byte) : List Byte := [serialUiMessageTypeCharacterReceived, 0, 0, 0,
  ch, 0, 0, 0]

/-- A task subscribes, and then "AB" and a backspace are typed. -/
def editMessages : List (Word × List Byte) :=
  [(0x3000, serialUiMessageTypeCommandSubscribe :: List.replicate 7 0),
    (0x2000, characterMessage 65), (0x2000, characterMessage 66), (0x2000, characterMessage 8)]

end Conversation

end PrjOS
