import PrjOS.BaseTasks.Contracts

namespace PrjOS

open ByteMemory Transition Program Rendezvous

inductive InputTask (m : Nat)
  | driver
  | polling
  | courier
  | ui
  | client (n : Fin m)
  deriving DecidableEq

@[reducible] def InputTask.Phase {m : Nat} : InputTask m → Type
  | driver => DriverPhase
  | polling => PollingPhase
  | courier => CourierPhase
  | ui => UIPhase
  | client _ => Unit

def SerialUI.prompt (ui : SerialUI) : BaseProg Point := do
  let _ ← prjPutStr ui.line ui.serialDriverTid
  return .serialUI ui

/-- The tasks as they are when the handshakes of the start-up are over. -/
structure InputSetup (m : Nat) where
  tid : InputTask m → Word
  tid_injective : Function.Injective tid
  tid_ne_zero : ∀ i, tid i ≠ 0
  eventId : Word
  courier : Courier
  courier_driver : courier.serialDriverTid = tid .driver
  courier_ui : courier.uiTaskTid = tid .ui
  courier_length : courier.message.length = 8
  courier_type : messageType courier.message = serialUiMessageTypeCharacterReceived
  ui : SerialUI
  ui_driver : ui.serialDriverTid = tid .driver
  ui_free : ui.commandExecutorTid = 0
  ui_length : ui.message.length = 8

abbrev InputSystem (m : Nat) : Type := System (InputTask m) Outside Point Unit Outside.Answer

abbrev InputLog (m : Nat) : Type := List (InputTask m × BaseEvent)

namespace InputSetup

variable {m : Nat} (K : InputSetup m)

/-- Characters and receive notifications come at any time, and no task of the
system is created. -/
def setting : Setting (InputTask m) Outside Point Unit Outside.Answer :=
  kernelSetting K.tid (fun _ ↦ .driver) (fun _ _ _ _ ↦ True) (fun _ _ ↦ False) fun _ _ _ ↦ True

def begins : InputTask m → BaseProg Point
  | .driver => .done (.serialDriver ⟨true, 0, K.eventId⟩)
  | .polling => .done (.polling (K.tid .driver) K.eventId)
  | .courier => .done (.courier K.courier)
  | .ui => K.ui.prompt
  | .client _ => .done (.application (K.tid .driver) (K.tid .ui))

def start : InputSystem m := ⟨fun i ↦ .ready (K.begins i), fun _ ↦ [], fun _ ↦ 0, ()⟩

def contract : (i : InputTask m) → Contract BaseCall BaseAnswer i.Phase
  | .driver => driverContract
  | .polling => pollingContract (K.tid .driver) K.eventId
  | .courier => courierContract (K.tid .driver) (K.tid .ui)
  | .ui => uiContract (K.tid .driver)
  | .client _ => applicationContract (K.tid .driver) (K.tid .ui)

def phaseAt : (i : InputTask m) → Point → i.Phase → Prop
  | .driver => driverAt
  | .polling => pollingAt (K.tid .driver) K.eventId
  | .courier => courierAt (K.tid .driver) (K.tid .ui)
  | .ui => uiAt (K.tid .driver)
  | .client _ => applicationAt (K.tid .driver) (K.tid .ui)

theorem contract_kept (i : InputTask m) : (K.contract i).Kept (K.phaseAt i) baseTasks := by
  cases i with
  | driver => exact driverContract_kept
  | polling => exact pollingContract_kept _ _
  | courier => exact courierContract_kept (K.tid_ne_zero _) _
  | ui => exact uiContract_kept _
  | client n => exact applicationContract_kept _ _

def firstPhase : (i : InputTask m) → i.Phase
  | .driver => .idle 0 none
  | .polling => .calm
  | .courier => .asking
  | .ui => .idle 0 none
  | .client _ => ()

theorem start_follows : K.start.Follows K.setting K.contract K.phaseAt firstPhase := by
  intro i
  refine ⟨fun p hp ↦ ?_, nofun⟩
  obtain rfl := Option.some.inj hp
  cases i with
  | driver => exact ⟨rfl, none, rfl⟩
  | polling => exact ⟨rfl, rfl, rfl⟩
  | courier => exact ⟨rfl, K.courier_driver, K.courier_ui, K.courier_length, K.courier_type⟩
  | ui =>
    change Prog.Meets (uiContract (K.tid .driver)) _ K.ui.prompt _
    rw [← K.ui_driver]
    refine prjPutStr_follows fun _ ↦ ⟨K.ui_driver, K.ui_length, none, ?_⟩
    rw [K.ui_free]
    rfl
  | client n => exact ⟨rfl, rfl⟩

end InputSetup

variable {m : Nat}

def readFrom : InputTask m × BaseEvent → Option Word
  | (_, ⟨.outside .getCharNonBlocking, ch⟩) => if ch = -1 then none else some ch
  | _ => none

def charactersRead (log : InputLog m) : List Word := log.filterMap readFrom

/-- The character of a message for which `serialUITask` runs its case
`CHARACTER_RECEIVED`. -/
def characterIn (received : Incoming) : Option Word :=
  if 0 < received.size ∧
    messageType received.bytes = serialUiMessageTypeCharacterReceived then
    some (messageData received.bytes)
  else none

def processedBy : InputTask m × BaseEvent → Option Word
  | (.ui, ⟨.receive _, received⟩) => characterIn received
  | _ => none

def charactersProcessed (log : InputLog m) : List Word := log.filterMap processedBy

theorem charactersRead_append (log l : InputLog m) :
    charactersRead (log ++ l) = charactersRead log ++ charactersRead l := List.filterMap_append

theorem charactersProcessed_append (log l : InputLog m) :
    charactersProcessed (log ++ l) = charactersProcessed log ++ charactersProcessed l :=
  List.filterMap_append

/-- The user interface answers the sender and then processes `ch`, whatever its
buffer held before the message came in. -/
def ProcessesAs (received : Incoming) (ch : Word) : Prop :=
  ∀ ui : SerialUI, ui.message.length = 8 → ∀ otherTask,
    SerialUI.handle { ui with message := overwrite ui.message received.bytes } otherTask =
      prjReply otherTask ui.dummy 1 >>= fun _ ↦
        SerialUI.character { ui with message := received.bytes } (byteOf ch 0)

/-- The case `CHARACTER_RECEIVED` runs for the characters above, once. -/
theorem handle_character {received : Incoming} {ch : Word} (h : characterIn received = some ch)
    (hlen : received.bytes.length = 8) : ProcessesAs received ch := by
  intro ui hbuffer otherTask
  have hbytes : overwrite ui.message received.bytes = received.bytes := by
    rw [overwrite, List.drop_eq_nil_of_le (by omega), List.append_nil]
  obtain ⟨⟨-, htype⟩, hch⟩ := Option.ite_none_right_eq_some.mp h
  obtain rfl := Option.some.inj hch
  have hsubscribe : serialUiMessageTypeCharacterReceived ≠ serialUiMessageTypeCommandSubscribe := by
    decide
  have hredraw : serialUiMessageTypeCharacterReceived ≠ serialUiMessageTypeRedraw := by decide
  rw [hbytes, SerialUI.handle]
  rw [if_neg (htype ▸ hsubscribe), if_neg (htype ▸ hredraw), if_pos htype]

section Facts

variable (courierTid : Word)

def UIPhase.Serves (waits : Prop) : UIPhase → Prop
  | .idle subscriber client =>
    subscriber ≠ courierTid ∧ (client = some courierTid → waits)

/-- A character that the courier has and that was not received from it. -/
def CourierPhase.carries (server : Option (InputTask m)) : CourierPhase → List Word
  | .holding ch => if server = none then [ch] else []
  | .asking => []

/-- What is known of the four tasks in a state where the courier waits for
`server`. All characters that were read are processed or on their way. -/
structure InputFacts (log : InputLog m) (d : DriverPhase) (u : UIPhase) (c : CourierPhase)
    (server : Option (InputTask m)) : Prop where
  driver : d.Serves courierTid (server = some .driver)
  ui : u.Serves courierTid (server = some .ui)
  flow : charactersProcessed log ++ c.carries server ++ d.carries =
    (charactersRead log).filter passesOn

end Facts

section Serving

variable {courierTid : Word}

theorem UIPhase.Serves.mono {waits waits' : Prop} {u : UIPhase} (h : u.Serves courierTid waits)
    (hw : waits → waits') : u.Serves courierTid waits' := ⟨h.1, fun hc ↦ hw (h.2 hc)⟩

theorem InputFacts.advance {log l : InputLog m} {d d' : DriverPhase} {u u' : UIPhase}
    {c c' : CourierPhase} {server server' : Option (InputTask m)}
    (h : InputFacts courierTid log d u c server)
    (hd : d'.Serves courierTid (server' = some .driver))
    (hu : u'.Serves courierTid (server' = some .ui))
    (hflow : charactersProcessed l ++ c'.carries server' ++ d'.carries =
      c.carries server ++ d.carries ++ (charactersRead l).filter passesOn) :
    InputFacts courierTid (log ++ l) d' u' c' server' where
  driver := hd
  ui := hu
  flow := by
    rw [charactersProcessed_append, charactersRead_append, List.filter_append, ← h.flow]
    simp only [List.append_assoc] at hflow ⊢
    rw [hflow]

theorem InputFacts.keep {log l : InputLog m} {d d' : DriverPhase} {u u' : UIPhase}
    {c c' : CourierPhase} {server server' : Option (InputTask m)}
    (h : InputFacts courierTid log d u c server)
    (hd : d'.Serves courierTid (server' = some .driver))
    (hu : u'.Serves courierTid (server' = some .ui)) (hread : charactersRead l = [])
    (hprocessed : charactersProcessed l = [])
    (hflow : c'.carries server' ++ d'.carries = c.carries server ++ d.carries) :
    InputFacts courierTid (log ++ l) d' u' c' server' := by
  refine h.advance hd hu ?_
  rw [hread, hprocessed, List.nil_append, List.filter_nil, List.append_nil, hflow]

variable {log : InputLog m} {d : DriverPhase} {u : UIPhase} {c : CourierPhase}
variable {server : Option (InputTask m)}

theorem charactersRead_driver (ch : Word) :
    charactersRead (m := m) [(.driver, ⟨.outside .getCharNonBlocking, ch⟩)] =
      if ch = -1 then [] else [ch] := by
  have hfrom : readFrom (m := m) (.driver, ⟨.outside .getCharNonBlocking, ch⟩) =
    if ch = -1 then none else some ch := rfl
  split_ifs at hfrom ⊢ with hch
  · exact List.filterMap_cons_none hfrom
  · exact List.filterMap_cons_some hfrom

theorem InputFacts.driver_reads (h : InputFacts courierTid log d u c server)
    (hpre : d.pre (.outside .getCharNonBlocking)) (ch : Word) :
    InputFacts courierTid (log ++ [(.driver, ⟨.outside .getCharNonBlocking, ch⟩)])
      (d.next (.outside .getCharNonBlocking) ch) u c server := by
  obtain ⟨hwaits, hcarries, hnext⟩ := h.driver.next_getCharNonBlocking hpre ch
  have hread := charactersRead_driver (m := m) ch
  rw [hnext]
  split_ifs at hread ⊢ with hch
  · exact h.keep ⟨.inr ⟨rfl, hwaits⟩, nofun⟩ h.ui hread rfl (by rw [hcarries]; rfl)
  · refine h.advance ⟨rfl, rfl, hwaits⟩ h.ui ?_
    rw [hread, hcarries, List.append_nil]
    rfl

theorem InputFacts.driver_replies (h : InputFacts courierTid log d u c server) {l : InputLog m}
    {target : Word} {message : List Byte} {size : Word} (hpre : d.pre (.reply target message size))
    (hother : target = courierTid → server ≠ some .driver) (a : Word)
    (hread : charactersRead l = []) (hprocessed : charactersProcessed l = []) :
    InputFacts courierTid (log ++ l) (d.next (.reply target message size) a) u c server := by
  have hd := h.driver
  cases d with
  | idle parked client => exact h.keep ⟨hd.1, nofun⟩ h.ui hread hprocessed rfl
  | notified notifier parked =>
    change InputFacts _ _ (if parked ≠ 0 then _ else _) _ _ _
    split_ifs with hparked
    · exact h.keep (hd.2.resolve_left hparked) h.ui hread hprocessed rfl
    · exact h.keep ⟨.inl rfl, nofun⟩ h.ui hread hprocessed rfl
  | handing reader ch parked =>
    obtain ⟨rfl, -, -⟩ := hpre
    exact absurd hd.2.2 (hother hd.1)
  | _ => exact hpre.elim

/-- A call of the driver without a message or a reply for the courier. -/
theorem InputFacts.driver_alone (h : InputFacts courierTid log d u c server) {call : BaseCall}
    (hpre : d.pre call) (hreceive : ∀ room, call ≠ .receive room)
    (hreply : ∀ message size, call = .reply courierTid message size → server ≠ some .driver)
    (a : BaseAnswer call) :
    d.rely call a ∧ InputFacts courierTid (log ++ [(.driver, ⟨call, a⟩)]) (d.next call a) u c
      server := by
  cases call with
  | receive room => exact absurd rfl (hreceive room)
  | reply target message size =>
    refine ⟨by cases d <;> trivial, h.driver_replies hpre ?_ a rfl rfl⟩
    rintro rfl
    exact hreply message size rfl
  | outside e =>
    refine ⟨by cases d <;> trivial, ?_⟩
    cases e with
    | getCharNonBlocking => exact h.driver_reads hpre a
    | putCharBlocking ch =>
      have hnext : d.next (.outside (.putCharBlocking ch)) a = d := by cases d <;> rfl
      rw [hnext]
      exact h.keep h.driver h.ui rfl rfl rfl
    | stray i =>
      have hnext : d.next (.outside (.stray i)) a = d := by cases d <;> rfl
      rw [hnext]
      exact h.keep h.driver h.ui rfl rfl rfl
    | _ => cases d <;> exact hpre.elim
  | _ => cases d <;> exact hpre.elim

end Serving

section Steps

variable {K : InputSetup m} {g : (i : InputTask m) → i.Phase} {s s' : InputSystem m}
variable {log l : InputLog m}

theorem InputSetup.setting_tid : K.setting.tid = K.tid := rfl

theorem putBufMessage_ne (str : List Byte) (len : BitVec 16) :
    putBufMessage str len ≠ wordBytes messageTypeGetChar := by
  intro he
  have htype := congrArg (wordAt · 0) he
  rw [putBufMessage, List.append_assoc, wordAt_wordBytes, wordAt_wordBytes_self] at htype
  exact absurd htype (by decide)

/-- The courier sends to the driver when it asks, and to the user interface when
it has a character. -/
theorem courier_sends {driverTid uiTid target room : Word} {phase : CourierPhase}
    {message : List Byte} (h : (courierContract driverTid uiTid).pre phase
      (.send target message room)) :
    phase = .asking ∧ target = driverTid ∧ message = wordBytes messageTypeGetChar ∧ room = 4 ∨
      ∃ ch, phase = .holding ch ∧ target = uiTid ∧ message.length = 8 ∧
        messageType message = serialUiMessageTypeCharacterReceived ∧ messageData message = ch := by
  cases phase with
  | asking => exact .inl ⟨rfl, h⟩
  | holding ch => exact .inr ⟨ch, rfl, h⟩

theorem polling_sends {driverTid eventId target room : Word} {phase : PollingPhase}
    {message : List Byte} (h : (pollingContract driverTid eventId).pre phase
      (.send target message room)) :
    target = driverTid ∧ message = wordBytes messageTypeCharacterReceived := by
  cases phase with
  | calm => exact h.elim
  | woken => exact h

theorem InputSetup.sends_driver {i : InputTask m} {message : List Byte} {room : Word}
    (h : (K.contract i).pre (g i) (.send (K.tid .driver) message room)) :
    DriverMessage message ∧ (i = .courier ↔ message = wordBytes messageTypeGetChar) := by
  have hne : K.tid .driver ≠ K.tid .ui := fun he ↦ nomatch K.tid_injective he
  cases i with
  | driver => exact absurd h driver_sends_nothing
  | polling =>
    obtain ⟨-, rfl⟩ := polling_sends h
    exact ⟨.characterReceived, nofun, fun he ↦ absurd he (by decide)⟩
  | courier =>
    rcases courier_sends h with ⟨-, -, rfl, -⟩ | ⟨ch, -, he, -⟩
    · exact ⟨.getChar, fun _ ↦ rfl, fun _ ↦ rfl⟩
    · exact absurd he hne
  | ui =>
    obtain ⟨-, str, len, rfl⟩ := h
    exact ⟨.output str len, nofun, fun he ↦ absurd he (putBufMessage_ne str len)⟩
  | client n =>
    rcases h with ⟨-, str, len, rfl⟩ | ⟨he, -⟩
    · exact ⟨.output str len, nofun, fun he ↦ absurd he (putBufMessage_ne str len)⟩
    · exact absurd he hne

theorem InputSetup.sends_ui {i : InputTask m} {message : List Byte} {room : Word}
    (h : (K.contract i).pre (g i) (.send (K.tid .ui) message room)) :
    message.length = 8 ∧ (i = .courier →
      g .courier = .holding (messageData message)) ∧
        (i = .courier ↔ messageType message = serialUiMessageTypeCharacterReceived) := by
  have hne : K.tid .ui ≠ K.tid .driver := fun he ↦ nomatch K.tid_injective he
  cases i with
  | driver => exact absurd h driver_sends_nothing
  | polling => exact absurd (polling_sends h).1 hne
  | courier =>
    rcases courier_sends h with ⟨-, he, -⟩ | ⟨ch, hg, -, hlen, htype, rfl⟩
    · exact absurd he hne
    · exact ⟨hlen, fun _ ↦ hg, fun _ ↦ htype, fun _ ↦ rfl⟩
  | ui => exact absurd h.1 hne
  | client n =>
    rcases h with ⟨he, -⟩ | ⟨-, hlen, htype⟩
    · exact absurd he hne
    · exact ⟨hlen, nofun, nofun, fun he ↦ absurd he htype⟩

theorem sends_target {i : InputTask m} {target : Word} {message : List Byte} {room : Word}
    (h : (K.contract i).pre (g i) (.send target message room)) :
    target = K.tid .driver ∨ target = K.tid .ui := by
  cases i with
  | driver => exact absurd h driver_sends_nothing
  | polling => exact .inl (polling_sends h).1
  | courier =>
    rcases courier_sends h with ⟨-, he, -⟩ | ⟨ch, -, he, -⟩
    · exact .inl he
    · exact .inr he
  | ui => exact .inl h.1
  | client n => exact h.imp And.left And.left

structure InputState (K : InputSetup m) (log : InputLog m) (g : (i : InputTask m) → i.Phase)
    (s : InputSystem m) : Prop where
  follows : s.Follows K.setting K.contract K.phaseAt g
  begun : ∀ i, s.status i ≠ .dormant
  facts : InputFacts (K.tid .courier) log (g .driver) (g .ui) (g .courier) (s.awaits .courier)

/-- A step that keeps it, as far as answers and characters go. -/
def Continues (K : InputSetup m) (log : InputLog m) (g : (i : InputTask m) → i.Phase) (l : InputLog m)
    (s' : InputSystem m) : Prop :=
  (∀ i e, (i, e) ∈ l → (K.contract i).rely (g i) e.1 e.2) ∧
    InputFacts (K.tid .courier) (log ++ l) (advance K.contract g l .driver)
      (advance K.contract g l .ui) (advance K.contract g l .courier) (s'.awaits .courier)

theorem continues_alone (h : InputState K log g s) {i : InputTask m} {call : BaseCall}
    {k : BaseAnswer call → BaseProg Point} {a : BaseAnswer call}
    (htask : (s.status i).task K.setting = some (.call call k))
    (hquiet : Alone K.setting s s' i call a) (hawaits : ∀ y, s'.awaits y = s.awaits y) :
    Continues K log g [(i, ⟨call, a⟩)] s' := by
  have hpre := h.follows.pre htask
  have hsend : ∀ target message room, call ≠ .send target message room := by
    rintro target message room rfl
    rcases sends_target hpre with rfl | rfl
    · exact h.begun _ (hquiet .driver rfl)
    · exact h.begun _ (hquiet .ui rfl)
  have hreceive : ∀ room, call ≠ .receive room := by
    rintro room rfl
    exact hquiet
  have hapart (j : InputTask m) (hj : j ≠ i) : advance K.contract g [(i, ⟨call, a⟩)] j = g j :=
    advance_apart hj _
  have hself := advance_self (S := K.contract) (g := g) i ⟨call, a⟩
  unfold Continues
  rw [hawaits]
  simp only [List.mem_singleton, Prod.mk.injEq, and_imp, forall_eq_apply_imp_iff, forall_eq]
  cases i with
  | driver =>
    rw [hself, hapart .ui nofun, hapart .courier nofun]
    refine h.facts.driver_alone hpre hreceive ?_ a
    rintro message size rfl hserver
    have hnone : s.awaits .courier = none := hquiet .courier rfl
    rw [hnone] at hserver
    cases hserver
  | polling =>
    rw [hapart .driver nofun, hapart .ui nofun, hapart .courier nofun]
    refine ⟨trivial, ?_⟩
    change (pollingContract _ _).pre (g .polling) _ at hpre
    cases call with
    | outside e =>
      generalize g .polling = phase at hpre
      cases phase <;> exact hpre.elim
    | _ => exact h.facts.keep h.facts.driver h.facts.ui rfl rfl rfl
  | courier =>
    rw [hself, hapart .driver nofun, hapart .ui nofun]
    have hfacts := h.facts
    change (courierContract _ _).rely (g .courier) _ _ ∧
      InputFacts _ _ _ _ ((courierContract _ _).next (g .courier) _ _) _
    change (courierContract _ _).pre (g .courier) _ at hpre
    generalize g .courier = phase at hpre hfacts ⊢
    cases call with
    | send target message room => exact absurd rfl (hsend target message room)
    | outside e =>
      cases phase with
      | asking =>
        cases e with
        | unset n => exact ⟨trivial, hfacts.keep hfacts.driver hfacts.ui rfl rfl rfl⟩
        | _ => exact hpre.elim
      | holding ch => exact hpre.elim
    | _ => cases phase <;> exact hpre.elim
  | ui =>
    rw [hself, hapart .driver nofun, hapart .courier nofun]
    have hfacts := h.facts
    change (uiContract _).rely (g .ui) _ _ ∧
      InputFacts _ _ _ ((uiContract _).next (g .ui) _ _) _ _
    generalize g .ui = phase at hfacts ⊢
    obtain ⟨subscriber, client⟩ := phase
    cases call with
    | send target message room => exact absurd rfl (hsend target message room)
    | receive room => exact absurd rfl (hreceive room)
    | reply target message size =>
      refine ⟨trivial, ?_⟩
      have hne : (0 : Word) ≠ K.tid .courier := (K.tid_ne_zero .courier).symm
      cases client with
      | none => exact hfacts.keep hfacts.driver ⟨hne, nofun⟩ rfl rfl rfl
      | some client => exact hfacts.keep hfacts.driver ⟨hfacts.ui.1, nofun⟩ rfl rfl rfl
    | _ => exact hpre.elim
  | client n =>
    rw [hapart .driver nofun, hapart .ui nofun, hapart .courier nofun]
    refine ⟨trivial, ?_⟩
    cases call with
    | outside e =>
      cases e with
      | getCharNonBlocking => exact hpre.elim
      | _ => exact h.facts.keep h.facts.driver h.facts.ui rfl rfl rfl
    | _ => exact h.facts.keep h.facts.driver h.facts.ui rfl rfl rfl

/-- What the driver makes of a message from the courier or from another task. -/
theorem InputFacts.driver_receives {courierTid : Word} {d : DriverPhase} {u : UIPhase}
    {c : CourierPhase} {server server' : Option (InputTask m)}
    (h : InputFacts courierTid log d u c server) {room sender : Word} {message : List Byte}
    (hpre : d.pre (.receive room)) (hmessage : DriverMessage message)
    (hsender : sender = courierTid ↔ message = wordBytes messageTypeGetChar)
    (hcourier : sender = courierTid → server = none ∧ server' = some .driver ∧ c = .asking)
    (hother : sender ≠ courierTid → server' = server) :
    InputFacts courierTid
      (log ++ [(.driver, ⟨.receive room, driverReceives sender message⟩)])
      (d.next (.receive room) (driverReceives sender message)) u c server' := by
  cases d with
  | idle parked client =>
    have hparked := h.driver.1
    change InputFacts _ _ (.received parked (driverReceives sender message)) _ _ _
    rw [DriverPhase.received, driverReceives_wordAt, driverReceives_sender]
    by_cases hs : sender = courierTid
    · obtain ⟨rfl, rfl, rfl⟩ := hcourier hs
      have hget : messageTypeGetChar ≠ messageTypeCharacterReceived := by decide
      rw [hsender.mp hs, wordAt_wordBytes_self, if_neg hget, if_pos rfl]
      have hzero : parked = 0 := hparked.resolve_right fun hp ↦ absurd hp.2 (by simp)
      exact h.keep ⟨hs, hzero, rfl⟩ (h.ui.mono (by simp)) rfl rfl rfl
    · rw [hother hs]
      have hclient : some sender ≠ some courierTid := fun he ↦ hs (Option.some.inj he)
      cases hmessage with
      | getChar => exact absurd (hsender.mpr rfl) hs
      | characterReceived =>
        rw [wordAt_wordBytes_self, if_pos rfl]
        exact h.keep ⟨hs, hparked⟩ h.ui rfl rfl rfl
      | output str len =>
        have htype : wordAt (putBufMessage str len) 0 = messageTypeSendMessage := by
          rw [putBufMessage, List.append_assoc, wordAt_wordBytes]
        have hreceived : messageTypeSendMessage ≠ messageTypeCharacterReceived := by decide
        have hget : messageTypeSendMessage ≠ messageTypeGetChar := by decide
        rw [htype, if_neg hreceived, if_neg hget]
        exact h.keep ⟨hparked, hclient⟩ h.ui rfl rfl rfl
  | _ => exact hpre.elim

theorem charactersProcessed_ui (sender : Word) {message : List Byte} (h : message.length = 8) :
    charactersProcessed (m := m) [(.ui, ⟨.receive serialUIMessageSize, uiReceives sender message⟩)] =
      if messageType message = serialUiMessageTypeCharacterReceived then [messageData message]
      else [] := by
  have hpos : (0 : Word) < 8 := by decide
  have hin : processedBy (m := m) (.ui, ⟨.receive serialUIMessageSize, uiReceives sender message⟩) =
      if messageType message = serialUiMessageTypeCharacterReceived then
        some (messageData message) else none := by
    change characterIn (uiReceives sender message) = _
    rw [characterIn, uiReceives_bytes h, uiReceives_size h]
    simp only [hpos, true_and]
  split_ifs at hin ⊢
  · exact List.filterMap_cons_some hin
  · exact List.filterMap_cons_none hin

theorem InputFacts.ui_receives {courierTid driverTid : Word} {d : DriverPhase} {u : UIPhase}
    {c : CourierPhase} {server server' : Option (InputTask m)}
    (h : InputFacts courierTid log d u c server) {sender : Word} {message : List Byte}
    (hlen : message.length = 8) (hsender : sender = courierTid ↔
      messageType message = serialUiMessageTypeCharacterReceived)
    (hcourier : sender = courierTid →
      server = none ∧ server' = some .ui ∧ c = .holding (messageData message))
    (hother : sender ≠ courierTid → server' = server) :
    InputFacts courierTid
      (log ++ [(.ui, ⟨.receive serialUIMessageSize, uiReceives sender message⟩)]) d
      ((uiContract driverTid).next u (.receive serialUIMessageSize) (uiReceives sender message)) c
      server' := by
  obtain ⟨subscriber, client⟩ := u
  have hprocessed := charactersProcessed_ui (m := m) sender hlen
  change InputFacts _ _ _ (.received subscriber (uiReceives sender message)) _ _
  rw [UIPhase.received, uiReceives_bytes hlen]
  by_cases hs : sender = courierTid
  · obtain ⟨rfl, rfl, rfl⟩ := hcourier hs
    have htype := hsender.mp hs
    have hsubscribe : serialUiMessageTypeCharacterReceived ≠
      serialUiMessageTypeCommandSubscribe := by decide
    rw [htype, if_pos rfl] at hprocessed
    rw [htype, if_neg fun hn ↦ hsubscribe hn.1]
    refine h.advance (h.driver.mono nofun) ⟨h.ui.1, fun _ ↦ rfl⟩ ?_
    rw [hprocessed]
    exact (List.append_nil _).symm
  · rw [if_neg fun ht ↦ hs (hsender.mpr ht)] at hprocessed
    rw [hother hs]
    split_ifs
    · exact h.keep h.driver ⟨hs, nofun⟩ rfl hprocessed rfl
    · exact h.keep h.driver ⟨h.ui.1, fun he ↦ absurd (Option.some.inj he) hs⟩ rfl hprocessed rfl

theorem continues_deliver (h : InputState K log g s) {i j : InputTask m} {message : List Byte}
    {room room' : Word} {k : Returned → BaseProg Point} {k' : Incoming → BaseProg Point}
    (hi : (s.status i).task K.setting = some (.call (.send (K.setting.tid j) message room) k))
    (hj : (s.status j).task K.setting = some (.call (.receive room') k'))
    (hfree : s.awaits i = none)
    (hawaits : ∀ y, s'.awaits y = if y = i then some j else s.awaits y) :
    Continues K log g [(j, ⟨.receive room', K.setting.incoming i room' message⟩)] s' := by
  have hsend := h.follows.pre hi
  have hreceive := h.follows.pre hj
  rw [K.setting_tid] at hsend
  have hapart (y : InputTask m) (hy : y ≠ j) :
      advance K.contract g [(j, ⟨.receive room', K.setting.incoming i room' message⟩)] y = g y :=
    advance_apart hy _
  have hself := advance_self (S := K.contract) (g := g) j
    ⟨.receive room', K.setting.incoming i room' message⟩
  unfold Continues
  rw [hawaits]
  simp only [List.mem_singleton, Prod.mk.injEq, and_imp, forall_eq_apply_imp_iff, forall_eq]
  cases j with
  | driver =>
    rw [hself, hapart .ui nofun, hapart .courier nofun]
    obtain ⟨hmessage, hget⟩ := K.sends_driver hsend
    have hroom : room' = BitVec.ofNat 32 maxMessageLen := by
      change (g .driver).pre _ at hreceive
      generalize g .driver = d at hreceive
      cases d with
      | idle parked client => exact hreceive
      | _ => exact hreceive.elim
    subst hroom
    have hsender : K.tid i = K.tid .courier ↔ message = wordBytes messageTypeGetChar :=
      K.tid_injective.eq_iff.trans hget
    refine ⟨?_, h.facts.driver_receives hreceive hmessage hsender (fun hs ↦ ?_) fun hs ↦ ?_⟩
    · change (g .driver).rely _ _
      cases g .driver with
      | idle parked client => exact ⟨K.tid i, message, hmessage, K.tid_ne_zero i, rfl⟩
      | _ => trivial
    · obtain rfl := K.tid_injective hs
      refine ⟨hfree, if_pos rfl, ?_⟩
      rcases courier_sends hsend with ⟨hg, -⟩ | ⟨ch, -, he, -⟩
      · exact hg
      · exact nomatch K.tid_injective he
    · exact if_neg fun hi ↦ hs (congrArg K.tid hi.symm)
  | ui =>
    rw [hself, hapart .driver nofun, hapart .courier nofun]
    obtain ⟨hlen, hholding, htype⟩ := K.sends_ui hsend
    have hroom : room' = serialUIMessageSize := hreceive
    subst hroom
    refine ⟨⟨K.tid i, message, hlen, rfl⟩, ?_⟩
    refine h.facts.ui_receives hlen (K.tid_injective.eq_iff.trans htype) (fun hs ↦ ?_) fun hs ↦ ?_
    · obtain rfl := K.tid_injective hs
      exact ⟨hfree, if_pos rfl, hholding rfl⟩
    · exact if_neg fun hi ↦ hs (congrArg K.tid hi.symm)
  | polling =>
    change (pollingContract _ _).pre (g .polling) _ at hreceive
    generalize g .polling = phase at hreceive
    cases phase <;> exact hreceive.elim
  | courier =>
    change (courierContract _ _).pre (g .courier) _ at hreceive
    generalize g .courier = phase at hreceive
    cases phase <;> exact hreceive.elim
  | client n => exact hreceive.elim

theorem UIPhase.Serves.answers {courierTid driverTid : Word} {waits : Prop} {u : UIPhase}
    (h : u.Serves courierTid waits) {message : List Byte} {size : Word}
    (hpre : (uiContract driverTid).pre u (.reply courierTid message size)) (a : Word) :
    waits ∧ ∃ subscriber, subscriber ≠ courierTid ∧
      (uiContract driverTid).next u (.reply courierTid message size) a = .idle subscriber none := by
  obtain ⟨subscriber, client⟩ := u
  rcases hpre with rfl | ⟨-, he, -⟩
  · exact ⟨h.2 rfl, subscriber, h.1, rfl⟩
  · exact absurd he.symm h.1

theorem carries_read (ch : Word) :
    (CourierPhase.read ch).carries (m := m) none = [ch].filter passesOn := by
  unfold CourierPhase.read
  split_ifs with hch
  · exact (List.filter_cons_of_pos (l := []) hch).symm
  · exact (List.filter_cons_of_neg (l := []) hch).symm

theorem continues_pair {i j : InputTask m} (hne : j ≠ i) {e e' : BaseEvent}
    (hj : (K.contract j).rely (g j) e.1 e.2) (hi : (K.contract i).rely (g i) e'.1 e'.2)
    (hfacts : ∀ g' : (i : InputTask m) → i.Phase, g' j = (K.contract j).next (g j) e.1 e.2 →
      g' i = (K.contract i).next (g i) e'.1 e'.2 → (∀ y, y ≠ j → y ≠ i → g' y = g y) →
        InputFacts (K.tid .courier) (log ++ [(j, e), (i, e')]) (g' .driver) (g' .ui) (g' .courier)
          (s'.awaits .courier)) :
    Continues K log g [(j, e), (i, e')] s' := by
  refine ⟨fun y e'' hmem ↦ ?_, hfacts _ (advance_pair_left hne e e')
    (advance_pair_right hne e e') fun y hyj hyi ↦ ?_⟩
  · rcases List.mem_cons.mp hmem with he | hmem
    · obtain ⟨rfl, rfl⟩ := Prod.mk.inj he
      exact hj
    · obtain ⟨rfl, rfl⟩ := Prod.mk.inj (List.mem_singleton.mp hmem)
      exact hi
  · rw [advance_of_ne hyj, advance_apart hyi]

theorem continues_answer_courier (h : InputState K log g s) {j x : InputTask m}
    {message message' : List Byte} {size room : Word} (hj : j ≠ .courier)
    (hreply : (K.contract j).pre (g j) (.reply (K.tid .courier) message size))
    (hsend : (K.contract .courier).pre (g .courier) (.send (K.tid x) message' room))
    (hserver : s.awaits .courier = some x) (hdone : s'.awaits .courier = none) :
    Continues K log g [(j, ⟨.reply (K.tid .courier) message size, K.setting.replied room size⟩),
      (.courier, ⟨.send (K.tid x) message' room, K.setting.returned room message size⟩)] s' := by
  have hfacts := h.facts
  rw [hserver] at hfacts
  cases j with
  | driver =>
    obtain ⟨ch, hd, rfl, rfl, hx⟩ := hfacts.driver.answers hreply
    obtain rfl : x = .driver := Option.some.inj hx
    rcases courier_sends hsend with ⟨hg, -, rfl, rfl⟩ | ⟨ch, -, he, -⟩
    · rw [hd, hg] at hfacts
      refine continues_pair hj ?_ ?_ fun g' hd' hg' hother ↦ ?_
      · change (g .driver).rely _ _
        rw [hd]
        trivial
      · change (courierContract _ _).rely (g .courier) _ _
        rw [hg]
        exact ⟨ch, rfl⟩
      · rw [hd', hg', hother .ui nofun nofun, hdone]
        change InputFacts _ _ ((g .driver).next _ _) _ ((courierContract _ _).next (g .courier) _ _) _
        rw [hd, hg]
        refine hfacts.keep ⟨.inl rfl, nofun⟩ (hfacts.ui.mono nofun) rfl rfl ?_
        have hnext : (courierContract (K.tid .driver) (K.tid .ui)).next .asking
            (.send (K.tid .driver) (wordBytes messageTypeGetChar) 4)
            (K.setting.returned 4 (wordBytes ch) 4) = .read ch :=
          congrArg CourierPhase.read (wordAt_wordBytes_self ch)
        rw [hnext, carries_read]
        exact List.append_nil _
    · exact nomatch K.tid_injective he
  | ui =>
    obtain ⟨hx, subscriber, hne, hnext⟩ := hfacts.ui.answers hreply (K.setting.replied room size)
    obtain rfl : x = .ui := Option.some.inj hx
    rcases courier_sends hsend with ⟨-, he, -⟩ | ⟨ch, hg, -⟩
    · exact nomatch K.tid_injective he
    · rw [hg] at hfacts
      refine continues_pair hj trivial ?_ fun g' hu' hg' hother ↦ ?_
      · change (courierContract _ _).rely (g .courier) _ _
        rw [hg]
        trivial
      · rw [hu', hg', hother .driver nofun nofun, hdone]
        change InputFacts _ _ _ ((uiContract _).next (g .ui) _ _)
          ((courierContract _ _).next (g .courier) _ _) _
        rw [hg, hnext]
        exact hfacts.keep (hfacts.driver.mono nofun) ⟨hne, nofun⟩ rfl rfl rfl
  | polling =>
    change (pollingContract _ _).pre (g .polling) _ at hreply
    generalize g .polling = phase at hreply
    cases phase <;> exact hreply.elim
  | courier => exact absurd rfl hj
  | client n => exact hreply.elim

theorem continues_answer_other (h : InputState K log g s) {i j : InputTask m}
    {message message' : List Byte} {size room target : Word} {returned : Returned}
    (hne : j ≠ i) (hi : i ≠ .courier)
    (hreply : (K.contract j).pre (g j) (.reply (K.tid i) message size))
    (hsend : (K.contract i).pre (g i) (.send target message' room))
    (hawaits : s'.awaits .courier = s.awaits .courier) (a : Word) :
    Continues K log g [(j, ⟨.reply (K.tid i) message size, a⟩),
      (i, ⟨.send target message' room, returned⟩)] s' := by
  have hrely : (K.contract i).rely (g i) (.send target message' room) returned := by
    cases i with
    | driver => exact absurd hsend driver_sends_nothing
    | courier => exact absurd rfl hi
    | _ => trivial
  have hcourier : K.tid i = K.tid .courier → s.awaits .courier ≠ some .driver :=
    fun he ↦ absurd (K.tid_injective he) hi
  cases j with
  | driver =>
    refine continues_pair hne ?_ hrely fun g' hd' hi' hother ↦ ?_
    · change (g .driver).rely _ _
      cases g .driver <;> trivial
    · have hui : g' .ui = g .ui := by
        by_cases hu : i = .ui
        · subst hu
          rw [hi']
          change (uiContract _).next (g .ui) _ _ = g .ui
          obtain ⟨subscriber, client⟩ := g .ui
          cases client <;> rfl
        · exact hother .ui nofun (Ne.symm hu)
      rw [hd', hui, hother .courier nofun (Ne.symm hi), hawaits]
      refine h.facts.driver_replies hreply hcourier a rfl ?_
      cases i <;> rfl
  | ui =>
    refine continues_pair hne trivial hrely fun g' hu' hi' hother ↦ ?_
    have hdriver : (InputTask.driver : InputTask m) ≠ i := by
      rintro rfl
      exact driver_sends_nothing hsend
    rw [hu', hother .driver nofun hdriver, hother .courier nofun (Ne.symm hi), hawaits]
    have hfacts := h.facts
    change InputFacts _ _ _ ((uiContract _).next (g .ui) _ _) _ _
    generalize g .ui = phase at hfacts ⊢
    obtain ⟨subscriber, client⟩ := phase
    have hzero : (0 : Word) ≠ K.tid .courier := (K.tid_ne_zero .courier).symm
    have hprocessed : charactersProcessed [(.ui, ⟨.reply (K.tid i) message size, a⟩),
        (i, ⟨.send target message' room, returned⟩)] = [] := by
      cases i <;> rfl
    cases client with
    | none => exact hfacts.keep hfacts.driver ⟨hzero, nofun⟩ rfl hprocessed rfl
    | some client => exact hfacts.keep hfacts.driver ⟨hfacts.ui.1, nofun⟩ rfl hprocessed rfl
  | polling =>
    change (pollingContract _ _).pre (g .polling) _ at hreply
    generalize g .polling = phase at hreply
    cases phase <;> exact hreply.elim
  | courier =>
    change (courierContract _ _).pre (g .courier) _ at hreply
    generalize g .courier = phase at hreply
    cases phase <;> exact hreply.elim
  | client n => exact hreply.elim

theorem InputState.continues (h : InputState K log g s) (hl : Step K.setting baseTasks s l s') :
    Continues K log g l s' := by
  cases hl.talk with
  | silent hawaits =>
    refine ⟨nofun, ?_⟩
    rw [List.append_nil, advance_nil, hawaits]
    exact h.facts
  | alone htask hquiet hawaits => exact continues_alone h htask hquiet hawaits
  | deliver hi hj hfree hawaits => exact continues_deliver h hi hj hfree hawaits
  | @answer i j x message message' size room k k' hj hi hserver hawaits =>
    have hne : j ≠ i := by
      rintro rfl
      rw [hj] at hi
      cases hi
    by_cases hc : i = .courier
    · subst hc
      exact continues_answer_courier h hne (h.follows.pre hj) (h.follows.pre hi) hserver
        ((hawaits _).trans (if_pos rfl))
    · exact continues_answer_other h hne hc (h.follows.pre hj) (h.follows.pre hi)
        ((hawaits _).trans (if_neg (Ne.symm hc))) _

theorem InputState.step (h : InputState K log g s) (hl : Step K.setting baseTasks s l s') :
    InputState K (log ++ l) (advance K.contract g l) s' where
  follows := hl.follows K.contract_kept h.follows (h.continues hl).1
  begun i := (hl.moves i).not_dormant (h.begun i)
  facts := (h.continues hl).2

theorem InputSetup.start_state : InputState K [] firstPhase K.start where
  follows := K.start_follows
  begun _ := nofun
  facts := ⟨⟨.inl rfl, nofun⟩, ⟨(K.tid_ne_zero _).symm, nofun⟩, rfl⟩

theorem input_run {ls : List (InputLog m)} (h : Run (Step K.setting baseTasks) K.start ls s) :
    (∃ g, InputState K ls.flatten g s) ∧
      ∀ room received, (.ui, ⟨.receive room, received⟩) ∈ ls.flatten →
        ∃ sender message, message.length = 8 ∧ received = uiReceives sender message := by
  induction h with
  | nil => exact ⟨⟨_, K.start_state⟩, nofun⟩
  | @snoc ls s s' l _ hl ih =>
    obtain ⟨⟨g, hg⟩, hmessages⟩ := ih
    rw [List.flatten_append, List.flatten_singleton]
    refine ⟨⟨_, hg.step hl⟩, fun room received hmem ↦ ?_⟩
    rcases List.mem_append.mp hmem with hmem | hmem
    · exact hmessages room received hmem
    · exact (hg.continues hl).1 _ _ hmem

/-- The characters that the user interface processes are the first of those
that the device gave and that the courier passes on. All messages fill the
buffer of the user interface, so that no byte of an old one is looked at, and
those that count are handled as a character. -/
theorem input_pipeline (K : InputSetup m) {ls : List (InputLog m)} {s : InputSystem m}
    (h : Run (Step K.setting baseTasks) K.start ls s) :
    charactersProcessed ls.flatten <+: (charactersRead ls.flatten).filter passesOn ∧
      ∀ room received, (.ui, ⟨.receive room, received⟩) ∈ ls.flatten →
        received.size = 8 ∧ received.bytes.length = 8 ∧
          ∀ ch, characterIn received = some ch → ProcessesAs received ch := by
  obtain ⟨⟨g, hg⟩, hmessages⟩ := input_run h
  refine ⟨?_, fun room received hmem ↦ ?_⟩
  · rw [← hg.facts.flow, List.append_assoc]
    exact List.prefix_append _ _
  · obtain ⟨sender, message, hlen, rfl⟩ := hmessages room received hmem
    have hbytes : (uiReceives sender message).bytes.length = 8 := by rwa [uiReceives_bytes hlen]
    exact ⟨uiReceives_size hlen, hbytes, fun ch hch ↦ handle_character hch hbytes⟩

end Steps

def keyTid : InputTask 0 → Word
  | .driver => 0x100
  | .polling => 0x200
  | .courier => 0x300
  | .ui => 0x400
  | .client n => n.elim0

theorem keyTid_injective : Function.Injective keyTid := by
  intro i j h
  cases i with
  | client n => exact n.elim0
  | _ =>
    cases j with
    | client n => exact n.elim0
    | _ => first | rfl | exact absurd h (by decide)

def keySetup : InputSetup 0 where
  tid := keyTid
  tid_injective := keyTid_injective
  tid_ne_zero i := by
    cases i with
    | client n => exact n.elim0
    | _ => decide
  eventId := 3
  courier := ⟨0x400, 0x100, 2 :: List.replicate 7 0, 0⟩
  courier_driver := rfl
  courier_ui := rfl
  courier_length := rfl
  courier_type := rfl
  ui := SerialUI.clearLine ⟨0x100, 0, [], 0, List.replicate 80 0, List.replicate 8 0,
    wordBytes 0x300⟩
  ui_driver := rfl
  ui_free := rfl
  ui_length := rfl

/-- The prompt appears, and the key 'a' comes in. -/
theorem input_pipeline_key : ∃ ls s,
    Run (Step keySetup.setting baseTasks) keySetup.start ls s ∧
      charactersProcessed ls.flatten = [97] ∧
      (charactersProcessed ls.flatten <+: (charactersRead ls.flatten).filter passesOn ∧
        ∀ room received, (.ui, ⟨.receive room, received⟩) ∈ ls.flatten →
          received.size = 8 ∧ received.bytes.length = 8 ∧
            ∀ ch, characterIn received = some ch → ProcessesAs received ch) := by
  have h₀ : Run (Step keySetup.setting baseTasks) keySetup.start [] keySetup.start := .nil
  -- the driver puts out the prompt of the user interface
  have h₁ := h₀.snoc (.jump (i := InputTask.driver) rfl rfl)
  have h₂ := h₁.snoc (.listen (j := InputTask.driver) rfl rfl)
  have h₃ := h₂.snoc (.handOff (i := InputTask.ui) (j := InputTask.driver) rfl rfl)
  have h₄ := h₃.snoc (.outside (K := keySetup.setting) (i := .driver) (e := .putCharBlocking 62)
    (x := 0) (w := ()) rfl trivial)
  have h₅ := h₄.snoc (.reply (i := InputTask.ui) (j := InputTask.driver) rfl rfl)
  have h₆ := h₅.snoc (.jump (i := InputTask.driver) rfl rfl)
  have h₇ := h₆.snoc (.listen (j := InputTask.driver) rfl rfl)
  have h₈ := h₇.snoc (.jump (i := InputTask.ui) rfl rfl)
  have h₉ := h₈.snoc (.listen (j := InputTask.ui) rfl rfl)
  -- the courier asks for a character, and brings it to the user interface
  have h₁₀ := h₉.snoc (.jump (i := InputTask.courier) rfl rfl)
  have h₁₁ := h₁₀.snoc (.outside (K := keySetup.setting) (i := .courier) (e := .unset 4)
    (x := fun _ ↦ 0) (w := ()) rfl trivial)
  have h₁₂ := h₁₁.snoc (.handOff (i := InputTask.courier) (j := InputTask.driver) rfl rfl)
  have h₁₃ := h₁₂.snoc (.outside (K := keySetup.setting) (i := .driver) (e := .getCharNonBlocking)
    (x := 97) (w := ()) rfl trivial)
  have h₁₄ := h₁₃.snoc (.reply (i := InputTask.courier) (j := InputTask.driver) rfl rfl)
  have h₁₅ := h₁₄.snoc (.handOff (i := InputTask.courier) (j := InputTask.ui) rfl rfl)
  exact ⟨_, _, h₁₅, rfl, input_pipeline keySetup h₁₅⟩

end PrjOS
