import PrjOS.BaseTasks.Contracts
import PrjOS.Library.Handshake

namespace PrjOS

open ByteMemory Program Rendezvous

/-- The stages of a task that creates a helper for itself before it serves:
the first message, the helper, the greeting of the helper, the answer. -/
inductive ServerStage (P : Type)
  | fresh
  | starting (sender : Word)
  | greeting (sender : Word)
  | greeted (sender : Word)
  | serving (phase : P)

structure ServerRole (P : Type) where
  room : Word
  first : Incoming → Prop
  helper : Point
  helperTid : Word
  greeting : List Byte → Prop
  serve : Contract BaseCall BaseAnswer P
  begins : P

namespace ServerRole

variable {P : Type} (R : ServerRole P)

def contract : Contract BaseCall BaseAnswer (ServerStage P) where
  pre
    | .fresh, .outside (.unset _) => True
    | .fresh, .receive room => room = R.room
    | .starting _, .create entry => entry = R.helper
    | .greeting _, .send target message _ => target = R.helperTid ∧ R.greeting message
    | .greeted sender, .reply target _ _ => target = sender
    | .serving phase, c => R.serve.pre phase c
    | _, _ => False
  rely
    | .fresh, .receive _, received => R.first received
    | .starting _, .create _, tid => tid = R.helperTid
    | .serving phase, c, a => R.serve.rely phase c a
    | _, _, _ => True
  next
    | .fresh, .receive _, received => .starting received.sender
    | .starting sender, .create _, _ => .greeting sender
    | .greeting sender, .send .., _ => .greeted sender
    | .greeted _, .reply .., _ => .serving R.begins
    | .serving phase, c, a => .serving (R.serve.next phase c a)
    | stage, _, _ => stage

end ServerRole

namespace ServerStage

variable {P : Type}

def turn : ServerStage P → Turn
  | fresh => .before
  | starting _ => .before
  | greeting _ => .now
  | greeted _ => .past
  | serving _ => .past

def greetedBy : ServerStage P → Greeted
  | fresh => .fresh
  | starting sender => .answering sender
  | greeting sender => .answering sender
  | greeted sender => .answering sender
  | serving _ => .past

/-- A helper is created only after a first message. -/
theorem greetedBy_ne_fresh {stage : ServerStage P} (h : stage.turn ≠ .before) :
    stage.greetedBy ≠ .fresh := by
  cases stage with
  | fresh => exact absurd rfl h
  | _ => nofun

def owes (owed : P → List Word) : ServerStage P → List Word
  | fresh => []
  | starting sender => [sender]
  | greeting sender => [sender]
  | greeted sender => [sender]
  | serving phase => owed phase

end ServerStage

section Server

variable {P : Type} {R : ServerRole P} {ι E W : Type}

theorem ServerRole.isGreeted : IsGreeted R.contract ServerStage.greetedBy where
  receive := by
    intro stage room hpre received
    cases stage with
    | fresh => exact .inl ⟨rfl, rfl⟩
    | serving phase => exact .inr ⟨rfl, rfl⟩
    | _ => exact hpre.elim
  reply := by
    intro stage target message size hpre a
    cases stage with
    | greeted sender =>
      obtain rfl : target = sender := hpre
      exact .inl ⟨rfl, rfl⟩
    | serving phase => exact .inr ⟨rfl, rfl⟩
    | _ => exact hpre.elim
  other := by
    intro stage call a hpre hreceive hreply
    cases stage with
    | serving phase => rfl
    | fresh =>
      cases call with
      | receive room => exact absurd rfl (hreceive room)
      | _ => rfl
    | greeted sender =>
      cases call with
      | reply target message size => exact absurd rfl (hreply target message size)
      | _ => rfl
    | starting sender => cases call <;> rfl
    | greeting sender => cases call <;> rfl

theorem ServerRole.greets {K : Setting ι Outside Point W Outside.Answer} {c : ι}
    (hhome : K.home R.helper = c) (htid : R.helperTid = K.tid c)
    (hcreate : ∀ phase entry, ¬ R.serve.pre phase (.create entry))
    (hsend : ∀ phase message room, ¬ R.serve.pre phase (.send (K.tid c) message room)) :
    Greets K c R.contract ServerStage.turn where
  create := by
    intro stage entry hpre tid
    cases stage with
    | starting sender =>
      obtain rfl : entry = R.helper := hpre
      exact .inl ⟨rfl, hhome, rfl⟩
    | serving phase => exact absurd hpre (hcreate phase entry)
    | _ => exact hpre.elim
  send := by
    intro stage target message room hpre returned
    cases stage with
    | greeting sender => exact .inl ⟨hpre.1.trans htid, rfl, rfl⟩
    | serving phase =>
      refine .inr ⟨?_, nofun, rfl⟩
      rintro rfl
      exact hsend phase message room hpre
    | _ => exact hpre.elim
  other := by
    intro stage call a hpre hcreate hsend
    cases stage with
    | serving phase => rfl
    | fresh => cases call <;> rfl
    | greeted sender => cases call <;> rfl
    | starting sender =>
      cases call with
      | create entry => exact absurd rfl (hcreate entry)
      | _ => rfl
    | greeting sender =>
      cases call with
      | send target message room => exact absurd rfl (hsend target message room)
      | _ => rfl

theorem ServerRole.keepsAccount {owed : P → List Word} (h : KeepsAccount R.serve owed)
    (hbegins : owed R.begins = []) : KeepsAccount R.contract (ServerStage.owes owed) where
  reply := by
    intro stage target message size hpre
    cases stage with
    | greeted sender => exact List.mem_singleton.mpr hpre
    | serving phase => exact h.reply hpre
    | _ => exact hpre.elim
  next := by
    intro stage call a hpre
    cases stage with
    | serving phase => exact h.next a hpre
    | fresh =>
      cases call with
      | receive room => exact List.Sublist.refl _
      | _ => exact List.nil_sublist _
    | starting sender =>
      cases call with
      | create entry => exact List.Sublist.refl _
      | _ => exact hpre.elim
    | greeting sender =>
      cases call with
      | send target message room => exact List.Sublist.refl _
      | _ => exact hpre.elim
    | greeted sender =>
      cases call with
      | reply target message size =>
        change (owed R.begins).Sublist _
        rw [hbegins]
        exact List.nil_sublist _
      | _ => exact hpre.elim

end Server

/-- The stages of a helper, and of any task that only sends after its first
message is answered. -/
inductive HelperStage
  | fresh
  | answering (sender : Word)
  | working
  deriving DecidableEq

/-- What sets such a task apart from others: where it gets what, and the calls
of its work. -/
structure HelperRole where
  parentTid : Word
  room : Word
  first : Incoming → Prop
  work : BaseCall → Prop

namespace HelperRole

def contract (R : HelperRole) : Contract BaseCall BaseAnswer HelperStage where
  pre
    | .fresh, .outside (.unset _) => True
    | .fresh, .getParent => True
    | .fresh, .receive room => room = R.room
    | .answering sender, .reply target _ _ => target = sender
    | .working, c => R.work c
    | _, _ => False
  rely
    | .fresh, .getParent, tid => tid = R.parentTid
    | .fresh, .receive _, received => R.first received
    | _, _, _ => True
  next
    | .fresh, .receive _, received => .answering received.sender
    | .answering _, .reply .., _ => .working
    | stage, _, _ => stage

end HelperRole

namespace HelperStage

def greetedBy : HelperStage → Greeted
  | fresh => .fresh
  | answering sender => .answering sender
  | working => .past

def owes : HelperStage → List Word
  | fresh => []
  | answering sender => [sender]
  | working => []

end HelperStage

section Helper

variable {R : HelperRole}

theorem HelperRole.isGreeted (hreceive : ∀ room, ¬ R.work (.receive room))
    (hreply : ∀ target message size, ¬ R.work (.reply target message size)) :
    IsGreeted R.contract HelperStage.greetedBy where
  receive := by
    intro stage room hpre received
    cases stage with
    | fresh => exact .inl ⟨rfl, rfl⟩
    | answering sender => exact hpre.elim
    | working => exact absurd hpre (hreceive room)
  reply := by
    intro stage target message size hpre a
    cases stage with
    | fresh => exact hpre.elim
    | answering sender =>
      obtain rfl : target = sender := hpre
      exact .inl ⟨rfl, rfl⟩
    | working => exact absurd hpre (hreply target message size)
  other := by
    intro stage call a hpre hreceive hreply
    cases stage with
    | fresh =>
      cases call with
      | receive room => exact absurd rfl (hreceive room)
      | _ => rfl
    | answering sender =>
      cases call with
      | reply target message size => exact absurd rfl (hreply target message size)
      | _ => rfl
    | working => cases call <;> rfl

theorem HelperRole.keepsAccount
    (hreply : ∀ target message size, ¬ R.work (.reply target message size)) :
    KeepsAccount R.contract HelperStage.owes where
  reply := by
    intro stage target message size hpre
    cases stage with
    | fresh => exact hpre.elim
    | answering sender => exact List.mem_singleton.mpr hpre
    | working => exact absurd hpre (hreply target message size)
  next := by
    intro stage call a hpre
    cases stage with
    | fresh =>
      cases call with
      | receive room => exact List.Sublist.refl _
      | _ => exact List.nil_sublist _
    | answering sender =>
      cases call with
      | reply target message size => exact List.nil_sublist _
      | _ => exact hpre.elim
    | working => cases call <;> exact List.nil_sublist _

end Helper

section Owed

def parkedTid (tid : Word) : List Word := if tid = 0 then [] else [tid]

theorem parkedTid_sublist (tid : Word) : (parkedTid tid).Sublist [tid] := by
  unfold parkedTid
  split_ifs
  · exact List.nil_sublist _
  · exact List.Sublist.refl _

theorem mem_parkedTid {tid : Word} (h : tid ≠ 0) : tid ∈ parkedTid tid := by
  rw [parkedTid, if_neg h]
  exact List.mem_singleton_self _

def DriverPhase.owes : DriverPhase → List Word
  | idle parked client => client.toList ++ parkedTid parked
  | asked reader parked => reader :: parkedTid parked
  | notified notifier parked => notifier :: parkedTid parked
  | checking parked => [parked]
  | handing reader _ parked => reader :: parkedTid parked

theorem driverContract_keepsAccount : KeepsAccount driverContract DriverPhase.owes where
  reply := by
    intro phase target message size hpre
    cases phase with
    | idle parked client =>
      obtain rfl : client = some target := hpre
      exact List.mem_cons_self
    | notified notifier parked =>
      obtain rfl : target = notifier := hpre
      exact List.mem_cons_self
    | handing reader ch parked =>
      obtain ⟨rfl, -⟩ := hpre
      exact List.mem_cons_self
    | _ => exact hpre.elim
  next := by
    intro phase call a hpre
    cases phase with
    | idle parked client =>
      cases call with
      | receive room =>
        have hrest : (parkedTid parked).Sublist (client.toList ++ parkedTid parked) :=
          List.sublist_append_right _ _
        change (DriverPhase.received parked a).owes.Sublist (a.sender :: _)
        unfold DriverPhase.received
        split_ifs <;> exact hrest.cons_cons _
      | reply target message size =>
        obtain rfl : client = some target := hpre
        change (parkedTid parked).Sublist ((target :: parkedTid parked).erase target)
        rw [List.erase_cons_head]
      | outside e => cases e <;> exact List.Sublist.refl _
      | _ => exact hpre.elim
    | asked reader parked =>
      cases call with
      | outside e =>
        cases e with
        | getCharNonBlocking =>
          change (DriverPhase.owes (if a = -1 then _ else _)).Sublist (reader :: _)
          split_ifs
          · exact (parkedTid_sublist reader).trans (List.singleton_sublist.mpr List.mem_cons_self)
          · exact List.Sublist.refl _
          · exact List.Sublist.refl _
        | _ => exact hpre.elim
      | _ => exact hpre.elim
    | notified notifier parked =>
      cases call with
      | reply target message size =>
        obtain rfl : target = notifier := hpre
        change (DriverPhase.owes (if parked ≠ 0 then _ else _)).Sublist
          ((target :: parkedTid parked).erase target)
        rw [List.erase_cons_head]
        split_ifs with hparked
        · exact List.singleton_sublist.mpr (mem_parkedTid hparked)
        · exact List.nil_sublist _
      | _ => exact hpre.elim
    | checking parked =>
      cases call with
      | outside e =>
        cases e with
        | getCharNonBlocking =>
          change (DriverPhase.owes (if a = -1 then _ else _)).Sublist [parked]
          split_ifs
          · exact parkedTid_sublist parked
          · exact List.Sublist.refl _
        | _ => exact hpre.elim
      | _ => exact hpre.elim
    | handing reader ch parked =>
      cases call with
      | reply target message size =>
        obtain ⟨rfl, -⟩ := hpre
        change (parkedTid parked).Sublist ((target :: parkedTid parked).erase target)
        rw [List.erase_cons_head]
      | _ => exact hpre.elim

def UIPhase.owes : UIPhase → List Word
  | idle subscriber client => client.toList ++ parkedTid subscriber

theorem uiContract_keepsAccount (driverTid : Word) :
    KeepsAccount (uiContract driverTid) UIPhase.owes where
  reply := by
    intro phase target message size hpre
    obtain ⟨subscriber, client⟩ := phase
    rcases hpre with rfl | ⟨rfl, rfl, hne⟩
    · exact List.mem_cons_self
    · exact mem_parkedTid hne
  next := by
    intro phase call a hpre
    obtain ⟨subscriber, client⟩ := phase
    cases call with
    | receive room =>
      have hrest : (parkedTid subscriber).Sublist (client.toList ++ parkedTid subscriber) :=
        List.sublist_append_right _ _
      change (UIPhase.received subscriber a).owes.Sublist (a.sender :: _)
      unfold UIPhase.received
      split_ifs
      · exact (parkedTid_sublist _).trans (List.singleton_sublist.mpr List.mem_cons_self)
      · exact hrest.cons_cons _
    | reply target message size =>
      cases client with
      | none => exact List.nil_sublist _
      | some client =>
        obtain rfl : client = target :=
          Option.some.inj (hpre.resolve_right fun h ↦ nomatch h.1)
        change (parkedTid subscriber).Sublist ((client :: parkedTid subscriber).erase client)
        rw [List.erase_cons_head]
    | send target message room => cases client <;> exact List.Sublist.refl _
    | _ => exact hpre.elim

end Owed

inductive InitStage
  | begins
  | driverMade
  | driverReady
  | uiMade
  | uiReady
  | executorMade
  | stopped
  deriving DecidableEq

namespace InitStage

def driverTurn : InitStage → Turn
  | begins => .before
  | driverMade => .now
  | _ => .past

def uiTurn : InitStage → Turn
  | uiMade => .now
  | uiReady => .past
  | executorMade => .past
  | stopped => .past
  | _ => .before

def executorTurn : InitStage → Turn
  | executorMade => .now
  | stopped => .past
  | _ => .before

end InitStage

def initContract (driverTid uiTid executorTid : Word) :
    Contract BaseCall BaseAnswer InitStage where
  pre
    | .begins, .outside (.unset _) => True
    | .begins, .create entry => entry = .serialDriverTask
    | .driverMade, .send target _ _ => target = driverTid
    | .driverReady, .create entry => entry = .serialUITask
    | .uiMade, .send target message _ => target = uiTid ∧ message = wordBytes driverTid
    | .uiReady, .create entry => entry = .commandExecutorEntry
    | .executorMade, .send target message _ =>
      target = executorTid ∧ message = wordBytes driverTid ++ wordBytes uiTid
    | _, _ => False
  rely
    | .begins, .create _, tid => tid = driverTid
    | .driverReady, .create _, tid => tid = uiTid
    | .uiReady, .create _, tid => tid = executorTid
    | _, _, _ => True
  next
    | .begins, .create _, _ => .driverMade
    | .driverMade, .send .., _ => .driverReady
    | .driverReady, .create _, _ => .uiMade
    | .uiMade, .send .., _ => .uiReady
    | .uiReady, .create _, _ => .executorMade
    | .executorMade, .send .., _ => .stopped
    | stage, _, _ => stage

/-- The stage changes with the tasks that are created and greeted. -/
theorem initContract_next {driverTid uiTid executorTid : Word} {stage : InitStage}
    {call : BaseCall} (a : BaseAnswer call) (hcreate : ∀ entry, call ≠ .create entry)
    (hsend : ∀ target message room, call ≠ .send target message room) :
    (initContract driverTid uiTid executorTid).next stage call a = stage := by
  cases call with
  | create entry => exact absurd rfl (hcreate entry)
  | send target message room => exact absurd rfl (hsend target message room)
  | _ => cases stage <;> rfl

def initAt : Point → InitStage → Prop
  | .initialise _, stage => stage = .begins
  | .stopped, stage => stage = .stopped
  | _, _ => False

theorem initContract_kept (driverTid uiTid executorTid : Word) :
    (initContract driverTid uiTid executorTid).Kept initAt baseTasks := by
  intro pt stage p h hb
  cases pt with
  | initialise initData =>
    obtain rfl : stage = .begins := h
    obtain rfl := Option.some.inj hb
    simp only [initialise, initializeSerialDriver, initializeSerialUI, cliInit, unset_bind,
      prjCreate_bind, prjSend_bind, pure_eq_done]
    refine ⟨trivial, fun _ _ ↦ ⟨rfl, fun driver hdriver ↦ ⟨hdriver, fun _ _ ↦ ⟨rfl,
      fun ui hui ↦ ?_⟩⟩⟩⟩
    obtain rfl : driver = driverTid := hdriver
    obtain rfl : ui = uiTid := hui
    refine ⟨⟨rfl, rfl⟩, fun _ _ ↦ ⟨rfl, fun executor hexecutor ↦ ?_⟩⟩
    exact ⟨⟨hexecutor, rfl⟩, fun _ _ ↦ rfl⟩
  | stopped => cases hb
  | _ => exact h.elim

theorem initContract_keepsAccount (driverTid uiTid executorTid : Word) :
    KeepsAccount (initContract driverTid uiTid executorTid) fun _ ↦ [] where
  reply := by
    intro stage target message size hpre
    cases stage <;> exact hpre.elim
  next _ _ := List.nil_sublist _

def driverRole (pollingTid : Word) : ServerRole DriverPhase where
  room := serialDriverDataSize
  first _ := True
  helper := .incomingCharacterPollingTask
  helperTid := pollingTid
  greeting _ := True
  serve := driverContract
  begins := .idle 0 none

def driverStageAt : Point → ServerStage DriverPhase → Prop
  | .serialDriverTask, stage => stage = .fresh
  | pt, stage => ∃ phase, stage = .serving phase ∧ driverAt pt phase

theorem driverRole_kept (pollingTid : Word) :
    (driverRole pollingTid).contract.Kept driverStageAt baseTasks := by
  intro pt stage p h hb
  cases pt with
  | serialDriverTask =>
    obtain rfl : stage = .fresh := h
    obtain rfl := Option.some.inj hb
    simp only [serialDriverTask, unset_bind, prjReceive_bind, prjCreate_bind, prjSend_bind,
      prjReply_bind, pure_eq_done]
    refine ⟨trivial, fun _ _ ↦ ⟨rfl, fun received _ ↦ ⟨rfl, fun polling hpolling ↦ ?_⟩⟩⟩
    exact ⟨⟨hpolling, trivial⟩, fun _ _ ↦ ⟨rfl, fun _ _ ↦ ⟨_, rfl, rfl, none, rfl⟩⟩⟩
  | serialDriver data =>
    obtain ⟨phase, rfl, h⟩ := h
    refine (driverContract_kept _ _ _ h hb).embed ServerStage.serving (fun _ _ ↦ id)
      (fun _ _ _ ↦ id) (fun _ _ _ ↦ rfl) fun pt phase h ↦ ?_
    cases pt with
    | serialDriver data => exact ⟨phase, rfl, h⟩
    | _ => exact h.elim
  | _ =>
    obtain ⟨phase, -, h⟩ := h
    exact h.elim

def greetsWith (driverTid : Word) (received : Incoming) : Prop :=
  received.bytes = wordBytes driverTid

def uiRole (driverTid courierTid : Word) : ServerRole UIPhase where
  room := 4
  first := greetsWith driverTid
  helper := .serialUICharacterCourier
  helperTid := courierTid
  greeting message := message = wordBytes driverTid
  serve := uiContract driverTid
  begins := .idle 0 none

def uiStageAt (driverTid : Word) : Point → ServerStage UIPhase → Prop
  | .serialUITask, stage => stage = .fresh
  | pt, stage => ∃ phase, stage = .serving phase ∧ uiAt driverTid pt phase

theorem uiRole_serves {driverTid courierTid : Word} {p : BaseProg Point} {phase : UIPhase}
    (h : p.Meets (uiContract driverTid) (uiAt driverTid) phase) :
    p.Meets (uiRole driverTid courierTid).contract (uiStageAt driverTid) (.serving phase) := by
  refine h.embed ServerStage.serving (fun _ _ ↦ id) (fun _ _ _ ↦ id) (fun _ _ _ ↦ rfl)
    fun pt phase h ↦ ?_
  cases pt with
  | serialUI ui => exact ⟨phase, rfl, h⟩
  | _ => exact h.elim

theorem uiRole_kept (driverTid courierTid : Word) :
    (uiRole driverTid courierTid).contract.Kept (uiStageAt driverTid) baseTasks := by
  intro pt stage p h hb
  cases pt with
  | serialUITask =>
    obtain rfl : stage = .fresh := h
    obtain rfl := Option.some.inj hb
    simp only [serialUITask, unset_bind, prjReceive_bind, prjCreate_bind, prjSend_bind,
      prjReply_bind, pure_eq_done]
    refine ⟨trivial, fun tid _ ↦ ⟨trivial, fun command _ ↦ ⟨trivial, fun message _ ↦ ⟨rfl,
      fun received hreceived ↦ ⟨rfl, fun courier hcourier ↦ ?_⟩⟩⟩⟩⟩
    have hdriver : wordAt (overwrite (List.ofFn tid) received.bytes) 0 = driverTid := by
      have hbytes : received.bytes = wordBytes driverTid := hreceived
      rw [hbytes]
      exact wordAt_wordBytes _ _
    rw [hdriver]
    refine ⟨⟨hcourier, rfl⟩, fun sent _ ↦ ⟨rfl, fun _ _ ↦ uiRole_serves ?_⟩⟩
    exact prjPutStr_follows fun _ ↦ ⟨rfl, List.length_ofFn, none, rfl⟩
  | serialUI ui =>
    obtain ⟨phase, rfl, h⟩ := h
    exact uiRole_serves (uiContract_kept driverTid _ _ _ h hb)
  | _ =>
    obtain ⟨phase, -, h⟩ := h
    exact h.elim

def pollingRole (driverTid : Word) : HelperRole where
  parentTid := driverTid
  room := 4
  first _ := True
  work
    | .awaitEvent _ => True
    | .send target message _ =>
      target = driverTid ∧ message = wordBytes messageTypeCharacterReceived
    | _ => False

def pollingStageAt (driverTid : Word) : Point → HelperStage → Prop
  | .incomingCharacterPollingTask, stage => stage = .fresh
  | .polling parentTid _, stage => stage = .working ∧ parentTid = driverTid
  | _, _ => False

theorem pollingRole_kept (driverTid : Word) :
    (pollingRole driverTid).contract.Kept (pollingStageAt driverTid) baseTasks := by
  intro pt stage p h hb
  cases pt with
  | incomingCharacterPollingTask =>
    obtain rfl : stage = .fresh := h
    obtain rfl := Option.some.inj hb
    simp only [incomingCharacterPollingTask, prjGetParentTid_bind, unset_bind, prjReceive_bind,
      prjReply_bind, pure_eq_done]
    exact ⟨trivial, fun parent hparent ↦ ⟨trivial, fun _ _ ↦ ⟨rfl, fun _ _ ↦ ⟨rfl,
      fun _ _ ↦ ⟨rfl, hparent⟩⟩⟩⟩⟩
  | polling parentTid event =>
    obtain ⟨rfl, rfl⟩ := h
    obtain rfl := Option.some.inj hb
    simp only [pollingLoop, prjAwaitEvent_bind, prjSend_bind, pure_eq_done]
    exact ⟨trivial, fun _ _ ↦ ⟨⟨rfl, rfl⟩, fun _ _ ↦ ⟨rfl, rfl⟩⟩⟩
  | _ => exact h.elim

def courierRole (driverTid uiTid : Word) : HelperRole where
  parentTid := uiTid
  room := 4
  first received := received.sender = uiTid ∧ greetsWith driverTid received
  work
    | .outside (.unset _) => True
    | .send target message _ => target = driverTid ∧ message = wordBytes messageTypeGetChar ∨
      target = uiTid ∧ message.length = 8
    | _ => False

def courierStageAt (driverTid uiTid : Word) : Point → HelperStage → Prop
  | .serialUICharacterCourier, stage => stage = .fresh
  | .courier c, stage => stage = .working ∧ c.serialDriverTid = driverTid ∧
    c.uiTaskTid = uiTid ∧ c.message.length = 8
  | _, _ => False

theorem courierRole_kept (driverTid uiTid : Word) :
    (courierRole driverTid uiTid).contract.Kept (courierStageAt driverTid uiTid) baseTasks := by
  intro pt stage p h hb
  cases pt with
  | serialUICharacterCourier =>
    obtain rfl : stage = .fresh := h
    obtain rfl := Option.some.inj hb
    simp only [serialUICharacterCourier, unset_bind, prjReceive_bind, prjReply_bind, pure_eq_done]
    refine ⟨trivial, fun tid _ ↦ ⟨trivial, fun message _ ↦ ⟨rfl, fun received hreceived ↦ ⟨rfl,
      fun _ _ ↦ ⟨rfl, ?_, hreceived.1, ?_⟩⟩⟩⟩⟩
    · have hbytes : received.bytes = wordBytes driverTid := hreceived.2
      rw [hbytes]
      exact wordAt_wordBytes _ _
    · rw [List.length_set, List.length_ofFn]
  | courier c =>
    obtain ⟨rfl, rfl, rfl, hlen⟩ := h
    obtain rfl := Option.some.inj hb
    rw [courierLoop, meets_bind]
    have hafter (read : CharRead) : Prog.Meets (courierRole c.serialDriverTid c.uiTaskTid).contract
        (courierStageAt c.serialDriverTid c.uiTaskTid)
        (if 0 < read.ret ∧ 0 < (byteOf read.charOut 0).toInt then do
          let message := withData c.message read.charOut
          let sent ← prjSend c.uiTaskTid message 4
          return .courier { c with
            message := message, ch := wordAt (overwrite (wordBytes read.charOut) sent.bytes) 0 }
        else return .courier { c with ch := read.charOut }) .working := by
      split_ifs
      · have hdata := length_withData hlen read.charOut
        exact ⟨.inr ⟨rfl, hdata⟩, fun _ _ ↦ ⟨rfl, rfl, rfl, hdata⟩⟩
      · exact ⟨rfl, rfl, rfl, hlen⟩
    unfold prjGetCh
    simp only [unset_bind, prjSend_bind, pure_eq_done]
    split_ifs
    · exact hafter _
    · refine ⟨trivial, fun _ _ ↦ ⟨.inl ⟨rfl, rfl⟩, fun sent _ ↦ ?_⟩⟩
      beta_reduce
      split_ifs
      · exact hafter _
      · exact hafter _
  | _ => exact h.elim

def executorRole (driverTid uiTid initTid : Word) : HelperRole where
  parentTid := initTid
  room := commandExecutorDataSize
  first received := received.bytes = wordBytes driverTid ++ wordBytes uiTid
  work
    | .outside (.unset _) => True
    | .outside (.cliEngine _) => True
    | .send target message _ => target = driverTid ∧ (∃ str len, message = putBufMessage str len) ∨
      target = uiTid ∧ message.length = 8
    | _ => False

def executorStageAt (driverTid uiTid : Word) : Point → HelperStage → Prop
  | .commandExecutorEntry, stage => stage = .fresh
  | .commandExecutor c, stage => stage = .working ∧ c.serialDriverTid = driverTid ∧
    c.serialUITid = uiTid ∧ c.message.length = 8
  | _, _ => False

theorem cliPrint_follows {α : Type} {driverTid uiTid initTid : Word}
    {post : α → HelperStage → Prop} {f : Unit → BaseProg α} (output : List (List Byte))
    (h : (f ()).Meets (executorRole driverTid uiTid initTid).contract post .working) :
    (cliPrint driverTid output >>= f).Meets (executorRole driverTid uiTid initTid).contract post
      .working := by
  induction output with
  | nil => exact h
  | cons str output ih =>
    rw [cliPrint, Program.bind_assoc, prjPutStr]
    split_ifs
    · exact ih
    unfold prjPutBuf
    split_ifs
    · exact ih
    · exact ⟨.inl ⟨rfl, _, _, rfl⟩, fun _ _ ↦ ih⟩

theorem executeCommand_follows {initTid : Word} (c : CommandExecutor)
    (hlen : c.message.length = 8) :
    (executeCommand c).Meets (executorRole c.serialDriverTid c.serialUITid initTid).contract
      (fun c' stage ↦ executorStageAt c.serialDriverTid c.serialUITid (.commandExecutor c') stage)
      .working := by
  unfold executeCommand
  split_ifs
  · refine ⟨trivial, fun run _ ↦ cliPrint_follows run.output ?_⟩
    refine ⟨trivial, fun message _ ↦ ⟨.inr ⟨rfl, ?_⟩, fun _ _ ↦ ⟨rfl, rfl, rfl, hlen⟩⟩⟩
    rw [List.length_set, List.length_ofFn]
  · exact ⟨rfl, rfl, rfl, hlen⟩

theorem executorRole_kept (driverTid uiTid initTid : Word) :
    (executorRole driverTid uiTid initTid).contract.Kept (executorStageAt driverTid uiTid)
      baseTasks := by
  intro pt stage p h hb
  cases pt with
  | commandExecutorEntry =>
    obtain rfl : stage = .fresh := h
    obtain rfl := Option.some.inj hb
    simp only [commandExecutorEntry, unset_bind, prjReceive_bind, prjReply_bind, pure_eq_done]
    refine ⟨trivial, fun data _ ↦ ⟨trivial, fun message _ ↦ ⟨trivial, fun _ _ ↦ ⟨rfl,
      fun received hreceived ↦ ⟨rfl, fun _ _ ↦ ⟨rfl, ?_, ?_, ?_⟩⟩⟩⟩⟩⟩
    · have hbytes : received.bytes = wordBytes driverTid ++ wordBytes uiTid := hreceived
      rw [hbytes, overwrite, List.append_assoc]
      exact wordAt_wordBytes _ _
    · have hbytes : received.bytes = wordBytes driverTid ++ wordBytes uiTid := hreceived
      rw [hbytes, overwrite, List.append_assoc]
      exact (wordAt_append (wordBytes driverTid) _ 0).trans (wordAt_wordBytes _ _)
    · rw [List.length_set, List.length_ofFn]
  | commandExecutor c =>
    obtain ⟨rfl, rfl, rfl, hlen⟩ := h
    obtain rfl := Option.some.inj hb
    simp only [commandExecutorLoop, prjSend_bind, pure_eq_done]
    refine ⟨.inr ⟨rfl, hlen⟩, fun sent _ ↦ ?_⟩
    beta_reduce
    rw [meets_bind]
    exact executeCommand_follows { c with command := overwrite c.command sent.bytes } hlen
  | _ => exact h.elim

end PrjOS
