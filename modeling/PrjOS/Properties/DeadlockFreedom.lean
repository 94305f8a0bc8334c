import PrjOS.BaseTasks.StartUp

namespace PrjOS

open ByteMemory Transition Program Rendezvous

inductive BaseTask
  | init
  | driver
  | polling
  | ui
  | courier
  | executor
  deriving DecidableEq

namespace BaseTask

def home : Point → BaseTask
  | .serialDriverTask => driver
  | .incomingCharacterPollingTask => polling
  | .serialUITask => ui
  | .serialUICharacterCourier => courier
  | .commandExecutorEntry => executor
  | _ => init

@[reducible] def Stage : BaseTask → Type
  | init => InitStage
  | driver => ServerStage DriverPhase
  | polling => HelperStage
  | ui => ServerStage UIPhase
  | courier => HelperStage
  | executor => HelperStage

def firstStage : (i : BaseTask) → i.Stage
  | init => .begins
  | driver => .fresh
  | polling => .fresh
  | ui => .fresh
  | courier => .fresh
  | executor => .fresh

def owes : (i : BaseTask) → i.Stage → List Word
  | init => fun _ ↦ []
  | driver => ServerStage.owes DriverPhase.owes
  | polling => HelperStage.owes
  | ui => ServerStage.owes UIPhase.owes
  | courier => HelperStage.owes
  | executor => HelperStage.owes

def parent : BaseTask → BaseTask
  | polling => driver
  | courier => ui
  | _ => init

def greetedBy : (i : BaseTask) → i.Stage → Greeted
  | init => fun _ ↦ .past
  | driver => ServerStage.greetedBy
  | polling => HelperStage.greetedBy
  | ui => ServerStage.greetedBy
  | courier => HelperStage.greetedBy
  | executor => HelperStage.greetedBy

end BaseTask

/-- The ids that the tasks will get, and the parameter of the task that sets
them up. -/
structure BaseSetup where
  tid : BaseTask → Word
  tid_injective : Function.Injective tid
  tid_ne_zero : ∀ i, tid i ≠ 0
  initData : SerialDriverInitData

abbrev BaseSystem : Type := System BaseTask Outside Point Unit Outside.Answer

abbrev BaseLog : Type := List (BaseTask × BaseEvent)

namespace BaseSetup

variable (K : BaseSetup)

/-- Any characters come in at any time. -/
def setting : Setting BaseTask Outside Point Unit Outside.Answer :=
  kernelSetting K.tid BaseTask.home (fun _ _ _ _ ↦ True) (fun _ _ ↦ False) fun _ _ _ ↦ True

def start : BaseSystem where
  status
    | .init => .ready (.done (.initialise K.initData))
    | _ => .dormant
  queue _ := []
  parent _ := 0
  world := ()

def contract : (i : BaseTask) → Contract BaseCall BaseAnswer i.Stage
  | .init => initContract (K.tid .driver) (K.tid .ui) (K.tid .executor)
  | .driver => (driverRole (K.tid .polling)).contract
  | .polling => (pollingRole (K.tid .driver)).contract
  | .ui => (uiRole (K.tid .driver) (K.tid .courier)).contract
  | .courier => (courierRole (K.tid .driver) (K.tid .ui)).contract
  | .executor => (executorRole (K.tid .driver) (K.tid .ui) (K.tid .init)).contract

def stageAt : (i : BaseTask) → Point → i.Stage → Prop
  | .init => initAt
  | .driver => driverStageAt
  | .polling => pollingStageAt (K.tid .driver)
  | .ui => uiStageAt (K.tid .driver)
  | .courier => courierStageAt (K.tid .driver) (K.tid .ui)
  | .executor => executorStageAt (K.tid .driver) (K.tid .ui)

theorem contract_kept (i : BaseTask) : (K.contract i).Kept (K.stageAt i) baseTasks := by
  cases i with
  | init => exact initContract_kept _ _ _
  | driver => exact driverRole_kept _
  | polling => exact pollingRole_kept _
  | ui => exact uiRole_kept _ _
  | courier => exact courierRole_kept _ _
  | executor => exact executorRole_kept _ _ _

theorem start_follows : K.start.Follows K.setting K.contract K.stageAt BaseTask.firstStage := by
  intro i
  cases i with
  | init =>
    refine ⟨fun p hp ↦ ?_, nofun⟩
    obtain rfl := Option.some.inj hp
    rfl
  | _ =>
    refine ⟨nofun, fun _ entry hentry ↦ ?_⟩
    cases entry <;> first | rfl | cases hentry

theorem keepsAccount (i : BaseTask) : KeepsAccount (K.contract i) i.owes := by
  cases i with
  | init => exact initContract_keepsAccount _ _ _
  | driver => exact ServerRole.keepsAccount driverContract_keepsAccount rfl
  | polling => exact HelperRole.keepsAccount fun _ _ _ ↦ id
  | ui => exact ServerRole.keepsAccount (uiContract_keepsAccount _) rfl
  | courier => exact HelperRole.keepsAccount fun _ _ _ ↦ id
  | executor => exact HelperRole.keepsAccount fun _ _ _ ↦ id

theorem tid_ne {i j : BaseTask} (h : i ≠ j) : K.tid i ≠ K.tid j :=
  fun he ↦ h (K.tid_injective he)

theorem greets_driver : Greets K.setting .driver (K.contract .init) InitStage.driverTurn where
  create := by
    intro stage entry hpre tid
    cases stage with
    | begins =>
      obtain rfl : entry = .serialDriverTask := hpre
      exact .inl ⟨rfl, rfl, rfl⟩
    | driverReady => exact .inr rfl
    | uiReady => exact .inr rfl
    | _ => exact hpre.elim
  send := by
    intro stage target message room hpre returned
    cases stage with
    | driverMade => exact .inl ⟨hpre, rfl, rfl⟩
    | uiMade =>
      obtain rfl := hpre.1
      exact .inr ⟨K.tid_ne nofun, nofun, rfl⟩
    | executorMade =>
      obtain rfl := hpre.1
      exact .inr ⟨K.tid_ne nofun, nofun, rfl⟩
    | _ => exact hpre.elim
  other a _ hcreate hsend := congrArg _ (initContract_next a hcreate hsend)

theorem greets_ui : Greets K.setting .ui (K.contract .init) InitStage.uiTurn where
  create := by
    intro stage entry hpre tid
    cases stage with
    | begins => exact .inr rfl
    | driverReady =>
      obtain rfl : entry = .serialUITask := hpre
      exact .inl ⟨rfl, rfl, rfl⟩
    | uiReady => exact .inr rfl
    | _ => exact hpre.elim
  send := by
    intro stage target message room hpre returned
    cases stage with
    | driverMade =>
      obtain rfl : target = K.tid .driver := hpre
      exact .inr ⟨K.tid_ne nofun, nofun, rfl⟩
    | uiMade => exact .inl ⟨hpre.1, rfl, rfl⟩
    | executorMade =>
      obtain rfl := hpre.1
      exact .inr ⟨K.tid_ne nofun, nofun, rfl⟩
    | _ => exact hpre.elim
  other a _ hcreate hsend := congrArg _ (initContract_next a hcreate hsend)

theorem greets_executor :
    Greets K.setting .executor (K.contract .init) InitStage.executorTurn where
  create := by
    intro stage entry hpre tid
    cases stage with
    | begins => exact .inr rfl
    | driverReady => exact .inr rfl
    | uiReady =>
      obtain rfl : entry = .commandExecutorEntry := hpre
      exact .inl ⟨rfl, rfl, rfl⟩
    | _ => exact hpre.elim
  send := by
    intro stage target message room hpre returned
    cases stage with
    | driverMade =>
      obtain rfl : target = K.tid .driver := hpre
      exact .inr ⟨K.tid_ne nofun, nofun, rfl⟩
    | uiMade =>
      obtain rfl := hpre.1
      exact .inr ⟨K.tid_ne nofun, nofun, rfl⟩
    | executorMade => exact .inl ⟨hpre.1, rfl, rfl⟩
    | _ => exact hpre.elim
  other a _ hcreate hsend := congrArg _ (initContract_next a hcreate hsend)

theorem greets_polling : Greets K.setting .polling (K.contract .driver) ServerStage.turn :=
  ServerRole.greets rfl rfl (fun phase _ h ↦ by cases phase <;> exact h)
    fun _ _ _ ↦ driver_sends_nothing

theorem greets_courier : Greets K.setting .courier (K.contract .ui) ServerStage.turn :=
  ServerRole.greets rfl rfl (fun _ _ ↦ id)
    fun _ _ _ h ↦ K.tid_ne (i := .courier) (j := .driver) nofun h.1

theorem creates {i c : BaseTask} {stage : i.Stage} {entry : Point}
    (h : (K.contract i).pre stage (.create entry)) (hc : K.setting.home entry = c) :
    i = c.parent := by
  obtain rfl : BaseTask.home entry = c := hc
  cases i with
  | init =>
    cases stage with
    | begins =>
      obtain rfl : entry = .serialDriverTask := h
      rfl
    | driverReady =>
      obtain rfl : entry = .serialUITask := h
      rfl
    | uiReady =>
      obtain rfl : entry = .commandExecutorEntry := h
      rfl
    | _ => exact h.elim
  | driver =>
    cases stage with
    | starting sender =>
      obtain rfl : entry = .incomingCharacterPollingTask := h
      rfl
    | serving phase => cases phase <;> exact h.elim
    | _ => exact h.elim
  | ui =>
    cases stage with
    | starting sender =>
      obtain rfl : entry = .serialUICharacterCourier := h
      rfl
    | _ => exact h.elim
  | _ => cases stage <;> exact h.elim

end BaseSetup

inductive Sends (K : BaseSetup) : (i : BaseTask) → i.Stage → BaseTask → List Byte → Prop
  | driverData (message : List Byte) : Sends K .init .driverMade .driver message
  | driverTid : Sends K .init .uiMade .ui (wordBytes (K.tid .driver))
  | bothTids : Sends K .init .executorMade .executor
      (wordBytes (K.tid .driver) ++ wordBytes (K.tid .ui))
  | event (sender : Word) (message : List Byte) :
      Sends K .driver (.greeting sender) .polling message
  | notification : Sends K .polling .working .driver (wordBytes messageTypeCharacterReceived)
  | greeting (sender : Word) :
      Sends K .ui (.greeting sender) .courier (wordBytes (K.tid .driver))
  | echo (phase : UIPhase) (str : List Byte) (len : BitVec 16) :
      Sends K .ui (.serving phase) .driver (putBufMessage str len)
  | question : Sends K .courier .working .driver (wordBytes messageTypeGetChar)
  | character {message : List Byte} : message.length = 8 → Sends K .courier .working .ui message
  | output (str : List Byte) (len : BitVec 16) :
      Sends K .executor .working .driver (putBufMessage str len)
  | request {message : List Byte} : message.length = 8 → Sends K .executor .working .ui message

variable {K : BaseSetup}

theorem BaseSetup.sends {i : BaseTask} {stage : i.Stage} {target : Word} {message : List Byte}
    {room : Word} (h : (K.contract i).pre stage (.send target message room)) :
    ∃ j, target = K.tid j ∧ Sends K i stage j message := by
  cases i with
  | init =>
    cases stage with
    | driverMade => exact ⟨_, h, .driverData message⟩
    | uiMade =>
      obtain ⟨rfl, rfl⟩ := h
      exact ⟨_, rfl, .driverTid⟩
    | executorMade =>
      obtain ⟨rfl, rfl⟩ := h
      exact ⟨_, rfl, .bothTids⟩
    | _ => exact h.elim
  | driver =>
    cases stage with
    | greeting sender => exact ⟨_, h.1, .event sender message⟩
    | serving phase => exact absurd h driver_sends_nothing
    | _ => exact h.elim
  | polling =>
    cases stage with
    | working =>
      obtain ⟨rfl, rfl⟩ := h
      exact ⟨_, rfl, .notification⟩
    | _ => exact h.elim
  | ui =>
    cases stage with
    | greeting sender =>
      obtain ⟨rfl, rfl⟩ := h
      exact ⟨_, rfl, .greeting sender⟩
    | serving phase =>
      obtain ⟨rfl, str, len, rfl⟩ := h
      exact ⟨_, rfl, .echo phase str len⟩
    | _ => exact h.elim
  | courier =>
    cases stage with
    | working =>
      rcases h with ⟨rfl, rfl⟩ | ⟨rfl, hlen⟩
      · exact ⟨_, rfl, .question⟩
      · exact ⟨_, rfl, .character hlen⟩
    | _ => exact h.elim
  | executor =>
    cases stage with
    | working =>
      rcases h with ⟨rfl, str, len, rfl⟩ | ⟨rfl, hlen⟩
      · exact ⟨_, rfl, .output str len⟩
      · exact ⟨_, rfl, .request hlen⟩
    | _ => exact h.elim

theorem BaseSetup.sends_to {i j : BaseTask} {stage : i.Stage} {message : List Byte} {room : Word}
    (h : (K.contract i).pre stage (.send (K.tid j) message room)) : Sends K i stage j message := by
  obtain ⟨j', hj, hsends⟩ := BaseSetup.sends h
  obtain rfl := K.tid_injective hj
  exact hsends

/-- The helpers get messages only from the tasks that create them. -/
theorem Sends.parent {i j : BaseTask} {stage : i.Stage} {message : List Byte}
    (h : Sends K i stage j message) (hdriver : j ≠ .driver) (hui : j ≠ .ui) : i = j.parent := by
  cases h <;> first | rfl | exact absurd rfl hdriver | exact absurd rfl hui

structure BaseState (K : BaseSetup) (g : (i : BaseTask) → i.Stage) (s : BaseSystem) : Prop where
  follows : s.Follows K.setting K.contract K.stageAt g
  owes : s.Owes K.setting BaseTask.owes g
  driver : Greeting K.setting .init .driver (g .init).driverTurn (g .driver).greetedBy s
  ui : Greeting K.setting .init .ui (g .init).uiTurn (g .ui).greetedBy s
  executor : Greeting K.setting .init .executor (g .init).executorTurn (g .executor).greetedBy s
  polling : Greeting K.setting .driver .polling (g .driver).turn (g .polling).greetedBy s
  courier : Greeting K.setting .ui .courier (g .ui).turn (g .courier).greetedBy s

section Runs

variable {g : (i : BaseTask) → i.Stage} {s s' : BaseSystem} {l : BaseLog}

theorem BaseSetup.start_state : BaseState K BaseTask.firstStage K.start where
  follows := K.start_follows
  owes i := by cases i <;> exact ⟨List.nodup_nil, nofun⟩
  driver := ⟨fun h ↦ absurd rfl h, fun h ↦ absurd rfl h, nofun⟩
  ui := ⟨fun h ↦ absurd rfl h, fun h ↦ absurd rfl h, nofun⟩
  executor := ⟨fun h ↦ absurd rfl h, fun h ↦ absurd rfl h, nofun⟩
  polling := ⟨fun h ↦ absurd rfl h, fun h ↦ absurd rfl h, nofun⟩
  courier := ⟨fun h ↦ absurd rfl h, fun h ↦ absurd rfl h, nofun⟩

/-- The user interface gets nothing before the driver serves. -/
theorem BaseState.driver_serves (h : BaseState K g s) (hui : (g .ui).greetedBy ≠ .fresh) :
    (g .driver).greetedBy = .past := by
  have hturn := h.ui.handshake.turn_ne_before hui
  refine h.driver.handshake.past_iff.mpr ?_
  cases hg : g .init <;> rw [hg] at hturn <;> first | rfl | exact absurd rfl hturn

theorem BaseState.polling_working (h : BaseState K g s) (hg : g .polling = .working) :
    (g .driver).greetedBy ≠ .fresh := by
  have hturn := h.polling.handshake.past_iff.mp (by rw [hg]; rfl)
  exact ServerStage.greetedBy_ne_fresh (by rw [hturn]; nofun)

theorem BaseState.courier_working (h : BaseState K g s) (hg : g .courier = .working) :
    (g .ui).greetedBy ≠ .fresh := by
  have hturn := h.courier.handshake.past_iff.mp (by rw [hg]; rfl)
  exact ServerStage.greetedBy_ne_fresh (by rw [hturn]; nofun)

theorem BaseState.executor_working (h : BaseState K g s) (hg : g .executor = .working) :
    (g .ui).greetedBy = .past := by
  have hturn := h.executor.handshake.past_iff.mp (by rw [hg]; rfl)
  refine h.ui.handshake.past_iff.mpr ?_
  cases hg : g .init <;> rw [hg] at hturn <;> first | rfl | cases hturn

theorem BaseState.first_driver (h : BaseState K g s) (i : BaseTask) (message : List Byte)
    (room : Word) (hpre : (K.contract i).pre (g i) (.send (K.tid .driver) message room))
    (hfresh : (g .driver).greetedBy = .fresh) : i = .init := by
  generalize hg : g i = stage at hpre
  cases BaseSetup.sends_to hpre with
  | driverData => rfl
  | notification => exact absurd hfresh (h.polling_working hg)
  | echo phase str len =>
    have hpast := h.driver_serves (by rw [hg]; nofun)
    rw [hfresh] at hpast
    cases hpast
  | question =>
    have hpast := h.driver_serves (h.courier_working hg)
    rw [hfresh] at hpast
    cases hpast
  | output str len =>
    have hpast := h.driver_serves (by rw [h.executor_working hg]; nofun)
    rw [hfresh] at hpast
    cases hpast

theorem BaseState.first_ui (h : BaseState K g s) (i : BaseTask) (message : List Byte)
    (room : Word) (hpre : (K.contract i).pre (g i) (.send (K.tid .ui) message room))
    (hfresh : (g .ui).greetedBy = .fresh) : i = .init := by
  generalize hg : g i = stage at hpre
  cases BaseSetup.sends_to hpre with
  | driverTid => rfl
  | character hlen => exact absurd hfresh (h.courier_working hg)
  | request hlen =>
    have hpast := h.executor_working hg
    rw [hfresh] at hpast
    cases hpast

theorem BaseSetup.rely_other (i : BaseTask) (stage : i.Stage) {call : BaseCall}
    (a : BaseAnswer call) (hreceive : ∀ room, call ≠ .receive room)
    (hcreate : ∀ entry, call ≠ .create entry) (hparent : call ≠ .getParent) :
    (K.contract i).rely stage call a := by
  cases call with
  | receive room => exact absurd rfl (hreceive room)
  | create entry => exact absurd rfl (hcreate entry)
  | getParent => exact absurd rfl hparent
  | _ =>
    cases i with
    | driver =>
      cases stage with
      | serving phase => cases phase <;> trivial
      | _ => trivial
    | _ => cases stage <;> trivial

theorem BaseSetup.rely_create {i : BaseTask} {stage : i.Stage} {entry : Point}
    (h : (K.contract i).pre stage (.create entry)) :
    (K.contract i).rely stage (.create entry) (K.tid (BaseTask.home entry)) := by
  cases i with
  | init => cases stage <;> first | trivial | (cases h; rfl)
  | driver =>
    cases stage with
    | starting sender =>
      obtain rfl : entry = .incomingCharacterPollingTask := h
      rfl
    | serving phase => cases phase <;> exact h.elim
    | _ => exact h.elim
  | ui =>
    cases stage with
    | starting sender =>
      obtain rfl : entry = .serialUICharacterCourier := h
      rfl
    | _ => exact h.elim
  | _ => cases stage <;> exact h.elim

theorem BaseState.rely_parent (h : BaseState K g s) {i : BaseTask}
    (hbegun : s.status i ≠ .dormant) (hpre : (K.contract i).pre (g i) .getParent) :
    (K.contract i).rely (g i) .getParent (s.parent i) := by
  generalize hg : g i = stage at hpre ⊢
  cases i with
  | polling => cases stage <;> first | trivial | exact h.polling.parent hbegun
  | courier => cases stage <;> first | trivial | exact h.courier.parent hbegun
  | executor => cases stage <;> first | trivial | exact h.executor.parent hbegun
  | driver =>
    cases stage with
    | serving phase => cases phase <;> exact hpre.elim
    | _ => exact hpre.elim
  | _ => cases stage <;> exact hpre.elim

theorem BaseState.rely_alone (h : BaseState K g s) {i : BaseTask} {call : BaseCall}
    {k : BaseAnswer call → BaseProg Point} {a : BaseAnswer call}
    (htask : (s.status i).task K.setting = some (.call call k))
    (hquiet : Alone K.setting s s' i call a) : (K.contract i).rely (g i) call a := by
  have hpre := h.follows.pre htask
  cases call with
  | receive room => exact hquiet.elim
  | create entry =>
    obtain ⟨rfl, -⟩ := hquiet
    exact BaseSetup.rely_create hpre
  | getParent =>
    obtain rfl : a = s.parent i := hquiet
    refine h.rely_parent (fun hd ↦ ?_) hpre
    rw [hd] at htask
    cases htask
  | _ => exact BaseSetup.rely_other i _ a nofun nofun nofun

theorem BaseState.rely_deliver (h : BaseState K g s) {i j : BaseTask} {message : List Byte}
    {room room' : Word} (hsend : (K.contract i).pre (g i) (.send (K.tid j) message room))
    (hreceive : (K.contract j).pre (g j) (.receive room')) :
    (K.contract j).rely (g j) (.receive room') (K.setting.incoming i room' message) := by
  have hsends := BaseSetup.sends_to hsend
  generalize hi : g i = stage at hsends
  cases j with
  | init => generalize g .init = stage at hreceive; cases stage <;> exact hreceive.elim
  | driver =>
    generalize hd : g .driver = stage' at hreceive ⊢
    cases stage' with
    | fresh => trivial
    | serving phase =>
      have hpast := h.driver.handshake.past_iff.mp (by rw [hd]; rfl)
      have hmessage : DriverMessage message := by
        cases hsends with
        | driverData => rw [hi] at hpast; cases hpast
        | notification => exact .characterReceived
        | echo phase str len => exact .output str len
        | question => exact .getChar
        | output str len => exact .output str len
      cases phase with
      | idle parked client =>
        obtain rfl : room' = BitVec.ofNat 32 maxMessageLen := hreceive
        exact ⟨K.tid i, message, hmessage, K.tid_ne_zero i, rfl⟩
      | _ => exact hreceive.elim
    | _ => exact hreceive.elim
  | polling => generalize g .polling = stage at hreceive ⊢; cases stage <;> trivial
  | ui =>
    generalize hu : g .ui = stage' at hreceive ⊢
    cases stage' with
    | fresh =>
      obtain rfl : room' = 4 := hreceive
      cases hsends with
      | driverTid => rfl
      | character hlen => exact absurd (by rw [hu]; rfl) (h.courier_working hi)
      | request hlen =>
        have hpast := h.executor_working hi
        rw [hu] at hpast
        cases hpast
    | serving phase =>
      have hpast := h.ui.handshake.past_iff.mp (by rw [hu]; rfl)
      obtain rfl : room' = serialUIMessageSize := hreceive
      cases hsends with
      | driverTid => rw [hi] at hpast; cases hpast
      | character hlen => exact ⟨K.tid .courier, message, hlen, rfl⟩
      | request hlen => exact ⟨K.tid .executor, message, hlen, rfl⟩
    | _ => exact hreceive.elim
  | courier =>
    generalize g .courier = stage' at hreceive ⊢
    cases stage' with
    | fresh =>
      obtain rfl : room' = 4 := hreceive
      cases hsends with
      | greeting sender => exact ⟨rfl, rfl⟩
    | _ => trivial
  | executor =>
    generalize g .executor = stage' at hreceive ⊢
    cases stage' with
    | fresh =>
      obtain rfl : room' = commandExecutorDataSize := hreceive
      cases hsends with
      | bothTids => rfl
    | _ => trivial

/-- What the answers of the kernel are like, task by task. -/
theorem BaseState.relies (h : BaseState K g s) (hl : Step K.setting baseTasks s l s') :
    ∀ i e, (i, e) ∈ l → (K.contract i).rely (g i) e.1 e.2 := by
  intro i e hmem
  cases hl.talk with
  | silent => cases hmem
  | alone htask hquiet =>
    cases List.mem_singleton.mp hmem
    exact h.rely_alone htask hquiet
  | deliver hi hj =>
    cases List.mem_singleton.mp hmem
    exact h.rely_deliver (h.follows.pre hi) (h.follows.pre hj)
  | answer =>
    rcases List.mem_cons.mp hmem with he | hmem
    · cases he
      exact BaseSetup.rely_other _ _ _ nofun nofun nofun
    · cases List.mem_singleton.mp hmem
      exact BaseSetup.rely_other _ _ _ nofun nofun nofun

theorem BaseState.step (h : BaseState K g s) (hl : Step K.setting baseTasks s l s') :
    BaseState K (advance K.contract g l) s' where
  follows := hl.follows K.contract_kept h.follows (h.relies hl)
  owes := hl.talk.keepsOwes K.tid_injective K.keepsAccount h.follows h.owes
  driver := h.driver.step hl nofun K.tid_injective h.follows K.keepsAccount h.owes
    K.greets_driver ServerRole.isGreeted h.first_driver fun _ _ ↦ K.creates
  ui := h.ui.step hl nofun K.tid_injective h.follows K.keepsAccount h.owes
    K.greets_ui ServerRole.isGreeted h.first_ui fun _ _ ↦ K.creates
  executor := h.executor.step hl nofun K.tid_injective h.follows K.keepsAccount h.owes
    K.greets_executor (HelperRole.isGreeted (fun _ ↦ id) fun _ _ _ ↦ id)
    (fun _ _ _ hpre _ ↦ (BaseSetup.sends_to hpre).parent nofun nofun) fun _ _ ↦ K.creates
  polling := h.polling.step hl nofun K.tid_injective h.follows K.keepsAccount h.owes
    K.greets_polling (HelperRole.isGreeted (fun _ ↦ id) fun _ _ _ ↦ id)
    (fun _ _ _ hpre _ ↦ (BaseSetup.sends_to hpre).parent nofun nofun) fun _ _ ↦ K.creates
  courier := h.courier.step hl nofun K.tid_injective h.follows K.keepsAccount h.owes
    K.greets_courier (HelperRole.isGreeted (fun _ ↦ id) fun _ _ _ ↦ id)
    (fun _ _ _ hpre _ ↦ (BaseSetup.sends_to hpre).parent nofun nofun) fun _ _ ↦ K.creates

theorem base_run {ls : List BaseLog} (h : Run (Step K.setting baseTasks) K.start ls s) :
    ∃ g, BaseState K g s := by
  induction h with
  | nil => exact ⟨_, BaseSetup.start_state⟩
  | snoc _ hl ih =>
    obtain ⟨g, hg⟩ := ih
    exact ⟨_, hg.step hl⟩

/-- Servers are below their clients, a helper is below the task that sets it up. -/
def BaseTask.rank : BaseTask → Nat
  | driver => 0
  | ui => 1
  | init => 3
  | _ => 2

theorem BaseState.waits (h : BaseState K g s) {i j : BaseTask} (hij : s.WaitsFor i j) :
    ∃ message, Sends K i (g i) j message := by
  obtain ⟨message, room, k, hi⟩ := hij
  have htask : (s.status i).task K.setting = some (.call (.send (K.setting.tid j) message room) k) := by
    rcases hi with hi | hi <;> rw [hi] <;> rfl
  exact ⟨message, BaseSetup.sends_to (h.follows.pre htask)⟩

/-- In no state of a run of the base tasks, from the creation of the driver on,
is there a cycle of tasks that wait for each other's replies. -/
theorem base_tasks_deadlock_free (K : BaseSetup) {ls : List BaseLog} {s : BaseSystem}
    (h : Run (Step K.setting baseTasks) K.start ls s) (i : BaseTask) :
    ¬ Relation.TransGen s.WaitsFor i i := by
  obtain ⟨g, hg⟩ := base_run h
  refine not_waiting_cycle BaseTask.rank (fun i j hij ↦ ?_) i
  obtain ⟨message, hsends⟩ := hg.waits hij
  generalize hi : g i = stage at hsends
  cases hsends with
  | event sender =>
    refine .inr fun x hx ↦ ?_
    obtain ⟨message, hpolling⟩ := hg.waits hx
    generalize hp : g .polling = stage at hpolling
    cases hpolling with
    | notification =>
      have hpast := hg.polling.handshake.past_iff.mp (by rw [hp]; rfl)
      rw [hi] at hpast
      cases hpast
  | greeting sender =>
    refine .inr fun x hx ↦ ?_
    obtain ⟨message, hcourier⟩ := hg.waits hx
    generalize hc : g .courier = stage at hcourier
    have hworking : stage = .working := by cases hcourier <;> rfl
    have hpast := hg.courier.handshake.past_iff.mp (by rw [hc, hworking]; rfl)
    rw [hi] at hpast
    cases hpast
  | _ => exact .inl (by decide)

end Runs

def bootTid : BaseTask → Word
  | .init => 0x100
  | .driver => 0x200
  | .polling => 0x300
  | .ui => 0x400
  | .courier => 0x500
  | .executor => 0x600

def bootSetup : BaseSetup where
  tid := bootTid
  tid_injective i j h := by
    cases i <;> cases j <;> first | rfl | exact absurd h (by decide)
  tid_ne_zero i := by cases i <;> decide
  initData := ⟨3, 0x8001, 0x8003⟩

/-- The first task waits for the driver, and the driver for the polling task. -/
theorem base_tasks_deadlock_free_boot : ∃ ls s,
    Run (Step bootSetup.setting baseTasks) bootSetup.start ls s ∧
      s.WaitsFor .init .driver ∧ s.WaitsFor .driver .polling ∧
      ∀ i, ¬ Relation.TransGen s.WaitsFor i i := by
  have h₀ : Run (Step bootSetup.setting baseTasks) bootSetup.start [] bootSetup.start := .nil
  have h₁ := h₀.snoc (.jump (i := BaseTask.init) rfl rfl)
  have h₂ := h₁.snoc (.outside (K := bootSetup.setting) (i := .init) (e := .unset 8)
    (x := fun _ ↦ 0) (w := ()) rfl trivial)
  have h₃ := h₂.snoc (.create (i := BaseTask.init) rfl rfl)
  have h₄ := h₃.snoc (.jump (i := BaseTask.driver) rfl rfl)
  have h₅ := h₄.snoc (.outside (K := bootSetup.setting) (i := .driver) (e := .unset 20)
    (x := fun _ ↦ 0) (w := ()) rfl trivial)
  have h₆ := h₅.snoc (.listen (j := BaseTask.driver) rfl rfl)
  have h₇ := h₆.snoc (.handOff (i := BaseTask.init) (j := BaseTask.driver) rfl rfl)
  have h₈ := h₇.snoc (.create (i := BaseTask.driver) rfl rfl)
  have h₉ := h₈.snoc (.enqueue (i := BaseTask.driver) (j := BaseTask.polling) rfl nofun nofun)
  exact ⟨_, _, h₉, ⟨_, _, _, .inr rfl⟩, ⟨_, _, _, .inl rfl⟩,
    base_tasks_deadlock_free bootSetup h₉⟩

end PrjOS
