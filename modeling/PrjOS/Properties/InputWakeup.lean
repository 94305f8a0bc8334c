import PrjOS.BaseTasks.Contracts

namespace PrjOS

open ByteMemory Transition Program Rendezvous

inductive WakeTask
  | driver
  | polling
  | reader
  deriving DecidableEq

@[reducible] def WakeTask.Phase : WakeTask → Type
  | driver => DriverPhase
  | polling => PollingPhase
  | reader => Unit

/-- A serial device: the characters that came in, and its interrupt. -/
structure Device where
  fifo : List Byte
  pending : Bool
  deriving DecidableEq

namespace Device

/-- `getCharNonBlocking` takes the oldest character. Nothing else that the tasks
do concerns the device. -/
def answers (d : Device) : (e : Outside) → e.Answer → Device → Prop
  | .getCharNonBlocking, ch, d' =>
    d.fifo = [] ∧ ch = -1 ∧ d' = d ∨
      ∃ b rest, d.fifo = b :: rest ∧ ch = b.setWidth 32 ∧ d' = { d with fifo := rest }
  | _, _, d' => d' = d

def arrival (d d' : Device) : Prop := ∃ b, d' = ⟨d.fifo ++ [b], true⟩

def interrupt (eventId : Word) (d : Device) (event : Word) (d' : Device) : Prop :=
  d.pending = true ∧ event = eventId ∧ d' = { d with pending := false }

end Device

structure WakeSetup where
  tid : WakeTask → Word
  tid_injective : Function.Injective tid
  tid_ne_zero : ∀ i, tid i ≠ 0
  eventId : Word
  ch : Word
  device : Device

abbrev WakeSystem : Type := System WakeTask Outside Point Device Outside.Answer

abbrev WakeLog : Type := List (WakeTask × BaseEvent)

namespace WakeSetup

variable (K : WakeSetup)

def setting : Setting WakeTask Outside Point Device Outside.Answer :=
  kernelSetting K.tid (fun _ ↦ .driver) Device.answers Device.arrival (Device.interrupt K.eventId)

def begins : WakeTask → Point
  | .driver => .serialDriver ⟨true, 0, K.eventId⟩
  | .polling => .polling (K.tid .driver) K.eventId
  | .reader => .reader (K.tid .driver) K.ch

def start : WakeSystem :=
  ⟨fun i ↦ .ready (.done (K.begins i)), fun _ ↦ [], fun _ ↦ 0, K.device⟩

def contract : (i : WakeTask) → Contract BaseCall BaseAnswer i.Phase
  | .driver => driverContract
  | .polling => pollingContract (K.tid .driver) K.eventId
  | .reader => readerContract (K.tid .driver)

def phaseAt : (i : WakeTask) → Point → i.Phase → Prop
  | .driver => driverAt
  | .polling => pollingAt (K.tid .driver) K.eventId
  | .reader => readerAt (K.tid .driver)

theorem contract_kept (i : WakeTask) : (K.contract i).Kept (K.phaseAt i) baseTasks := by
  cases i with
  | driver => exact driverContract_kept
  | polling => exact pollingContract_kept _ _
  | reader => exact readerContract_kept (K.tid_ne_zero _)

def firstPhase : (i : WakeTask) → i.Phase
  | .driver => .idle 0 none
  | .polling => .calm
  | .reader => ()

theorem start_follows : K.start.Follows K.setting K.contract K.phaseAt firstPhase := by
  intro i
  refine ⟨fun p hp ↦ ?_, nofun⟩
  obtain rfl := Option.some.inj hp
  cases i with
  | driver => exact ⟨rfl, none, rfl⟩
  | polling => exact ⟨rfl, rfl, rfl⟩
  | reader => rfl

end WakeSetup

/-- The reader sleeps although a character is there, and nothing will wake it:
it is the `blockedCharTid` of the driver, which waits for messages, nobody sends
one, the polling task waits for the event, and no interrupt is pending. -/
def LostWakeup (K : WakeSetup) (s : WakeSystem) : Prop :=
  (∃ data room k, serialDriverLoop data = .call (.receive room) k ∧
    s.status .driver = .receiving room k ∧ data.blockedCharTid = K.tid .reader) ∧
  s.queue .driver = [] ∧
  (∃ k, s.status .polling = .waiting K.eventId k) ∧
  s.world.pending = false ∧ s.world.fifo ≠ []

def BeforeAwait (x : Status WakeTask Outside Point Outside.Answer) : Prop :=
  (∃ pt, x = .ready (.done pt)) ∨ ∃ event k, x = .ready (.call (.awaitEvent event) k)

def AtReceive (x : Status WakeTask Outside Point Outside.Answer) : Prop :=
  (∃ pt, x = .ready (.done pt)) ∨ (∃ room k, x = .ready (.call (.receive room) k)) ∨
    ∃ room k, x = .receiving room k

/-- An interrupt would be lost on the reader: it was found no character, one
came in since, and the polling task does not wait for the event yet. -/
def Asleep (s : WakeSystem) : Prop :=
  s.world.fifo ≠ [] ∧ s.awaits .reader = some .driver ∧ AtReceive (s.status .driver) ∧
    BeforeAwait (s.status .polling)

/-- A step that takes no interrupt while it would be lost. -/
def TimelyStep (K : WakeSetup) (s : WakeSystem) (l : WakeLog) (s' : WakeSystem) : Prop :=
  Step K.setting baseTasks s l s' ∧
    (s.world.pending = true → s'.world.pending = false → ¬ Asleep s)

/-- What is known of the three tasks and the device. `reader` and `polling` are
the servers that these two wait for. -/
structure WakeFacts (K : WakeSetup) (d : DriverPhase) (p : PollingPhase)
    (reader polling : Option WakeTask) (w : Device) : Prop where
  serves : d.Serves (K.tid .reader) (reader = some .driver)
  resting : ∀ parked client, d = .idle parked client → client = none
  notified : polling = none ∨ ∃ parked, d = .notified (K.tid .polling) parked
  woken : ∀ parked client, d = .idle parked client → parked ≠ 0 → w.fifo ≠ [] →
    w.pending = true ∨ p = .woken

structure WakeState (K : WakeSetup) (g : (i : WakeTask) → i.Phase) (s : WakeSystem) : Prop where
  follows : s.Follows K.setting K.contract K.phaseAt g
  lives : ∀ i, (s.status i).task K.setting ≠ none
  facts : WakeFacts K (g .driver) (g .polling) (s.awaits .reader) (s.awaits .polling) s.world

section Runs

variable {K : WakeSetup} {g : (i : WakeTask) → i.Phase} {s s' : WakeSystem} {l : WakeLog}

theorem WakeFacts.of_busy {d : DriverPhase} {p : PollingPhase} {reader polling : Option WakeTask}
    {w : Device} (hd : ∀ parked client, d ≠ .idle parked client)
    (hserves : d.Serves (K.tid .reader) (reader = some .driver))
    (hnotified : polling = none ∨ ∃ parked, d = .notified (K.tid .polling) parked) :
    WakeFacts K d p reader polling w :=
  ⟨hserves, fun _ _ he ↦ absurd he (hd _ _), hnotified, fun _ _ he ↦ absurd he (hd _ _)⟩

theorem WakeSetup.start_state : WakeState K WakeSetup.firstPhase K.start where
  follows := K.start_follows
  lives _ := nofun
  facts := by
    refine ⟨⟨.inl rfl, nofun⟩, fun parked client he ↦ ?_, .inl rfl, fun parked client he hp ↦ ?_⟩
    · injection he with _ he
      exact he.symm
    · injection he with he _
      exact absurd he.symm hp

theorem WakeSetup.sends {i : WakeTask} {phase : i.Phase} {target : Word} {message : List Byte}
    {room : Word} (h : (K.contract i).pre phase (.send target message room)) :
    target = K.tid .driver ∧ (i = .polling ∧ message = wordBytes messageTypeCharacterReceived ∨
      i = .reader ∧ message = wordBytes messageTypeGetChar) := by
  cases i with
  | driver => exact absurd h driver_sends_nothing
  | polling =>
    cases phase with
    | calm => exact h.elim
    | woken => exact ⟨h.1, .inl ⟨rfl, h.2⟩⟩
  | reader => exact ⟨h.1, .inr ⟨rfl, h.2.1⟩⟩

theorem WakeSetup.receives {i : WakeTask} {phase : i.Phase} {room : Word}
    (h : (K.contract i).pre phase (.receive room)) : i = .driver := by
  cases i with
  | driver => rfl
  | polling => cases phase <;> exact h.elim
  | reader => exact h.elim

theorem WakeSetup.replies {i : WakeTask} {phase : i.Phase} {target : Word} {message : List Byte}
    {size : Word} (h : (K.contract i).pre phase (.reply target message size)) : i = .driver := by
  cases i with
  | driver => rfl
  | polling => cases phase <;> exact h.elim
  | reader => exact h.elim

theorem WakeState.atReceive (h : WakeState K g s) {parked : Word} {client : Option Word}
    (hd : g .driver = .idle parked client) : AtReceive (s.status .driver) := by
  obtain rfl := h.facts.resting parked client hd
  have hpre {c : BaseCall} {k : BaseAnswer c → BaseProg Point}
      (htask : (s.status .driver).task K.setting = some (.call c k)) :
      ∃ room, c = .receive room := by
    have hpre : (g .driver).pre c := h.follows.pre htask
    rw [hd] at hpre
    cases c with
    | receive room => exact ⟨room, rfl⟩
    | reply target message size => cases hpre
    | outside e => cases e <;> first | exact hpre.elim | exact absurd rfl hpre
    | _ => exact hpre.elim
  cases hs : s.status .driver with
  | dormant => exact absurd (by rw [hs]; rfl) (h.lives .driver)
  | exited => exact absurd (by rw [hs]; rfl) (h.lives .driver)
  | receiving room k => exact .inr (.inr ⟨room, k, rfl⟩)
  | ready p =>
    cases p with
    | done pt => exact .inl ⟨pt, rfl⟩
    | call c k =>
      obtain ⟨room, rfl⟩ := hpre (by rw [hs]; rfl)
      exact .inr (.inl ⟨room, k, rfl⟩)
  | queued =>
    obtain ⟨room, hc⟩ := hpre (by rw [hs]; rfl)
    cases hc
  | awaiting =>
    obtain ⟨room, hc⟩ := hpre (by rw [hs]; rfl)
    cases hc
  | waiting =>
    obtain ⟨room, hc⟩ := hpre (by rw [hs]; rfl)
    cases hc

/-- A polling task that was not woken is on its way to `prjAwaitEvent`, or in it. -/
theorem WakeState.beforeAwait (h : WakeState K g s) (hp : g .polling = .calm) :
    BeforeAwait (s.status .polling) ∨ ∃ k, s.status .polling = .waiting K.eventId k := by
  have hpre {c : BaseCall} {k : BaseAnswer c → BaseProg Point}
      (htask : (s.status .polling).task K.setting = some (.call c k)) :
      c = .awaitEvent K.eventId := by
    have hpre : (pollingContract (K.tid .driver) K.eventId).pre (g .polling) c :=
      h.follows.pre htask
    rw [hp] at hpre
    cases c with
    | awaitEvent event => exact congrArg Call.awaitEvent hpre
    | _ => exact hpre.elim
  cases hs : s.status .polling with
  | dormant => exact absurd (by rw [hs]; rfl) (h.lives .polling)
  | exited => exact absurd (by rw [hs]; rfl) (h.lives .polling)
  | ready p =>
    cases p with
    | done pt => exact .inl (.inl ⟨pt, rfl⟩)
    | call c k =>
      obtain rfl := hpre (by rw [hs]; rfl)
      exact .inl (.inr ⟨_, k, rfl⟩)
  | waiting event k =>
    have hc := hpre (by rw [hs]; rfl)
    injection hc with hevent
    exact .inr ⟨k, by rw [hevent]⟩
  | receiving => cases hpre (by rw [hs]; rfl)
  | queued => cases hpre (by rw [hs]; rfl)
  | awaiting => cases hpre (by rw [hs]; rfl)

theorem WakeState.silent (h : WakeState K g s) (hl : TimelyStep K s [] s') :
    WakeFacts K (g .driver) (g .polling) (s.awaits .reader) (s.awaits .polling) s'.world := by
  have hfacts := h.facts
  refine ⟨hfacts.serves, hfacts.resting, hfacts.notified, fun parked client hd hparked hfifo ↦ ?_⟩
  cases hl.1.worldly with
  | same hw =>
    rw [hw] at hfifo ⊢
    exact hfacts.woken parked client hd hparked hfifo
  | change hw =>
    obtain ⟨b, hw⟩ := hw
    exact .inl (by rw [hw])
  | unnoticed hw hno =>
    obtain ⟨hpending, rfl, hw⟩ := hw
    have hawake : ¬ Asleep s := hl.2 hpending (by rw [hw])
    cases hp : g .polling with
    | woken => exact .inr rfl
    | calm =>
      rcases h.beforeAwait hp with hbefore | ⟨k, hwaiting⟩
      · have hserves := hfacts.serves
        rw [hd] at hserves
        have hreader := (hserves.1.resolve_left hparked).2
        rw [hw] at hfifo
        exact absurd ⟨hfifo, hreader, h.atReceive hd, hbefore⟩ hawake
      · exact absurd hwaiting (hno .polling k)

theorem WakeFacts.driver_reads {d : DriverPhase} {p : PollingPhase}
    {reader polling : Option WakeTask} {w w' : Device} (h : WakeFacts K d p reader polling w)
    (hpre : d.pre (.outside .getCharNonBlocking)) {ch : Word}
    (hw : w.answers .getCharNonBlocking ch w') :
    WakeFacts K (d.next (.outside .getCharNonBlocking) ch) p reader polling w' := by
  obtain ⟨hwaits, -, hnext⟩ := h.serves.next_getCharNonBlocking hpre ch
  have hpolling : polling = none := by
    refine h.notified.resolve_right ?_
    rintro ⟨parked, rfl⟩
    exact hpre
  rw [hnext]
  split_ifs with hch
  · refine ⟨⟨.inr ⟨rfl, hwaits⟩, nofun⟩, fun _ _ he ↦ ?_, .inl hpolling, fun _ _ _ _ hfifo ↦ ?_⟩
    · injection he with _ he
      exact he.symm
    · -- the device had no character
      rcases hw with ⟨hnone, -, rfl⟩ | ⟨b, rest, -, hb, -⟩
      · exact absurd hnone hfifo
      · rw [hch] at hb
        have hlt := congrArg BitVec.toNat hb
        rw [BitVec.toNat_setWidth, Nat.mod_eq_of_lt (by omega)] at hlt
        have hmax : (-1 : Word).toNat = 4294967295 := rfl
        omega
  · exact ⟨⟨rfl, rfl, hwaits⟩, nofun, .inl hpolling, nofun⟩

/-- A notification is answered, or nobody waits for the answer. -/
theorem WakeFacts.driver_notified {parked notifier : Word} {p p' : PollingPhase}
    {reader polling : Option WakeTask} {w : Device}
    (h : WakeFacts K (.notified notifier parked) p reader polling w) (message : List Byte)
    (size a : Word) : WakeFacts K
      ((DriverPhase.notified notifier parked).next (.reply notifier message size) a) p' reader none
        w := by
  change WakeFacts K (if parked ≠ 0 then _ else _) _ _ _ _
  split_ifs with hparked
  · exact ⟨h.serves.2.resolve_left hparked, nofun, .inl rfl, nofun⟩
  · refine ⟨⟨.inl rfl, nofun⟩, fun _ _ he ↦ ?_, .inl rfl, fun _ _ he hne ↦ ?_⟩
    · injection he with _ he
      exact he.symm
    · injection he with he _
      exact absurd he.symm hne

theorem WakeState.alone (h : WakeState K g s) {i : WakeTask} {call : BaseCall}
    {k : BaseAnswer call → BaseProg Point} {a : BaseAnswer call}
    (htask : (s.status i).task K.setting = some (.call call k))
    (hquiet : Alone K.setting s s' i call a) (hworld : Worldly K.setting s s' [(i, ⟨call, a⟩)]) :
    (K.contract i).rely (g i) call a ∧
      WakeFacts K (advance K.contract g [(i, ⟨call, a⟩)] .driver)
        (advance K.contract g [(i, ⟨call, a⟩)] .polling) (s.awaits .reader) (s.awaits .polling)
          s'.world := by
  have hpre := h.follows.pre htask
  have hfacts := h.facts
  have hsend : ∀ target message room, call ≠ .send target message room := by
    rintro target message room rfl
    obtain ⟨rfl, -⟩ := WakeSetup.sends hpre
    have hdormant : s.status .driver = .dormant := hquiet .driver rfl
    exact h.lives .driver (by rw [hdormant]; rfl)
  have hapart (j : WakeTask) (hj : j ≠ i) : advance K.contract g [(i, ⟨call, a⟩)] j = g j :=
    advance_apart hj _
  have hself := advance_self (S := K.contract) (g := g) i ⟨call, a⟩
  cases i with
  | driver =>
    rw [hself, hapart .polling nofun]
    change (g .driver).rely call a ∧ WakeFacts K ((g .driver).next call a) _ _ _ _
    change (g .driver).pre call at hpre
    generalize g .driver = d at hpre hfacts ⊢
    cases call with
    | receive room => exact hquiet.elim
    | send target message room => exact absurd rfl (hsend target message room)
    | reply target message size =>
      refine ⟨by cases d <;> trivial, ?_⟩
      cases hworld with
      | same hw =>
        rw [hw]
        cases d with
        | idle parked client =>
          obtain rfl := hfacts.resting parked client rfl
          cases hpre
        | notified notifier parked =>
          obtain rfl : target = notifier := hpre
          have hnone : s.awaits .polling = none := by
            rcases hfacts.notified with hnone | ⟨parked', he⟩
            · exact hnone
            · injection he with he _
              exact hquiet .polling he.symm
          rw [hnone]
          exact hfacts.driver_notified message size a
        | handing reader ch parked =>
          obtain ⟨rfl, -, hwaits⟩ := hfacts.serves
          obtain ⟨rfl, -⟩ := hpre
          have hnone : s.awaits .reader = none := hquiet .reader rfl
          rw [hwaits] at hnone
          cases hnone
        | _ => exact hpre.elim
    | outside e =>
      refine ⟨by cases d <;> trivial, ?_⟩
      cases e with
      | getCharNonBlocking => exact hfacts.driver_reads hpre hquiet
      | _ =>
        cases d with
        | idle parked client =>
          obtain rfl := hfacts.resting parked client rfl
          first | exact hpre.elim | exact absurd rfl hpre
        | _ => exact hpre.elim
    | _ => cases d <;> exact hpre.elim
  | polling =>
    rw [hself, hapart .driver nofun]
    refine ⟨trivial, ?_⟩
    change WakeFacts K _ ((pollingContract _ _).next (g .polling) call a) _ _ _
    change (pollingContract _ _).pre (g .polling) call at hpre
    generalize g .polling = p at hpre hfacts ⊢
    cases call with
    | awaitEvent event =>
      cases p with
      | calm => exact ⟨hfacts.serves, hfacts.resting, hfacts.notified, fun _ _ _ _ _ ↦ .inr rfl⟩
      | woken => exact hpre.elim
    | send target message room => exact absurd rfl (hsend target message room)
    | _ => cases p <;> exact hpre.elim
  | reader =>
    rw [hapart .driver nofun, hapart .polling nofun]
    refine ⟨trivial, ?_⟩
    cases call with
    | outside e =>
      cases e with
      | unset n =>
        have hw : s'.world = s.world := hquiet
        rw [hw]
        exact hfacts
      | _ => exact hpre.elim
    | send target message room => exact absurd rfl (hsend target message room)
    | _ => exact hpre.elim

theorem WakeState.deliver (h : WakeState K g s) {i j : WakeTask} {message : List Byte}
    {room room' : Word} {k : Returned → BaseProg Point} {k' : Incoming → BaseProg Point}
    (hi : (s.status i).task K.setting = some (.call (.send (K.setting.tid j) message room) k))
    (hj : (s.status j).task K.setting = some (.call (.receive room') k'))
    (hfree : s.awaits i = none)
    (hawaits : ∀ y, s'.awaits y = if y = i then some j else s.awaits y)
    (hworld : Worldly K.setting s s' [(j, ⟨.receive room', K.setting.incoming i room' message⟩)]) :
    (K.contract j).rely (g j) (.receive room') (K.setting.incoming i room' message) ∧
      WakeFacts K
        (advance K.contract g [(j, ⟨.receive room', K.setting.incoming i room' message⟩)] .driver)
        (advance K.contract g [(j, ⟨.receive room', K.setting.incoming i room' message⟩)] .polling)
        (s'.awaits .reader) (s'.awaits .polling) s'.world := by
  have hsend := h.follows.pre hi
  have hreceive := h.follows.pre hj
  obtain rfl := WakeSetup.receives hreceive
  have hw : s'.world = s.world := by
    cases hworld with
    | same hw => exact hw
  have hfacts := h.facts
  rw [advance_self, advance_apart (i := WakeTask.driver) (j := .polling) (by decide), hw, hawaits,
    hawaits]
  change (g .driver).rely _ _ ∧ WakeFacts K ((g .driver).next _ _) _ _ _ _
  change (g .driver).pre _ at hreceive
  generalize g .driver = d at hreceive hfacts ⊢
  cases d with
  | idle parked client =>
    obtain rfl : room' = BitVec.ofNat 32 maxMessageLen := hreceive
    have hserves := hfacts.serves
    change _ ∧ WakeFacts K (.received parked (driverReceives (K.tid i) message)) _ _ _ _
    rw [DriverPhase.received, driverReceives_wordAt, driverReceives_sender]
    obtain ⟨-, ⟨rfl, rfl⟩ | ⟨rfl, rfl⟩⟩ := WakeSetup.sends hsend
    · have hne : K.tid .polling ≠ K.tid .reader := K.tid_injective.ne (by decide)
      have hother : WakeTask.reader ≠ .polling := by decide
      refine ⟨⟨_, _, .characterReceived, K.tid_ne_zero .polling, rfl⟩, ?_⟩
      rw [wordAt_wordBytes_self, if_pos rfl, if_neg hother, if_pos rfl]
      exact .of_busy (by simp) ⟨hne, hserves.1⟩ (.inr ⟨parked, rfl⟩)
    · have hget : messageTypeGetChar ≠ messageTypeCharacterReceived := by decide
      have hother : WakeTask.polling ≠ .reader := by decide
      refine ⟨⟨_, _, .getChar, K.tid_ne_zero .reader, rfl⟩, ?_⟩
      rw [wordAt_wordBytes_self, if_neg hget, if_pos rfl, if_pos rfl, if_neg hother]
      have hzero : parked = 0 := by
        refine hserves.1.resolve_right fun hp ↦ ?_
        rw [hfree] at hp
        cases hp.2
      have hpolling : s.awaits .polling = none := by
        refine hfacts.notified.resolve_right ?_
        rintro ⟨_, he⟩
        cases he
      exact .of_busy (by simp) ⟨rfl, hzero, rfl⟩ (.inl hpolling)
  | _ => exact hreceive.elim

theorem WakeState.answer (h : WakeState K g s) {i j x : WakeTask} {message message' : List Byte}
    {size room : Word} {k : Word → BaseProg Point} {k' : Returned → BaseProg Point}
    {a : Word} {returned : Returned}
    (hj : (s.status j).task K.setting = some (.call (.reply (K.setting.tid i) message size) k))
    (hi : (s.status i).task K.setting = some (.call (.send (K.setting.tid x) message' room) k'))
    (hawaits : ∀ y, s'.awaits y = if y = i then none else s.awaits y)
    (hworld : Worldly K.setting s s' [(j, ⟨.reply (K.setting.tid i) message size, a⟩),
      (i, ⟨.send (K.setting.tid x) message' room, returned⟩)]) :
    WakeFacts K
      (advance K.contract g [(j, ⟨.reply (K.setting.tid i) message size, a⟩),
        (i, ⟨.send (K.setting.tid x) message' room, returned⟩)] .driver)
      (advance K.contract g [(j, ⟨.reply (K.setting.tid i) message size, a⟩),
        (i, ⟨.send (K.setting.tid x) message' room, returned⟩)] .polling)
      (s'.awaits .reader) (s'.awaits .polling) s'.world := by
  have hsend := h.follows.pre hi
  have hreply := h.follows.pre hj
  obtain rfl := WakeSetup.replies hreply
  have hw : s'.world = s.world := by
    cases hworld with
    | same hw => exact hw
  have hfacts := h.facts
  have hne : WakeTask.driver ≠ i := by
    rintro rfl
    exact driver_sends_nothing hsend
  rw [advance_pair_left hne, hw, hawaits, hawaits]
  change WakeFacts K ((g .driver).next (.reply (K.tid i) message size) a) _ _ _ _
  change (g .driver).pre (.reply (K.tid i) message size) at hreply
  generalize g .driver = d at hreply hfacts ⊢
  cases d with
  | idle parked client =>
    obtain rfl := hfacts.resting parked client rfl
    cases hreply
  | notified notifier parked =>
    obtain rfl : K.tid i = notifier := hreply
    cases i with
    | driver => exact absurd rfl hne
    | polling =>
      have hother : WakeTask.reader ≠ .polling := nofun
      rw [if_neg hother, if_pos rfl]
      exact hfacts.driver_notified message size a
    | reader => exact absurd rfl hfacts.serves.1
  | handing reader ch parked =>
    obtain ⟨rfl, rfl, -⟩ := hfacts.serves
    obtain rfl := K.tid_injective hreply.1
    have hother : WakeTask.polling ≠ .reader := nofun
    rw [if_pos rfl, if_neg hother]
    have hpolling := hfacts.notified.resolve_right fun ⟨_, he⟩ ↦ nomatch he
    refine ⟨⟨.inl rfl, nofun⟩, fun _ _ he ↦ ?_, .inl hpolling, fun _ _ he hparked ↦ ?_⟩
    · injection he with _ he
      exact he.symm
    · injection he with he _
      exact absurd he.symm hparked
  | _ => exact hreply.elim

theorem WakeSetup.rely_other (i : WakeTask) (phase : i.Phase) {call : BaseCall}
    (a : BaseAnswer call) (hreceive : ∀ room, call ≠ .receive room) :
    (K.contract i).rely phase call a := by
  cases i with
  | driver =>
    cases phase with
    | idle parked client =>
      cases call with
      | receive room => exact absurd rfl (hreceive room)
      | _ => trivial
    | _ => trivial
  | _ => trivial

theorem WakeSetup.leads_on (i : WakeTask) (pt : Point) (phase : i.Phase)
    (h : K.phaseAt i pt phase) : baseTasks pt ≠ none := by
  cases i with
  | driver =>
    cases pt with
    | serialDriver data =>
      rw [baseTasks, if_pos h.1]
      exact Option.some_ne_none _
    | _ => exact h.elim
  | _ => cases pt <;> first | exact h.elim | exact Option.some_ne_none _

theorem WakeState.step (h : WakeState K g s) (hl : TimelyStep K s l s') :
    WakeState K (advance K.contract g l) s' := by
  have hcontinues : (∀ i e, (i, e) ∈ l → (K.contract i).rely (g i) e.1 e.2) ∧
      WakeFacts K (advance K.contract g l .driver) (advance K.contract g l .polling)
        (s'.awaits .reader) (s'.awaits .polling) s'.world := by
    have hworld := hl.1.worldly
    cases hl.1.talk with
    | silent hawaits =>
      rw [hawaits, hawaits, advance_nil]
      exact ⟨nofun, h.silent hl⟩
    | alone htask hquiet hawaits =>
      rw [hawaits, hawaits]
      obtain ⟨hrely, hfacts⟩ := h.alone htask hquiet hworld
      refine ⟨fun i e hmem ↦ ?_, hfacts⟩
      cases List.mem_singleton.mp hmem
      exact hrely
    | deliver hi hj hfree hawaits =>
      obtain ⟨hrely, hfacts⟩ := h.deliver hi hj hfree hawaits hworld
      refine ⟨fun i e hmem ↦ ?_, hfacts⟩
      cases List.mem_singleton.mp hmem
      exact hrely
    | answer hj hi hserver hawaits =>
      refine ⟨fun i e hmem ↦ ?_, h.answer hj hi hawaits hworld⟩
      rcases List.mem_cons.mp hmem with he | hmem
      · cases he
        exact WakeSetup.rely_other _ _ _ nofun
      · cases List.mem_singleton.mp hmem
        exact WakeSetup.rely_other _ _ _ nofun
  exact ⟨hl.1.follows K.contract_kept h.follows hcontinues.1,
    fun i ↦ (hl.1.moves i).lives (h.follows i) (WakeSetup.leads_on i) (h.lives i), hcontinues.2⟩

theorem wake_run {ls : List WakeLog} (h : Run (TimelyStep K) K.start ls s) :
    ∃ g, WakeState K g s := by
  induction h with
  | nil => exact ⟨_, WakeSetup.start_state⟩
  | snoc _ hl ih =>
    obtain ⟨g, hg⟩ := ih
    exact ⟨_, hg.step hl⟩

/-- As long as no interrupt is taken while the polling task is busy and the
reader asleep, no character finds the reader asleep. -/
theorem no_lost_wakeup (K : WakeSetup) {ls : List WakeLog} {s : WakeSystem}
    (h : Run (TimelyStep K) K.start ls s) : ¬ LostWakeup K s := by
  obtain ⟨g, hg⟩ := wake_run h
  rintro ⟨⟨data, room, k, hloop, hdriver, hblocked⟩, -, ⟨k', hpolling⟩, hpending, hfifo⟩
  have htask : (s.status .driver).task K.setting = some (serialDriverLoop data) := by
    rw [hdriver, hloop]
    rfl
  have hmeets : (serialDriverLoop data).Meets driverContract driverAt (g .driver) :=
    (hg.follows .driver).task _ htask
  have hpre := hmeets
  rw [hloop] at hpre
  cases hd : g .driver with
  | idle parked client =>
    rw [hd] at hmeets
    have hparked : parked ≠ 0 := by
      rw [← parked_of_follows hmeets, hblocked]
      exact K.tid_ne_zero .reader
    rcases hg.facts.woken parked client hd hparked hfifo with hp | hp
    · rw [hpending] at hp
      cases hp
    · have hawait := hg.follows.pre (i := .polling) (c := .awaitEvent K.eventId) (k := k')
        (by rw [hpolling]; rfl)
      change (pollingContract _ _).pre (g .polling) _ at hawait
      rw [hp] at hawait
      exact hawait
  | _ =>
    rw [hd] at hpre
    exact hpre.1.elim

end Runs

def quietSetup : WakeSetup where
  tid
    | .driver => 0x100
    | .polling => 0x200
    | .reader => 0x300
  tid_injective i j h := by
    cases i <;> cases j <;> first | rfl | exact absurd h (by decide)
  tid_ne_zero i := by cases i <;> decide
  eventId := 3
  ch := 0
  device := ⟨[], false⟩

theorem quiet_eventId : quietSetup.setting.validEvent quietSetup.eventId := by
  change quietSetup.eventId.toNat < eventsNumTypes
  decide

/-- The reader is parked, the polling task waits, and a key is pressed. -/
theorem no_lost_wakeup_noticed : ∃ ls s,
    Run (TimelyStep quietSetup) quietSetup.start ls s ∧ s.world.fifo = [97] ∧
      ¬ LostWakeup quietSetup s := by
  have h₀ : Run (TimelyStep quietSetup) quietSetup.start [] quietSetup.start := .nil
  have h₁ := h₀.snoc ⟨.jump (i := WakeTask.driver) rfl rfl, nofun⟩
  have h₂ := h₁.snoc ⟨.listen (j := WakeTask.driver) rfl rfl, nofun⟩
  have h₃ := h₂.snoc ⟨.jump (i := WakeTask.reader) rfl rfl, nofun⟩
  have h₄ := h₃.snoc ⟨.outside (K := quietSetup.setting) (i := .reader) (e := .unset 4)
    (x := fun _ ↦ 0) (w := ⟨[], false⟩) rfl rfl, nofun⟩
  have h₅ := h₄.snoc ⟨.handOff (i := WakeTask.reader) (j := WakeTask.driver) rfl rfl, nofun⟩
  have h₆ := h₅.snoc ⟨.outside (K := quietSetup.setting) (i := .driver) (e := .getCharNonBlocking)
    (x := -1) (w := ⟨[], false⟩) rfl (.inl ⟨rfl, rfl, rfl⟩), nofun⟩
  have h₇ := h₆.snoc ⟨.jump (i := WakeTask.polling) rfl rfl, nofun⟩
  have h₈ := h₇.snoc ⟨.await (i := WakeTask.polling) rfl quiet_eventId, nofun⟩
  have h₉ := h₈.snoc ⟨.change ⟨97, rfl⟩, nofun⟩
  have h₁₀ := h₉.snoc ⟨.interrupt (K := quietSetup.setting) (i := .polling) (w := ⟨[97], false⟩)
    ⟨rfl, rfl, rfl⟩ rfl, fun _ _ ⟨_, _, _, hbefore⟩ ↦ by
      rcases hbefore with ⟨pt, h⟩ | ⟨event, k, h⟩ <;> cases h⟩
  exact ⟨_, _, h₁₀, rfl, no_lost_wakeup quietSetup h₁₀⟩

/-- The key is pressed and the interrupt taken before the polling task waits. -/
theorem lost_wakeup_reached : ∃ ls s,
    Run (Step quietSetup.setting baseTasks) quietSetup.start ls s ∧ LostWakeup quietSetup s := by
  have h₀ : Run (Step quietSetup.setting baseTasks) quietSetup.start [] quietSetup.start := .nil
  have h₁ := h₀.snoc (.jump (i := WakeTask.driver) rfl rfl)
  have h₂ := h₁.snoc (.listen (j := WakeTask.driver) rfl rfl)
  have h₃ := h₂.snoc (.jump (i := WakeTask.reader) rfl rfl)
  have h₄ := h₃.snoc (.outside (K := quietSetup.setting) (i := .reader) (e := .unset 4)
    (x := fun _ ↦ 0) (w := ⟨[], false⟩) rfl rfl)
  have h₅ := h₄.snoc (.handOff (i := WakeTask.reader) (j := WakeTask.driver) rfl rfl)
  have h₆ := h₅.snoc (.outside (K := quietSetup.setting) (i := .driver) (e := .getCharNonBlocking)
    (x := -1) (w := ⟨[], false⟩) rfl (.inl ⟨rfl, rfl, rfl⟩))
  have h₇ := h₆.snoc (.jump (i := WakeTask.driver) rfl rfl)
  have h₈ := h₇.snoc (.listen (j := WakeTask.driver) rfl rfl)
  -- the polling task has not called `prjAwaitEvent` yet
  have h₉ := h₈.snoc (.change ⟨97, rfl⟩)
  have h₁₀ := h₉.snoc (.unnoticed (K := quietSetup.setting) (w := ⟨[97], false⟩) ⟨rfl, rfl, rfl⟩
    (by intro i k; cases i <;> nofun))
  have h₁₁ := h₁₀.snoc (.jump (i := WakeTask.polling) rfl rfl)
  have h₁₂ := h₁₁.snoc (.await (i := WakeTask.polling) rfl quiet_eventId)
  exact ⟨_, _, h₁₂, ⟨⟨true, 0x300, 3⟩, _, _, rfl, rfl, rfl⟩, rfl, ⟨_, rfl⟩, rfl, nofun⟩

end PrjOS
