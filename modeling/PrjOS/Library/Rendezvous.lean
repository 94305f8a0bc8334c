import PrjOS.Library.Program
import PrjOS.Library.Memory
import Mathlib.Logic.Relation

namespace PrjOS.Rendezvous

open ByteMemory Function Program

/-- What `Receive` delivers: the sender, the size or an error, and the bytes
that fitted. -/
structure Incoming where
  sender : Word
  size : Word
  bytes : List Byte
  deriving DecidableEq

structure Returned where
  size : Word
  bytes : List Byte
  deriving DecidableEq

/-- What a task can ask the kernel for, and what else it does that others can
see. New tasks start at one of the points `Pt`. -/
inductive Call (E Pt : Type)
  | send (target : Word) (message : List Byte) (room : Word)
  | receive (room : Word)
  | reply (target : Word) (message : List Byte) (size : Word)
  | awaitEvent (event : Word)
  | create (entry : Pt)
  | getParent
  | outside (e : E)

@[reducible] def Call.Answer {E Pt : Type} (X : E → Type) : Call E Pt → Type
  | send .. => Returned
  | receive _ => Incoming
  | reply .. => Word
  | awaitEvent _ => Word
  | create _ => Word
  | getParent => Word
  | outside e => X e

abbrev Task (E Pt : Type) (X : E → Type) : Type := Prog (Call E Pt) (Call.Answer X) Pt

/-- The fixed parts of a system: its task ids, which task an entry point
belongs to, the codes that the kernel returns, and what happens outside. -/
structure Setting (ι E Pt W : Type) (X : E → Type) where
  tid : ι → Word
  home : Pt → ι
  tooSmall : Word
  incomplete : Word
  noTask : Word
  replyError : Word
  notBlocked : Word
  badEvent : Word
  happened : Word
  validEvent : Word → Prop
  outside : W → (e : E) → X e → W → Prop
  change : W → W → Prop
  interrupt : W → Word → W → Prop

inductive Status (ι E Pt : Type) (X : E → Type)
  | dormant
  | ready (p : Task E Pt X)
  | receiving (room : Word) (k : Incoming → Task E Pt X)
  | queued (server : ι) (message : List Byte) (room : Word)
      (k : Returned → Task E Pt X)
  | awaiting (server : ι) (message : List Byte) (room : Word)
      (k : Returned → Task E Pt X)
  | waiting (event : Word) (k : Word → Task E Pt X)
  | exited

structure System (ι E Pt W : Type) (X : E → Type) where
  status : ι → Status ι E Pt X
  queue : ι → List ι
  parent : ι → Word
  world : W

variable {ι E Pt W : Type} {X : E → Type} {K : Setting ι E Pt W X}

def Incoming.of (tooSmall sender room : Word) (message : List Byte) : Incoming where
  sender := sender
  size := if room.toNat < message.length then tooSmall else BitVec.ofNat 32 message.length
  bytes := message.take room.toNat

namespace Setting

variable (K : Setting ι E Pt W X)

def incoming (i : ι) (room : Word) (message : List Byte) : Incoming :=
  .of K.tooSmall (K.tid i) room message

def returned (room : Word) (message : List Byte) (size : Word) : Returned where
  size := if room < size then K.incomplete else size
  bytes := message.take (min room.toNat size.toNat)

def replied (room size : Word) : Word := if room < size then K.replyError else 0

end Setting

variable [DecidableEq ι]

namespace System

def set (s : System ι E Pt W X) (i : ι) (x : Status ι E Pt X) : System ι E Pt W X :=
  { s with status := update s.status i x }

def setQueue (s : System ι E Pt W X) (i : ι) (q : List ι) : System ι E Pt W X :=
  { s with queue := update s.queue i q }

def setParent (s : System ι E Pt W X) (i : ι) (tid : Word) : System ι E Pt W X :=
  { s with parent := update s.parent i tid }

omit [DecidableEq ι] in
def setWorld (s : System ι E Pt W X) (w : W) : System ι E Pt W X := { s with world := w }

section Fields

variable (s : System ι E Pt W X) (i : ι) (x : Status ι E Pt X) (q : List ι) (tid : Word) (w : W)

@[simp] theorem set_self : (s.set i x).status i = x := update_self ..

theorem set_of_ne {j : ι} (h : j ≠ i) : (s.set i x).status j = s.status j := update_of_ne h ..

@[simp] theorem set_queue : (s.set i x).queue = s.queue := rfl
@[simp] theorem set_parent : (s.set i x).parent = s.parent := rfl
@[simp] theorem set_world : (s.set i x).world = s.world := rfl

@[simp] theorem setQueue_status : (s.setQueue i q).status = s.status := rfl
@[simp] theorem setQueue_self : (s.setQueue i q).queue i = q := update_self ..

@[simp] theorem setQueue_parent : (s.setQueue i q).parent = s.parent := rfl
@[simp] theorem setQueue_world : (s.setQueue i q).world = s.world := rfl

@[simp] theorem setParent_status : (s.setParent i tid).status = s.status := rfl
@[simp] theorem setParent_queue : (s.setParent i tid).queue = s.queue := rfl
@[simp] theorem setParent_self : (s.setParent i tid).parent i = tid := update_self ..

theorem setParent_of_ne {j : ι} (h : j ≠ i) : (s.setParent i tid).parent j = s.parent j :=
  update_of_ne h ..

@[simp] theorem setParent_world : (s.setParent i tid).world = s.world := rfl

omit [DecidableEq ι]

@[simp] theorem setWorld_status : (s.setWorld w).status = s.status := rfl
@[simp] theorem setWorld_queue : (s.setWorld w).queue = s.queue := rfl
@[simp] theorem setWorld_parent : (s.setWorld w).parent = s.parent := rfl
@[simp] theorem setWorld_world : (s.setWorld w).world = w := rfl

end Fields

end System

/-- A step of the system, labelled with the calls that return in it. Events and
queues of senders are served by the kernel, everything else by the tasks in any
order. -/
inductive Step (K : Setting ι E Pt W X) (blocks : Blocks (Call E Pt) (Call.Answer X) Pt)
    (s : System ι E Pt W X) :
    List (ι × CallEvent (@Call.Answer E Pt X)) → System ι E Pt W X → Prop
  | jump {i : ι} {pt : Pt} {p : Task E Pt X} :
      s.status i = .ready (.done pt) → blocks pt = some p → Step K blocks s [] (s.set i (.ready p))
  | exit {i : ι} {pt : Pt} :
      s.status i = .ready (.done pt) → blocks pt = none → Step K blocks s [] (s.set i .exited)
  | handOff {i j : ι} {message : List Byte} {room room' : Word}
      {k : Returned → Task E Pt X}
      {k' : Incoming → Task E Pt X} :
      s.status i = .ready (.call (.send (K.tid j) message room) k) →
      s.status j = .receiving room' k' →
      Step K blocks s [(j, ⟨.receive room', K.incoming i room' message⟩)]
        ((s.set i (.awaiting j message room k)).set j
          (.ready (k' (K.incoming i room' message))))
  | enqueue {i j : ι} {message : List Byte} {room : Word}
      {k : Returned → Task E Pt X} :
      s.status i = .ready (.call (.send (K.tid j) message room) k) →
      s.status j ≠ .dormant → (∀ room' k', s.status j ≠ .receiving room' k') →
      Step K blocks s [] ((s.set i (.queued j message room k)).setQueue j (s.queue j ++ [i]))
  | refuse {i : ι} {target : Word} {message : List Byte} {room : Word}
      {k : Returned → Task E Pt X} :
      s.status i = .ready (.call (.send target message room) k) →
      (∀ j, K.tid j = target → s.status j = .dormant) →
      Step K blocks s [(i, ⟨.send target message room, ⟨K.noTask, []⟩⟩)]
        (s.set i (.ready (k ⟨K.noTask, []⟩)))
  | take {i j : ι} {message : List Byte} {room room' : Word} {rest : List ι}
      {k : Returned → Task E Pt X}
      {k' : Incoming → Task E Pt X} :
      s.status j = .ready (.call (.receive room') k') → s.queue j = i :: rest →
      s.status i = .queued j message room k →
      Step K blocks s [(j, ⟨.receive room', K.incoming i room' message⟩)]
        (((s.set i (.awaiting j message room k)).set j
          (.ready (k' (K.incoming i room' message)))).setQueue j rest)
  | listen {j : ι} {room : Word} {k : Incoming → Task E Pt X} :
      s.status j = .ready (.call (.receive room) k) → s.queue j = [] →
      Step K blocks s [] (s.set j (.receiving room k))
  | reply {i j x : ι} {message message' : List Byte} {size room : Word}
      {k : Word → Task E Pt X}
      {k' : Returned → Task E Pt X} :
      s.status j = .ready (.call (.reply (K.tid i) message size) k) →
      s.status i = .awaiting x message' room k' →
      Step K blocks s
        [(j, ⟨.reply (K.tid i) message size, K.replied room size⟩),
          (i, ⟨.send (K.tid x) message' room, K.returned room message size⟩)]
        ((s.set j (.ready (k (K.replied room size)))).set i
          (.ready (k' (K.returned room message size))))
  | unheard {j : ι} {target : Word} {message : List Byte} {size : Word}
      {k : Word → Task E Pt X} :
      s.status j = .ready (.call (.reply target message size) k) →
      (∀ i x message' room k', K.tid i = target → s.status i ≠ .awaiting x message' room k') →
      Step K blocks s [(j, ⟨.reply target message size, K.notBlocked⟩)]
        (s.set j (.ready (k K.notBlocked)))
  | await {i : ι} {event : Word} {k : Word → Task E Pt X} :
      s.status i = .ready (.call (.awaitEvent event) k) → K.validEvent event →
      Step K blocks s [] (s.set i (.waiting event k))
  | badEvent {i : ι} {event : Word} {k : Word → Task E Pt X} :
      s.status i = .ready (.call (.awaitEvent event) k) → ¬ K.validEvent event →
      Step K blocks s [(i, ⟨.awaitEvent event, K.badEvent⟩)] (s.set i (.ready (k K.badEvent)))
  | interrupt {i : ι} {event : Word} {k : Word → Task E Pt X} {w : W} :
      K.interrupt s.world event w → s.status i = .waiting event k →
      Step K blocks s [(i, ⟨.awaitEvent event, K.happened⟩)]
        ((s.set i (.ready (k K.happened))).setWorld w)
  | unnoticed {event : Word} {w : W} :
      K.interrupt s.world event w → (∀ i k, s.status i ≠ .waiting event k) →
      Step K blocks s [] (s.setWorld w)
  | create {i : ι} {entry : Pt} {k : Word → Task E Pt X} :
      s.status i = .ready (.call (.create entry) k) → s.status (K.home entry) = .dormant →
      Step K blocks s [(i, ⟨.create entry, K.tid (K.home entry)⟩)]
        (((s.set i (.ready (k (K.tid (K.home entry))))).set (K.home entry)
          (.ready (.done entry))).setParent (K.home entry) (K.tid i))
  | getParent {i : ι} {k : Word → Task E Pt X} :
      s.status i = .ready (.call .getParent k) →
      Step K blocks s [(i, ⟨.getParent, s.parent i⟩)] (s.set i (.ready (k (s.parent i))))
  | outside {i : ι} {e : E} {k : X e → Task E Pt X} {x : X e} {w : W} :
      s.status i = .ready (.call (.outside e) k) → K.outside s.world e x w →
      Step K blocks s [(i, ⟨.outside e, x⟩)] ((s.set i (.ready (k x))).setWorld w)
  | change {w : W} : K.change s.world w → Step K blocks s [] (s.setWorld w)

def eventsOf (i : ι) (l : List (ι × CallEvent (@Call.Answer E Pt X))) :
    List (CallEvent (@Call.Answer E Pt X)) :=
  l.filterMap fun x ↦ if x.1 = i then some x.2 else none

@[simp] theorem eventsOf_cons_self (i : ι) (e : CallEvent (@Call.Answer E Pt X))
    (l : List (ι × CallEvent (@Call.Answer E Pt X))) :
    eventsOf i ((i, e) :: l) = e :: eventsOf i l := by
  simp [eventsOf]

theorem eventsOf_cons_of_ne {i j : ι} (h : j ≠ i) (e : CallEvent (@Call.Answer E Pt X))
    (l : List (ι × CallEvent (@Call.Answer E Pt X))) :
    eventsOf i ((j, e) :: l) = eventsOf i l := by
  simp [eventsOf, h]

theorem mem_eventsOf {i : ι} {e : CallEvent (@Call.Answer E Pt X)}
    {l : List (ι × CallEvent (@Call.Answer E Pt X))} : e ∈ eventsOf i l ↔ (i, e) ∈ l := by
  simp only [eventsOf, List.mem_filterMap, Option.ite_none_right_eq_some, Option.some.injEq]
  constructor
  · rintro ⟨⟨j, e'⟩, hmem, rfl, rfl⟩
    exact hmem
  · intro hmem
    exact ⟨(i, e), hmem, rfl, rfl⟩

def Status.task (K : Setting ι E Pt W X) : Status ι E Pt X → Option (Task E Pt X)
  | dormant => none
  | ready p => some p
  | receiving room k => some (.call (.receive room) k)
  | queued j message room k => some (.call (.send (K.tid j) message room) k)
  | awaiting j message room k => some (.call (.send (K.tid j) message room) k)
  | waiting event k => some (.call (.awaitEvent event) k)
  | exited => none

inductive Status.Moves (K : Setting ι E Pt W X) (blocks : Blocks (Call E Pt) (Call.Answer X) Pt)
    (i : ι) (x : Status ι E Pt X) :
    List (CallEvent (@Call.Answer E Pt X)) → Status ι E Pt X → Prop
  | keeps {x' : Status ι E Pt X} :
      x'.task K = x.task K → (x' = .dormant → x = .dormant) → Moves K blocks i x [] x'
  | returns {x' : Status ι E Pt X} {c : Call E Pt} {k : Call.Answer X c → Task E Pt X}
      {a : Call.Answer X c} :
      x.task K = some (.call c k) → x' = .ready (k a) → Moves K blocks i x [⟨c, a⟩] x'
  | jumps {x' : Status ι E Pt X} {pt : Pt} {p : Task E Pt X} :
      x = .ready (.done pt) → blocks pt = some p → x' = .ready p → Moves K blocks i x [] x'
  | exits {x' : Status ι E Pt X} {pt : Pt} :
      x = .ready (.done pt) → blocks pt = none → x' = .exited → Moves K blocks i x [] x'
  | starts {x' : Status ι E Pt X} {entry : Pt} :
      x = .dormant → K.home entry = i → x' = .ready (.done entry) → Moves K blocks i x [] x'

section Steps

variable {blocks : Blocks (Call E Pt) (Call.Answer X) Pt} {s s' : System ι E Pt W X}
variable {l : List (ι × CallEvent (@Call.Answer E Pt X))}

theorem moves_of_return {i j : ι} {c : Call E Pt} {k : Call.Answer X c → Task E Pt X}
    (a : Call.Answer X c) (hs : (s.status j).task K = some (.call c k)) :
    (s.status i).Moves K blocks i (eventsOf i [(j, ⟨c, a⟩)])
      ((s.set j (.ready (k a))).status i) := by
  by_cases hij : i = j
  · subst hij
    rw [eventsOf_cons_self]
    exact .returns hs (System.set_self ..)
  · rw [eventsOf_cons_of_ne (Ne.symm hij), System.set_of_ne _ _ _ hij]
    exact .keeps rfl id

theorem moves_of_wait {i j : ι} {x : Status ι E Pt X} {p : Task E Pt X}
    (hs : (s.status j).task K = some p) (hx : x.task K = some p) :
    (s.status i).Moves K blocks i [] ((s.set j x).status i) := by
  by_cases hij : i = j
  · subst hij
    rw [System.set_self]
    refine .keeps (hx.trans hs.symm) fun hd ↦ ?_
    rw [hd] at hx
    cases hx
  · rw [System.set_of_ne _ _ _ hij]
    exact .keeps rfl id

/-- A step in which `j` starts to wait for `j'`, whose call returns. -/
theorem moves_of_delivery {i j j' : ι} {x : Status ι E Pt X} {p : Task E Pt X} {c : Call E Pt}
    {k : Call.Answer X c → Task E Pt X} (a : Call.Answer X c)
    (hs : (s.status j).task K = some p) (hx : x.task K = some p)
    (hs' : (s.status j').task K = some (.call c k)) :
    (s.status i).Moves K blocks i (eventsOf i [(j', ⟨c, a⟩)])
      (((s.set j x).set j' (.ready (k a))).status i) := by
  by_cases hij' : i = j'
  · subst hij'
    rw [eventsOf_cons_self]
    exact .returns hs' (System.set_self ..)
  · rw [eventsOf_cons_of_ne (Ne.symm hij'), System.set_of_ne _ _ _ hij']
    exact moves_of_wait hs hx

/-- Each step is one of the moves for each task. -/
theorem Step.moves (h : Step K blocks s l s') (i : ι) :
    (s.status i).Moves K blocks i (eventsOf i l) (s'.status i) := by
  have other {j : ι} {x : Status ι E Pt X} (hij : i ≠ j) :
      (s.status i).Moves K blocks i [] ((s.set j x).status i) := by
    rw [System.set_of_ne _ _ _ hij]
    exact .keeps rfl id
  have others {j j' : ι} {x x' : Status ι E Pt X} (hij : i ≠ j) (hij' : i ≠ j') :
      (s.status i).Moves K blocks i [] (((s.set j x).set j' x').status i) := by
    rw [System.set_of_ne _ _ _ hij', System.set_of_ne _ _ _ hij]
    exact .keeps rfl id
  cases h with
  | @jump j pt p hs hb =>
    by_cases hij : i = j
    · subst hij
      exact .jumps hs hb (System.set_self ..)
    · exact other hij
  | @exit j pt hs hb =>
    by_cases hij : i = j
    · subst hij
      exact .exits hs hb (System.set_self ..)
    · exact other hij
  | @handOff j j' message room room' k k' hs hs' =>
    have htask := congrArg (Status.task K) hs
    have htask' := congrArg (Status.task K) hs'
    exact moves_of_delivery _ htask rfl htask'
  | @enqueue j j' message room k hs =>
    have htask := congrArg (Status.task K) hs
    exact moves_of_wait htask rfl
  | @refuse j target message room k hs =>
    have htask := congrArg (Status.task K) hs
    exact moves_of_return _ htask
  | @take j j' message room room' rest k k' hs' hqueue hs =>
    have htask := congrArg (Status.task K) hs
    have htask' := congrArg (Status.task K) hs'
    exact moves_of_delivery _ htask rfl htask'
  | @listen j room k hs =>
    have htask := congrArg (Status.task K) hs
    exact moves_of_wait htask rfl
  | @reply j' j x message message' size room k k' hs hs' =>
    have hne : j ≠ j' := by
      intro he
      rw [he, hs'] at hs
      cases hs
    by_cases hij' : i = j'
    · subst hij'
      rw [eventsOf_cons_of_ne hne, eventsOf_cons_self]
      exact .returns (by rw [hs']; rfl) (System.set_self ..)
    by_cases hij : i = j
    · subst hij
      rw [System.set_of_ne _ _ _ hij', System.set_self, eventsOf_cons_self,
        eventsOf_cons_of_ne (Ne.symm hij')]
      exact .returns (by rw [hs]; rfl) rfl
    · rw [eventsOf_cons_of_ne (Ne.symm hij), eventsOf_cons_of_ne (Ne.symm hij')]
      exact others hij hij'
  | @unheard j target message size k hs =>
    have htask := congrArg (Status.task K) hs
    exact moves_of_return _ htask
  | @await j event k hs =>
    have htask := congrArg (Status.task K) hs
    exact moves_of_wait htask rfl
  | @badEvent j event k hs =>
    have htask := congrArg (Status.task K) hs
    exact moves_of_return _ htask
  | @interrupt j event k w hw hs =>
    have htask := congrArg (Status.task K) hs
    exact moves_of_return _ htask
  | unnoticed => exact .keeps rfl id
  | @create j entry k hs hd =>
    have hne : j ≠ K.home entry := by
      intro he
      rw [he, hd] at hs
      cases hs
    by_cases hij' : i = K.home entry
    · subst hij'
      rw [eventsOf_cons_of_ne hne]
      exact .starts hd rfl (System.set_self ..)
    by_cases hij : i = j
    · subst hij
      rw [System.setParent_status, System.set_of_ne _ _ _ hij', System.set_self,
        eventsOf_cons_self]
      exact .returns (by rw [hs]; rfl) rfl
    · rw [eventsOf_cons_of_ne (Ne.symm hij)]
      exact others hij hij'
  | @getParent j k hs =>
    have htask := congrArg (Status.task K) hs
    exact moves_of_return _ htask
  | @outside j e k x w hs hw =>
    have htask := congrArg (Status.task K) hs
    exact moves_of_return _ htask
  | change => exact .keeps rfl id

theorem System.set_dormant {i j : ι} {x : Status ι E Pt X} (hi : s.status i ≠ .dormant)
    (hj : s.status j = .dormant) : (s.set i x).status j = .dormant := by
  have hne : j ≠ i := by
    rintro rfl
    exact hi hj
  rw [System.set_of_ne _ _ _ hne, hj]

theorem System.set_set_dormant {i i' j : ι} {x x' : Status ι E Pt X}
    (hi : s.status i ≠ .dormant) (hi' : s.status i' ≠ .dormant) (hj : s.status j = .dormant) :
    ((s.set i x).set i' x').status j = .dormant := by
  have hne : j ≠ i' := by
    rintro rfl
    exact hi' hj
  rw [System.set_of_ne _ _ _ hne, System.set_dormant hi hj]

inductive Worldly (K : Setting ι E Pt W X) (s s' : System ι E Pt W X) :
    List (ι × CallEvent (@Call.Answer E Pt X)) → Prop
  | same {l : List (ι × CallEvent (@Call.Answer E Pt X))} : s'.world = s.world → Worldly K s s' l
  | change : K.change s.world s'.world → s'.status = s.status → Worldly K s s' []
  | unnoticed {event : Word} : K.interrupt s.world event s'.world →
      (∀ i k, s.status i ≠ .waiting event k) → s'.status = s.status → Worldly K s s' []
  | noticed {i : ι} {event : Word} {k : Word → Task E Pt X} :
      K.interrupt s.world event s'.world → s.status i = .waiting event k →
      Worldly K s s' [(i, ⟨.awaitEvent event, K.happened⟩)]
  | outside {i : ι} {e : E} {x : X e} :
      K.outside s.world e x s'.world → Worldly K s s' [(i, ⟨.outside e, x⟩)]

theorem Step.worldly (h : Step K blocks s l s') : Worldly K s s' l := by
  cases h with
  | interrupt hw hs => exact .noticed hw hs
  | unnoticed hw hno => exact .unnoticed hw hno rfl
  | outside hs hw => exact .outside hw
  | change hw => exact .change hw rfl
  | _ => exact .same rfl

theorem Step.creates (h : Step K blocks s l s') (j : ι) :
    s'.parent j = s.parent j ∧ (s.status j = .dormant → s'.status j = .dormant) ∨
      ∃ i entry, K.home entry = j ∧ (i, ⟨.create entry, K.tid (K.home entry)⟩) ∈ l ∧
        s'.parent j = K.tid i := by
  have begun {i : ι} {x : Status ι E Pt X} (hx : s.status i = x) (hne : x ≠ .dormant) :
      s.status i ≠ .dormant := hx ▸ hne
  cases h with
  | handOff hs hs' =>
    exact .inl ⟨rfl, System.set_set_dormant (begun hs nofun) (begun hs' nofun)⟩
  | take hs' hqueue hs =>
    exact .inl ⟨rfl, System.set_set_dormant (begun hs nofun) (begun hs' nofun)⟩
  | reply hs hs' =>
    exact .inl ⟨rfl, System.set_set_dormant (begun hs nofun) (begun hs' nofun)⟩
  | unnoticed => exact .inl ⟨rfl, id⟩
  | change => exact .inl ⟨rfl, id⟩
  | @create i entry k hs hd =>
    by_cases hj : j = K.home entry
    · subst hj
      exact .inr ⟨i, entry, rfl, List.mem_singleton_self _, System.setParent_self ..⟩
    · refine .inl ⟨System.setParent_of_ne _ _ _ hj, fun hdormant ↦ ?_⟩
      rw [System.setParent_status, System.set_of_ne _ _ _ hj]
      exact System.set_dormant (begun hs nofun) hdormant
  | interrupt hw hs => exact .inl ⟨rfl, System.set_dormant (begun hs nofun)⟩
  | jump hs | exit hs | enqueue hs | refuse hs | listen hs | unheard hs | await hs | badEvent hs
  | getParent hs | outside hs =>
    exact .inl ⟨rfl, System.set_dormant (begun hs nofun)⟩

theorem Step.created (h : Step K blocks s l s') {i : ι} {entry : Pt} {tid : Word}
    (hmem : (i, ⟨.create entry, tid⟩) ∈ l) : s'.status (K.home entry) ≠ .dormant := by
  cases h with
  | create hs hd =>
    obtain ⟨-, he⟩ := Prod.mk.inj (List.mem_singleton.mp hmem)
    cases he
    rw [System.setParent_status, System.set_self]
    nofun
  | _ => simp at hmem

end Steps

section Contracts

variable {G : Type} {S : Contract (Call E Pt) (Call.Answer X) G} {inv : Pt → G → Prop}
variable {blocks : Blocks (Call E Pt) (Call.Answer X) Pt} {s s' : System ι E Pt W X}
variable {l : List (ι × CallEvent (@Call.Answer E Pt X))}

/-- What the task `i` still has to do keeps its contract. A task that has not
begun will keep it from its entry points on. -/
structure Status.Meets (K : Setting ι E Pt W X) (S : Contract (Call E Pt) (Call.Answer X) G)
    (inv : Pt → G → Prop) (i : ι) (g : G) (x : Status ι E Pt X) : Prop where
  task : ∀ p, x.task K = some p → p.Meets S inv g
  entry : x = .dormant → ∀ entry, K.home entry = i → inv entry g

omit [DecidableEq ι] in
theorem Status.Moves.meets {i : ι} {x x' : Status ι E Pt X}
    {es : List (CallEvent (@Call.Answer E Pt X))} (h : x.Moves K blocks i es x') {g : G}
    (hkept : S.Kept inv blocks) (hx : x.Meets K S inv i g)
    (hrely : ∀ e ∈ es, S.rely g e.1 e.2) : x'.Meets K S inv i (S.after g es) := by
  cases h with
  | keeps htask hdormant =>
    exact ⟨fun p hp ↦ hx.task p (htask ▸ hp), fun hd ↦ hx.entry (hdormant hd)⟩
  | @returns x' c k a htask hx' =>
    subst hx'
    refine ⟨fun p hp ↦ ?_, nofun⟩
    obtain rfl := Option.some.inj hp
    exact (hx.task _ htask).2 a (hrely ⟨c, a⟩ (List.mem_singleton_self _))
  | @jumps x' pt p hdone hb hx' =>
    subst hdone hx'
    refine ⟨fun q hq ↦ ?_, nofun⟩
    obtain rfl := Option.some.inj hq
    exact hkept pt g _ (hx.task _ rfl) hb
  | exits _ _ hx' =>
    subst hx'
    exact ⟨nofun, nofun⟩
  | @starts x' entry hd hhome hx' =>
    subst hx'
    refine ⟨fun p hp ↦ ?_, nofun⟩
    obtain rfl := Option.some.inj hp
    exact hx.entry hd entry hhome

omit [DecidableEq ι] in
theorem Status.Moves.not_dormant {i : ι} {x x' : Status ι E Pt X}
    {es : List (CallEvent (@Call.Answer E Pt X))} (h : x.Moves K blocks i es x')
    (hx : x ≠ .dormant) : x' ≠ .dormant := by
  cases h with
  | keeps _ hdormant => exact fun hd ↦ hx (hdormant hd)
  | returns _ hx' => rw [hx']; nofun
  | jumps _ _ hx' => rw [hx']; nofun
  | exits _ _ hx' => rw [hx']; nofun
  | starts hd => exact absurd hd hx

omit [DecidableEq ι] in
/-- A task whose points all lead on never ends. -/
theorem Status.Moves.lives {i : ι} {x x' : Status ι E Pt X}
    {es : List (CallEvent (@Call.Answer E Pt X))} (h : x.Moves K blocks i es x') {g : G}
    (hx : x.Meets K S inv i g) (hends : ∀ pt g, inv pt g → blocks pt ≠ none)
    (hlives : x.task K ≠ none) : x'.task K ≠ none := by
  cases h with
  | keeps htask => rwa [htask]
  | returns _ hx' => rw [hx']; nofun
  | jumps _ _ hx' => rw [hx']; nofun
  | exits hdone hb =>
    subst hdone
    exact absurd hb (hends _ _ (hx.task _ rfl))
  | starts _ _ hx' => rw [hx']; nofun

end Contracts

section Following

variable {G : ι → Type} {S : (i : ι) → Contract (Call E Pt) (Call.Answer X) (G i)}
variable {inv : (i : ι) → Pt → G i → Prop} {g : (i : ι) → G i}
variable {blocks : Blocks (Call E Pt) (Call.Answer X) Pt} {s s' : System ι E Pt W X}
variable {l : List (ι × CallEvent (@Call.Answer E Pt X))}

omit [DecidableEq ι] in
def System.Follows (K : Setting ι E Pt W X) (S : (i : ι) → Contract (Call E Pt) (Call.Answer X) (G i))
    (inv : (i : ι) → Pt → G i → Prop) (g : (i : ι) → G i) (s : System ι E Pt W X) : Prop :=
  ∀ i, (s.status i).Meets K (S i) (inv i) i (g i)

def advance (S : (i : ι) → Contract (Call E Pt) (Call.Answer X) (G i)) (g : (i : ι) → G i)
    (l : List (ι × CallEvent (@Call.Answer E Pt X))) (i : ι) : G i :=
  (S i).after (g i) (eventsOf i l)

@[simp] theorem advance_nil : advance S g [] = g := rfl

theorem advance_self (i : ι) (e : CallEvent (@Call.Answer E Pt X)) :
    advance S g [(i, e)] i = (S i).next (g i) e.1 e.2 := by
  rw [advance, eventsOf_cons_self]
  rfl

theorem advance_of_ne {i j : ι} (h : j ≠ i) (e : CallEvent (@Call.Answer E Pt X))
    (l : List (ι × CallEvent (@Call.Answer E Pt X))) :
    advance S g ((i, e) :: l) j = advance S g l j := by
  rw [advance, eventsOf_cons_of_ne (Ne.symm h)]
  rfl

theorem advance_apart {i j : ι} (h : j ≠ i) (e : CallEvent (@Call.Answer E Pt X)) :
    advance S g [(i, e)] j = g j := advance_of_ne h e []

theorem advance_pair_left {i j : ι} (h : i ≠ j) (e e' : CallEvent (@Call.Answer E Pt X)) :
    advance S g [(i, e), (j, e')] i = (S i).next (g i) e.1 e.2 := by
  rw [advance, eventsOf_cons_self, eventsOf_cons_of_ne (Ne.symm h)]
  rfl

theorem advance_pair_right {i j : ι} (h : i ≠ j) (e e' : CallEvent (@Call.Answer E Pt X)) :
    advance S g [(i, e), (j, e')] j = (S j).next (g j) e'.1 e'.2 := by
  rw [advance_of_ne (Ne.symm h), advance_self]

theorem Step.follows (h : Step K blocks s l s') (hkept : ∀ i, (S i).Kept (inv i) blocks)
    (hs : s.Follows K S inv g) (hrely : ∀ i e, (i, e) ∈ l → (S i).rely (g i) e.1 e.2) :
    s'.Follows K S inv (advance S g l) := fun i ↦
  (h.moves i).meets (hkept i) (hs i) fun e he ↦ hrely i e (mem_eventsOf.mp he)

omit [DecidableEq ι] in
theorem System.Follows.pre (hs : s.Follows K S inv g) {i : ι} {c : Call E Pt}
    {k : Call.Answer X c → Task E Pt X} (h : (s.status i).task K = some (.call c k)) :
    (S i).pre (g i) c := ((hs i).task _ h).1

/-- A call that returns was allowed, and is the only one of its task. -/
theorem Step.returned (h : Step K blocks s l s') (hs : s.Follows K S inv g) {i : ι}
    {c : Call E Pt} {a : Call.Answer X c} (hmem : (i, ⟨c, a⟩) ∈ l) :
    (S i).pre (g i) c ∧ advance S g l i = (S i).next (g i) c a := by
  have hmoves := h.moves i
  have hmem' := mem_eventsOf.mpr hmem
  unfold advance
  generalize eventsOf i l = es at hmoves hmem'
  cases hmoves with
  | returns htask =>
    cases List.mem_singleton.mp hmem'
    exact ⟨hs.pre htask, rfl⟩
  | _ => cases hmem'

theorem Step.advance_cases (h : Step K blocks s l s') (hs : s.Follows K S inv g) (i : ι) :
    advance S g l i = g i ∨ ∃ c a, (i, ⟨c, a⟩) ∈ l ∧ (S i).pre (g i) c ∧
      advance S g l i = (S i).next (g i) c a := by
  cases hes : eventsOf i l with
  | nil =>
    refine .inl ?_
    rw [advance, hes]
    rfl
  | cons e es =>
    have hmem : (i, e) ∈ l := mem_eventsOf.mp (by rw [hes]; exact List.mem_cons_self)
    exact .inr ⟨e.1, e.2, hmem, h.returned hs hmem⟩

end Following

section Talking

/-- The task whose reply a task waits for, once its message was received. -/
def Status.server : Status ι E Pt X → Option ι
  | awaiting j .. => some j
  | _ => none

def System.awaits (s : System ι E Pt W X) (i : ι) : Option ι := (s.status i).server

/-- What is known of a call that returns without a message or a reply getting
through. -/
def Alone (K : Setting ι E Pt W X) (s s' : System ι E Pt W X) (i : ι) :
    (c : Call E Pt) → Call.Answer X c → Prop
  | .send target .., _ => ∀ j, K.tid j = target → s.status j = .dormant
  | .receive _, _ => False
  | .reply target .., _ => ∀ j, K.tid j = target → s.awaits j = none
  | .awaitEvent _, _ => True
  | .create entry, tid => tid = K.tid (K.home entry) ∧ s.status (K.home entry) = .dormant
  | .getParent, tid => tid = s.parent i
  | .outside e, x => K.outside s.world e x s'.world

/-- A step seen from the messages: none, one that is received, or one that is
answered. -/
inductive Talk (K : Setting ι E Pt W X) (s s' : System ι E Pt W X) :
    List (ι × CallEvent (@Call.Answer E Pt X)) → Prop
  | silent : (∀ y, s'.awaits y = s.awaits y) → Talk K s s' []
  | alone {i : ι} {c : Call E Pt} {k : Call.Answer X c → Task E Pt X} {a : Call.Answer X c} :
      (s.status i).task K = some (.call c k) → Alone K s s' i c a →
      (∀ y, s'.awaits y = s.awaits y) → Talk K s s' [(i, ⟨c, a⟩)]
  | deliver {i j : ι} {message : List Byte} {room room' : Word} {k : Returned → Task E Pt X}
      {k' : Incoming → Task E Pt X} :
      (s.status i).task K = some (.call (.send (K.tid j) message room) k) →
      (s.status j).task K = some (.call (.receive room') k') → s.awaits i = none →
      (∀ y, s'.awaits y = if y = i then some j else s.awaits y) →
      Talk K s s' [(j, ⟨.receive room', K.incoming i room' message⟩)]
  | answer {i j x : ι} {message message' : List Byte} {size room : Word}
      {k : Word → Task E Pt X} {k' : Returned → Task E Pt X} :
      (s.status j).task K = some (.call (.reply (K.tid i) message size) k) →
      (s.status i).task K = some (.call (.send (K.tid x) message' room) k') →
      s.awaits i = some x → (∀ y, s'.awaits y = if y = i then none else s.awaits y) →
      Talk K s s' [(j, ⟨.reply (K.tid i) message size, K.replied room size⟩),
        (i, ⟨.send (K.tid x) message' room, K.returned room message size⟩)]

variable {blocks : Blocks (Call E Pt) (Call.Answer X) Pt} {s s' : System ι E Pt W X}
variable {l : List (ι × CallEvent (@Call.Answer E Pt X))}

theorem System.awaits_set (s : System ι E Pt W X) (i : ι) (x : Status ι E Pt X) (y : ι) :
    (s.set i x).awaits y = if y = i then x.server else s.awaits y := by
  unfold System.awaits
  split_ifs with h
  · rw [h, System.set_self]
  · rw [System.set_of_ne _ _ _ h]

theorem System.awaits_set_none {i : ι} {x : Status ι E Pt X} (hi : s.awaits i = none)
    (hx : x.server = none) (y : ι) : (s.set i x).awaits y = s.awaits y := by
  rw [System.awaits_set]
  split_ifs with h
  · rw [h, hi, hx]
  · rfl

theorem System.awaits_delivery {i j : ι} {x x' : Status ι E Pt X} (hne : j ≠ i)
    (hj : s.awaits j = none) (hx' : x'.server = none) (y : ι) :
    ((s.set i x).set j x').awaits y = if y = i then x.server else s.awaits y := by
  rw [System.awaits_set, System.awaits_set]
  by_cases hy : y = j
  · rw [if_pos hy, hy, if_neg hne, hj, hx']
  · rw [if_neg hy]

omit [DecidableEq ι] in
theorem System.awaits_of_status {i : ι} {x : Status ι E Pt X} (h : s.status i = x) :
    s.awaits i = x.server := congrArg Status.server h

theorem Step.talk (h : Step K blocks s l s') : Talk K s s' l := by
  cases h with
  | jump hs hb => exact .silent (System.awaits_set_none (System.awaits_of_status hs) rfl)
  | exit hs hb => exact .silent (System.awaits_set_none (System.awaits_of_status hs) rfl)
  | @handOff i j message room room' k k' hs hs' =>
    have hne : j ≠ i := by
      rintro rfl
      rw [hs] at hs'
      cases hs'
    exact .deliver (by rw [hs]; rfl) (by rw [hs']; rfl) (System.awaits_of_status hs)
      (System.awaits_delivery hne (System.awaits_of_status hs') rfl)
  | enqueue hs hd hr => exact .silent (System.awaits_set_none (System.awaits_of_status hs) rfl)
  | refuse hs hd =>
    exact .alone (by rw [hs]; rfl) hd (System.awaits_set_none (System.awaits_of_status hs) rfl)
  | @take i j message room room' rest k k' hs' hqueue hs =>
    have hne : j ≠ i := by
      rintro rfl
      rw [hs] at hs'
      cases hs'
    exact .deliver (by rw [hs]; rfl) (by rw [hs']; rfl) (System.awaits_of_status hs)
      (System.awaits_delivery hne (System.awaits_of_status hs') rfl)
  | listen hs hq => exact .silent (System.awaits_set_none (System.awaits_of_status hs) rfl)
  | @reply i j x message message' size room k k' hs hs' =>
    have hne : j ≠ i := by
      rintro rfl
      rw [hs] at hs'
      cases hs'
    refine .answer (by rw [hs]; rfl) (by rw [hs']; rfl) (System.awaits_of_status hs') fun y ↦ ?_
    rw [System.awaits_set, System.awaits_set]
    by_cases hy : y = i
    · rw [if_pos hy, if_pos hy]
      rfl
    · rw [if_neg hy, if_neg hy]
      split_ifs with hyj
      · rw [hyj, System.awaits_of_status hs]
        rfl
      · rfl
  | @unheard j target message size k hs hno =>
    refine .alone (by rw [hs]; rfl) (fun i hi ↦ ?_)
      (System.awaits_set_none (System.awaits_of_status hs) rfl)
    unfold System.awaits
    cases hstatus : s.status i with
    | awaiting x message' room k' => exact absurd hstatus (hno i x message' room k' hi)
    | _ => rfl
  | await hs hv => exact .silent (System.awaits_set_none (System.awaits_of_status hs) rfl)
  | badEvent hs hv =>
    exact .alone (by rw [hs]; rfl) trivial (System.awaits_set_none (System.awaits_of_status hs) rfl)
  | interrupt hw hs =>
    exact .alone (by rw [hs]; rfl) trivial (System.awaits_set_none (System.awaits_of_status hs) rfl)
  | unnoticed => exact .silent fun _ ↦ rfl
  | @create i entry k hs hd =>
    refine .alone (by rw [hs]; rfl) ⟨rfl, hd⟩ fun y ↦ ?_
    change ((s.set i _).set (K.home entry) _).awaits y = _
    have hne : K.home entry ≠ i := by
      intro he
      rw [he, hs] at hd
      cases hd
    rw [System.awaits_set_none _ rfl, System.awaits_set_none (System.awaits_of_status hs) rfl]
    rw [System.awaits_set, if_neg hne]
    exact System.awaits_of_status hd
  | getParent hs =>
    exact .alone (by rw [hs]; rfl) rfl (System.awaits_set_none (System.awaits_of_status hs) rfl)
  | outside hs hw =>
    exact .alone (by rw [hs]; rfl) hw (System.awaits_set_none (System.awaits_of_status hs) rfl)
  | change => exact .silent fun _ ↦ rfl

end Talking

section Waiting

variable {s : System ι E Pt W X}

/-- The task `i` is blocked in a Send to `j`, received or not. -/
def System.WaitsFor (s : System ι E Pt W X) (i j : ι) : Prop :=
  ∃ message room k,
    s.status i = .queued j message room k ∨ s.status i = .awaiting j message room k

omit [DecidableEq ι] in
/-- There is no cycle if waiting goes down a rank, except for tasks that are
waited for and wait for nobody. -/
theorem not_waiting_cycle (rank : ι → Nat)
    (h : ∀ i j, s.WaitsFor i j → rank j < rank i ∨ ∀ x, ¬ s.WaitsFor j x) (i : ι) :
    ¬ Relation.TransGen s.WaitsFor i i := by
  intro hcycle
  have hdown {i j : ι} (hij : Relation.TransGen s.WaitsFor i j) :
      (∃ x, s.WaitsFor j x) → rank j < rank i := by
    induction hij with
    | single hij =>
      rintro ⟨x, hx⟩
      exact (h _ _ hij).resolve_right fun hnone ↦ hnone x hx
    | tail _ hbc ih =>
      rintro ⟨x, hx⟩
      exact lt_trans ((h _ _ hbc).resolve_right fun hnone ↦ hnone x hx) (ih ⟨_, hbc⟩)
  obtain ⟨j, hij, -⟩ := Relation.TransGen.head'_iff.mp hcycle
  exact lt_irrefl _ (hdown hcycle ⟨j, hij⟩)

end Waiting

end PrjOS.Rendezvous
