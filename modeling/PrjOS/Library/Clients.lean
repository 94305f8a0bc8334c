import PrjOS.Library.Rendezvous

namespace PrjOS.Rendezvous

open ByteMemory Function Program Transition

/-- Where a task is that may ask for anything: before its next call, or at its
end. -/
inductive Place (ι : Type)
  | choosing (i : ι)
  | ended (i : ι)

def Place.home {ι : Type} : Place ι → ι
  | choosing i => i
  | ended i => i

/-- The next call of such a task, or none if it ends. -/
abbrev Choice (ι : Type) : Unit → Type := fun _ ↦ Option (Call Unit (Place ι))

abbrev Client (ι : Type) : Type := Task Unit (Place ι) (Choice ι)

inductive Outcome
  | received (r : Incoming)
  | sent (target : Word) (r : Returned)
  | replied (target result : Word)
  | awoke (event result : Word)
  | created (tid : Word)
  | parent (tid : Word)
  deriving DecidableEq

inductive Notice (ι : Type)
  | asks (c : Call Unit (Place ι))
  | gets (o : Outcome)
  | ends

variable {ι W : Type}

def Notice.of : CallEvent (@Call.Answer Unit (Place ι) (Choice ι)) → Notice ι
  | ⟨.send target _ _, r⟩ => .gets (.sent target r)
  | ⟨.receive _, r⟩ => .gets (.received r)
  | ⟨.reply target _ _, result⟩ => .gets (.replied target result)
  | ⟨.awaitEvent event, result⟩ => .gets (.awoke event result)
  | ⟨.create _, tid⟩ => .gets (.created tid)
  | ⟨.getParent, tid⟩ => .gets (.parent tid)
  | ⟨.outside (), some c⟩ => .asks c
  | ⟨.outside (), none⟩ => .ends

def shown (l : List (ι × CallEvent (@Call.Answer Unit (Place ι) (Choice ι)))) :
    List (ι × Notice ι) := l.map fun e ↦ (e.1, .of e.2)

def Client.resume {A : Type} (i : ι) (_ : A) : Client ι := .done (.choosing i)

def Client.perform (i : ι) : Option (Call Unit (Place ι)) → Client ι
  | some c => .call c (Client.resume i)
  | none => .done (.ended i)

/-- The program of the most general clients. -/
def anything : Blocks (Call Unit (Place ι)) (Call.Answer (Choice ι)) (Place ι)
  | .choosing i => some (.call (.outside ()) (Client.perform i))
  | .ended _ => none

def idle (i : ι) : Status ι Unit (Place ι) (Choice ι) := .ready (.done (.choosing i))

theorem idle_eq {A : Type} (i : ι) (x : A) : idle i = .ready (Client.resume i x) := rfl

variable [DecidableEq ι] {K : Setting ι Unit (Place ι) W (Choice ι)}
variable {s : System ι Unit (Place ι) W (Choice ι)} {i : ι}

theorem System.set_set (s : System ι Unit (Place ι) W (Choice ι)) (i : ι)
    (x y : Status ι Unit (Place ι) (Choice ι)) : (s.set i x).set i y = s.set i y := by
  simp [System.set]

def Reaches (K : Setting ι Unit (Place ι) W (Choice ι)) (s : System ι Unit (Place ι) W (Choice ι))
    (os : List (ι × Notice ι)) (s' : System ι Unit (Place ι) W (Choice ι)) : Prop :=
  ∃ ls, Run (Step K anything) s ls s' ∧ ls.flatMap shown = os

/-- What a client does between two calls is no matter to the world. -/
def Setting.Free (K : Setting ι Unit (Place ι) W (Choice ι)) : Prop :=
  ∀ w x, K.outside w () x w

section Calls

variable {message message' : List Byte} {room room' event : Word} {i j : ι}

theorem Reaches.refl (s : System ι Unit (Place ι) W (Choice ι)) : Reaches K s [] s :=
  ⟨[], .nil, rfl⟩

/-- A client can come to ask for anything. -/
theorem reaches_choice (hK : K.Free) (hs : s.status i = idle i)
    (choice : Option (Call Unit (Place ι))) :
    Reaches K s (shown [(i, ⟨.outside (), choice⟩)])
      (s.set i (.ready (Client.perform i choice))) := by
  let asked := s.set i (.ready (.call (.outside ()) (Client.perform i)))
  have hjump : Step K anything s [] asked := .jump hs rfl
  have hchoose : Step K anything asked [(i, ⟨.outside (), choice⟩)]
      ((asked.set i (.ready (Client.perform i choice))).setWorld s.world) :=
    .outside (System.set_self ..) (hK s.world choice)
  rw [System.set_set] at hchoose
  exact ⟨_, (Run.nil.snoc hjump).snoc hchoose, rfl⟩

theorem reaches_call (hK : K.Free) (hs : s.status i = idle i) {c : Call Unit (Place ι)}
    {l : List (ι × CallEvent (@Call.Answer Unit (Place ι) (Choice ι)))}
    {s' : System ι Unit (Place ι) W (Choice ι)}
    (hstep : Step K anything (s.set i (.ready (.call c (Client.resume i)))) l s') :
    Reaches K s ((i, .asks c) :: shown l) s' := by
  obtain ⟨ls, hrun, hshown⟩ := reaches_choice hK hs (some c)
  exact ⟨_, hrun.snoc hstep, by rw [List.flatMap_append, hshown, List.flatMap_singleton]; rfl⟩

theorem System.set_idle (hs : s.status i = idle i) : s.set i (idle i) = s := by
  rw [System.set, ← hs, update_eq_self]

/-- A call that returns at once and leaves everything as it was. -/
theorem reaches_return (hK : K.Free) (hs : s.status i = idle i)
    {c : Call Unit (Place ι)} {x : Call.Answer (Choice ι) c}
    (hstep : Step K anything (s.set i (.ready (.call c (Client.resume i)))) [(i, ⟨c, x⟩)]
      ((s.set i (.ready (.call c (Client.resume i)))).set i (.ready (Client.resume i x)))) :
    Reaches K s [(i, .asks c), (i, .of ⟨c, x⟩)] s := by
  have hback : s.set i (.ready (Client.resume i x)) = s := System.set_idle hs
  rw [System.set_set, hback] at hstep
  exact reaches_call hK hs hstep

theorem reaches_end (hK : K.Free) (hs : s.status i = idle i) :
    Reaches K s [(i, .ends)] (s.set i .exited) := by
  obtain ⟨ls, hrun, hshown⟩ := reaches_choice hK hs none
  have hexit : Step K anything (s.set i (.ready (.done (.ended i)))) []
      ((s.set i (.ready (.done (.ended i)))).set i .exited) := .exit (System.set_self ..) rfl
  rw [System.set_set] at hexit
  exact ⟨_, hrun.snoc hexit, by rw [List.flatMap_append, hshown]; rfl⟩

theorem reaches_refuse (hK : K.Free) (hs : s.status i = idle i) {target : Word}
    (hno : ∀ j, K.tid j = target → s.status j = .dormant) (message : List Byte) (room : Word) :
    Reaches K s [(i, .asks (.send target message room)),
      (i, .gets (.sent target ⟨K.noTask, []⟩))] s := by
  refine reaches_return hK hs (.refuse (System.set_self ..) fun j hj ↦ ?_)
  have hji : j ≠ i := by
    rintro rfl
    rw [hno j hj] at hs
    cases hs
  rw [System.set_of_ne _ _ _ hji]
  exact hno j hj

theorem reaches_unheard (hK : K.Free) (hs : s.status i = idle i) {target : Word}
    (hno : ∀ j x message room k, K.tid j = target → s.status j ≠ .awaiting x message room k)
    (message : List Byte) (size : Word) :
    Reaches K s [(i, .asks (.reply target message size)),
      (i, .gets (.replied target K.notBlocked))] s := by
  refine reaches_return hK hs (.unheard (System.set_self ..) fun j x message room k hj ↦ ?_)
  by_cases hji : j = i
  · rw [hji, System.set_self]
    nofun
  · rw [System.set_of_ne _ _ _ hji]
    exact hno j x message room k hj

theorem reaches_badEvent (hK : K.Free) (hs : s.status i = idle i) (he : ¬ K.validEvent event) :
    Reaches K s [(i, .asks (.awaitEvent event)), (i, .gets (.awoke event K.badEvent))] s :=
  reaches_return hK hs (.badEvent (System.set_self ..) he)

theorem reaches_getParent (hK : K.Free) (hs : s.status i = idle i) :
    Reaches K s [(i, .asks .getParent), (i, .gets (.parent (s.parent i)))] s :=
  reaches_return hK hs (.getParent (System.set_self ..))

theorem reaches_listen (hK : K.Free) (hs : s.status i = idle i) (hempty : s.queue i = [])
    (room : Word) :
    Reaches K s [(i, .asks (.receive room))] (s.set i (.receiving room (Client.resume i))) := by
  have hstep := reaches_call hK hs (c := .receive room) (.listen (System.set_self ..) hempty)
  rwa [System.set_set] at hstep

theorem reaches_await (hK : K.Free) (hs : s.status i = idle i) (he : K.validEvent event) :
    Reaches K s [(i, .asks (.awaitEvent event))]
      (s.set i (.waiting event (Client.resume i))) := by
  have hstep := reaches_call hK hs (c := .awaitEvent event) (.await (System.set_self ..) he)
  rwa [System.set_set] at hstep

theorem reaches_handOff (hK : K.Free) (hs : s.status i = idle i) (hij : j ≠ i)
    (hj : s.status j = .receiving room' (Client.resume j)) (message : List Byte) (room : Word) :
    Reaches K s [(i, .asks (.send (K.tid j) message room)),
        (j, .gets (.received (K.incoming i room' message)))]
      ((s.set i (.awaiting j message room (Client.resume i))).set j (idle j)) := by
  have hstep := reaches_call hK hs (c := .send (K.tid j) message room)
    (.handOff (System.set_self ..) ((System.set_of_ne _ _ _ hij).trans hj))
  rwa [System.set_set] at hstep

theorem reaches_enqueue (hK : K.Free) (hs : s.status i = idle i)
    (hbegun : j = i ∨ s.status j ≠ .dormant)
    (hbusy : j = i ∨ ∀ room' k', s.status j ≠ .receiving room' k')
    (message : List Byte) (room : Word) :
    Reaches K s [(i, .asks (.send (K.tid j) message room))]
      ((s.set i (.queued j message room (Client.resume i))).setQueue j (s.queue j ++ [i])) := by
  have hstep := reaches_call hK hs (c := .send (K.tid j) message room)
    (.enqueue (j := j) (System.set_self ..) ?_ fun room' k' ↦ ?_)
  · rwa [System.set_set] at hstep
  all_goals by_cases hji : j = i
  · rw [hji, System.set_self]
    nofun
  · rw [System.set_of_ne _ _ _ hji]
    exact hbegun.resolve_left hji
  · rw [hji, System.set_self]
    nofun
  · rw [System.set_of_ne _ _ _ hji]
    exact hbusy.resolve_left hji room' k'

theorem reaches_take (hK : K.Free) (hs : s.status j = idle j) {rest : List ι} (hij : i ≠ j)
    (hqueue : s.queue j = i :: rest)
    (hi : s.status i = .queued j message room (Client.resume i)) (room' : Word) :
    Reaches K s [(j, .asks (.receive room')),
        (j, .gets (.received (K.incoming i room' message)))]
      (((s.set i (.awaiting j message room (Client.resume i))).set j (idle j)).setQueue j
        rest) := by
  have hstep := reaches_call hK hs (c := .receive room')
    (.take (System.set_self ..) hqueue ((System.set_of_ne _ _ _ hij).trans hi))
  have hback (x y z : Status ι Unit (Place ι) (Choice ι)) :
      ((s.set j x).set i y).set j z = (s.set i y).set j z := by
    simp only [System.set, update_comm hij, update_idem]
  rwa [hback] at hstep

theorem reaches_reply (hK : K.Free) (hs : s.status j = idle j) (hij : i ≠ j) {x : ι}
    (hi : s.status i = .awaiting x message' room (Client.resume i)) (message : List Byte)
    (size : Word) : Reaches K s [(j, .asks (.reply (K.tid i) message size)),
        (j, .gets (.replied (K.tid i) (K.replied room size))),
        (i, .gets (.sent (K.tid x) (K.returned room message size)))] (s.set i (idle i)) := by
  have hstep := reaches_call hK hs (c := .reply (K.tid i) message size)
    (.reply (System.set_self ..) ((System.set_of_ne _ _ _ hij).trans hi))
  rw [System.set_set] at hstep
  have hback := System.set_idle hs
  rw [idle_eq j (K.replied room size)] at hback
  rwa [hback] at hstep

theorem reaches_create (hK : K.Free) (hs : s.status i = idle i) (hhome : K.home (.choosing j) = j)
    (hj : s.status j = .dormant) :
    Reaches K s [(i, .asks (.create (.choosing j))), (i, .gets (.created (K.tid j)))]
      ((s.set j (idle j)).setParent j (K.tid i)) := by
  have hji : j ≠ i := by
    rintro rfl
    rw [hj] at hs
    cases hs
  have hstep := reaches_call hK hs (c := .create (.choosing j))
    (.create (System.set_self ..) (by rw [hhome, System.set_of_ne _ _ _ hji]; exact hj))
  rw [System.set_set, hhome] at hstep
  have hback := System.set_idle hs
  rw [idle_eq i (K.tid j)] at hback
  rwa [hback] at hstep

theorem reaches_interrupt {w : W} (hi : s.status i = .waiting event (Client.resume i))
    (hw : K.interrupt s.world event w) :
    Reaches K s [(i, .gets (.awoke event K.happened))] ((s.set i (idle i)).setWorld w) :=
  ⟨_, Run.nil.snoc (.interrupt hw hi), rfl⟩

theorem reaches_unnoticed {w : W} (hno : ∀ i k, s.status i ≠ .waiting event k)
    (hw : K.interrupt s.world event w) : Reaches K s [] (s.setWorld w) :=
  ⟨_, Run.nil.snoc (.unnoticed hw hno), rfl⟩

end Calls

end PrjOS.Rendezvous
