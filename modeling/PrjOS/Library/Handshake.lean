import PrjOS.Library.Rendezvous

namespace PrjOS.Rendezvous

open ByteMemory Function Program

variable {ι E Pt W : Type} {X : E → Type} {K : Setting ι E Pt W X}

section Account

variable {G : Type}

/-- The tasks that are owed a reply after a call, given those before. -/
def account (owed : List Word) : (c : Call E Pt) → Call.Answer X c → List Word
  | .receive _, received => received.sender :: owed
  | .reply target _ _, _ => owed.erase target
  | _, _ => owed

/-- Under the contract a task replies to each message at most once. `owes` are
the senders of the messages that it has not replied to. -/
structure KeepsAccount (S : Contract (Call E Pt) (Call.Answer X) G) (owes : G → List Word) :
    Prop where
  reply {g : G} {target : Word} {message : List Byte} {size : Word} :
    S.pre g (.reply target message size) → target ∈ owes g
  next {g : G} {c : Call E Pt} (a : Call.Answer X c) :
    S.pre g c → (owes (S.next g c a)).Sublist (account (owes g) c a)

end Account

variable [DecidableEq ι] {G : ι → Type} {S : (i : ι) → Contract (Call E Pt) (Call.Answer X) (G i)}
variable {inv : (i : ι) → Pt → G i → Prop} {g : (i : ι) → G i}
variable {owes : (i : ι) → G i → List Word} {s s' : System ι E Pt W X}
variable {l : List (ι × CallEvent (@Call.Answer E Pt X))}

section Owing

omit [DecidableEq ι] in
def System.Owes (K : Setting ι E Pt W X) (owes : (i : ι) → G i → List Word) (g : (i : ι) → G i)
    (s : System ι E Pt W X) : Prop :=
  ∀ j, (owes j (g j)).Nodup ∧ ∀ w ∈ owes j (g j), ∃ i, K.tid i = w ∧ s.awaits i = some j

omit [DecidableEq ι] in
theorem System.Owes.server (h : s.Owes K owes g) (hK : Injective K.tid) {i j : ι}
    (haccount : KeepsAccount (S j) (owes j)) {message : List Byte} {size : Word}
    (hpre : (S j).pre (g j) (.reply (K.tid i) message size)) : s.awaits i = some j := by
  obtain ⟨i', hi, hawaits⟩ := (h j).2 _ (haccount.reply hpre)
  rw [hK hi] at hawaits
  exact hawaits

omit [DecidableEq ι] in
theorem owed_sublist {owed owed' : List Word} {server server' : ι → Option ι} {j : ι}
    (h : owed.Nodup ∧ ∀ w ∈ owed, ∃ i, K.tid i = w ∧ server i = some j)
    (hsub : owed'.Sublist owed)
    (hserver : ∀ i, K.tid i ∈ owed' → server i = some j → server' i = some j) :
    owed'.Nodup ∧ ∀ w ∈ owed', ∃ i, K.tid i = w ∧ server' i = some j := by
  refine ⟨h.1.sublist hsub, fun w hw ↦ ?_⟩
  obtain ⟨i, rfl, hi⟩ := h.2 w (hsub.subset hw)
  exact ⟨i, rfl, hserver i hw hi⟩

/-- Under contracts that keep account, a step leaves all accounts in order. -/
theorem Talk.keepsOwes (h : Talk K s s' l) (hK : Injective K.tid)
    (haccount : ∀ i, KeepsAccount (S i) (owes i)) (hs : s.Follows K S inv g)
    (ho : s.Owes K owes g) : s'.Owes K owes (advance S g l) := by
  intro y
  cases h with
  | silent hawaits =>
    rw [advance_nil]
    exact owed_sublist (ho y) (List.Sublist.refl _) fun i _ hi ↦ (hawaits i).trans hi
  | @alone i c k a htask hquiet hawaits =>
    by_cases hy : y = i
    · subst hy
      rw [advance_self]
      have hnext := (haccount y).next a (hs.pre htask)
      have hsub : (account (owes y (g y)) c a).Sublist (owes y (g y)) := by
        cases c with
        | receive room => exact hquiet.elim
        | reply target message size => exact List.erase_sublist
        | _ => exact List.Sublist.refl _
      exact owed_sublist (ho y) (hnext.trans hsub) fun i _ hi ↦ (hawaits i).trans hi
    · rw [advance_apart hy]
      exact owed_sublist (ho y) (List.Sublist.refl _) fun i _ hi ↦ (hawaits i).trans hi
  | @deliver i j message room room' k k' hi hj hfree hawaits =>
    have hkeep (x : ι) (hx : s.awaits x = some y) : s'.awaits x = some y := by
      have hne : x ≠ i := by
        rintro rfl
        rw [hfree] at hx
        cases hx
      rw [hawaits, if_neg hne, hx]
    by_cases hy : y = j
    · subst hy
      rw [advance_self]
      have hnext := (haccount y).next (K.incoming i room' message) (hs.pre hj)
      have hnew : K.tid i ∉ owes y (g y) := by
        intro hmem
        obtain ⟨x, hx, hawaits⟩ := (ho y).2 _ hmem
        rw [hK hx, hfree] at hawaits
        cases hawaits
      refine owed_sublist ⟨List.nodup_cons.mpr ⟨hnew, (ho y).1⟩, fun w hw ↦ ?_⟩
        hnext fun _ _ hx ↦ hx
      rcases List.mem_cons.mp hw with rfl | hw
      · exact ⟨i, rfl, (hawaits i).trans (if_pos rfl)⟩
      · obtain ⟨x, rfl, hx⟩ := (ho y).2 w hw
        exact ⟨x, rfl, hkeep x hx⟩
    · rw [advance_apart hy]
      exact owed_sublist (ho y) (List.Sublist.refl _) fun x _ ↦ hkeep x
  | @answer i j x message message' size room k k' hj hi hserver hawaits =>
    have hne : j ≠ i := by
      rintro rfl
      rw [hj] at hi
      cases hi
    have hx := ho.server hK (haccount j) (hs.pre hj)
    by_cases hyj : y = j
    · subst hyj
      rw [advance_pair_left hne]
      have hnext := (haccount y).next (K.replied room size) (hs.pre hj)
      refine owed_sublist (ho y) (hnext.trans List.erase_sublist) fun i' hi' hawaits' ↦ ?_
      have hi'' : i' ≠ i := by
        rintro rfl
        exact List.Nodup.not_mem_erase (ho y).1 (hnext.subset hi')
      rw [hawaits, if_neg hi'', hawaits']
    have hkeep (i' : ι) (hi' : s.awaits i' = some y) : s'.awaits i' = some y := by
      have hi'' : i' ≠ i := by
        rintro rfl
        rw [hx] at hi'
        exact hyj (Option.some.inj hi').symm
      rw [hawaits, if_neg hi'', hi']
    by_cases hyi : y = i
    · subst hyi
      rw [advance_pair_right hne]
      have hnext := (haccount y).next (K.returned room message size) (hs.pre hi)
      exact owed_sublist (ho y) hnext fun i' _ ↦ hkeep i'
    · rw [advance_of_ne hyj, advance_apart hyi]
      exact owed_sublist (ho y) (List.Sublist.refl _) fun i' _ ↦ hkeep i'

end Owing

inductive Turn
  | before
  | now
  | past
  deriving DecidableEq

inductive Greeted
  | fresh
  | answering (sender : Word)
  | past
  deriving DecidableEq

/-- Where a parent is in the greeting, given where the child is. `server` is the
task that the parent waits for. -/
def Handshake (parentTid : Word) (child : ι) (turn : Turn) (server : Option ι) : Greeted → Prop
  | .fresh => turn ≠ .past
  | .answering sender => turn = .now ∧ sender = parentTid ∧ server = some child
  | .past => turn = .past

omit [DecidableEq ι] in
theorem Handshake.of_ne_now {parentTid : Word} {child : ι} {turn : Turn} {server : Option ι}
    {x : Greeted} (h : Handshake parentTid child turn server x) (ht : turn ≠ .now)
    (server' : Option ι) : Handshake parentTid child turn server' x := by
  cases x with
  | fresh => exact h
  | answering sender => exact absurd h.1 ht
  | past => exact h

omit [DecidableEq ι] in
theorem Handshake.past_iff {parentTid : Word} {child : ι} {turn : Turn} {server : Option ι}
    {x : Greeted} (h : Handshake parentTid child turn server x) : x = .past ↔ turn = .past := by
  cases x with
  | fresh => exact ⟨nofun, fun ht ↦ absurd ht h⟩
  | answering sender =>
    obtain ⟨rfl, -⟩ := h
    exact ⟨nofun, nofun⟩
  | past => exact ⟨fun _ ↦ h, fun _ ↦ rfl⟩

omit [DecidableEq ι] in
/-- A child that has got something was greeted. -/
theorem Handshake.turn_ne_before {parentTid : Word} {child : ι} {turn : Turn}
    {server : Option ι} {x : Greeted} (h : Handshake parentTid child turn server x)
    (hx : x ≠ .fresh) : turn ≠ .before := by
  cases x with
  | fresh => exact absurd rfl hx
  | answering sender =>
    rw [h.1]
    nofun
  | past =>
    obtain rfl : turn = .past := h
    nofun

section Greeting

variable {p c : ι} {turn : G p → Turn} {greeted : G c → Greeted}

omit [DecidableEq ι] in
/-- The parent sends its greeting after it created the child, once. -/
structure Greets (K : Setting ι E Pt W X) (c : ι) {G : Type}
    (S : Contract (Call E Pt) (Call.Answer X) G) (turn : G → Turn) : Prop where
  create {g : G} {entry : Pt} : S.pre g (.create entry) → ∀ tid,
    turn g = .before ∧ K.home entry = c ∧ turn (S.next g (.create entry) tid) = .now ∨
      turn (S.next g (.create entry) tid) = turn g
  send {g : G} {target : Word} {message : List Byte} {room : Word} :
    S.pre g (.send target message room) → ∀ returned,
      target = K.tid c ∧ turn g = .now ∧
        turn (S.next g (.send target message room) returned) = .past ∨
      target ≠ K.tid c ∧ turn g ≠ .now ∧
        turn (S.next g (.send target message room) returned) = turn g
  other {g : G} {call : Call E Pt} (a : Call.Answer X call) : S.pre g call →
    (∀ entry, call ≠ .create entry) → (∀ target message room, call ≠ .send target message room) →
      turn (S.next g call a) = turn g

/-- The child answers its first message before it does anything else with
messages. -/
structure IsGreeted {G : Type} (S : Contract (Call E Pt) (Call.Answer X) G)
    (greeted : G → Greeted) : Prop where
  receive {g : G} {room : Word} : S.pre g (.receive room) → ∀ received,
    greeted g = .fresh ∧ greeted (S.next g (.receive room) received) = .answering received.sender ∨
      greeted g = .past ∧ greeted (S.next g (.receive room) received) = .past
  reply {g : G} {target : Word} {message : List Byte} {size : Word} :
    S.pre g (.reply target message size) → ∀ a,
      greeted g = .answering target ∧ greeted (S.next g (.reply target message size) a) = .past ∨
        greeted g = .past ∧ greeted (S.next g (.reply target message size) a) = .past
  other {g : G} {call : Call E Pt} (a : Call.Answer X call) : S.pre g call →
    (∀ room, call ≠ .receive room) → (∀ target message size, call ≠ .reply target message size) →
      greeted (S.next g call a) = greeted g

/-- What a child gets first is the greeting of its parent, and then a handshake
stays one. -/
theorem Handshake.step (h : Handshake (K.tid p) c (turn (g p)) (s.awaits p) (greeted (g c)))
    (ht : Talk K s s' l) (hpc : p ≠ c) (hK : Injective K.tid) (hs : s.Follows K S inv g)
    (haccount : ∀ i, KeepsAccount (S i) (owes i)) (ho : s.Owes K owes g)
    (hp : Greets K c (S p) turn) (hc : IsGreeted (S c) greeted)
    (hbegun : turn (g p) ≠ .before → s.status c ≠ .dormant)
    (hfirst : ∀ i message room, (S i).pre (g i) (.send (K.tid c) message room) →
      greeted (g c) = .fresh → i = p) :
    Handshake (K.tid p) c (turn (advance S g l p)) (s'.awaits p) (greeted (advance S g l c)) := by
  cases ht with
  | silent hawaits =>
    rw [advance_nil, hawaits]
    exact h
  | @alone i call k a htask hquiet hawaits =>
    have hpre := hs.pre htask
    rw [hawaits]
    by_cases hip : i = p
    · subst hip
      rw [advance_self, advance_apart (Ne.symm hpc)]
      cases call with
      | create entry =>
        change Handshake _ _ (turn ((S i).next _ (.create entry) a)) _ _
        rcases hp.create hpre a with ⟨hturn, -, hnext⟩ | hnext
        · rw [hturn] at h
          rw [hnext]
          cases hx : greeted (g c) with
          | fresh => exact nofun
          | answering sender =>
            rw [hx] at h
            cases h.1
          | past =>
            rw [hx] at h
            cases h
        · rw [hnext]
          exact h
      | send target message room =>
        change Handshake _ _ (turn ((S i).next _ (.send target message room) a)) _ _
        rcases hp.send hpre a with ⟨rfl, hturn, -⟩ | ⟨-, -, hnext⟩
        · exact absurd (hquiet c rfl) (hbegun (by rw [hturn]; nofun))
        · rw [hnext]
          exact h
      | _ => rw [hp.other a hpre nofun nofun]; exact h
    rw [advance_apart (Ne.symm hip)]
    by_cases hic : i = c
    · subst hic
      rw [advance_self]
      cases call with
      | receive room => exact hquiet.elim
      | reply target message size =>
        obtain ⟨x, rfl, hx⟩ := (ho i).2 _ ((haccount i).reply hpre)
        have hnone : s.awaits x = none := hquiet x rfl
        rw [hx] at hnone
        cases hnone
      | _ => rw [hc.other a hpre nofun nofun]; exact h
    · rw [advance_apart (Ne.symm hic)]
      exact h
  | @deliver i j message room room' k k' hi hj hfree hawaits =>
    have hsend := hs.pre hi
    have hreceive := hs.pre hj
    have hne : j ≠ i := by
      rintro rfl
      rw [hj] at hi
      cases hi
    by_cases hjc : j = c
    · subst hjc
      rw [advance_self, advance_apart hpc]
      rcases hc.receive hreceive (K.incoming i room' message) with ⟨hx, hnext⟩ | ⟨hx, hnext⟩
      · obtain rfl := hfirst i message room hsend hx
        rcases hp.send hsend ⟨0, []⟩ with ⟨-, hturn, -⟩ | ⟨htid, -⟩
        · rw [hnext]
          exact ⟨hturn, rfl, (hawaits i).trans (if_pos rfl)⟩
        · exact absurd rfl htid
      · rw [hx] at h
        rw [hnext]
        exact h
    rw [advance_apart (Ne.symm hjc)]
    by_cases hjp : j = p
    · subst hjp
      rw [advance_self, hp.other _ hreceive nofun nofun, hawaits, if_neg hne]
      exact h
    rw [advance_apart (Ne.symm hjp), hawaits]
    split_ifs with hpi
    · subst hpi
      rcases hp.send hsend ⟨0, []⟩ with ⟨htid, -⟩ | ⟨-, hturn, -⟩
      · exact absurd (hK htid) hjc
      · exact h.of_ne_now hturn _
    · exact h
  | @answer i j x message message' size room k k' hj hi hserver hawaits =>
    have hsend := hs.pre hi
    have hreply := hs.pre hj
    have hne : j ≠ i := by
      rintro rfl
      rw [hj] at hi
      cases hi
    obtain rfl : x = j := by
      have hj := ho.server hK (haccount j) hreply
      rw [hserver] at hj
      exact Option.some.inj hj
    by_cases hpi : p = i
    · subst hpi
      rw [advance_pair_right hne, hawaits, if_pos rfl]
      rcases hp.send hsend (K.returned room message size) with ⟨htid, hturn, hnext⟩ | ⟨htid, hturn, hnext⟩
      · obtain rfl := hK htid
        rw [advance_pair_left hne, hnext]
        rcases hc.reply hreply (K.replied room size) with ⟨-, hnext'⟩ | ⟨hx, -⟩
        · rw [hnext']
          rfl
        · rw [hx, hturn] at h
          cases h
      · have hxc : c ≠ x := fun he ↦ htid (congrArg K.tid he.symm)
        rw [advance_of_ne hxc, advance_apart (Ne.symm hpc), hnext]
        exact h.of_ne_now hturn none
    rw [hawaits, if_neg hpi]
    by_cases hxc : x = c
    · subst hxc
      rw [advance_pair_left hne, advance_of_ne hpc, advance_apart hpi]
      rcases hc.reply hreply (K.replied room size) with ⟨hx, -⟩ | ⟨hx, hnext⟩
      · rw [hx] at h
        exact absurd (hK h.2.1).symm hpi
      · rw [hx] at h
        rw [hnext]
        exact h
    have hturn : turn (advance S g [(x, ⟨.reply (K.tid i) message size, K.replied room size⟩),
        (i, ⟨.send (K.tid x) message' room, K.returned room message size⟩)] p) = turn (g p) := by
      by_cases hpx : p = x
      · subst hpx
        rw [advance_pair_left hne]
        exact hp.other _ hreply nofun nofun
      · rw [advance_of_ne hpx, advance_apart hpi]
    have hgreeted : greeted (advance S g [(x, ⟨.reply (K.tid i) message size,
        K.replied room size⟩), (i, ⟨.send (K.tid x) message' room,
          K.returned room message size⟩)] c) = greeted (g c) := by
      by_cases hci : c = i
      · subst hci
        rw [advance_pair_right hne]
        exact hc.other _ hsend nofun nofun
      · rw [advance_of_ne (Ne.symm hxc), advance_apart hci]
    rw [hturn, hgreeted]
    exact h

theorem Greets.begun {blocks : Blocks (Call E Pt) (Call.Answer X) Pt}
    (hp : Greets K c (S p) turn) (hl : Step K blocks s l s') (hs : s.Follows K S inv g)
    (hbegun : turn (g p) ≠ .before → s.status c ≠ .dormant)
    (hturn : turn (advance S g l p) ≠ .before) : s'.status c ≠ .dormant := by
  by_cases hbefore : turn (g p) = .before
  · rcases hl.advance_cases hs p with he | ⟨call, a, hmem, hpre, he⟩
    · rw [he] at hturn
      exact absurd hbefore hturn
    rw [he] at hturn
    cases call with
    | create entry =>
      rcases hp.create hpre a with ⟨-, rfl, -⟩ | hnext
      · exact hl.created hmem
      · exact absurd (hnext.trans hbefore) hturn
    | send target message room =>
      rcases hp.send hpre a with ⟨-, hnow, -⟩ | ⟨-, -, hnext⟩
      · rw [hnow] at hbefore
        cases hbefore
      · exact absurd (hnext.trans hbefore) hturn
    | _ => exact absurd ((hp.other a hpre nofun nofun).trans hbefore) hturn
  · exact (hl.moves c).not_dormant (hbegun hbefore)

structure Greeting (K : Setting ι E Pt W X) (p c : ι) (turn : Turn) (greeted : Greeted)
    (s : System ι E Pt W X) : Prop where
  begun : turn ≠ .before → s.status c ≠ .dormant
  parent : s.status c ≠ .dormant → s.parent c = K.tid p
  handshake : Handshake (K.tid p) c turn (s.awaits p) greeted

theorem Greeting.step {blocks : Blocks (Call E Pt) (Call.Answer X) Pt}
    (h : Greeting K p c (turn (g p)) (greeted (g c)) s) (hl : Step K blocks s l s')
    (hpc : p ≠ c) (hK : Injective K.tid) (hs : s.Follows K S inv g)
    (haccount : ∀ i, KeepsAccount (S i) (owes i)) (ho : s.Owes K owes g)
    (hp : Greets K c (S p) turn) (hc : IsGreeted (S c) greeted)
    (hfirst : ∀ i message room, (S i).pre (g i) (.send (K.tid c) message room) →
      greeted (g c) = .fresh → i = p)
    (hcreate : ∀ i entry, (S i).pre (g i) (.create entry) → K.home entry = c → i = p) :
    Greeting K p c (turn (advance S g l p)) (greeted (advance S g l c)) s' where
  begun := hp.begun hl hs h.begun
  parent := by
    intro hbegun
    rcases hl.creates c with ⟨hparent, hdormant⟩ | ⟨i, entry, hhome, hmem, hparent⟩
    · rw [hparent]
      exact h.parent fun hd ↦ hbegun (hdormant hd)
    · rw [hparent, hcreate i entry (hl.returned hs hmem).1 hhome]
  handshake := h.handshake.step hl.talk hpc hK hs haccount ho hp hc h.begun hfirst

end Greeting

end PrjOS.Rendezvous
