import PrjOS.BaseTasks.Nameserver
import PrjOS.Library.FirstIndex
import PrjOS.Library.Transition
import Mathlib.Data.Set.Card

namespace PrjOS

open ByteMemory Function FirstIndex Transition

def Received.IsQuery (m : Received) (operation : Byte) : Prop :=
  m.receiveRet = nameserverQuerySize ∧ m.sender ≠ 0 ∧ m.query.operation = operation

/-- Requests that concern a name give it as a string that fits, with its
length. Nothing is asked of other messages. -/
def Received.Proper (m : Received) : Prop :=
  m.receiveRet = nameserverQuerySize →
    m.query.operation = nameserverOperationRegister ∨
      m.query.operation = nameserverOperationWhois →
    0 ∈ m.query.buffer ∧ (cString m.query.buffer).length + 1 ≤ nameserverMaxNameLength ∧
      m.query.bufferLen.toNat = (cString m.query.buffer).length + 1

structure Exchange where
  message : Received
  response : Response

/-- A register request that was answered as done. -/
def Exchange.Registers (e : Exchange) : Prop :=
  e.message.query.operation = nameserverOperationRegister ∧
    ∃ v, e.response = .answer ⟨nameserverOperationRegister, v⟩

open Classical in
/-- The map that the nameserver is for: the sender of the latest accepted
registration of each name. -/
noncomputable def registry (log : List Exchange) : List Byte → Option Word :=
  log.foldl (fun r e ↦ if e.Registers then
    update r (cString e.message.query.buffer) (some e.message.sender) else r) fun _ ↦ none

def nameserverStep (s : Nameserver) (m : Received) (s' : Nameserver) : Prop :=
  s.run = true ∧ s' = (nameserverEntry s m).1

def nameserverLog (s : Nameserver) (m : Received) : List Exchange :=
  [⟨m, (nameserverEntry s m).2⟩]

/-- The table holds the map `r`: the names are distinct and fill the first
entries. -/
structure HoldsMap (e : NameEntries) (r : List Byte → Option Word) : Prop where
  filled : ∃ k ≤ nameserverMaxNames, ∀ i, (e i).tid ≠ 0 ↔ i.val < k
  distinct : ∀ i j, (e i).tid ≠ 0 → (e j).tid ≠ 0 →
    cString (e i).name = cString (e j).name → i = j
  unused : ∀ i, (e i).tid = 0 → cString (e i).name = []
  lookup : ∀ n t, r n = some t ↔ ∃ i, (e i).tid ≠ 0 ∧ cString (e i).name = n ∧ (e i).tid = t

structure ServesMap (s : Nameserver) (r : List Byte → Option Word) (m : Received) : Prop where
  whois : m.IsQuery nameserverOperationWhois → ∃ v,
    (nameserverEntry s m).2 = .answer ⟨nameserverOperationWhois, some v⟩ ∧
      (∀ t, r (cString m.query.buffer) = some t → v = t) ∧
      (r (cString m.query.buffer) = none → v = 0 ∨ v = 0xFFFFFFFF#32)
  noSpace : m.IsQuery nameserverOperationRegister →
    ((nameserverEntry s m).2 = .answer ⟨nameserverOperationNoSpace, none⟩ ↔
      {n | n ≠ cString m.query.buffer ∧ r n ≠ none}.ncard = nameserverMaxNames)
  refused : (nameserverEntry s m).2 = .answer ⟨nameserverOperationNoSpace, none⟩ →
    (nameserverEntry s m).1.nameEntries = s.nameEntries
  accepted : m.IsQuery nameserverOperationRegister →
    (nameserverEntry s m).2 ≠ .answer ⟨nameserverOperationNoSpace, none⟩ →
    (nameserverEntry s m).2 = .answer ⟨nameserverOperationRegister, none⟩
  again : m.IsQuery nameserverOperationRegister → r (cString m.query.buffer) ≠ none →
    ∃ i, cString (s.nameEntries i).name = cString m.query.buffer ∧
      (nameserverEntry s m).1.nameEntries =
        update s.nameEntries i { s.nameEntries i with tid := m.sender }
  others : ¬ m.IsQuery nameserverOperationRegister →
    (nameserverEntry s m).1.nameEntries = s.nameEntries

section Search

variable {e : NameEntries} {r : List Byte → Option Word} {buffer : List Byte}

theorem sameString_iff {a b : List Byte} : sameString a b = true ↔ cString a = cString b :=
  decide_eq_true_iff

theorem HoldsMap.registered (h : HoldsMap e r) {t : Word} (hr : r (cString buffer) = some t) :
    ∃ i, (e i).tid = t ∧ t ≠ 0 ∧ cString (e i).name = cString buffer ∧
      ∀ j < i, (e j).tid ≠ 0 ∧ cString buffer ≠ cString (e j).name := by
  obtain ⟨k, -, hk⟩ := h.filled
  obtain ⟨i, hi, hname, rfl⟩ := (h.lookup _ _).mp hr
  refine ⟨i, rfl, hi, hname, fun j hj ↦ ?_⟩
  have hjk : (e j).tid ≠ 0 := (hk j).mpr (lt_trans hj ((hk i).mp hi))
  exact ⟨hjk, fun he ↦ absurd (h.distinct i j hi hjk (hname.trans he)) (ne_of_gt hj)⟩

theorem HoldsMap.unregistered (h : HoldsMap e r) (hr : r (cString buffer) = none) {i : Fin 16}
    (hi : (e i).tid ≠ 0) : cString buffer ≠ cString (e i).name := by
  intro he
  have hsome := (h.lookup _ _).mpr ⟨i, hi, he.symm, rfl⟩
  rw [hr] at hsome
  cases hsome

/-- A name that is registered is found where it is. -/
theorem HoldsMap.registerSlot_registered (h : HoldsMap e r) {t : Word}
    (hr : r (cString buffer) = some t) : ∃ i, registerSlot e buffer = some i ∧
      (e i).tid ≠ 0 ∧ cString (e i).name = cString buffer := by
  obtain ⟨i, rfl, hi, hname, hfirst⟩ := h.registered hr
  refine ⟨i, find_finRange.mpr ⟨?_, fun j hj ↦ ?_⟩, hi, hname⟩
  · rw [Bool.or_eq_true, sameString_iff]
    exact .inr hname.symm
  · obtain ⟨hj, hne⟩ := hfirst j hj
    exact Bool.or_eq_false_iff.mpr ⟨beq_false_of_ne hj, decide_eq_false hne⟩

/-- A name that is not registered goes to the first empty entry. -/
theorem HoldsMap.registerSlot_unregistered (h : HoldsMap e r) (hr : r (cString buffer) = none) :
    (registerSlot e buffer = none ∧ ∀ i, (e i).tid ≠ 0) ∨
      ∃ i, registerSlot e buffer = some i ∧ (e i).tid = 0 ∧ ∀ j, (e j).tid ≠ 0 ↔ j < i := by
  obtain ⟨k, hk, hfill⟩ := h.filled
  have hfound (i : Fin 16) :
      ((e i).tid == 0 || sameString buffer (e i).name) = decide ((e i).tid = 0) := by
    by_cases hi : (e i).tid = 0
    · simp [hi]
    · rw [beq_false_of_ne hi, Bool.false_or, decide_eq_false hi]
      exact decide_eq_false (h.unregistered hr hi)
  unfold registerSlot
  simp only [hfound]
  by_cases hfull : k = 16
  · refine .inl ⟨find_finRange_none.mpr fun i ↦ ?_, fun i ↦ (hfill i).mpr (hfull ▸ i.isLt)⟩
    exact decide_eq_false ((hfill i).mpr (hfull ▸ i.isLt))
  · have hlt : k < 16 := lt_of_le_of_ne hk hfull
    refine .inr ⟨⟨k, hlt⟩, find_finRange.mpr ⟨?_, fun j hj ↦ ?_⟩, ?_, hfill⟩
    · exact decide_eq_true (not_not.mp fun hne ↦ lt_irrefl k ((hfill ⟨k, hlt⟩).mp hne))
    · exact decide_eq_false ((hfill j).mpr hj)
    · exact not_not.mp fun hne ↦ lt_irrefl k ((hfill ⟨k, hlt⟩).mp hne)

/-- What `WHOIS` says about a name that is not registered: unused entries look
like the empty name. -/
theorem HoldsMap.whois_unregistered (h : HoldsMap e r) {query : NameserverQuery}
    (hr : r (cString query.buffer) = none) :
    ∃ v, whois e query = ⟨nameserverOperationWhois, some v⟩ ∧ (v = 0 ∨ v = 0xFFFFFFFF#32) := by
  unfold whois
  cases hf : (List.finRange 16).find? fun i ↦ sameString query.buffer (e i).name with
  | none => exact ⟨-1, rfl, .inr rfl⟩
  | some i =>
    refine ⟨(e i).tid, rfl, .inl ?_⟩
    by_contra hi
    exact h.unregistered hr hi (sameString_iff.mp (find_finRange.mp hf).1)

theorem HoldsMap.whois_registered (h : HoldsMap e r) {query : NameserverQuery} {t : Word}
    (hr : r (cString query.buffer) = some t) :
    whois e query = ⟨nameserverOperationWhois, some t⟩ := by
  obtain ⟨i, rfl, hi, hname, hfirst⟩ := h.registered hr
  have hf : (List.finRange 16).find? (fun i ↦ sameString query.buffer (e i).name) = some i :=
    find_finRange.mpr ⟨sameString_iff.mpr hname.symm, fun j hj ↦ decide_eq_false (hfirst j hj).2⟩
  simp only [whois, hf]

end Search

section Register

variable {e : NameEntries} {r : List Byte → Option Word} {sender : Word} {query : NameserverQuery}

/-- The map changes at one name when the tid of its entry does. -/
theorem HoldsMap.set (h : HoldsMap e r) {i : Fin 16} {n : List Byte} (entry : NameserverEntry)
    (hn : ∀ j, (e j).tid ≠ 0 → cString (e j).name = n → j = i)
    (hfill : ∃ k ≤ nameserverMaxNames, ∀ j, j = i ∨ (e j).tid ≠ 0 ↔ j.val < k)
    (hold : (e i).tid ≠ 0 → cString (e i).name = n)
    (hentry : entry.tid ≠ 0) (hname : cString entry.name = n) :
    HoldsMap (update e i entry) (update r n (some entry.tid)) := by
  have hself : update e i entry i = entry := update_self ..
  have hother {j : Fin 16} (hj : j ≠ i) : update e i entry j = e j := update_of_ne hj ..
  refine ⟨?_, fun j j' hj hj' he ↦ ?_, fun j hj ↦ ?_, fun m t ↦ ?_⟩
  · obtain ⟨k, hk, hk'⟩ := hfill
    refine ⟨k, hk, fun j ↦ ?_⟩
    rw [← hk' j]
    by_cases hj : j = i
    · subst hj
      simpa [hself] using hentry
    · simp [hj]
  · by_cases hji : j = i <;> by_cases hji' : j' = i
    · rw [hji, hji']
    · subst hji
      rw [hself, hother hji', hname] at he
      rw [hother hji'] at hj'
      exact absurd (hn j' hj' he.symm) hji'
    · subst hji'
      rw [hself, hother hji, hname] at he
      rw [hother hji] at hj
      exact absurd (hn j hj he) hji
    · rw [hother hji, hother hji'] at he
      rw [hother hji] at hj
      rw [hother hji'] at hj'
      exact h.distinct j j' hj hj' he
  · by_cases hji : j = i
    · subst hji
      rw [hself] at hj
      exact absurd hj hentry
    · rw [hother hji] at hj ⊢
      exact h.unused j hj
  · by_cases hm : m = n
    · subst hm
      rw [update_self]
      constructor
      · intro ht
        exact ⟨i, by rwa [hself], by rw [hself, hname], by rw [hself]; exact Option.some.inj ht⟩
      · rintro ⟨j, hj, hmj, rfl⟩
        by_cases hji : j = i
        · subst hji
          rw [hself]
        · rw [hother hji] at hj hmj
          exact absurd (hn j hj hmj) hji
    · rw [update_of_ne hm, h.lookup]
      refine exists_congr fun j ↦ ?_
      by_cases hji : j = i
      · subst hji
        rw [hself]
        constructor
        · rintro ⟨hj, hmj, -⟩
          exact absurd (hmj.symm.trans (hold hj)) hm
        · rintro ⟨-, hmj, -⟩
          exact absurd (hmj.symm.trans hname) hm
      · rw [hother hji]

inductive RegisterEffect (e : NameEntries) (r : List Byte → Option Word) (sender : Word)
    (query : NameserverQuery) : NameEntries × Answer → Prop
  | again (i : Fin 16) : r (cString query.buffer) ≠ none → (e i).tid ≠ 0 →
      cString (e i).name = cString query.buffer →
      RegisterEffect e r sender query (update e i { e i with tid := sender },
        ⟨nameserverOperationRegister, none⟩)
  | full : r (cString query.buffer) = none → (∀ i, (e i).tid ≠ 0) →
      RegisterEffect e r sender query (e, ⟨nameserverOperationNoSpace, none⟩)
  | added (i : Fin 16) : r (cString query.buffer) = none → (e i).tid = 0 →
      (∀ j, (e j).tid ≠ 0 ↔ j < i) →
      RegisterEffect e r sender query
        (update e i ⟨sender, strcpy (e i).name query.buffer⟩, ⟨nameserverOperationRegister, none⟩)

theorem HoldsMap.registerEffect (h : HoldsMap e r) (sender : Word)
    (hlen : query.bufferLen.toNat ≤ nameserverMaxNameLength) :
    RegisterEffect e r sender query (register e sender query) := by
  unfold register
  cases hr : r (cString query.buffer) with
  | some t =>
    obtain ⟨i, hslot, hi, hname⟩ := h.registerSlot_registered hr
    simp only [hslot, if_neg hi]
    exact .again i (by simp [hr]) hi hname
  | none =>
    rcases h.registerSlot_unregistered hr with ⟨hslot, hfull⟩ | ⟨i, hslot, hi, hlt⟩
    · simp only [hslot]
      exact .full hr hfull
    · simp only [hslot, if_pos hi, if_pos hlen]
      exact .added i hr hi hlt

theorem RegisterEffect.holdsMap {res : NameEntries × Answer}
    (hres : RegisterEffect e r sender query res) (h : HoldsMap e r) (hs : sender ≠ 0) :
    HoldsMap res.1 (if res.2.operation = nameserverOperationRegister then
      update r (cString query.buffer) (some sender) else r) := by
  cases hres with
  | again i hr hi hname =>
    obtain ⟨k, hk, hfill⟩ := h.filled
    rw [if_pos rfl]
    refine h.set { e i with tid := sender } (fun j hj hn ↦ ?_) ⟨k, hk, fun j ↦ ?_⟩
      (fun _ ↦ hname) hs hname
    · exact h.distinct j i hj hi (hn.trans hname.symm)
    · rw [← hfill j]
      refine ⟨fun hj ↦ ?_, .inr⟩
      rcases hj with rfl | hj
      · exact hi
      · exact hj
  | full hr hfull =>
    have hne : nameserverOperationNoSpace ≠ nameserverOperationRegister := by decide
    rw [if_neg hne]
    exact h
  | added i hr hi hlt =>
    rw [if_pos rfl]
    refine h.set ⟨sender, strcpy (e i).name query.buffer⟩
      (fun j hj hn ↦ absurd hn.symm (h.unregistered hr hj)) ⟨i.val + 1, i.isLt, fun j ↦ ?_⟩
      (fun hne ↦ absurd hi hne) hs (cString_strcpy _ _)
    rw [hlt j, Nat.lt_succ_iff, le_iff_eq_or_lt]
    exact or_congr_left Fin.ext_iff

theorem HoldsMap.ncard_others (h : HoldsMap e r) (name : List Byte) :
    {n | n ≠ name ∧ r n ≠ none}.ncard =
      {i | (e i).tid ≠ 0 ∧ cString (e i).name ≠ name}.ncard := by
  have himage : {n | n ≠ name ∧ r n ≠ none} =
      (fun i ↦ cString (e i).name) '' {i | (e i).tid ≠ 0 ∧ cString (e i).name ≠ name} := by
    ext n
    constructor
    · rintro ⟨hn, hr⟩
      obtain ⟨t, ht⟩ := Option.ne_none_iff_exists'.mp hr
      obtain ⟨i, hi, rfl, -⟩ := (h.lookup n t).mp ht
      exact ⟨i, ⟨hi, hn⟩, rfl⟩
    · rintro ⟨i, ⟨hi, hn⟩, rfl⟩
      refine ⟨hn, ?_⟩
      rw [(h.lookup _ (e i).tid).mpr ⟨i, hi, rfl, rfl⟩]
      exact Option.some_ne_none _
  rw [himage]
  exact Set.InjOn.ncard_image fun i hi j hj he ↦ h.distinct i j hi.1 hj.1 he

theorem ncard_eq_sixteen {P : Fin 16 → Prop} : {i | P i}.ncard = 16 ↔ ∀ i, P i := by
  have huniv : (Set.univ : Set (Fin 16)).ncard = 16 := by
    rw [Set.ncard_univ, Nat.card_fin]
  constructor
  · intro hc i
    have hs := Set.eq_of_subset_of_ncard_le (Set.subset_univ {i | P i}) (huniv.trans hc.symm).le
    exact Set.eq_univ_iff_forall.mp hs i
  · intro hP
    have hall : {i | P i} = Set.univ := Set.eq_univ_of_forall hP
    rw [hall, huniv]

theorem RegisterEffect.noSpace {res : NameEntries × Answer}
    (hres : RegisterEffect e r sender query res) (h : HoldsMap e r) :
    res.2 = ⟨nameserverOperationNoSpace, none⟩ ↔
      {n | n ≠ cString query.buffer ∧ r n ≠ none}.ncard = nameserverMaxNames := by
  rw [h.ncard_others, nameserverMaxNames, ncard_eq_sixteen]
  cases hres with
  | again i hr hi hname =>
    refine ⟨fun he ↦ ?_, fun hall ↦ absurd hname (hall i).2⟩
    exact absurd (congrArg Answer.operation he) (by decide : nameserverOperationRegister ≠ _)
  | full hr hfull =>
    exact ⟨fun _ i ↦ ⟨hfull i, (h.unregistered hr (hfull i)).symm⟩, fun _ ↦ rfl⟩
  | added i hr hi hlt =>
    refine ⟨fun he ↦ ?_, fun hall ↦ absurd hi (hall i).1⟩
    exact absurd (congrArg Answer.operation he) (by decide : nameserverOperationRegister ≠ _)

end Register

section Entry

variable {s : Nameserver} {m : Received} {r : List Byte → Option Word}

theorem nameserverEntry_register (h : m.IsQuery nameserverOperationRegister) :
    nameserverEntry s m = ({ s with nameEntries := (register s.nameEntries m.sender m.query).1 },
      .answer (register s.nameEntries m.sender m.query).2) := by
  obtain ⟨hsize, hsender, hop⟩ := h
  rw [nameserverEntry, if_neg (not_not.mpr hsize), if_neg hsender, if_pos hop]

theorem nameserverEntry_whois (h : m.IsQuery nameserverOperationWhois) :
    nameserverEntry s m = (s, .answer (whois s.nameEntries m.query)) := by
  obtain ⟨hsize, hsender, hop⟩ := h
  have hne : m.query.operation ≠ nameserverOperationRegister := by rw [hop]; decide
  rw [nameserverEntry, if_neg (not_not.mpr hsize), if_neg hsender, if_neg hne, if_pos hop]

/-- Whatever is no register request leaves the table alone and is not answered
as one. -/
theorem nameserverEntry_other (h : ¬ m.IsQuery nameserverOperationRegister) :
    (nameserverEntry s m).1.nameEntries = s.nameEntries ∧
      ¬ (⟨m, (nameserverEntry s m).2⟩ : Exchange).Registers := by
  unfold nameserverEntry Exchange.Registers
  split_ifs with hsize hsender hreg hwhois hexit
  · simp
  · simp
  · exact absurd ⟨not_not.mp hsize, hsender, hreg⟩ h
  · exact ⟨rfl, fun hr ↦ hreg hr.1⟩
  · exact ⟨rfl, fun hr ↦ hreg hr.1⟩
  · exact ⟨rfl, fun hr ↦ hreg hr.1⟩

theorem Received.Proper.bufferLen (hm : m.Proper) (h : m.IsQuery nameserverOperationRegister) :
    m.query.bufferLen.toNat ≤ nameserverMaxNameLength := by
  obtain ⟨-, hlen, hbuf⟩ := hm h.1 (.inl h.2.2)
  rwa [hbuf]

theorem registry_append (log : List Exchange) (e : Exchange) :
    (e.Registers → registry (log ++ [e]) =
      update (registry log) (cString e.message.query.buffer) (some e.message.sender)) ∧
    (¬ e.Registers → registry (log ++ [e]) = registry log) := by
  unfold registry
  rw [List.foldl_append, List.foldl_cons, List.foldl_nil]
  exact ⟨fun h ↦ if_pos h, fun h ↦ if_neg h⟩

theorem HoldsMap.step {log : List Exchange} (h : HoldsMap s.nameEntries (registry log))
    (hm : m.Proper) : HoldsMap (nameserverEntry s m).1.nameEntries
      (registry (log ++ [⟨m, (nameserverEntry s m).2⟩])) := by
  by_cases hq : m.IsQuery nameserverOperationRegister
  · rw [nameserverEntry_register hq]
    have heffect := h.registerEffect m.sender (hm.bufferLen hq)
    have hnext := heffect.holdsMap h hq.2.1
    split_ifs at hnext with hop
    · rw [(registry_append log _).1]
      · exact hnext
      · refine ⟨hq.2.2, (register s.nameEntries m.sender m.query).2.returnValue, ?_⟩
        rw [← hop]
    · rw [(registry_append log _).2]
      · exact hnext
      · rintro ⟨-, v, hv⟩
        rw [Response.answer.injEq] at hv
        exact hop (congrArg Answer.operation hv)
  · obtain ⟨htable, hreg⟩ := nameserverEntry_other (s := s) hq
    rw [htable, (registry_append log _).2 hreg]
    exact h

theorem HoldsMap.serves (h : HoldsMap s.nameEntries r) (hm : m.Proper) : ServesMap s r m := by
  have heffect (hq : m.IsQuery nameserverOperationRegister) :=
    h.registerEffect m.sender (hm.bufferLen hq)
  refine ⟨fun hq ↦ ?_, fun hq ↦ ?_, fun hr ↦ ?_, fun hq hr ↦ ?_, fun hq hr ↦ ?_,
    fun hq ↦ (nameserverEntry_other hq).1⟩
  · rw [nameserverEntry_whois hq]
    cases hr : r (cString m.query.buffer) with
    | some t =>
      exact ⟨t, by rw [h.whois_registered hr], fun t' ht ↦ Option.some.inj ht, by simp⟩
    | none =>
      obtain ⟨v, hv, hnone⟩ := h.whois_unregistered hr
      exact ⟨v, by rw [hv], by simp, fun _ ↦ hnone⟩
  · rw [nameserverEntry_register hq, Response.answer.injEq]
    exact (heffect hq).noSpace h
  · by_cases hq : m.IsQuery nameserverOperationRegister
    · rw [nameserverEntry_register hq] at hr ⊢
      have hspec := heffect hq
      generalize register s.nameEntries m.sender m.query = res at hr hspec
      cases hspec with
      | again => cases hr
      | full => rfl
      | added => cases hr
    · exact (nameserverEntry_other hq).1
  · rw [nameserverEntry_register hq] at hr ⊢
    have hspec := heffect hq
    generalize register s.nameEntries m.sender m.query = res at hr hspec
    cases hspec with
    | again => rfl
    | full => exact absurd rfl hr
    | added => rfl
  · rw [nameserverEntry_register hq]
    have hspec := heffect hq
    generalize register s.nameEntries m.sender m.query = res at hspec
    cases hspec with
    | again i _ _ hname => exact ⟨i, hname, rfl⟩
    | full hnone => exact absurd hnone hr
    | added i hnone => exact absurd hnone hr

theorem noEntries_holdsMap : HoldsMap noEntries fun _ ↦ none := by
  have hname (i : Fin 16) : cString (noEntries i).name = [] := by decide +revert
  refine ⟨⟨0, Nat.zero_le _, fun i ↦ ?_⟩, fun i j hi ↦ absurd rfl hi, fun i _ ↦ hname i,
    fun n t ↦ ?_⟩
  · simp [noEntries]
  · simp [noEntries]

end Entry

/-- The nameserver is a bounded map from names to tasks, through any
conversation. -/
theorem nameserver_refines_map {ms : List Received} {s : Nameserver} {log : List Exchange}
    (hm : ∀ m ∈ ms, m.Proper)
    (hr : Run (Logged nameserverStep nameserverLog) (nameserverStart, []) ms (s, log)) :
    HoldsMap s.nameEntries (registry log) ∧ ∀ m, m.Proper → ServesMap s (registry log) m := by
  have hinv : HoldsMap s.nameEntries (registry log) := by
    refine hr.invariant_of_mem (P := fun s ↦ HoldsMap s.1.nameEntries (registry s.2))
      (Q := Received.Proper) noEntries_holdsMap ?_ hm
    intro s m s' h hq hstep
    obtain ⟨⟨-, hs⟩, hlog⟩ := hstep
    rw [hs, hlog]
    exact h.step hq
  exact ⟨hinv, fun m hq ↦ hinv.serves hq⟩

def registration (sender : Word) (name : List Byte) : Received :=
  ⟨sender, nameserverQuerySize,
    ⟨sender, name ++ [0], BitVec.ofNat 16 (name.length + 1), nameserverOperationRegister⟩⟩

/-- Two tasks register the names "a" and "b", and a third one takes "a". -/
def registrations : List Received :=
  [registration 0x1000#32 [97], registration 0x1001#32 [98], registration 0x1002#32 [97]]

theorem nameserver_refines_map_registered : ∃ s log,
    Run (Logged nameserverStep nameserverLog) (nameserverStart, []) registrations (s, log) ∧
      registry log [97] = some 0x1002#32 ∧ registry log [98] = some 0x1001#32 ∧
      ∀ m, m.Proper → ServesMap s (registry log) m := by
  have hproper : ∀ m ∈ registrations, m.Proper := by
    intro m hm _ _
    simp only [registrations, List.mem_cons, List.not_mem_nil, or_false] at hm
    rcases hm with rfl | rfl | rfl <;> decide
  have hrun : Run (Logged nameserverStep nameserverLog) (nameserverStart, []) registrations
      (_, _) :=
    ((Run.nil.log (l := registration 0x1000#32 [97]) ⟨rfl, rfl⟩).log
      (l := registration 0x1001#32 [98]) ⟨rfl, rfl⟩).log (l := registration 0x1002#32 [97])
      ⟨rfl, rfl⟩
  obtain ⟨hholds, hserves⟩ := nameserver_refines_map hproper hrun
  exact ⟨_, _, hrun, (hholds.lookup _ _).mpr ⟨0, by decide, by decide, by decide⟩,
    (hholds.lookup _ _).mpr ⟨1, by decide, by decide, by decide⟩, hserves⟩

end PrjOS
