import PrjOS.Syscall.NameService
import PrjOS.Library.FirstIndex

namespace PrjOS

open ByteMemory FirstIndex

structure IsName (name : List Byte) : Prop where
  ne_zero : ∀ b ∈ name, b ≠ 0
  fits : name.length + 1 ≤ nameserverMaxNameLength

/-- The task that a table has under a name: that of the first entry with it. -/
def registeredTid (nameEntries : NameEntries) (name : List Byte) : Option Word :=
  ((List.finRange 16).find? fun i ↦ cString (nameEntries i).name == name).map
    fun i ↦ (nameEntries i).tid

/-- Where a Send succeeds, the answer is that of the nameserver with this
table. -/
def Possible (nameEntries : NameEntries) (self : Word) (query : NameserverQuery)
    (outcome : Except SendError Answer) : Prop :=
  ∀ a, outcome = .ok a →
    (nameserverEntry ⟨nameEntries, true⟩ ⟨self, nameserverQuerySize, query⟩).2 = .answer a

/-- The Send of a client. A failure leaves `stale` in the reply variable. -/
def sendOf (outcome : Except SendError Answer) (unset : Word) (replyRest : List Byte)
    (stale : NameserverQuery) (nameserverTid : Word) : Sent :=
  match outcome with
  | .ok a => ⟨nameserverQuerySize, replyQuery nameserverTid a unset replyRest⟩
  | .error err => ⟨err.code, stale⟩

def errWhois : List Word := [errWhoisInvalidTid, errWhoisWrongTid, errWhoisNotFound, errWhoisError]

def SendError.whoisCode : SendError → Option Word
  | taskidDne => some errWhoisInvalidTid
  | taskidNotfound => some errWhoisWrongTid
  | incomplete => some errWhoisError
  | badBuffer => some errWhoisError
  | exited => none

def SendError.registerasCode : SendError → Option Word
  | taskidDne => some errRegisterasInvalidTid
  | taskidNotfound => some errRegisterasWrongTid
  | incomplete => some errRegisterasError
  | badBuffer => some errRegisterasError
  | exited => none

def registerasRefusal (operation : Byte) : Word :=
  if operation = nameserverOperationTooLong then errRegisterasTooLong
  else if operation = nameserverOperationNoSpace then errRegisterasNoSpace
  else errRegisterasError

/-- A client of `WHOIS` reports what happened, whatever its reply variable held
before. -/
structure WhoIsTruthful (outcome : Except SendError Answer) (registered : Option Word)
    (result : NameserverQuery → Word) : Prop where
  known : ∀ stale, result stale ∉ errWhois →
    (∃ a, outcome = .ok a) ∧ registered = some (result stale)
  unknown : ∀ stale a, outcome = .ok a → registered = none ∨ registered = some 0 →
    result stale = errWhoisNotFound
  failed : ∀ stale err code, outcome = .error err → err.whoisCode = some code →
    result stale = code
  stable : ∀ stale stale', result stale = result stale'

/-- `prjWhoIs` reports the truth: the kernel's own record about the name of the
nameserver, the code for a missing task when the kernel has no nameserver, and
else what happened to its query. -/
structure WhoIsReports (nameserverTid : Word) (name : List Byte)
    (outcome : Except SendError Answer) (registered : Option Word)
    (result : NameserverQuery → Word) : Prop where
  own : name = nameserverNamestr → ∀ stale, result stale = nameserverTid
  absent : name ≠ nameserverNamestr → nameserverTid = 0 →
    ∀ stale, result stale = errWhoisWrongTid
  queried : name ≠ nameserverNamestr → nameserverTid ≠ 0 →
    WhoIsTruthful outcome registered result

/-- A client of `REGISTER` reports what happened, whatever its reply variable
held before. -/
structure RegisterAsTruthful (outcome : Except SendError Answer)
    (result : NameserverQuery → Word) : Prop where
  registered : ∀ stale, result stale = 0 ↔
    ∃ a, outcome = .ok a ∧ a.operation = nameserverOperationRegister
  refused : ∀ stale a, outcome = .ok a → a.operation ≠ nameserverOperationRegister →
    result stale = registerasRefusal a.operation
  failed : ∀ stale err code, outcome = .error err → err.registerasCode = some code →
    result stale = code
  stable : ∀ stale stale', result stale = result stale'

section Whois

variable {e : NameEntries} {name rest replyRest : List Byte} {self nameserverTid unset : Word}
variable {outcome : Except SendError Answer}

theorem whois_clientQuery (hname : ∀ b ∈ name, b ≠ 0) :
    whois e (clientQuery self nameserverOperationWhois name rest) =
      ⟨nameserverOperationWhois, some ((registeredTid e name).getD 0xFFFFFFFF#32)⟩ := by
  have hsame (i : Fin 16) : sameString (name ++ 0 :: rest) (e i).name =
      (cString (e i).name == name) := by
    rw [sameString, cString_terminated hname, Bool.beq_eq_decide_eq]
    exact decide_eq_decide.mpr eq_comm
  simp only [whois, registeredTid, clientQuery, hsame]
  cases (List.finRange 16).find? fun i ↦ cString (e i).name == name with
  | none => rfl
  | some i => rfl

theorem Possible.whois (hname : ∀ b ∈ name, b ≠ 0)
    (h : Possible e self (clientQuery self nameserverOperationWhois name rest) outcome)
    {a : Answer} (ha : outcome = .ok a) :
    a = ⟨nameserverOperationWhois, some ((registeredTid e name).getD 0xFFFFFFFF#32)⟩ := by
  have hresponse := h a ha
  have hop : (clientQuery self nameserverOperationWhois name rest).operation =
      nameserverOperationWhois := rfl
  have hne : nameserverOperationWhois ≠ nameserverOperationRegister := by decide
  simp only [nameserverEntry, hop, ne_eq, not_true_eq_false, if_false, if_neg hne, if_true]
    at hresponse
  split_ifs at hresponse with hself
  rw [Response.answer.injEq] at hresponse
  rw [← hresponse, whois_clientQuery hname]

/-- The end of `prjWhoIs` after an answer that carries the word `v`. -/
theorem whoisResult_answer (v : Word) : whoisResult ⟨nameserverQuerySize,
    replyQuery nameserverTid ⟨nameserverOperationWhois, some v⟩ unset replyRest⟩ =
      if 0 < v then v else errWhoisNotFound := by
  have hstatus : whoisStatus nameserverQuerySize = nameserverQuerySize := by decide
  have hpos : 0 < nameserverQuerySize := by decide
  simp only [whoisResult, hstatus, if_pos hpos, replyQuery, Option.getD_some, wordAt_wordBytes,
    ne_eq, not_true_eq_false, if_false]

/-- After a failed Send the result is whatever the reply variable says. -/
theorem whoisResult_error (err : SendError) (v : Word) (hv : 0 < v) :
    whoisResult ⟨err.code, ⟨0, wordBytes v ++ [], 4, nameserverOperationWhois⟩⟩ = v := by
  have hpos : 0 < whoisStatus err.code := by cases err <;> decide
  simp only [whoisResult, if_pos hpos, wordAt_wordBytes, if_pos hv, ne_eq, not_true_eq_false,
    if_false]

theorem whoIsTruthful_iff (hname : ∀ b ∈ name, b ≠ 0)
    (h : Possible e self (clientQuery self nameserverOperationWhois name rest) outcome) :
    WhoIsTruthful outcome (registeredTid e name)
        (fun stale ↦ whoisResult (sendOf outcome unset replyRest stale nameserverTid)) ↔
      (∃ a, outcome = .ok a) ∧ registeredTid e name ≠ none := by
  cases outcome with
  | error err =>
    refine ⟨fun ht ↦ ?_, fun ⟨⟨a, ha⟩, _⟩ ↦ nomatch ha⟩
    obtain ⟨⟨a, ha⟩, -⟩ := ht.known ⟨0, wordBytes 5 ++ [], 4, nameserverOperationWhois⟩ (by
      simp only [sendOf, whoisResult_error err 5 (by decide)]
      decide)
    cases ha
  | ok a =>
    obtain rfl := h.whois hname rfl
    simp only [sendOf, whoisResult_answer]
    cases hr : registeredTid e name with
    | none =>
      refine ⟨fun ht ↦ ?_, fun ⟨_, hne⟩ ↦ absurd rfl hne⟩
      have hnot := ht.unknown ⟨0, [], 0, 0⟩ _ rfl (.inl rfl)
      exact absurd hnot (by decide)
    | some v =>
      refine ⟨fun _ ↦ ⟨⟨_, rfl⟩, Option.some_ne_none v⟩, fun _ ↦ ⟨?_, ?_, ?_, fun _ _ ↦ rfl⟩⟩
      · intro _ hcode
        rw [Option.getD_some] at hcode ⊢
        split_ifs at hcode ⊢ with hv
        · exact ⟨⟨_, rfl⟩, rfl⟩
        · exact absurd (by decide : errWhoisNotFound ∈ errWhois) hcode
      · intro _ _ _ hzero
        obtain rfl : v = 0 := by simpa using hzero
        rfl
      · intro _ _ _ herr
        cases herr

end Whois

section Register

variable {e : NameEntries} {name rest replyRest : List Byte} {self nameserverTid unset : Word}
variable {outcome : Except SendError Answer}

theorem registerasResult_answer {sent : Sent} (hret : sent.ret = nameserverQuerySize) :
    registerasResult sent = if sent.reply.operation = nameserverOperationRegister then 0
      else registerasRefusal sent.reply.operation := by
  have hstatus : registerasStatus nameserverQuerySize = nameserverQuerySize := by decide
  have hpos : 0 < nameserverQuerySize := by decide
  obtain ⟨ret, senderTid, buffer, bufferLen, operation⟩ := sent
  obtain rfl : ret = nameserverQuerySize := hret
  simp only [registerasResult, hstatus, if_pos hpos, registerasRefusal]
  by_cases hreg : operation = nameserverOperationRegister
  · subst hreg
    rfl
  by_cases herror : operation = nameserverOperationError
  · subst herror
    rfl
  simp only [if_neg hreg, if_neg herror]

theorem registerasRefusal_ne_zero (operation : Byte) : registerasRefusal operation ≠ 0 := by
  unfold registerasRefusal
  split_ifs <;> decide

theorem registerasResult_error (err : SendError) :
    registerasResult ⟨err.code, ⟨0, [], 0, nameserverOperationRegister⟩⟩ = 0 := by
  cases err <;> decide

theorem registerAsTruthful_iff : RegisterAsTruthful outcome
      (fun stale ↦ registerasResult (sendOf outcome unset replyRest stale nameserverTid)) ↔
    ∃ a, outcome = .ok a := by
  cases outcome with
  | error err =>
    refine ⟨fun ht ↦ ?_, fun ⟨a, ha⟩ ↦ nomatch ha⟩
    obtain ⟨a, ha, -⟩ := (ht.registered ⟨0, [], 0, nameserverOperationRegister⟩).mp
      (registerasResult_error err)
    exact ⟨a, ha⟩
  | ok a =>
    have hresult (stale : NameserverQuery) :
        registerasResult (sendOf (.ok a) unset replyRest stale nameserverTid) =
          if a.operation = nameserverOperationRegister then 0
            else registerasRefusal a.operation := registerasResult_answer rfl
    simp only [hresult]
    refine ⟨fun _ ↦ ⟨a, rfl⟩, fun _ ↦ ⟨fun _ ↦ ⟨fun hzero ↦ ?_, ?_⟩, ?_, ?_, fun _ _ ↦ rfl⟩⟩
    · by_contra hno
      have hop : a.operation ≠ nameserverOperationRegister := fun hop ↦ hno ⟨a, rfl, hop⟩
      rw [if_neg hop] at hzero
      exact registerasRefusal_ne_zero _ hzero
    · intro ⟨a', ha', hop⟩
      cases ha'
      exact if_pos hop
    · intro _ a' ha' hop
      cases ha'
      exact if_neg hop
    · intro _ _ _ herr
      cases herr

end Register

theorem prjWhoIs_own {nameserverTid self : Word} {rest : List Byte}
    {send : Word → NameserverQuery → Sent} :
    prjWhoIs nameserverTid self rest send nameserverNamestr = nameserverTid := if_pos rfl

theorem prjWhoIs_absent {self : Word} {rest name : List Byte}
    {send : Word → NameserverQuery → Sent} (hns : name ≠ nameserverNamestr) :
    prjWhoIs 0 self rest send name = errWhoisWrongTid := by
  rw [prjWhoIs, if_neg hns, if_pos (by decide)]

theorem prjWhoIs_queried {nameserverTid self : Word} {rest name : List Byte}
    {send : Word → NameserverQuery → Sent} (hns : name ≠ nameserverNamestr)
    (htid : nameserverTid ≠ 0) : prjWhoIs nameserverTid self rest send name =
      whoisResult (send nameserverTid (clientQuery self nameserverOperationWhois name rest)) := by
  have hpos : ¬ nameserverTid ≤ 0 := fun hle ↦ htid (BitVec.le_zero_iff.mp hle)
  rw [prjWhoIs, if_neg hns, if_neg hpos]

/-- When the two clients of the nameserver tell the truth. -/
theorem nameService_truthful_iff {e : NameEntries} {name rest : List Byte} {self : Word}
    {asked : Except SendError Answer} (hname : IsName name)
    (hw : Possible e self (clientQuery self nameserverOperationWhois name rest) asked)
    (registering : Except SendError Answer) (nameserverTid unset : Word) (replyRest : List Byte) :
    (WhoIsReports nameserverTid name asked (registeredTid e name)
        (fun stale ↦ prjWhoIs nameserverTid self rest
          (fun tid _ ↦ sendOf asked unset replyRest stale tid) name) ↔
      name = nameserverNamestr ∨ nameserverTid = 0 ∨
        (∃ a, asked = .ok a) ∧ registeredTid e name ≠ none) ∧
    (RegisterAsTruthful registering (fun stale ↦ prjRegisterAs nameserverTid self rest
        (fun tid _ ↦ sendOf registering unset replyRest stale tid) name) ↔
      ∃ a, registering = .ok a) := by
  refine ⟨?_, registerAsTruthful_iff⟩
  by_cases hns : name = nameserverNamestr
  · subst hns
    exact ⟨fun _ ↦ .inl rfl, fun _ ↦ ⟨fun _ _ ↦ prjWhoIs_own, fun h ↦ absurd rfl h,
      fun h ↦ absurd rfl h⟩⟩
  by_cases htid : nameserverTid = 0
  · subst htid
    exact ⟨fun _ ↦ .inr (.inl rfl), fun _ ↦ ⟨fun h ↦ absurd h hns,
      fun _ _ _ ↦ prjWhoIs_absent hns, fun _ h ↦ absurd rfl h⟩⟩
  have htruthful : WhoIsTruthful asked (registeredTid e name)
      (fun stale ↦ whoisResult (sendOf asked unset replyRest stale nameserverTid)) ↔
        (∃ a, asked = .ok a) ∧ registeredTid e name ≠ none :=
    whoIsTruthful_iff hname.ne_zero hw
  constructor
  · intro h
    have hqueried := h.queried hns htid
    simp only [prjWhoIs_queried hns htid] at hqueried
    exact .inr (.inr (htruthful.mp hqueried))
  · intro h
    have hanswered := (h.resolve_left hns).resolve_left htid
    refine ⟨fun h ↦ absurd h hns, fun _ h ↦ absurd h htid, fun _ _ ↦ ?_⟩
    simp only [prjWhoIs_queried hns htid]
    exact htruthful.mpr hanswered

def nameA : List Byte := [97]

theorem nameService_truthful_iff_unanswered :
    (WhoIsReports 0x2000 nameA (.error .badBuffer) (registeredTid noEntries nameA)
        (fun stale ↦ prjWhoIs 0x2000 0x1000 []
          (fun tid _ ↦ sendOf (.error .badBuffer) 0 [] stale tid) nameA) ↔
      nameA = nameserverNamestr ∨ 0x2000#32 = 0 ∨
        (∃ a, (.error .badBuffer : Except SendError Answer) = .ok a) ∧
          registeredTid noEntries nameA ≠ none) ∧
    (RegisterAsTruthful (.error .badBuffer) (fun stale ↦ prjRegisterAs 0x2000 0x1000 []
        (fun tid _ ↦ sendOf (.error .badBuffer) 0 [] stale tid) nameA) ↔
      ∃ a, (.error .badBuffer : Except SendError Answer) = .ok a) :=
  nameService_truthful_iff ⟨by decide, by decide⟩ (fun _ ha ↦ by cases ha) (.error .badBuffer)
    0x2000 0 []

/-- An unknown name is reported with the code of an invalid nameserver, and a
registration that failed as done. -/
theorem unknown_name_misreported :
    (nameserverEntry nameserverStart ⟨0x1000, nameserverQuerySize,
        clientQuery 0x1000 nameserverOperationWhois nameA []⟩).2 =
      .answer ⟨nameserverOperationWhois, some 0xFFFFFFFF#32⟩ ∧
    (∀ stale, prjWhoIs 0x2000 0x1000 [] (fun tid _ ↦
      sendOf (.ok ⟨nameserverOperationWhois, some 0xFFFFFFFF#32⟩) 0 [] stale tid) nameA =
        errWhoisInvalidTid) ∧
    ¬ WhoIsReports 0x2000 nameA (.ok ⟨nameserverOperationWhois, some 0xFFFFFFFF#32⟩)
      (registeredTid noEntries nameA) (fun stale ↦ prjWhoIs 0x2000 0x1000 [] (fun tid _ ↦
        sendOf (.ok ⟨nameserverOperationWhois, some 0xFFFFFFFF#32⟩) 0 [] stale tid) nameA) ∧
    ¬ RegisterAsTruthful (.error .badBuffer) (fun stale ↦ prjRegisterAs 0x2000 0x1000 []
      (fun tid _ ↦ sendOf (.error .badBuffer) 0 [] stale tid) nameA) := by
  refine ⟨by decide, fun stale ↦ ?_, fun h ↦ ?_, fun h ↦ ?_⟩
  · rw [prjWhoIs, if_neg (by decide), if_neg (by decide)]
    exact whoisResult_answer 0xFFFFFFFF
  · have hcode := (h.queried (by decide) (by decide)).unknown ⟨0, [], 0, 0⟩ _ rfl
      (.inl (by decide))
    exact absurd hcode (by decide)
  · have hzero := (h.registered ⟨0, [], 0, nameserverOperationRegister⟩).mp (by decide)
    obtain ⟨a, ha, -⟩ := hzero
    cases ha

end PrjOS
