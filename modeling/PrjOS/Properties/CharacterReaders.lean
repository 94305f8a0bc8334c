import PrjOS.Properties.OutputRoundTrip
import PrjOS.BaseTasks.Contracts
import PrjOS.Syscall.NameService

namespace PrjOS

open ByteMemory Program Rendezvous

def charactersGot (t : List BaseEvent) : List Word := t.filterMap fun e ↦
  match e with
  | ⟨.outside .getCharNonBlocking, ch⟩ => if ch = -1 then none else some ch
  | _ => none

def readerReturned (message : List Byte) (size : Word) : Returned where
  size := if 4 < size then errSendIncomplete else size
  bytes := message.take (min 4 size.toNat)

/-- How the Send of a reader ends, and the character that the driver handed to
it. A reader that waits is answered when the driver serves another task. -/
inductive ReadExchange (request : Word) : Returned → Option Word → Prop
  | failed (err : SendError) : ReadExchange request ⟨err.code, []⟩ none
  | served {data : SerialDriverData} {reader size ret : Word} {t : List BaseEvent} {pt : Point}
      {answer : List Byte} :
      Serves data reader (wordBytes request) t pt → ⟨.reply reader answer size, ret⟩ ∈ t →
      ReadExchange request (readerReturned answer size) (charactersGot t).head?
  | released {data : SerialDriverData} {reader caller size ret : Word} {t : List BaseEvent}
      {pt : Point} {message answer : List Byte} : request = messageTypeGetChar →
      data.blockedCharTid = reader → caller ≠ reader → Serves data caller message t pt →
      ⟨.reply reader answer size, ret⟩ ∈ t →
      ReadExchange request (readerReturned answer size) (charactersGot t).head?

def readCalls (request serialTid : Word) (ch : Fin 4 → Byte) (sent : Returned) :
    List BaseEvent :=
  [⟨.outside (.unset 4), ch⟩, ⟨.send serialTid (wordBytes request) 4, sent⟩]

/-- The reader returns 1 with the character that it was handed, and otherwise
-1 with `*charOut` as it was. -/
def Reports (handed : Option Word) (charOut : Word) (r : CharRead) : Prop :=
  match handed with
  | some c => r = ⟨1, c⟩
  | none => r = ⟨-1, charOut⟩

section Driver

variable {data data' : SerialDriverData} {other r size sz x : Word} {message m : List Byte}
variable {t t' : List BaseEvent}

theorem mem_repliedTo (h : ⟨.reply r m sz, x⟩ ∈ t) : r ∈ repliedTo t :=
  List.mem_filterMap.mpr ⟨_, h, rfl⟩

structure AnswersWith (ch : Word) (m : List Byte) (sz : Word) (t : List BaseEvent) : Prop where
  message : m = wordBytes ch
  size : sz = 4
  character : (charactersGot t).head? = if ch = -1 then none else some ch

theorem charactersGot_cons (ch : Word) (t : List BaseEvent) :
    charactersGot (⟨.outside .getCharNonBlocking, ch⟩ :: t) =
      (if ch = -1 then [] else [ch]) ++ charactersGot t := by
  simp only [charactersGot, List.filterMap_cons]
  split_ifs <;> rfl

/-- What the driver gets and then sends as its only answer. -/
theorem AnswersWith.of_reply {ch y : Word}
    (h : ⟨.reply r m sz, x⟩ ∈ [⟨.outside .getCharNonBlocking, ch⟩,
      (⟨.reply other (wordBytes ch) 4, y⟩ : BaseEvent)]) :
    r = other ∧ AnswersWith ch m sz
      [⟨.outside .getCharNonBlocking, ch⟩, (⟨.reply other (wordBytes ch) 4, y⟩ : BaseEvent)] := by
  simp only [List.mem_cons, Sigma.mk.injEq, reduceCtorEq, false_and, false_or, Call.reply.injEq,
    List.not_mem_nil, or_false] at h
  obtain ⟨⟨rfl, rfl, rfl⟩, -⟩ := h
  refine ⟨rfl, rfl, rfl, ?_⟩
  rw [charactersGot_cons]
  split_ifs <;> rfl

theorem exec_getChar (h : Exec (getChar data other) t data') (hr : ⟨.reply r m sz, x⟩ ∈ t) :
    r = other ∧ ∃ ch, AnswersWith ch m sz t := by
  rw [getChar, getCharNonBlocking_bind] at h
  obtain ⟨ch, t₁, rfl, h₁⟩ := exec_call.mp h
  split_ifs at h₁ with hnone hfree
  · obtain ⟨rfl, -⟩ := exec_done.mp h₁
    simp at hr
  · obtain ⟨y, t₂, rfl, h₂⟩ := exec_call.mp h₁
    obtain ⟨rfl, -⟩ := exec_done.mp h₂
    subst hnone
    obtain ⟨hto, hanswer⟩ := AnswersWith.of_reply hr
    exact ⟨hto, _, hanswer⟩
  · obtain ⟨y, t₂, rfl, h₂⟩ := exec_call.mp h₁
    obtain ⟨rfl, -⟩ := exec_done.mp h₂
    obtain ⟨hto, hanswer⟩ := AnswersWith.of_reply hr
    exact ⟨hto, _, hanswer⟩

theorem exec_characterReceived (h : Exec (characterReceived data other) t data')
    (hr : ⟨.reply r m sz, x⟩ ∈ t) (hne : r ≠ other) : ∃ ch, AnswersWith ch m sz t := by
  rw [characterReceived, prjReply_bind] at h
  obtain ⟨y, t₁, rfl, h₁⟩ := exec_call.mp h
  have hr₁ : ⟨.reply r m sz, x⟩ ∈ t₁ := by simpa [hne] using hr
  split_ifs at h₁ with hparked
  · rw [getCharNonBlocking_bind] at h₁
    obtain ⟨ch, t₂, rfl, h₂⟩ := exec_call.mp h₁
    refine ⟨ch, ?_⟩
    split_ifs at h₂ with hch
    · obtain ⟨z, t₃, rfl, h₃⟩ := exec_call.mp h₂
      obtain ⟨rfl, -⟩ := exec_done.mp h₃
      obtain ⟨-, hm, hs, hc⟩ := AnswersWith.of_reply hr₁
      exact ⟨hm, hs, hc⟩
    · obtain ⟨rfl, -⟩ := exec_done.mp h₂
      simp at hr₁
  · obtain ⟨rfl, -⟩ := exec_done.mp h₁
    simp at hr₁

theorem exec_sendMessage_repliedTo (h : Exec (sendMessage data other message size) t data')
    (hr : r ∈ repliedTo t) : r = other := by
  unfold sendMessage at h
  split_ifs at h with hsmall
  · obtain ⟨rfl, -⟩ := exec_done.mp h
    cases hr
  obtain ⟨t₁, t₂, len, rfl, h₁, h₂⟩ := exec_bind.mp h
  obtain ⟨t₃, t₄, u, rfl, h₃, h₄⟩ := exec_bind.mp h₂
  obtain ⟨y, t₅, rfl, h₅⟩ := exec_call.mp h₄
  obtain ⟨rfl, -⟩ := exec_done.mp h₅
  unfold messageHalf at h₁
  obtain ⟨t₆, t₇, b₀, rfl, h₆, h₇⟩ := exec_bind.mp h₁
  obtain ⟨t₈, t₉, b₁, rfl, h₈, h₉⟩ := exec_bind.mp h₇
  obtain ⟨rfl, -⟩ := exec_done.mp h₉
  simp only [repliedTo_append, (exec_messageByte h₆).2.1, (exec_messageByte h₈).2.1,
    (exec_putChars h₃).1, List.nil_append] at hr
  exact List.mem_singleton.mp hr

/-- Only the case `MESSAGE_CHARACTER_RECEIVED` replies to another task than the
one that sent the message. -/
theorem exec_processMessage (h : Exec (processMessage data other message size) t data')
    (hsize : size < 4 ∨ 4 ≤ message.length) (hr : ⟨.reply r m sz, x⟩ ∈ t) (hne : r ≠ other) :
    ∃ ch, AnswersWith ch m sz t := by
  have hmem := mem_repliedTo hr
  unfold processMessage at h
  split_ifs at h with hsmall
  · obtain ⟨y, t₁, rfl, h₁⟩ := exec_call.mp h
    obtain ⟨rfl, -⟩ := exec_done.mp h₁
    exact absurd (List.mem_singleton.mp hmem) hne
  rw [messageWord_of_le (hsize.resolve_left hsmall), done_bind] at h
  split_ifs at h with hreceived hget hnonblocking hsend hquit
  · exact exec_characterReceived h hr hne
  · exact absurd (exec_getChar h hr).1 hne
  · obtain ⟨ch, t₁, rfl, h₁⟩ := exec_call.mp h
    obtain ⟨y, t₂, rfl, h₂⟩ := exec_call.mp h₁
    obtain ⟨rfl, -⟩ := exec_done.mp h₂
    exact absurd (List.mem_singleton.mp hmem) hne
  · exact absurd (exec_sendMessage_repliedTo h hmem) hne
  · obtain ⟨rfl, -⟩ := exec_done.mp h
    simp at hr
  · obtain ⟨y, t₁, rfl, h₁⟩ := exec_call.mp h
    obtain ⟨rfl, -⟩ := exec_done.mp h₁
    exact absurd (List.mem_singleton.mp hmem) hne

end Driver

section Exchange

variable {data : SerialDriverData} {caller reader request size ret : Word}
variable {message answer : List Byte} {t : List BaseEvent} {pt : Point}
variable {sent : Returned} {handed : Option Word}

theorem serves_processMessage (h : Serves data caller message t pt)
    (hr : ⟨.reply reader answer size, ret⟩ ∈ t) :
    ∃ data', Exec (processMessage data caller (driverReceives caller message).bytes
      (driverReceives caller message).size) t data' := by
  have hne : message ≠ [] := by
    rintro rfl
    rw [serves_nil h] at hr
    exact absurd hr List.not_mem_nil
  obtain ⟨data', hx, -⟩ := (serves_iff hne).mp h
  exact ⟨data', hx⟩

theorem serves_request
    (hrequest : request = messageTypeGetChar ∨ request = messageTypeGetCharNonblocking)
    (h : Serves data reader (wordBytes request) t pt)
    (hr : ⟨.reply reader answer size, ret⟩ ∈ t) : ∃ ch, AnswersWith ch answer size t := by
  obtain ⟨data', hexec⟩ := serves_processMessage h hr
  have hbytes : (driverReceives reader (wordBytes request)).bytes = wordBytes request := rfl
  have hfour : ¬ (driverReceives reader (wordBytes request)).size < 4 := by
    intro hlt
    have hshort := (driverReceives_size_lt reader (wordBytes request) (n := 4) (by omega)).mp hlt
    simp at hshort
  rw [processMessage, if_neg hfour, hbytes, messageWord_of_le (by simp), done_bind,
    wordAt_wordBytes_self] at hexec
  rcases hrequest with rfl | rfl
  · rw [if_neg (by decide), if_pos rfl] at hexec
    exact (exec_getChar hexec hr).2
  · rw [if_neg (by decide), if_neg (by decide), if_pos rfl] at hexec
    obtain ⟨ch, t₁, rfl, h₁⟩ := exec_call.mp hexec
    obtain ⟨y, t₂, rfl, h₂⟩ := exec_call.mp h₁
    obtain ⟨rfl, -⟩ := exec_done.mp h₂
    exact ⟨ch, (AnswersWith.of_reply hr).2⟩

theorem serves_other (h : Serves data caller message t pt)
    (hr : ⟨.reply reader answer size, ret⟩ ∈ t) (hne : caller ≠ reader) :
    ∃ ch, AnswersWith ch answer size t := by
  obtain ⟨data', hexec⟩ := serves_processMessage h hr
  refine exec_processMessage hexec ?_ hr hne.symm
  rw [le_length_driverReceives caller message (by omega)]
  by_cases hshort : message.length < 4
  · exact .inl ((driverReceives_size_lt caller message (n := 4) (by omega)).mpr hshort)
  · exact .inr (Nat.le_of_not_lt hshort)

/-- A Send of a reader fails, or brings a word that is a character unless it
is -1. -/
theorem ReadExchange.outcome (h : ReadExchange request sent handed)
    (hrequest : request = messageTypeGetChar ∨ request = messageTypeGetCharNonblocking) :
    ((∃ err : SendError, err.code = sent.size) ∧ sent.bytes = [] ∧ handed = none) ∨
      ∃ ch, sent = ⟨4, wordBytes ch⟩ ∧ handed = if ch = -1 then none else some ch := by
  cases h with
  | failed err => exact .inl ⟨⟨err, rfl⟩, rfl, rfl⟩
  | served hserves hr =>
    obtain ⟨ch, rfl, rfl, hch⟩ := serves_request hrequest hserves hr
    exact .inr ⟨ch, rfl, hch⟩
  | released _ _ hne hserves hr =>
    obtain ⟨ch, rfl, rfl, hch⟩ := serves_other hserves hr hne
    exact .inr ⟨ch, rfl, hch⟩

end Exchange

/-- The driver had a character, or was asked not to wait. -/
theorem exchange_of_exec (data data' : SerialDriverData) (reader : Word) {request ch : Word}
    {t : List BaseEvent} (ht : t = [⟨.outside .getCharNonBlocking, ch⟩,
      ⟨.reply reader (wordBytes ch) 4, 0⟩])
    (h : Exec (processMessage data reader (wordBytes request) 4) t data') :
    ReadExchange request ⟨4, wordBytes ch⟩ (if ch = -1 then none else some ch) := by
  have hserves : Serves data reader (wordBytes request) t (.serialDriver data') :=
    (serves_iff (List.cons_ne_nil _ _)).mpr ⟨data', h, rfl⟩
  have hmem : ⟨.reply reader (wordBytes ch) 4, 0⟩ ∈ t := by simp [ht]
  have hgot : (charactersGot t).head? = if ch = -1 then none else some ch := by
    rw [ht, charactersGot_cons]
    split_ifs <;> rfl
  have hexchange := ReadExchange.served hserves hmem
  rwa [hgot] at hexchange

theorem getCharNonblocking_exchange (ch : Word) :
    ReadExchange messageTypeGetCharNonblocking ⟨4, wordBytes ch⟩
      (if ch = -1 then none else some ch) := by
  refine exchange_of_exec ⟨true, 0, 0⟩ ⟨true, 0, 0⟩ 0x2000 rfl ?_
  rw [processMessage, if_neg (by decide), messageWord_of_le (by simp), done_bind,
    wordAt_wordBytes_self, if_neg (by decide), if_neg (by decide), if_pos rfl]
  exact .call _ (.call _ (.done _))

/-- While a reader waits, a second one is turned down with -1. -/
theorem getChar_exchange (ch : Word) :
    ReadExchange messageTypeGetChar ⟨4, wordBytes ch⟩ (if ch = -1 then none else some ch) := by
  refine exchange_of_exec ⟨true, 0x1000, 0⟩ ⟨true, 0x1000, 0⟩ 0x2000 rfl ?_
  rw [processMessage, if_neg (by decide), messageWord_of_le (by simp), done_bind,
    wordAt_wordBytes_self, if_neg (by decide), if_pos rfl, getChar, getCharNonBlocking_bind,
    exec_call_cons]
  split_ifs with hnone hfree
  · cases hfree
  · subst hnone
    exact .call _ (.done _)
  · exact .call _ (.done _)

section Readers

variable {charOut serialTid : Word} {ch : Fin 4 → Byte} {sent : Returned} {r : CharRead}

theorem exec_prjGetCh (htid : serialTid ≠ 0) :
    Exec (prjGetCh charOut serialTid) (readCalls messageTypeGetChar serialTid ch sent) r ↔
      r = if sent.size < 1 then ⟨-1, charOut⟩
        else ⟨1, wordAt (overwrite (List.ofFn ch) sent.bytes) 0⟩ := by
  rw [prjGetCh, if_neg htid, unset_bind, readCalls, exec_call_cons, prjSend_bind, exec_call_cons]
  split_ifs <;> simp

theorem exec_prjGetChNonBlocking (htid : serialTid ≠ 0) :
    Exec (prjGetChNonBlocking charOut serialTid)
        (readCalls messageTypeGetCharNonblocking serialTid ch sent) r ↔
      r = if wordAt (overwrite (List.ofFn ch) sent.bytes) 0 = 0xfffffff then ⟨-1, charOut⟩
        else ⟨1, wordAt (overwrite (List.ofFn ch) sent.bytes) 0⟩ := by
  rw [prjGetChNonBlocking, if_neg htid, unset_bind, readCalls, exec_call_cons, prjSend_bind,
    exec_call_cons]
  split_ifs <;> simp

/-- The Send fails and leaves the local variable, or fills it with a word that
is a character unless it is -1. -/
theorem ReadExchange.read (h : ReadExchange request sent handed) (ch : Fin 4 → Byte)
    (hrequest : request = messageTypeGetChar ∨ request = messageTypeGetCharNonblocking) :
    ((∃ err : SendError, err.code = sent.size) ∧ handed = none ∧
        wordAt (overwrite (List.ofFn ch) sent.bytes) 0 = wordAt (List.ofFn ch) 0) ∨
      (sent.size = 4 ∧ handed = if wordAt (overwrite (List.ofFn ch) sent.bytes) 0 = -1 then none
        else some (wordAt (overwrite (List.ofFn ch) sent.bytes) 0)) := by
  rcases h.outcome hrequest with ⟨hcode, hbytes, rfl⟩ | ⟨c, rfl, rfl⟩
  · refine .inl ⟨hcode, rfl, ?_⟩
    rw [hbytes]
    rfl
  · refine .inr ⟨rfl, ?_⟩
    simp only [overwrite, wordAt_wordBytes]

theorem SendError.four_lt_code (err : SendError) : 4 < err.code := by
  cases err <;> decide

theorem SendError.code_ne_four (err : SendError) : err.code ≠ 4 := by
  cases err <;> decide

theorem not_reports_none {w : Word} : ¬ Reports none charOut ⟨1, w⟩ := by
  intro h
  have hret : (1 : Word) = -1 := congrArg CharRead.ret h
  exact absurd hret (by decide)

theorem not_reports_some {c : Word} : ¬ Reports (some c) charOut ⟨-1, charOut⟩ := by
  intro h
  have hret : (-1 : Word) = 1 := congrArg CharRead.ret h
  exact absurd hret (by decide)

theorem reports_some {c w : Word} : Reports (some c) charOut ⟨1, w⟩ ↔ w = c := by
  simp [Reports]

theorem handed_eq_some {w c : Word} :
    (if w = -1 then none else some w) = some c ↔ w = c ∧ c ≠ -1 := by
  split_ifs with hw
  · refine iff_of_false (by simp) fun ⟨hc, hne⟩ ↦ ?_
    exact hne (hc.symm.trans hw)
  · rw [Option.some_inj]
    exact ⟨fun hc ↦ ⟨hc, hc ▸ hw⟩, fun hc ↦ hc.1⟩

/-- `prjGetCh` takes every exchange for a character. -/
theorem prjGetCh_reports_iff (htid : serialTid ≠ 0)
    (h : ReadExchange messageTypeGetChar sent handed) :
    (∃ r, Exec (prjGetCh charOut serialTid) (readCalls messageTypeGetChar serialTid ch sent) r ∧
      Reports handed charOut r) ↔ ∃ c, handed = some c := by
  have hread := h.read ch (.inl rfl)
  have hsize : ¬ sent.size < 1 := by
    rcases hread with ⟨⟨err, hcode⟩, -⟩ | ⟨hfour, -⟩
    · have hlarge := err.four_lt_code
      bv_omega
    · rw [hfour]
      decide
  simp only [exec_prjGetCh htid, if_neg hsize, exists_eq_left]
  generalize wordAt (overwrite (List.ofFn ch) sent.bytes) 0 = w at hread ⊢
  cases handed with
  | none => exact iff_of_false not_reports_none (by simp)
  | some c =>
    rw [reports_some]
    rcases hread with ⟨-, hnone, -⟩ | ⟨-, hsome⟩
    · cases hnone
    · exact iff_of_true (handed_eq_some.mp hsome.symm).1 ⟨c, rfl⟩

/-- `prjGetChNonBlocking` only looks at the value. -/
theorem prjGetChNonBlocking_reports_iff (htid : serialTid ≠ 0)
    (h : ReadExchange messageTypeGetCharNonblocking sent handed) :
    (∃ r, Exec (prjGetChNonBlocking charOut serialTid)
        (readCalls messageTypeGetCharNonblocking serialTid ch sent) r ∧
          Reports handed charOut r) ↔
      (∃ c, handed = some c ∧ c ≠ 0xfffffff) ∨
        ((∃ err : SendError, err.code = sent.size) ∧ wordAt (List.ofFn ch) 0 = 0xfffffff) := by
  have hread := h.read ch (.inr rfl)
  simp only [exec_prjGetChNonBlocking htid, exists_eq_left]
  generalize wordAt (overwrite (List.ofFn ch) sent.bytes) 0 = w at hread ⊢
  cases handed with
  | none =>
    simp only [reduceCtorEq, false_and, exists_false, false_or]
    rcases hread with ⟨hcode, -, rfl⟩ | ⟨hfour, hnone⟩
    · split_ifs with hseven
      · exact iff_of_true rfl ⟨hcode, hseven⟩
      · exact iff_of_false not_reports_none fun hf ↦ hseven hf.2
    · have hw : w = -1 := by
        by_contra hne
        rw [if_neg hne] at hnone
        cases hnone
      rw [hw, if_neg (by decide), hfour]
      refine iff_of_false not_reports_none ?_
      rintro ⟨⟨err, herr⟩, -⟩
      exact err.code_ne_four herr
  | some c =>
    rcases hread with ⟨-, hnone, -⟩ | ⟨hfour, hsome⟩
    · cases hnone
    · obtain ⟨rfl, -⟩ := handed_eq_some.mp hsome.symm
      simp only [hfour, SendError.code_ne_four, exists_false, false_and, or_false,
        Option.some.injEq, exists_eq_left']
      split_ifs with hseven
      · exact iff_of_false not_reports_some fun hne ↦ hne hseven
      · exact iff_of_true rfl hseven

end Readers

/-- The readers report what the driver did if it handed them a character, which
for the one that does not wait must not be 0xfffffff. The latter also notices a
failure if its local variable happens to hold that number. -/
theorem character_readers_iff {charOut serialTid : Word} {ch : Fin 4 → Byte}
    {sent sent' : Returned} {handed handed' : Option Word} (htid : serialTid ≠ 0)
    (h : ReadExchange messageTypeGetChar sent handed)
    (h' : ReadExchange messageTypeGetCharNonblocking sent' handed') :
    ((∃ r, Exec (prjGetCh charOut serialTid)
        (readCalls messageTypeGetChar serialTid ch sent) r ∧ Reports handed charOut r) ↔
      ∃ c, handed = some c) ∧
    ((∃ r, Exec (prjGetChNonBlocking charOut serialTid)
        (readCalls messageTypeGetCharNonblocking serialTid ch sent') r ∧
          Reports handed' charOut r) ↔
      (∃ c, handed' = some c ∧ c ≠ 0xfffffff) ∨
        ((∃ err : SendError, err.code = sent'.size) ∧ wordAt (List.ofFn ch) 0 = 0xfffffff)) ∧
    prjGetCh charOut 0 = .done ⟨-1, charOut⟩ ∧
    prjGetChNonBlocking charOut 0 = .done ⟨-1, charOut⟩ :=
  ⟨prjGetCh_reports_iff htid h, prjGetChNonBlocking_reports_iff htid h', rfl, rfl⟩

/-- A letter for the one reader, and nothing for the other one. -/
theorem character_readers_letter :
    ((∃ r, Exec (prjGetCh 0 0x2000) (readCalls messageTypeGetChar 0x2000 (fun _ ↦ 0)
        ⟨4, wordBytes 65⟩) r ∧ Reports (some 65) 0 r) ↔ ∃ c, some (65 : Word) = some c) ∧
    ((∃ r, Exec (prjGetChNonBlocking 0 0x2000)
        (readCalls messageTypeGetCharNonblocking 0x2000 (fun _ ↦ 0) ⟨4, wordBytes (-1)⟩) r ∧
          Reports none 0 r) ↔
      (∃ c, (none : Option Word) = some c ∧ c ≠ 0xfffffff) ∨
        ((∃ err : SendError, err.code = 4) ∧ wordAt (List.ofFn fun _ : Fin 4 ↦ (0 : Byte)) 0 = 0xfffffff)) ∧
    prjGetCh 0 0 = .done ⟨-1, 0⟩ ∧ prjGetChNonBlocking 0 0 = .done ⟨-1, 0⟩ :=
  character_readers_iff (by decide) (getChar_exchange 65) (getCharNonblocking_exchange (-1))

/-- A reader that is turned down takes -1 for a character, and so does one whose
Send fails take what its variable held. The reader that does not wait takes the
answer that there is no character for one. -/
theorem failures_taken_for_characters :
    ReadExchange messageTypeGetChar ⟨4, wordBytes (-1)⟩ none ∧
    (¬ ∃ r, Exec (prjGetCh 0 0x2000) (readCalls messageTypeGetChar 0x2000 (fun _ ↦ 0)
        ⟨4, wordBytes (-1)⟩) r ∧ Reports none 0 r) ∧
    (¬ ∃ r, Exec (prjGetCh 0 0x2000) (readCalls messageTypeGetChar 0x2000 (fun _ ↦ 0)
        ⟨errSendTaskidNotfound, []⟩) r ∧ Reports none 0 r) ∧
    ReadExchange messageTypeGetCharNonblocking ⟨4, wordBytes (-1)⟩ none ∧
    ¬ ∃ r, Exec (prjGetChNonBlocking 0 0x2000) (readCalls messageTypeGetCharNonblocking 0x2000
        (fun _ ↦ 0) ⟨4, wordBytes (-1)⟩) r ∧ Reports none 0 r := by
  have htid : (0x2000 : Word) ≠ 0 := by decide
  have hfailed : ReadExchange messageTypeGetChar ⟨errSendTaskidNotfound, []⟩ none :=
    .failed .taskidNotfound
  have hrefused : ReadExchange messageTypeGetChar ⟨4, wordBytes (-1)⟩ none :=
    getChar_exchange (-1)
  have hnothing : ReadExchange messageTypeGetCharNonblocking ⟨4, wordBytes (-1)⟩ none :=
    getCharNonblocking_exchange (-1)
  refine ⟨hrefused, ?_, ?_, hnothing, ?_⟩
  · rw [prjGetCh_reports_iff htid hrefused]
    simp
  · rw [prjGetCh_reports_iff htid hfailed]
    simp
  · rw [prjGetChNonBlocking_reports_iff htid hnothing]
    rintro (⟨c, hc, -⟩ | ⟨⟨err, herr⟩, -⟩)
    · cases hc
    · exact err.code_ne_four herr

end PrjOS
