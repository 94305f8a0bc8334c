import PrjOS.Properties.NameserverMap

namespace PrjOS

open ByteMemory Function Transition

def Received.Overlong (m : Received) : Prop :=
  m.receiveRet = nameserverQuerySize ∧ m.query.operation = nameserverOperationRegister ∧
    nameserverMaxNameLength < m.query.bufferLen.toNat

/-- The request is answered with `TOO_LONG`, and the table stays as it is. -/
structure RefusedHarmlessly (s : Nameserver) (m : Received) : Prop where
  tooLong : ∃ v, (nameserverEntry s m).2 = .answer ⟨nameserverOperationTooLong, v⟩
  table : (nameserverEntry s m).1.nameEntries = s.nameEntries

section Overlong

variable {e : NameEntries} {sender : Word} {query : NameserverQuery} {i : Fin 16}

/-- The entry is the sender's before the length is looked at. -/
theorem register_overlong_empty (hslot : registerSlot e query.buffer = some i)
    (hempty : (e i).tid = 0) (hlong : nameserverMaxNameLength < query.bufferLen.toNat) :
    register e sender query =
      (update e i { e i with tid := sender }, ⟨nameserverOperationTooLong, none⟩) := by
  simp only [register, hslot]
  rw [if_pos hempty, if_neg (Nat.not_le.mpr hlong)]

/-- A name that is there is overwritten, and its length is never looked at. -/
theorem register_used (hslot : registerSlot e query.buffer = some i) (hused : (e i).tid ≠ 0) :
    register e sender query =
      (update e i { e i with tid := sender }, ⟨nameserverOperationRegister, none⟩) := by
  simp only [register, hslot]
  rw [if_neg hused]

theorem register_full (hslot : registerSlot e query.buffer = none) :
    register e sender query = (e, ⟨nameserverOperationNoSpace, none⟩) := by
  simp only [register, hslot]

/-- `TOO_LONG` is the answer only when an entry was used up for it. -/
theorem register_tooLong {v : Option Word}
    (hlong : nameserverMaxNameLength < query.bufferLen.toNat)
    (h : (register e sender query).2 = ⟨nameserverOperationTooLong, v⟩) :
    ∃ i, (e i).tid = 0 ∧ ((register e sender query).1 i).tid = sender := by
  cases hslot : registerSlot e query.buffer with
  | none =>
    rw [register_full hslot] at h
    exact absurd (Answer.mk.inj h).1 (by decide)
  | some i =>
    by_cases hempty : (e i).tid = 0
    · refine ⟨i, hempty, ?_⟩
      rw [register_overlong_empty hslot hempty hlong]
      change (update e i { e i with tid := sender } i).tid = sender
      rw [update_self]
    · rw [register_used hslot hempty] at h
      exact absurd (Answer.mk.inj h).1 (by decide)

end Overlong

/-- No register request with an overlong name is refused without harm, whatever
the table holds. -/
theorem refusal_never_harmless {s : Nameserver} {m : Received} (hm : m.Overlong) :
    ¬ RefusedHarmlessly s m := by
  rintro ⟨⟨v, hanswer⟩, htable⟩
  obtain ⟨hsize, hop, hlong⟩ := hm
  by_cases hsender : m.sender = 0
  · rw [nameserverEntry, if_neg (not_not.mpr hsize), if_pos hsender] at hanswer
    cases hanswer
  · rw [nameserverEntry_register ⟨hsize, hsender, hop⟩] at hanswer htable
    obtain ⟨i, hempty, hused⟩ := register_tooLong hlong (Response.answer.inj hanswer)
    have hsame : (register s.nameEntries m.sender m.query).1 = s.nameEntries := htable
    rw [hsame, hempty] at hused
    exact hsender hused.symm

def overlongRequest : Received :=
  ⟨0x2000#32, nameserverQuerySize, ⟨0x2000#32, [97, 0], 33, nameserverOperationRegister⟩⟩

theorem refusal_never_harmless_first : ¬ RefusedHarmlessly nameserverStart overlongRequest :=
  refusal_never_harmless ⟨rfl, rfl, by decide⟩

def afterRefusals : Nat → Nameserver
  | 0 => nameserverStart
  | n + 1 => (nameserverEntry (afterRefusals n) overlongRequest).1

/-- Sixteen refused registrations fill the table: a valid one then finds no space. -/
theorem refusals_fill_table :
    (∀ n < 16, (nameserverEntry (afterRefusals n) overlongRequest).2 =
      .answer ⟨nameserverOperationTooLong, none⟩) ∧
    (nameserverEntry nameserverStart (registration 0x1000#32 [97])).2 =
      .answer ⟨nameserverOperationRegister, none⟩ ∧
    (nameserverEntry (afterRefusals 16) (registration 0x1000#32 [97])).2 =
      .answer ⟨nameserverOperationNoSpace, none⟩ := by
  decide

end PrjOS
