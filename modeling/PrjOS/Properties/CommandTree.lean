import PrjOS.Cli.BaseCli
import PrjOS.Library.LinkedQueue
import PrjOS.Library.Registry
import Mathlib.Data.Fintype.Card
import Mathlib.Data.List.Find

namespace PrjOS

open ByteMemory Function LinkedQueue Registry

variable {n : ℕ} {F : Type}

abbrev CliLog (n : ℕ) (F : Type) : Type := List (Registration (RecordPtr n) (List Byte) F)

/-- The records hold the hierarchy that was registered. -/
structure Holds (data : CliInternalData n F) (log : CliLog n F) : Prop where
  wellFormed : WellFormed 0 log
  rootFv : (data.record 0).fv = none
  rootParent : (data.record 0).parentDir = some 0
  name : ∀ x ∈ log, (data.record x.record).name = x.name
  fv : ∀ x ∈ log, (data.record x.record).fv = x.command
  parentDir : ∀ x ∈ log, (data.record x.record).parentDir = some x.directory
  children : ∀ d, (d = 0 ∨ ∃ x ∈ log, x.record = d) →
    Chain (fun p ↦ (data.record p).nextEntry) (data.record d).link2subdir
      ((entries log d).map (·.record))
  commands : Chain (fun p ↦ (data.record p).cmdList) data.list ((commands log).map (·.record))
  text : ∀ x ∈ log, 0 ∉ x.name ∧ x.name.length < cliEntryLen

inductive BindCall (n : ℕ) (F : Type)
  | mkcmd (name : Option (List Byte)) (fv : Option F) (dirRec cmdRec : Option (RecordPtr n))
  | mkdir (name : Option (List Byte)) (dirRec subDir : Option (RecordPtr n))

namespace BindCall

def name : BindCall n F → Option (List Byte)
  | mkcmd name .. => name
  | mkdir name .. => name

def dir : BindCall n F → RecordPtr n
  | mkcmd _ _ dirRec _ => dirRec.getD cliRootElement
  | mkdir _ dirRec _ => dirRec.getD cliRootElement

def record : BindCall n F → Option (RecordPtr n)
  | mkcmd _ _ _ cmdRec => cmdRec
  | mkdir _ _ subDir => subDir

def fv : BindCall n F → Option F
  | mkcmd _ fv .. => fv
  | mkdir .. => none

def run (data : CliInternalData n F) : BindCall n F → Except CliFault (RcCli × CliInternalData n F)
  | mkcmd name fv dirRec cmdRec => cliMkcmd data name fv dirRec cmdRec
  | mkdir name dirRec subDir => cliMkdir data name dirRec subDir

/-- What a call does to the hierarchy, and its result. The last entry of a
directory is not compared with the new name, which is cut to 33 characters. -/
def bind (log : CliLog n F) (c : BindCall n F) : RcCli × CliLog n F :=
  if ∃ x ∈ log, x.record = c.dir ∧ x.command.isSome = true then (.dirInvalid, log)
  else
    match c.name, c.record with
    | none, _ => (.nullName, log)
    | some _, none => (.nullCmd, log)
    | some name, some record =>
      if name ∈ (entries log c.dir).dropLast.map (·.name) then (.duplicate, log)
      else (.ok, log ++ [⟨record, c.dir, name.take (cliEntryLen - 1), c.fv⟩])

def register (log : CliLog n F) : BindCall n F → RcCli × CliLog n F
  | mkcmd _ none .. => (.nullFv, log)
  | c => c.bind log

/-- What is asked of callers: the name is a string that fits, the record is a new
one, and the directory was registered. -/
structure Proper (log : CliLog n F) (c : BindCall n F) : Prop where
  name : ∀ name ∈ c.name, 0 ∉ name ∧ name.length ≤ cliEntryLen
  record : ∀ r ∈ c.record, r ≠ 0 ∧ ∀ x ∈ log, x.record ≠ r
  dir : c.dir = 0 ∨ ∃ x ∈ log, x.record = c.dir

instance (log : CliLog n F) (c : BindCall n F) : Decidable (c.Proper log) :=
  decidable_of_iff ((∀ name ∈ c.name, name.contains 0 = false ∧ name.length ≤ cliEntryLen) ∧
      (∀ r ∈ c.record, r ≠ cliRootElement ∧ ∀ x ∈ log, x.record ≠ r) ∧
      (c.dir = cliRootElement ∨ ∃ x ∈ log, x.record = c.dir))
    ⟨fun ⟨hname, hrecord, hdir⟩ ↦ ⟨by simpa using hname, hrecord, hdir⟩,
      fun h ↦ ⟨by simpa using h.name, h.record, h.dir⟩⟩

end BindCall

theorem strExact_iff (p1 p2 : List Byte) : strExact p1 p2 = true ↔ p1 = p2 := by
  induction p1 generalizing p2 with
  | nil =>
    rw [strExact, decide_eq_true_iff, List.length_eq_zero_iff]
    exact eq_comm
  | cons c p1 ih =>
    cases p2 with
    | nil => simp [strExact]
    | cons d p2 =>
      by_cases h : c = d
      · simp [strExact, h, ih]
      · simp [strExact, h]

section Lists

variable {data : CliInternalData n F}

theorem Chain.length_le {next : RecordPtr n → Option (RecordPtr n)} {a : Option (RecordPtr n)}
    {l : List (RecordPtr n)} (h : Chain next a l) : l.length ≤ n + 1 := by
  have hcard := h.nodup.length_le_card
  rwa [Fintype.card_fin] at hcard

/-- The loop of `cli_bind_entry` stops at an entry other than the last one, or
at the last one. -/
theorem lastEntry_eq (name : List Byte) {cmdRec p : RecordPtr n} {l : List (RecordPtr n)}
    (h : Chain (fun p ↦ (data.record p).nextEntry) (some p) (p :: l))
    {fuel : ℕ} (hfuel : l.length < fuel) :
    lastEntry data name cmdRec fuel p =
      match (p :: l).dropLast.find? fun q ↦ cmdRec = q ∨ (data.record q).name = name with
      | none => .ok (.inr ((p :: l).getLast (List.cons_ne_nil p l)))
      | some q => .ok (.inl (if cmdRec = q then .recordCorrupt else .duplicate)) := by
  induction l generalizing p fuel with
  | nil =>
    obtain ⟨fuel, rfl⟩ := Nat.exists_eq_succ_of_ne_zero (Nat.ne_of_gt hfuel)
    have hnext : (data.record p).nextEntry = none := h.rest.head_eq
    rw [lastEntry, hnext]
    rfl
  | cons q l ih =>
    obtain ⟨fuel, rfl⟩ := Nat.exists_eq_succ_of_ne_zero (Nat.ne_of_gt (Nat.zero_lt_of_lt hfuel))
    have hnext : (data.record p).nextEntry = some q := h.rest.head_eq
    have hrest : Chain (fun p ↦ (data.record p).nextEntry) (some q) (q :: l) := by
      have hr := h.rest
      rwa [hnext] at hr
    have hlt : l.length < fuel := by
      rw [List.length_cons] at hfuel
      omega
    rw [lastEntry, hnext, List.dropLast_cons_of_ne_nil (List.cons_ne_nil q l)]
    by_cases hrec : cmdRec = p
    · subst hrec
      simp
    · by_cases hname : (data.record p).name = name
      · have hexact : strExact (data.record p).name name = true := (strExact_iff _ _).mpr hname
        rw [List.find?_cons_of_pos (by simp [hname])]
        simp only [if_neg hrec, if_pos hexact]
      · have hexact : ¬ strExact (data.record p).name name = true := by rwa [strExact_iff]
        rw [List.find?_cons_of_neg (by simp [hrec, hname]), List.getLast_cons (List.cons_ne_nil q l)]
        simp only [if_neg hrec, if_neg hexact]
        exact ih hrest hlt

/-- A list can be walked to its end exactly when it has one. -/
theorem listFrom_eq_ok {next : RecordPtr n → Option (RecordPtr n)} {a : Option (RecordPtr n)}
    {l : List (RecordPtr n)} : listFrom next (n + 1) a = .ok l ↔ Chain next a l := by
  have hgen : ∀ (fuel : ℕ) (a : Option (RecordPtr n)) (l : List (RecordPtr n)),
      listFrom next fuel a = .ok l ↔ Chain next a l ∧ l.length ≤ fuel := by
    intro fuel
    induction fuel with
    | zero =>
      intro a l
      cases a with
      | none =>
        refine ⟨fun h ↦ ?_, fun ⟨h, _⟩ ↦ ?_⟩
        · cases h
          exact ⟨.nil, le_rfl⟩
        · cases h
          rfl
      | some p =>
        refine ⟨fun h ↦ by simp [listFrom] at h, fun ⟨h, hlen⟩ ↦ ?_⟩
        cases h
        simp at hlen
    | succ fuel ih =>
      intro a l
      cases a with
      | none =>
        refine ⟨fun h ↦ ?_, fun ⟨h, _⟩ ↦ ?_⟩
        · cases h
          exact ⟨.nil, Nat.zero_le _⟩
        · cases h
          rfl
      | some p =>
        constructor
        · intro h
          cases hrest : listFrom next fuel (next p) with
          | error fault => simp [listFrom, hrest, bind, Except.bind] at h
          | ok ps =>
            simp only [listFrom, hrest, bind, Except.bind, pure, Except.pure, Except.ok.injEq] at h
            subst h
            obtain ⟨hchain, hlen⟩ := (ih _ _).mp hrest
            exact ⟨.cons hchain, Nat.succ_le_succ hlen⟩
        · rintro ⟨h, hlen⟩
          cases h with
          | cons h =>
            have hrest := (ih _ _).mpr ⟨h, Nat.le_of_succ_le_succ hlen⟩
            simp [listFrom, hrest, bind, Except.bind, pure, Except.pure]
  rw [hgen]
  exact ⟨And.left, fun h ↦ ⟨h, Chain.length_le h⟩⟩

/-- A search finds the first record with the name. -/
theorem searchFrom_eq {next : RecordPtr n → Option (RecordPtr n)} (name : List Byte)
    {a : Option (RecordPtr n)} {l : List (RecordPtr n)} (h : Chain next a l) :
    searchFrom data next name (n + 1) a = .ok (l.find? fun p ↦ (data.record p).name = name) := by
  have hgen : ∀ (fuel : ℕ) (a : Option (RecordPtr n)) (l : List (RecordPtr n)), Chain next a l →
      l.length ≤ fuel → searchFrom data next name fuel a =
        .ok (l.find? fun p ↦ (data.record p).name = name) := by
    intro fuel
    induction fuel with
    | zero =>
      intro a l h hlen
      cases h with
      | nil => rfl
      | cons h => simp at hlen
    | succ fuel ih =>
      intro a l h hlen
      cases h with
      | nil => rfl
      | @cons p l h =>
        rw [searchFrom]
        by_cases hname : (data.record p).name = name
        · rw [if_pos ((strExact_iff _ _).mpr hname), List.find?_cons_of_pos (by simpa using hname)]
        · rw [if_neg (by rwa [strExact_iff]), List.find?_cons_of_neg (by simpa using hname)]
          exact ih _ _ h (Nat.le_of_succ_le_succ hlen)
  exact hgen _ _ _ h (Chain.length_le h)

end Lists

section NewEntry

variable {data : CliInternalData n F} {name : List Byte} {fv : Option F}
  {dir cmdRec : RecordPtr n} {last : Option (RecordPtr n)}

theorem newEntry_record (hlast : ∀ p ∈ last, p ≠ cmdRec) (hdir : dir ≠ cmdRec) (q : RecordPtr n) :
    (newEntry data name fv dir cmdRec last).record q =
      if q = cmdRec then
        { cmdList := if fv.isSome then data.list else (data.record q).cmdList
          name := name
          fv := fv
          parentDir := some dir
          nextEntry := none
          link2subdir := none }
      else if last = none ∧ q = dir then { data.record q with link2subdir := some cmdRec }
      else if last = some q then { data.record q with nextEntry := some cmdRec }
      else data.record q := by
  cases last with
  | none =>
    by_cases hq : q = cmdRec
    · subst hq
      cases fv <;> simp [newEntry, CliInternalData.modify, hdir.symm]
    · by_cases hd : q = dir
      · subst hd
        cases fv <;> simp [newEntry, CliInternalData.modify, hq]
      · cases fv <;> simp [newEntry, CliInternalData.modify, hq, hd]
  | some last =>
    have hne : last ≠ cmdRec := hlast last rfl
    by_cases hq : q = cmdRec
    · subst hq
      cases fv <;> simp [newEntry, CliInternalData.modify, hne.symm]
    · by_cases hl : q = last
      · subst hl
        cases fv <;> simp [newEntry, CliInternalData.modify, hq]
      · cases fv <;> simp [newEntry, CliInternalData.modify, hq, hl, Ne.symm hl]

theorem newEntry_list : (newEntry data name fv dir cmdRec last).list =
    if fv.isSome then some cmdRec else data.list := by
  cases last <;> cases fv <;> rfl

end NewEntry

section Register

variable {data : CliInternalData n F} {log : CliLog n F}

theorem Holds.mem_children (h : Holds data log) {d q : RecordPtr n}
    (hq : q ∈ (entries log d).map (·.record)) : q ≠ 0 ∧ ∃ x ∈ log, x.record = q := by
  obtain ⟨x, hx, rfl⟩ := List.mem_map.mp hq
  have hlog := (mem_entries.mp hx).1
  exact ⟨h.wellFormed.ne_root hlog, x, hlog, rfl⟩

/-- No record is in two directories. -/
theorem Holds.directory_eq (h : Holds data log) {d d' q : RecordPtr n}
    (hq : q ∈ (entries log d).map (·.record)) (hq' : q ∈ (entries log d').map (·.record)) :
    d = d' := by
  obtain ⟨x, hx, rfl⟩ := List.mem_map.mp hq
  obtain ⟨y, hy, he⟩ := List.mem_map.mp hq'
  obtain ⟨hxlog, rfl⟩ := mem_entries.mp hx
  obtain ⟨hylog, rfl⟩ := mem_entries.mp hy
  exact congrArg Registration.directory (h.wellFormed.eq_of_record hxlog hylog he.symm)

theorem Holds.find_name (h : Holds data log) (l : CliLog n F) (hl : ∀ x ∈ l, x ∈ log)
    (name : List Byte) :
    (l.map (·.record)).find? (fun p ↦ (data.record p).name = name) =
      (l.find? fun x ↦ x.name = name).map (·.record) := by
  rw [List.find?_map]
  congr 1
  refine List.find?_congr fun x hx ↦ ?_
  simp only [Function.comp_apply, h.name x (hl x hx)]

/-- A new record becomes the last entry of its directory. -/
theorem Holds.add (h : Holds data log) {name : List Byte}
    (hname : 0 ∉ name ∧ name.length < cliEntryLen)
    (fv : Option F) {dir cmdRec : RecordPtr n} (hroot : cmdRec ≠ 0)
    (hfresh : ∀ x ∈ log, x.record ≠ cmdRec)
    (hdir : dir = 0 ∨ ∃ x ∈ log, x.record = dir ∧ x.command = none) :
    Holds (newEntry data name fv dir cmdRec ((entries log dir).map (·.record)).getLast?)
      (log ++ [⟨cmdRec, dir, name, fv⟩]) := by
  set last := ((entries log dir).map (·.record)).getLast? with hlastdef
  have hmem : ∀ p ∈ last, p ∈ (entries log dir).map (·.record) := fun p hp ↦
    List.mem_of_getLast? hp
  have hlast : ∀ p ∈ last, p ≠ cmdRec := by
    rintro p hp rfl
    obtain ⟨-, x, hx, he⟩ := h.mem_children (hmem p hp)
    exact hfresh x hx he
  have hdirne : dir ≠ cmdRec := by
    rintro rfl
    rcases hdir with rfl | ⟨x, hx, he, -⟩
    · exact hroot rfl
    · exact hfresh x hx he
  have hrecord (q : RecordPtr n) : (newEntry data name fv dir cmdRec last).record q = _ :=
    newEntry_record hlast hdirne q
  have hnext (q : RecordPtr n) (hq : q ≠ cmdRec) :
      ((newEntry data name fv dir cmdRec last).record q).nextEntry =
        if last = some q then some cmdRec else (data.record q).nextEntry := by
    rw [hrecord q, if_neg hq]
    split_ifs with hn hl hl
    · exact absurd (hn.1.symm.trans hl) (by simp)
    · rfl
    · rfl
    · rfl
  have hlink (q : RecordPtr n) (hq : q ≠ cmdRec) :
      ((newEntry data name fv dir cmdRec last).record q).link2subdir =
        if last = none ∧ q = dir then some cmdRec else (data.record q).link2subdir := by
    rw [hrecord q, if_neg hq]
    split_ifs <;> rfl
  have hold (q : RecordPtr n) (hq : q ≠ cmdRec) :
      ((newEntry data name fv dir cmdRec last).record q).name = (data.record q).name ∧
      ((newEntry data name fv dir cmdRec last).record q).fv = (data.record q).fv ∧
      ((newEntry data name fv dir cmdRec last).record q).parentDir = (data.record q).parentDir ∧
      ((newEntry data name fv dir cmdRec last).record q).cmdList = (data.record q).cmdList := by
    rw [hrecord q, if_neg hq]
    split_ifs <;> exact ⟨rfl, rfl, rfl, rfl⟩
  have hnew : (newEntry data name fv dir cmdRec last).record cmdRec = _ := hrecord cmdRec
  rw [if_pos rfl] at hnew
  refine ⟨.snoc h.wellFormed hroot hfresh hdir, ?_, ?_, ?_, ?_, ?_, ?_, ?_, ?_⟩
  · rw [(hold 0 hroot.symm).2.1, h.rootFv]
  · rw [(hold 0 hroot.symm).2.2.1, h.rootParent]
  · intro x hx
    rcases List.mem_append.mp hx with hx | hx
    · rw [(hold x.record (hfresh x hx)).1, h.name x hx]
    · rw [List.mem_singleton.mp hx, hnew]
  · intro x hx
    rcases List.mem_append.mp hx with hx | hx
    · rw [(hold x.record (hfresh x hx)).2.1, h.fv x hx]
    · rw [List.mem_singleton.mp hx, hnew]
  · intro x hx
    rcases List.mem_append.mp hx with hx | hx
    · rw [(hold x.record (hfresh x hx)).2.2.1, h.parentDir x hx]
    · rw [List.mem_singleton.mp hx, hnew]
  · intro d hd
    have hmap : ((entries (log ++ [⟨cmdRec, dir, name, fv⟩]) d).map (·.record)) =
        (entries log d).map (·.record) ++ if dir = d then [cmdRec] else [] := by
      rw [entries_snoc]
      split_ifs
      · rw [List.map_append]
        rfl
      · rw [List.append_nil]
    rw [hmap]
    by_cases hdrec : d = cmdRec
    · have hempty : entries log d = [] := by
        rw [List.eq_nil_iff_forall_not_mem]
        intro x hx
        obtain ⟨hxlog, hxd⟩ := mem_entries.mp hx
        rcases h.wellFormed.directory hxlog with hx0 | ⟨y, hy, hye, -⟩
        · exact hroot (hdrec.symm.trans (hxd.symm.trans hx0))
        · exact hfresh y hy (hye.trans (hxd.trans hdrec))
      rw [hempty, hdrec, if_neg hdirne, hnew]
      exact .nil
    · have hknown : d = 0 ∨ ∃ x ∈ log, x.record = d := by
        refine hd.imp id fun ⟨x, hx, he⟩ ↦ ?_
        rcases List.mem_append.mp hx with hx | hx
        · exact ⟨x, hx, he⟩
        · rw [List.mem_singleton.mp hx] at he
          exact absurd he.symm hdrec
      have hchain := h.children d hknown
      have hfreshmem (q : RecordPtr n) (hq : q ∈ (entries log d).map (·.record)) :
          q ≠ cmdRec := by
        rintro rfl
        obtain ⟨-, x, hx, he⟩ := h.mem_children hq
        exact hfresh x hx he
      by_cases hdd : dir = d
      · subst hdd
        rw [if_pos rfl]
        rcases List.eq_nil_or_concat ((entries log dir).map (·.record)) with hnil | ⟨pre, l, hl⟩
        · have hnone : last = none := by rw [hlastdef, hnil, List.getLast?_nil]
          rw [hlink dir hdrec, if_pos ⟨hnone, rfl⟩, hnil]
          refine .cons ?_
          rw [hnew]
          exact .nil
        · rw [List.concat_eq_append] at hl
          have hsome : last = some l := by rw [hlastdef, hl, List.getLast?_concat]
          have hll : l ≠ cmdRec := hlast l hsome
          rw [hlink dir hdrec, if_neg (by simp [hsome]), hl, List.append_assoc]
          rw [hl] at hchain hfreshmem
          have hnodup := hchain.nodup
          refine hchain.splice (fun q hq ↦ ?_) ?_
          · have hql : last ≠ some q := by
              rw [hsome, Ne, Option.some.injEq]
              rintro rfl
              exact (List.nodup_append.mp hnodup).2.2 l hq l (List.mem_singleton_self l) rfl
            rw [hnext q (hfreshmem q (List.mem_append_left _ hq)), if_neg hql]
          · rw [hnext l hll, if_pos hsome]
            refine .cons ?_
            rw [hnew]
            exact .nil
      · rw [if_neg hdd, List.append_nil, hlink d hdrec, if_neg fun he ↦ hdd he.2.symm]
        refine hchain.congr fun q hq ↦ ?_
        have hql : last ≠ some q := fun he ↦ hdd (h.directory_eq (hmem q he) hq)
        rw [hnext q (hfreshmem q hq), if_neg hql]
  · have hfreshmem (q : RecordPtr n) (hq : q ∈ (Registry.commands log).map (·.record)) :
        q ≠ cmdRec := by
      rintro rfl
      obtain ⟨x, hx, he⟩ := List.mem_map.mp hq
      exact hfresh x (mem_commands.mp hx).1 he
    have hchain : Chain (fun p ↦ ((newEntry data name fv dir cmdRec last).record p).cmdList)
        data.list ((Registry.commands log).map (·.record)) :=
      h.commands.congr fun q hq ↦ (hold q (hfreshmem q hq)).2.2.2
    rw [commands_snoc, newEntry_list]
    by_cases hfv : fv.isSome = true
    · rw [if_pos hfv, if_pos hfv, List.map_cons]
      refine .cons ?_
      rw [hnew, if_pos hfv]
      exact hchain
    · rw [if_neg hfv, if_neg hfv]
      exact hchain
  · intro x hx
    rcases List.mem_append.mp hx with hx | hx
    · exact h.text x hx
    · rwa [List.mem_singleton.mp hx]

theorem Holds.isSome_fv (h : Holds data log) {d : RecordPtr n}
    (hd : d = 0 ∨ ∃ x ∈ log, x.record = d) :
    (data.record d).fv.isSome = true ↔ ∃ x ∈ log, x.record = d ∧ x.command.isSome = true := by
  constructor
  · intro hfv
    rcases hd with rfl | ⟨x, hx, rfl⟩
    · rw [h.rootFv] at hfv
      exact absurd hfv (by simp)
    · rw [h.fv x hx] at hfv
      exact ⟨x, hx, rfl, hfv⟩
  · rintro ⟨x, hx, rfl, hc⟩
    rwa [h.fv x hx]

/-- The search of `cli_bind_entry` in a directory that is not empty. -/
theorem Holds.search_last (h : Holds data log) {dir cmdRec first : RecordPtr n}
    (hdir : dir = 0 ∨ ∃ x ∈ log, x.record = dir) (hfresh : ∀ x ∈ log, x.record ≠ cmdRec)
    (hfirst : (data.record dir).link2subdir = some first) (name : List Byte) :
    ∃ last, ((entries log dir).map (·.record)).getLast? = some last ∧
      lastEntry data name cmdRec (n + 1) first =
        if name ∈ (entries log dir).dropLast.map (·.name) then .ok (.inl .duplicate)
        else .ok (.inr last) := by
  have hchain := h.children dir hdir
  rw [hfirst] at hchain
  obtain ⟨l, hl⟩ : ∃ l, (entries log dir).map (·.record) = first :: l := by
    cases hmap : (entries log dir).map (·.record) with
    | nil =>
      rw [hmap] at hchain
      cases hchain
    | cons p l =>
      rw [hmap] at hchain
      cases hchain
      exact ⟨l, rfl⟩
  have hlen := Chain.length_le hchain
  have hfind : (first :: l).dropLast.find? (fun q ↦ cmdRec = q ∨ (data.record q).name = name) =
      ((entries log dir).dropLast.find? fun x ↦ x.name = name).map (·.record) := by
    rw [← hl, ← List.map_dropLast, List.find?_map]
    congr 1
    refine List.find?_congr fun x hx ↦ ?_
    have hxlog := (mem_entries.mp (List.dropLast_subset _ hx)).1
    simp only [Function.comp_apply, h.name x hxlog, (hfresh x hxlog).symm, false_or]
  rw [hl] at hchain hlen ⊢
  refine ⟨(first :: l).getLast (List.cons_ne_nil first l), List.getLast?_eq_some_getLast _, ?_⟩
  rw [lastEntry_eq name hchain (Nat.lt_of_succ_le hlen), hfind]
  cases hx : (entries log dir).dropLast.find? fun x ↦ x.name = name with
  | none =>
    rw [if_neg]
    · rfl
    · intro hname
      obtain ⟨x, hmem, he⟩ := List.mem_map.mp hname
      exact absurd (List.find?_eq_none.mp hx x hmem) (by simpa using he)
  | some x =>
    have hmem := List.mem_of_find?_eq_some hx
    have hxlog := (mem_entries.mp (List.dropLast_subset _ hmem)).1
    have hxname : x.name = name := by simpa using List.find?_some hx
    rw [if_pos (List.mem_map.mpr ⟨x, hmem, hxname⟩), Option.map_some]
    simp only [if_neg (hfresh x hxlog).symm]

structure SameShell (data data' : CliInternalData n F) : Prop where
  serialDriverTid : data'.serialDriverTid = data.serialDriverTid
  serialUITid : data'.serialUITid = data.serialUITid
  currentDirectory : data'.currentDirectory = data.currentDirectory

theorem SameShell.trans {data data' data'' : CliInternalData n F} (h : SameShell data data')
    (h' : SameShell data' data'') : SameShell data data'' :=
  ⟨h'.serialDriverTid.trans h.serialDriverTid, h'.serialUITid.trans h.serialUITid,
    h'.currentDirectory.trans h.currentDirectory⟩

theorem newEntry_sameShell (data : CliInternalData n F) (name : List Byte) (fv : Option F)
    (dir cmdRec : RecordPtr n) (last : Option (RecordPtr n)) :
    SameShell data (newEntry data name fv dir cmdRec last) := by
  cases last <;> cases fv <;> exact ⟨rfl, rfl, rfl⟩

/-- An accepted name is cut to fit into its record. -/
theorem copyName_eq {name : List Byte} (h : name.length ≤ cliEntryLen) :
    copyName name = .ok (name.take (cliEntryLen - 1)) ∧
      (name.take (cliEntryLen - 1)).length < cliEntryLen := by
  refine ⟨if_pos (Nat.lt_succ_of_le h), ?_⟩
  rw [List.length_take]
  exact lt_of_le_of_lt (Nat.min_le_left _ _) (by decide)

theorem Holds.bindEntry (h : Holds data log) {name : List Byte}
    (hname : 0 ∉ name ∧ name.length ≤ cliEntryLen) (fv : Option F)
    {dir cmdRec : RecordPtr n} (hroot : cmdRec ≠ 0) (hfresh : ∀ x ∈ log, x.record ≠ cmdRec)
    (hdir : dir = 0 ∨ ∃ x ∈ log, x.record = dir ∧ x.command = none) :
    ∃ data', SameShell data data' ∧ if name ∈ (entries log dir).dropLast.map (·.name) then
      cliBindEntry data (some name) fv (some dir) (some cmdRec) = .ok (.duplicate, data') ∧
        Holds data' log
    else cliBindEntry data (some name) fv (some dir) (some cmdRec) = .ok (.ok, data') ∧
      Holds data' (log ++ [⟨cmdRec, dir, name.take (cliEntryLen - 1), fv⟩]) := by
  have hknown : dir = 0 ∨ ∃ x ∈ log, x.record = dir :=
    hdir.imp id fun ⟨x, hx, he, _⟩ ↦ ⟨x, hx, he⟩
  have hne : cmdRec ≠ dir := by
    rintro rfl
    rcases hknown with he | ⟨x, hx, he⟩
    · exact hroot he
    · exact hfresh x hx he
  obtain ⟨hcopy, hlen⟩ := copyName_eq hname.2
  have hadd := h.add ⟨fun h0 ↦ hname.1 (List.mem_of_mem_take h0), hlen⟩ fv hroot hfresh hdir
  have hchain := h.children dir hknown
  cases hfirst : (data.record dir).link2subdir with
  | none =>
    have hempty : entries log dir = [] := by
      rw [hfirst] at hchain
      exact List.map_eq_nil_iff.mp (List.head?_eq_none_iff.mp hchain.head_eq.symm)
    rw [hempty] at hadd ⊢
    refine ⟨newEntry data (name.take (cliEntryLen - 1)) fv dir cmdRec none,
      newEntry_sameShell .., ?_⟩
    rw [if_neg (by simp)]
    refine ⟨?_, hadd⟩
    simp only [cliBindEntry, Option.getD_some, if_neg hne, hfirst, hcopy]
    rfl
  | some first =>
    obtain ⟨last, hlast, hsearch⟩ := h.search_last hknown hfresh hfirst name
    rw [hlast] at hadd
    by_cases hmem : name ∈ (entries log dir).dropLast.map (·.name)
    · refine ⟨data, ⟨rfl, rfl, rfl⟩, ?_⟩
      rw [if_pos hmem] at hsearch ⊢
      refine ⟨?_, h⟩
      simp only [cliBindEntry, Option.getD_some, if_neg hne, hfirst, hsearch]
      rfl
    · refine ⟨newEntry data (name.take (cliEntryLen - 1)) fv dir cmdRec (some last),
        newEntry_sameShell .., ?_⟩
      rw [if_neg hmem] at hsearch ⊢
      refine ⟨?_, hadd⟩
      simp only [cliBindEntry, Option.getD_some, if_neg hne, hfirst, hsearch, hcopy]
      rfl

/-- A call does to the records what it does to the hierarchy. -/
theorem Holds.run (h : Holds data log) {c : BindCall n F} (hc : c.Proper log) :
    ∃ data', c.run data = .ok ((c.register log).1, data') ∧ Holds data' (c.register log).2 ∧
      SameShell data data' := by
  have hbind (hrun : c.run data = if (data.record c.dir).fv.isSome then .ok (.dirInvalid, data)
        else cliBindEntry data c.name c.fv (some c.dir) c.record)
      (hreg : c.register log = c.bind log) :
      ∃ data', c.run data = .ok ((c.register log).1, data') ∧ Holds data' (c.register log).2 ∧
        SameShell data data' := by
    rw [hrun, hreg, BindCall.bind]
    by_cases hcmd : ∃ x ∈ log, x.record = c.dir ∧ x.command.isSome = true
    · rw [if_pos ((h.isSome_fv hc.dir).mpr hcmd), if_pos hcmd]
      exact ⟨data, rfl, h, ⟨rfl, rfl, rfl⟩⟩
    · rw [if_neg (mt (h.isSome_fv hc.dir).mp hcmd), if_neg hcmd]
      have hdir : c.dir = 0 ∨ ∃ x ∈ log, x.record = c.dir ∧ x.command = none := by
        refine hc.dir.imp id fun ⟨x, hx, he⟩ ↦ ⟨x, hx, he, ?_⟩
        rw [← Option.not_isSome_iff_eq_none]
        exact fun hsome ↦ hcmd ⟨x, hx, he, hsome⟩
      cases hname : c.name with
      | none => exact ⟨data, rfl, h, ⟨rfl, rfl, rfl⟩⟩
      | some name =>
        cases hrecord : c.record with
        | none => exact ⟨data, rfl, h, ⟨rfl, rfl, rfl⟩⟩
        | some r =>
          obtain ⟨hroot, hfresh⟩ := hc.record r hrecord
          obtain ⟨data', hsame, hresult⟩ := h.bindEntry (hc.name name hname) c.fv hroot hfresh hdir
          by_cases hmem : name ∈ (entries log c.dir).dropLast.map (·.name)
          · rw [if_pos hmem] at hresult
            simp only [if_pos hmem]
            exact ⟨data', hresult.1, hresult.2, hsame⟩
          · rw [if_neg hmem] at hresult
            simp only [if_neg hmem]
            exact ⟨data', hresult.1, hresult.2, hsame⟩
  cases c with
  | mkcmd name fv dirRec cmdRec =>
    cases fv with
    | none => exact ⟨data, rfl, h, ⟨rfl, rfl, rfl⟩⟩
    | some fv => exact hbind rfl rfl
  | mkdir name dirRec subDir => exact hbind rfl rfl

end Register

end PrjOS
