import PrjOS.Cli.Commands
import PrjOS.Properties.CommandOutput

namespace PrjOS

open ByteMemory LinkedQueue Registry

variable {n : ℕ} {F : Type}

namespace BindCall

def runAll (data : CliInternalData n F) :
    List (BindCall n F) → Except CliFault (List RcCli × CliInternalData n F)
  | [] => .ok ([], data)
  | c :: cs => do
    let (rc, data) ← c.run data
    let (rcs, data) ← runAll data cs
    return (rc :: rcs, data)

def registerAll (log : CliLog n F) : List (BindCall n F) → List RcCli × CliLog n F
  | [] => ([], log)
  | c :: cs =>
    ((c.register log).1 :: (registerAll (c.register log).2 cs).1,
      (registerAll (c.register log).2 cs).2)

def ProperAll (log : CliLog n F) : List (BindCall n F) → Prop
  | [] => True
  | c :: cs => c.Proper log ∧ ProperAll (c.register log).2 cs

instance decidableProperAll : (log : CliLog n F) → (cs : List (BindCall n F)) →
    Decidable (ProperAll log cs)
  | _, [] => inferInstanceAs (Decidable True)
  | log, c :: cs =>
    haveI := decidableProperAll (c.register log).2 cs
    inferInstanceAs (Decidable (_ ∧ _))

/-- An accepted call that adds a name which the directory has: the name of its
last entry, or one of 34 characters which is cut to a name that is there. -/
def Slips (log : CliLog n F) (c : BindCall n F) : Prop :=
  (c.register log).1 = .ok ∧ ∃ name, c.name = some name ∧
    (((entries log c.dir).map (·.name)).getLast? = some name ∨
      name.length = cliEntryLen ∧
        name.take (cliEntryLen - 1) ∈ (entries log c.dir).map (·.name))

def SomeSlips (log : CliLog n F) : List (BindCall n F) → Prop
  | [] => False
  | c :: cs => c.Slips log ∨ SomeSlips (c.register log).2 cs

end BindCall

section Registrations

variable {data : CliInternalData n F} {log : CliLog n F}

theorem Holds.runAll (h : Holds data log) {cs : List (BindCall n F)}
    (hcs : BindCall.ProperAll log cs) :
    ∃ data', BindCall.runAll data cs = .ok ((BindCall.registerAll log cs).1, data') ∧
      Holds data' (BindCall.registerAll log cs).2 ∧ SameShell data data' := by
  induction cs generalizing data log with
  | nil => exact ⟨data, rfl, h, ⟨rfl, rfl, rfl⟩⟩
  | cons c cs ih =>
    obtain ⟨hc, hcs⟩ := hcs
    obtain ⟨data₁, hrun, h₁, hsame₁⟩ := h.run hc
    obtain ⟨data₂, hrun₂, h₂, hsame₂⟩ := ih h₁ hcs
    refine ⟨data₂, ?_, h₂, hsame₁.trans hsame₂⟩
    simp only [BindCall.runAll, hrun, bind, Except.bind, hrun₂]
    rfl

/-- A call adds an entry or changes nothing. -/
theorem BindCall.register_cases (log : CliLog n F) (c : BindCall n F) :
    ((c.register log).1 ≠ .ok ∧ (c.register log).2 = log) ∨
      ∃ name r, c.name = some name ∧ c.record = some r ∧
        name ∉ (entries log c.dir).dropLast.map (·.name) ∧ (c.register log).1 = .ok ∧
        (c.register log).2 = log ++ [⟨r, c.dir, name.take (cliEntryLen - 1), c.fv⟩] := by
  have hbind : ((c.bind log).1 ≠ .ok ∧ (c.bind log).2 = log) ∨
      ∃ name r, c.name = some name ∧ c.record = some r ∧
        name ∉ (entries log c.dir).dropLast.map (·.name) ∧ (c.bind log).1 = .ok ∧
        (c.bind log).2 = log ++ [⟨r, c.dir, name.take (cliEntryLen - 1), c.fv⟩] := by
    rw [BindCall.bind]
    by_cases hdir : ∃ x ∈ log, x.record = c.dir ∧ x.command.isSome = true
    · rw [if_pos hdir]
      exact .inl ⟨by simp, rfl⟩
    · rw [if_neg hdir]
      cases hname : c.name with
      | none => exact .inl ⟨by simp, rfl⟩
      | some name =>
        cases hrecord : c.record with
        | none => exact .inl ⟨by simp, rfl⟩
        | some r =>
          by_cases hmem : name ∈ (entries log c.dir).dropLast.map (·.name)
          · refine .inl ?_
            simp only [if_pos hmem, ne_eq, reduceCtorEq, not_false_eq_true, and_self]
          · refine .inr ⟨name, r, rfl, rfl, hmem, ?_⟩
            simp only [if_neg hmem, and_self]
  cases c with
  | mkcmd name fv dirRec cmdRec =>
    cases fv with
    | none => exact .inl ⟨by simp [BindCall.register], rfl⟩
    | some fv => exact hbind
  | mkdir name dirRec subDir => exact hbind

theorem Holds.distinctNames_register (h : Holds data log) {c : BindCall n F} (hc : c.Proper log) :
    DistinctNames (c.register log).2 ↔ DistinctNames log ∧ ¬ c.Slips log := by
  rcases c.register_cases log with ⟨hrc, hlog⟩ | ⟨name, r, hname, hrecord, hmem, hrc, hlog⟩
  · rw [hlog]
    exact ⟨fun hd ↦ ⟨hd, fun hslips ↦ hrc hslips.1⟩, And.left⟩
  · rw [hlog, distinctNames_snoc]
    refine and_congr_right fun _ ↦ not_congr ?_
    have hlen := (hc.name name hname).2
    constructor
    · intro hstored
      refine ⟨hrc, name, hname, ?_⟩
      by_cases hfull : name.length = cliEntryLen
      · exact .inr ⟨hfull, hstored⟩
      · have htake : name.take (cliEntryLen - 1) = name :=
          List.take_of_length_le (by unfold cliEntryLen at *; omega)
        rw [htake] at hstored
        have hne : (entries log c.dir).map (·.name) ≠ [] := List.ne_nil_of_mem hstored
        rw [← List.dropLast_append_getLast hne, List.mem_append, List.mem_singleton,
          ← List.map_dropLast] at hstored
        rw [List.getLast?_eq_some_getLast hne]
        exact .inl (congrArg some (hstored.resolve_left hmem).symm)
    · rintro ⟨-, name', hname', hslip⟩
      obtain rfl : name = name' := Option.some.inj (hname.symm.trans hname')
      rcases hslip with hlast | ⟨-, hcut⟩
      · have hin := List.mem_of_getLast? hlast
        obtain ⟨x, hx, rfl⟩ := List.mem_map.mp hin
        have hshort := (h.text x (mem_entries.mp hx).1).2
        rwa [List.take_of_length_le (by omega)]
      · exact hcut

theorem Holds.distinctNames_registerAll (h : Holds data log) {cs : List (BindCall n F)}
    (hcs : BindCall.ProperAll log cs) :
    DistinctNames (BindCall.registerAll log cs).2 ↔
      DistinctNames log ∧ ¬ BindCall.SomeSlips log cs := by
  induction cs generalizing data log with
  | nil => exact ⟨fun hd ↦ ⟨hd, id⟩, And.left⟩
  | cons c cs ih =>
    obtain ⟨data₁, -, h₁, -⟩ := h.run hcs.1
    have hrest := ih h₁ hcs.2
    rw [h.distinctNames_register hcs.1] at hrest
    refine hrest.trans ⟨?_, ?_⟩
    · rintro ⟨⟨hd, hc⟩, hrest⟩
      exact ⟨hd, fun hslips ↦ hslips.elim hc hrest⟩
    · rintro ⟨hd, hslips⟩
      exact ⟨⟨hd, fun hc ↦ hslips (.inl hc)⟩, fun hrest ↦ hslips (.inr hrest)⟩

end Registrations

section Commands

def commandCalls : List (BindCall 3 CommandFunction) :=
  [.mkcmd (some (ascii "task")) (some .cmdTaskInfo) none (some cmdtaskInfo),
    .mkcmd (some (ascii "tasks")) (some .cmdTasksInfo) none (some cmdtasksInfo),
    .mkcmd (some (ascii "time")) (some .cmdTime) none (some cmdtimeInfo)]

def CliInternalData.unset : CliInternalData 3 CommandFunction where
  serialDriverTid := 0
  serialUITid := 0
  record := fun _ ↦ ⟨none, [], none, none, none, none⟩
  currentDirectory := none
  list := none

def commandLog : CliLog 3 CommandFunction :=
  [⟨cmdtaskInfo, cliRootElement, ascii "task", some .cmdTaskInfo⟩,
    ⟨cmdtasksInfo, cliRootElement, ascii "tasks", some .cmdTasksInfo⟩,
    ⟨cmdtimeInfo, cliRootElement, ascii "time", some .cmdTime⟩]

theorem commandCalls_proper : BindCall.ProperAll [] commandCalls := by decide

theorem emptyPrefix_short : ([] : List Byte).length < cliEntryLen := by decide

theorem registerAll_commandCalls :
    BindCall.registerAll [] commandCalls = ([.ok, .ok, .ok], commandLog) := by decide

theorem registerCommands_eq (data : CliInternalData 3 CommandFunction) :
    registerCommands data = (BindCall.runAll data commandCalls).map Prod.snd := by
  simp only [registerCommands, commandCalls, BindCall.runAll, BindCall.run, bind, Except.bind, pure,
    Except.pure, Except.map]
  cases cliMkcmd data (some (ascii "task")) (some .cmdTaskInfo) none (some cmdtaskInfo) with
  | error fault => rfl
  | ok r₁ =>
    simp only
    cases cliMkcmd r₁.2 (some (ascii "tasks")) (some .cmdTasksInfo) none (some cmdtasksInfo) with
    | error fault => rfl
    | ok r₂ =>
      simp only
      cases cliMkcmd r₂.2 (some (ascii "time")) (some .cmdTime) none (some cmdtimeInfo) <;> rfl

end Commands

section Reuse

variable {data data' : CliInternalData n F} {log : CliLog n F} {name : List Byte} {fv : Option F}
  {dir cmdRec : RecordPtr n}

theorem newEntry_cmdList (last : Option (RecordPtr n)) (q : RecordPtr n) :
    ((newEntry data name fv dir cmdRec last).record q).cmdList =
      if q = cmdRec ∧ fv.isSome then data.list else (data.record q).cmdList := by
  cases last <;> cases fv <;>
    simp only [newEntry, CliInternalData.modify, Function.update_apply, Option.isSome_none,
      Option.isSome_some, Bool.false_eq_true, and_false, and_true, if_false, if_true] <;>
    split_ifs <;> simp_all

theorem lastEntry_ne_ok {name : List Byte} {fuel : ℕ} {p : RecordPtr n} {rc : RcCli}
    (h : lastEntry data name cmdRec fuel p = .ok (.inl rc)) : rc ≠ .ok := by
  induction fuel generalizing p with
  | zero => simp [lastEntry] at h
  | succ fuel ih =>
    rw [lastEntry] at h
    cases hnext : (data.record p).nextEntry with
    | none => simp [hnext] at h
    | some next =>
      simp only [hnext] at h
      split_ifs at h
      · rw [← Sum.inl.inj (Except.ok.inj h)]
        simp
      · rw [← Sum.inl.inj (Except.ok.inj h)]
        simp
      · exact ih h

/-- An accepted call comes to the new entry. -/
theorem cliBindEntry_ok {name : List Byte} {dirRec : Option (RecordPtr n)}
    (h : cliBindEntry data (some name) fv dirRec (some cmdRec) = .ok (.ok, data')) :
    ∃ stored last, data' = newEntry data stored fv (dirRec.getD 0) cmdRec last := by
  simp only [cliBindEntry] at h
  split_ifs at h
  · simp at h
  cases hfirst : (data.record (dirRec.getD 0)).link2subdir with
  | none =>
    cases hcopy : copyName name with
    | error fault => simp [hfirst, hcopy, bind, Except.bind] at h
    | ok stored =>
      simp only [hfirst, hcopy, bind, Except.bind, Except.ok.injEq, Prod.mk.injEq, true_and] at h
      exact ⟨stored, none, h.symm⟩
  | some first =>
    cases hsearch : lastEntry data name cmdRec (n + 1) first with
    | error fault => simp [hfirst, hsearch, bind, Except.bind] at h
    | ok result =>
      cases result with
      | inl rc =>
        simp only [hfirst, hsearch, bind, Except.bind, Except.ok.injEq, Prod.mk.injEq] at h
        exact absurd h.1 (lastEntry_ne_ok hsearch)
      | inr last =>
        cases hcopy : copyName name with
        | error fault => simp [hfirst, hsearch, hcopy, bind, Except.bind] at h
        | ok stored =>
          simp only [hfirst, hsearch, hcopy, bind, Except.bind, Except.ok.injEq, Prod.mk.injEq,
            true_and] at h
          exact ⟨stored, some last, h.symm⟩

theorem chain_newEntry {l : List (RecordPtr n)}
    (hl : Chain (fun p ↦ (data.record p).cmdList) data.list l) (hfv : fv.isSome = true)
    (hmem : cmdRec ∉ l) (last : Option (RecordPtr n)) :
    Chain (fun p ↦ ((newEntry data name fv dir cmdRec last).record p).cmdList)
      (newEntry data name fv dir cmdRec last).list (cmdRec :: l) := by
  rw [newEntry_list, if_pos hfv]
  refine .cons ?_
  rw [newEntry_cmdList, if_pos ⟨rfl, hfv⟩]
  refine hl.congr fun q hq ↦ ?_
  have hne : q ≠ cmdRec := fun he ↦ hmem (he ▸ hq)
  rw [newEntry_cmdList, if_neg fun h ↦ hne h.1]

/-- A record that was on the command list makes it a loop. -/
theorem not_chain_newEntry {l : List (RecordPtr n)}
    (hl : Chain (fun p ↦ (data.record p).cmdList) data.list l) (hfv : fv.isSome = true)
    (hmem : cmdRec ∈ l) (last : Option (RecordPtr n)) (ps : List (RecordPtr n)) :
    ¬ Chain (fun p ↦ ((newEntry data name fv dir cmdRec last).record p).cmdList)
      (newEntry data name fv dir cmdRec last).list ps := by
  rw [newEntry_list, if_pos hfv]
  intro hps
  cases hps with
  | @cons _ ps hps =>
    have hnodup := (Chain.cons hps).nodup
    rw [newEntry_cmdList, if_pos ⟨rfl, hfv⟩] at hps
    obtain ⟨pre, post, rfl⟩ := List.append_of_mem hmem
    refine (List.nodup_cons.mp hnodup).1 (hl.mem_of_agree hps fun q hq ↦ ?_)
    have hne : q ≠ cmdRec := by
      rintro rfl
      exact (List.nodup_append.mp hl.nodup).2.2 q hq q List.mem_cons_self rfl
    rw [newEntry_cmdList, if_neg fun h ↦ hne h.1]

theorem Holds.reuse_spins_iff (h : Holds data log) {name : List Byte} {fv : F}
    {dirRec : Option (RecordPtr n)}
    (hrun : cliMkcmd data (some name) (some fv) dirRec (some cmdRec) = .ok (.ok, data')) :
    globalCommandList data' = .error .spins ↔
      ∃ x ∈ log, x.record = cmdRec ∧ x.command.isSome = true := by
  rw [cliMkcmd, if_neg (by simp)] at hrun
  split_ifs at hrun
  · simp at hrun
  obtain ⟨stored, last, rfl⟩ := cliBindEntry_ok hrun
  rw [globalCommandList_spins_iff]
  constructor
  · intro hspins
    by_contra hnew
    have hmem : cmdRec ∉ (Registry.commands log).map (·.record) := by
      intro hmem
      obtain ⟨x, hx, he⟩ := List.mem_map.mp hmem
      exact hnew ⟨x, (mem_commands.mp hx).1, he, (mem_commands.mp hx).2⟩
    exact hspins _ (chain_newEntry h.commands rfl hmem last)
  · rintro ⟨x, hx, rfl, hcommand⟩
    have hmem : x.record ∈ (Registry.commands log).map (·.record) :=
      List.mem_map_of_mem (mem_commands.mpr ⟨hx, hcommand⟩)
    exact not_chain_newEntry h.commands rfl hmem last

end Reuse

section Init

variable {prefixName : List Byte} {cs : List (BindCall n F)}

theorem baseCliInit_holds (driver ui : Word) (hroot : prefixName.length < cliEntryLen)
    (data : CliInternalData n F) :
    ∃ data', baseCliInit driver ui prefixName data = .ok (.ok, data') ∧ Holds data' [] ∧
      data'.currentDirectory = some 0 ∧ data'.serialDriverTid = driver ∧
        data'.serialUITid = ui := by
  have hcopy := (copyName_eq hroot.le).1
  refine ⟨{ data.modify 0 fun r ↦ { r with
        name := prefixName.take (cliEntryLen - 1)
        fv := none
        parentDir := some 0
        nextEntry := none
        link2subdir := none } with
      serialDriverTid := driver
      serialUITid := ui
      list := none
      currentDirectory := some 0 }, ?_, ?_, rfl, rfl, rfl⟩
  · rw [baseCliInit, hcopy]
    rfl
  · refine ⟨.nil, ?_, ?_, by simp, by simp, by simp, ?_, .nil, by simp⟩
    · simp
    · simp
    · rintro d (rfl | ⟨x, hx, -⟩)
      · simpa [entries] using Chain.nil
      · simp at hx

/-- Registrations after `cli_init` build the hierarchy of what was accepted, in
which everything is reached from the root. -/
theorem registrations_build_hierarchy (driver ui : Word) (hroot : prefixName.length < cliEntryLen)
    (data : CliInternalData n F) (hcs : BindCall.ProperAll [] cs) :
    ∃ data₀ data', baseCliInit driver ui prefixName data = .ok (.ok, data₀) ∧
      BindCall.runAll data₀ cs = .ok ((BindCall.registerAll [] cs).1, data') ∧
      Holds data' (BindCall.registerAll [] cs).2 ∧
      ∀ x ∈ (BindCall.registerAll [] cs).2,
        ∃ path, Place (BindCall.registerAll [] cs).2 0 path ∧ x.directory = path.headD 0 := by
  obtain ⟨data₀, hinit, h₀, -⟩ := baseCliInit_holds driver ui hroot data
  obtain ⟨data', hrun, h', -⟩ := h₀.runAll hcs
  exact ⟨data₀, data', hinit, hrun, h', fun x hx ↦ h'.wellFormed.place hx⟩

theorem registrations_build_hierarchy_commands :
    ∃ data₀ data', baseCliInit 0 1 [] CliInternalData.unset = .ok (.ok, data₀) ∧
      BindCall.runAll data₀ commandCalls = .ok ([.ok, .ok, .ok], data') ∧
      Holds data' commandLog ∧
      ∀ x ∈ commandLog, ∃ path, Place commandLog 0 path ∧ x.directory = path.headD 0 := by
  have h := registrations_build_hierarchy 0 1 emptyPrefix_short CliInternalData.unset
    commandCalls_proper
  rwa [registerAll_commandCalls] at h

/-- After any registrations, the command list is a loop as soon as a command's
record is accepted once more. -/
theorem reused_command_spins_iff {driver ui : Word} {data data' : CliInternalData n F}
    (hroot : prefixName.length < cliEntryLen) (hcs : BindCall.ProperAll [] cs) {name : List Byte}
    {fv : F} {dirRec : Option (RecordPtr n)} {cmdRec : RecordPtr n}
    (hrun : (do
      let initialised ← baseCliInit driver ui prefixName data
      let registered ← BindCall.runAll initialised.2 cs
      cliMkcmd registered.2 (some name) (some fv) dirRec (some cmdRec)) = .ok (.ok, data')) :
    globalCommandList data' = .error .spins ↔
      ∃ x ∈ (BindCall.registerAll [] cs).2, x.record = cmdRec ∧ x.command.isSome = true := by
  obtain ⟨data₀, hinit, h₀, -⟩ := baseCliInit_holds driver ui hroot data
  obtain ⟨data₁, hregister, h₁, -⟩ := h₀.runAll hcs
  rw [hinit] at hrun
  simp only [bind, Except.bind, hregister] at hrun
  exact h₁.reuse_spins_iff hrun

theorem reused_command_spins_time : ∃ data', (do
      let initialised ← baseCliInit 0 1 [] CliInternalData.unset
      let registered ← BindCall.runAll initialised.2 commandCalls
      cliMkcmd registered.2 (some (ascii "time")) (some .cmdTime) none (some cmdtimeInfo)) =
        .ok (.ok, data') ∧
    globalCommandList data' = .error .spins := by
  have hreused : ∃ x ∈ (BindCall.registerAll [] commandCalls).2,
      x.record = 3 ∧ x.command.isSome = true := by decide
  obtain ⟨data', hrun⟩ : ∃ data', (do
      let initialised ← baseCliInit 0 1 [] CliInternalData.unset
      let registered ← BindCall.runAll initialised.2 commandCalls
      cliMkcmd registered.2 (some (ascii "time")) (some .cmdTime) none (some cmdtimeInfo)) =
        .ok (.ok, data') := ⟨_, rfl⟩
  exact ⟨data', hrun,
    (reused_command_spins_iff emptyPrefix_short commandCalls_proper hrun).mpr hreused⟩

def EntriesAre (data : CliInternalData n F) (dir : RecordPtr n) (ps : List (RecordPtr n)) : Prop :=
  listFrom (fun p ↦ (data.record p).nextEntry) (n + 1) (data.record dir).link2subdir = .ok ps

theorem Holds.entries_names {data : CliInternalData n F} {log : CliLog n F} (h : Holds data log)
    {d : RecordPtr n} (hd : d = 0 ∨ ∃ x ∈ log, x.record = d) {ps : List (RecordPtr n)}
    (hps : EntriesAre data d ps) :
    ps.map (fun p ↦ (data.record p).name) = (entries log d).map (·.name) := by
  rw [(listFrom_eq_ok.mp hps).unique (h.children d hd), List.map_map]
  exact List.map_congr_left fun x hx ↦ h.name x (mem_entries.mp hx).1

def twiceCalls : List (BindCall 3 CommandFunction) :=
  [.mkcmd (some (ascii "time")) (some .cmdTime) none (some cmdtaskInfo),
    .mkcmd (some (ascii "time")) (some .cmdTime) none (some cmdtimeInfo)]

/-- No directory has a name twice exactly when no accepted call has slipped. -/
theorem directory_names_distinct_iff (driver ui : Word)
    (hroot : prefixName.length < cliEntryLen) (data : CliInternalData n F)
    (hcs : BindCall.ProperAll [] cs) :
    ∃ data₀ data', baseCliInit driver ui prefixName data = .ok (.ok, data₀) ∧
      BindCall.runAll data₀ cs = .ok ((BindCall.registerAll [] cs).1, data') ∧
      ((∀ dir, (dir = 0 ∨ ∃ x ∈ (BindCall.registerAll [] cs).2, x.record = dir) →
        ∃ ps, EntriesAre data' dir ps ∧ (ps.map fun p ↦ (data'.record p).name).Nodup) ↔
          ¬ BindCall.SomeSlips [] cs) := by
  obtain ⟨data₀, hinit, h₀, -⟩ := baseCliInit_holds driver ui hroot data
  obtain ⟨data', hrun, h', -⟩ := h₀.runAll hcs
  refine ⟨data₀, data', hinit, hrun, ?_⟩
  have hdistinct : DistinctNames (BindCall.registerAll [] cs).2 ↔ ¬ BindCall.SomeSlips [] cs :=
    (h₀.distinctNames_registerAll hcs).trans
      ⟨And.right, fun h ↦ ⟨fun _ ↦ List.nodup_nil, h⟩⟩
  rw [← hdistinct]
  constructor
  · intro h d
    by_cases hd : d = 0 ∨ ∃ x ∈ (BindCall.registerAll [] cs).2, x.record = d
    · obtain ⟨ps, hps, hnodup⟩ := h d hd
      rwa [← h'.entries_names hd hps]
    · have hempty : entries (BindCall.registerAll [] cs).2 d = [] := by
        rw [List.eq_nil_iff_forall_not_mem]
        intro x hx
        obtain ⟨hxlog, rfl⟩ := mem_entries.mp hx
        refine hd ((h'.wellFormed.directory hxlog).imp id ?_)
        exact fun ⟨y, hy, he, _⟩ ↦ ⟨y, hy, he⟩
      rw [hempty]
      exact List.nodup_nil
  · intro h d hd
    refine ⟨_, listFrom_eq_ok.mpr (h'.children d hd), ?_⟩
    rw [h'.entries_names hd (listFrom_eq_ok.mpr (h'.children d hd))]
    exact h d

/-- The last entry is not compared. -/
theorem directory_names_distinct_twice :
    ∃ data₀ data', baseCliInit 0 1 [] CliInternalData.unset = .ok (.ok, data₀) ∧
      BindCall.runAll data₀ twiceCalls = .ok ([.ok, .ok], data') ∧
      ((∀ dir, (dir = 0 ∨ ∃ x ∈ (BindCall.registerAll [] twiceCalls).2, x.record = dir) →
        ∃ ps, EntriesAre data' dir ps ∧ (ps.map fun p ↦ (data'.record p).name).Nodup) ↔
          ¬ BindCall.SomeSlips [] twiceCalls) :=
  directory_names_distinct_iff 0 1 emptyPrefix_short CliInternalData.unset (by decide)

end Init

end PrjOS
