import PrjOS.Cli.SerialUI
import PrjOS.Library.Tokens
import PrjOS.Properties.CommandRegistration

namespace PrjOS

open ByteMemory LinkedQueue Registry

variable {n : ℕ} {F : Type}

/-- The arguments of a line: its first word, and up to nine words behind it. -/
def argvOf (line : List Byte) : List (List Byte) :=
  let rest := line.dropWhile (ascii ", \t\n\r").contains
  if rest = [] then []
  else
    rest.takeWhile (fun b ↦ !(ascii ", \t\n\r").contains b) ::
      (words (ascii " \t\n").contains
        (rest.dropWhile (fun b ↦ !(ascii ", \t\n\r").contains b)).tail).take (argcMax - 1)

/-- What the user sees: the hierarchy, and the directories from the one the user
is in up to the root, which is left out. -/
structure Shell (n : ℕ) (F : Type) where
  log : CliLog n F
  path : List (RecordPtr n)

structure ShellOutput (F : Type) where
  text : List Byte
  call : Option (F × List (List Byte))

namespace Shell

def entries (sh : Shell n F) : CliLog n F := Registry.entries sh.log (sh.path.headD cliRootElement)

def find (sh : Shell n F) (name : List Byte) : Option (Registration (RecordPtr n) (List Byte) F) :=
  if name.head? = some 33 then (commands sh.log).find? (·.name = name.tail)
  else sh.entries.find? (·.name = name)

def directoryListing (sh : Shell n F) : List Byte :=
  listing (((sh.entries.filter (·.command.isNone)).map fun x ↦ [91] ++ x.name ++ [93]) ++
    (sh.entries.filter (·.command.isSome)).map (·.name))

def commandListing (sh : Shell n F) : List Byte := listing ((commands sh.log).map (·.name))

def unknown (name : List Byte) : List Byte :=
  ascii "\n*Unknown entry \"" ++ name ++ ascii "\"\r\n"

def builtIn (sh : Shell n F) (name : List Byte) : Shell n F × List Byte :=
  if name = ascii ".." then ({ sh with path := sh.path.tail }, [])
  else if name = ascii "~" then ({ sh with path := [] }, [])
  else if name = ascii "ld" then (sh, sh.directoryListing)
  else if name = ascii "ls" then (sh, sh.commandListing)
  else if name = ascii "h" ∨ name = ascii "help" ∨ name = ascii "?" then
    (sh, helpTexts.flatMap ascii)
  else (sh, unknown name)

def notFound (sh : Shell n F) (name : List Byte) : Shell n F × List Byte :=
  if name.head? = some 33 then (sh, unknown name.tail) else sh.builtIn name

def engine (sh : Shell n F) (line : List Byte) : Shell n F × ShellOutput F :=
  match argvOf line with
  | [] => (sh, ⟨[], none⟩)
  | name :: parameters =>
    match sh.find name with
    | none => ((sh.notFound name).1, ⟨(sh.notFound name).2, none⟩)
    | some x =>
      match x.command with
      | some fv => (sh, ⟨[], some (fv, name :: parameters)⟩)
      | none => ({ sh with path := x.record :: sh.path }, ⟨[], none⟩)

end Shell

structure ShellOf (data : CliInternalData n F) (sh : Shell n F) : Prop where
  holds : Holds data sh.log
  place : Place sh.log 0 sh.path
  currentDirectory : data.currentDirectory = some (sh.path.headD 0)
  named : ∀ x ∈ sh.log, x.name ≠ []

namespace ShellOf

variable {data : CliInternalData n F} {sh : Shell n F}

theorem searchEntries (h : ShellOf data sh) (name : List Byte) :
    searchFrom data (fun p ↦ (data.record p).nextEntry) name (n + 1)
      (data.record (sh.path.headD 0)).link2subdir =
      .ok ((sh.entries.find? (·.name = name)).map (·.record)) := by
  rw [searchFrom_eq name (h.holds.children _ h.place.known)]
  exact congrArg Except.ok (h.holds.find_name sh.entries (fun x hx ↦ (mem_entries.mp hx).1) name)

theorem searchCommands (h : ShellOf data sh) (name : List Byte) :
    searchFrom data (fun p ↦ (data.record p).cmdList) name (n + 1) data.list =
      .ok (((commands sh.log).find? (·.name = name)).map (·.record)) := by
  rw [searchFrom_eq name h.holds.commands]
  exact congrArg Except.ok (h.holds.find_name _ (fun x hx ↦ (mem_commands.mp hx).1) name)

theorem text (h : ShellOf data sh) {l : CliLog n F} (hl : ∀ x ∈ l, x ∈ sh.log) :
    ∀ p ∈ l.map (·.record), EntryName (data.record p).name := by
  intro p hp
  obtain ⟨x, hx, rfl⟩ := List.mem_map.mp hp
  obtain ⟨hzero, hshort⟩ := h.holds.text x (hl x hx)
  rw [h.holds.name x (hl x hx)]
  exact ⟨h.named x (hl x hx), hzero, hshort⟩

theorem names (h : ShellOf data sh) {l : CliLog n F} (hl : ∀ x ∈ l, x ∈ sh.log)
    (f : List Byte → List Byte) :
    ((l.map (·.record)).map fun p ↦ f (data.record p).name) = l.map fun x ↦ f x.name := by
  rw [List.map_map]
  exact List.map_congr_left fun x hx ↦ congrArg f (h.holds.name x (hl x hx))

theorem filter_fv (h : ShellOf data sh) {l : CliLog n F} (hl : ∀ x ∈ l, x ∈ sh.log)
    (f : Option F → Bool) :
    (l.map (·.record)).filter (fun p ↦ f (data.record p).fv) =
      (l.filter fun x ↦ f x.command).map (·.record) := by
  rw [List.filter_map]
  exact congrArg _ (List.filter_congr fun x hx ↦ congrArg f (h.holds.fv x (hl x hx)))

theorem entries_subset : ∀ x ∈ sh.entries, x ∈ sh.log := fun _ hx ↦ (mem_entries.mp hx).1

theorem commands_subset : ∀ x ∈ commands sh.log, x ∈ sh.log := fun _ hx ↦ (mem_commands.mp hx).1

theorem directory_sends (h : ShellOf data sh) : ∃ effects, listDirectory data = .ok effects ∧
    SendsText data.serialDriverTid effects sh.directoryListing := by
  obtain ⟨effects, heffects, hsends⟩ := listDirectory_sends h.currentDirectory
    (h.holds.children _ h.place.known) (h.text entries_subset)
  have hdirs : ∀ x ∈ sh.entries.filter (·.command.isNone), x ∈ sh.log := fun x hx ↦
    entries_subset x (List.mem_of_mem_filter hx)
  have hcmds : ∀ x ∈ sh.entries.filter (·.command.isSome), x ∈ sh.log := fun x hx ↦
    entries_subset x (List.mem_of_mem_filter hx)
  have hdirsNames := h.names hdirs fun name ↦ [91] ++ name ++ [93]
  have hcmdsNames := h.names hcmds id
  rw [← h.filter_fv entries_subset Option.isNone] at hdirsNames
  rw [← h.filter_fv entries_subset Option.isSome] at hcmdsNames
  refine ⟨effects, heffects, ?_⟩
  rw [Shell.directoryListing, ← hdirsNames]
  exact hcmdsNames ▸ hsends

theorem commands_sends (h : ShellOf data sh) : ∃ effects, globalCommandList data = .ok effects ∧
    SendsText data.serialDriverTid effects sh.commandListing := by
  obtain ⟨effects, heffects, hsends⟩ :=
    globalCommandList_sends h.holds.commands (h.text commands_subset)
  have hnames : ((commands sh.log).map (·.record)).map (fun p ↦ (data.record p).name) =
      (commands sh.log).map (·.name) := h.names commands_subset id
  rw [hnames] at hsends
  exact ⟨effects, heffects, hsends⟩

theorem parent (h : ShellOf data sh) :
    (data.record (sh.path.headD 0)).parentDir = some (sh.path.tail.headD 0) := by
  rcases h.place.parent with ⟨hroot, htail⟩ | ⟨x, hx, hrecord, hdir⟩
  · rw [hroot, htail]
    exact h.holds.rootParent
  · rw [← hrecord, h.holds.parentDir x hx, hdir]

end ShellOf

section Engine

variable {data data' : CliInternalData n F} {sh sh' : Shell n F} {name text : List Byte}
  {effects : List (CliEffect F)}

theorem unknownEntry_sends (data : CliInternalData n F) (hzero : 0 ∉ name)
    (hlen : name.length < maxLineLength) :
    ∃ effects, unknownEntry data name = .ok effects ∧
      SendsText data.serialDriverTid effects (Shell.unknown name) := by
  have hformat : ascii "\n*Unknown entry \"%s\"\r\n" =
      ascii "\n*Unknown entry \"" ++ 37 :: 115 :: ascii "\"\r\n" := by decide
  refine cliprintf_string data hformat (by decide) (by decide) (by simp [ascii]) hzero ?_
  have hpre : (ascii "\n*Unknown entry \"").length = 17 := by decide
  have hpost : (ascii "\"\r\n").length = 3 := by decide
  rw [hpre, hpost]
  unfold maxLineLength at hlen
  unfold cliprintfLen
  omega

theorem Holds.currentDirectory {log : CliLog n F} (h : Holds data log)
    (dir : Option (RecordPtr n)) : Holds { data with currentDirectory := dir } log :=
  ⟨h.wellFormed, h.rootFv, h.rootParent, h.name, h.fv, h.parentDir, h.children, h.commands, h.text⟩

def NothingFound (data : CliInternalData n F) (r : Except CliFault (CliFound n F))
    (result : Shell n F × List Byte) : Prop :=
  ∃ data' effects, r = .ok ⟨data', none, effects⟩ ∧ ShellOf data' result.1 ∧
    data'.serialDriverTid = data.serialDriverTid ∧ data'.serialUITid = data.serialUITid ∧
    SendsText data.serialDriverTid effects result.2

theorem ShellOf.answers (h : ShellOf data sh)
    {r : Except CliFault (List (CliEffect F))} (hr : ∃ effects, r = .ok effects ∧
      SendsText data.serialDriverTid effects text) :
    NothingFound data (do return ⟨data, none, ← r⟩) (sh, text) := by
  obtain ⟨effects, rfl, hsends⟩ := hr
  exact ⟨data, effects, rfl, h, rfl, rfl, hsends⟩

theorem ShellOf.builtIn (h : ShellOf data sh) (hzero : 0 ∉ name)
    (hlen : name.length < maxLineLength) :
    NothingFound data (PrjOS.builtIn data name) (sh.builtIn name) := by
  simp only [PrjOS.builtIn, Shell.builtIn, strExact_iff]
  split_ifs
  · rw [h.currentDirectory]
    exact ⟨_, [], rfl, ⟨h.holds.currentDirectory _, h.place.tail, h.parent, h.named⟩, rfl, rfl,
      .nil⟩
  · exact ⟨_, [], rfl, ⟨h.holds.currentDirectory _, .root, rfl, h.named⟩, rfl, rfl, .nil⟩
  · exact h.answers h.directory_sends
  · exact h.answers h.commands_sends
  · exact h.answers (cliHelp_sends data)
  · exact h.answers (unknownEntry_sends data hzero hlen)

theorem ShellOf.findCmd (h : ShellOf data sh) (hzero : 0 ∉ name)
    (hlen : sh.find name = none → name.length < maxLineLength) :
    match sh.find name with
    | some x => cliFindCmd data name = .ok ⟨data, some x.record, []⟩
    | none => NothingFound data (cliFindCmd data name) (sh.notFound name) := by
  unfold Shell.find at hlen ⊢
  unfold cliFindCmd Shell.notFound
  by_cases hbang : name.head? = some 33
  · simp only [if_pos hbang, h.searchCommands, bind, Except.bind] at hlen ⊢
    cases hfind : (commands sh.log).find? (·.name = name.tail) with
    | some x => rfl
    | none =>
      have hshort := hlen hfind
      refine h.answers (unknownEntry_sends data (fun h0 ↦ hzero (List.mem_of_mem_tail h0)) ?_)
      rw [List.length_tail]
      omega
  · simp only [if_neg hbang, h.currentDirectory, h.searchEntries, bind, Except.bind] at hlen ⊢
    cases hfind : sh.entries.find? (·.name = name) with
    | some x => rfl
    | none => exact h.builtIn hzero (hlen hfind)

/-- Only commands are found outside of the directory. -/
theorem Shell.find_mem (sh : Shell n F) {x : Registration (RecordPtr n) (List Byte) F}
    (hx : sh.find name = some x) : x ∈ sh.log ∧ (x.command = none → x ∈ sh.entries) := by
  unfold Shell.find at hx
  split_ifs at hx
  · have hmem := mem_commands.mp (List.mem_of_find?_eq_some hx)
    refine ⟨hmem.1, fun hnone ↦ ?_⟩
    rw [hnone] at hmem
    exact absurd hmem.2 (by simp)
  · have hmem := List.mem_of_find?_eq_some hx
    exact ⟨(mem_entries.mp hmem).1, fun _ ↦ hmem⟩

theorem pickParameters_eq (fuel : ℕ) {s : List Byte × ℕ} (hzero : 0 ∈ s.1.drop s.2) :
    (pickParameters fuel s).1 =
      (words (ascii " \t\n").contains (cString (s.1.drop s.2))).take fuel ∧
        (pickParameters fuel s).2.length = s.1.length := by
  induction fuel generalizing s with
  | zero => exact ⟨rfl, rfl⟩
  | succ fuel ih =>
    rw [pickParameters]
    by_cases hne : (cString (s.1.drop s.2)).dropWhile (ascii " \t\n").contains = []
    · have hnone : strtokR (ascii " \t\n") s = none := by
        simp only [strtokR, hne]
        rfl
      rw [hnone, ← words_dropWhile, hne, words_nil]
      exact ⟨rfl, rfl⟩
    · obtain ⟨buffer, place, htoken, hlength, hzero', hstring⟩ := strtokR_eq hzero hne
      obtain ⟨hwords, hlength'⟩ := ih (s := (buffer, place)) hzero'
      rw [htoken, words_eq hne]
      simp only [hwords, hstring, hlength', hlength, List.take_succ_cons]
      simp

/-- The effects that show an output to the user: strings, a call, and at the end
one redraw. -/
def Displays (serialDriverTid serialUITid : Word) (effects : List (CliEffect F))
    (out : ShellOutput F) : Prop :=
  ∃ texts, effects = texts ++ (out.call.toList.map fun c ↦ .call c.1 c.2) ++
    [.redraw serialUITid] ∧ SendsText serialDriverTid texts out.text

def EngineShows (data : CliInternalData n F) (r : Except CliFault (CliResult n F)) (length : ℕ)
    (result : Shell n F × ShellOutput F) : Prop :=
  ∃ data' buffer effects, r = .ok ⟨data', buffer, effects⟩ ∧ buffer.length = length ∧
    ShellOf data' result.1 ∧ data'.serialDriverTid = data.serialDriverTid ∧
    data'.serialUITid = data.serialUITid ∧
    Displays data.serialDriverTid data.serialUITid effects result.2

theorem ShellOf.runEntry (h : ShellOf data sh) (hzero : 0 ∉ name)
    (hlen : sh.find name = none → name.length < maxLineLength) (parameters : List (List Byte))
    (buffer : List Byte) {line : List Byte} (hline : argvOf line = name :: parameters) :
    EngineShows data (PrjOS.runEntry data name parameters buffer) buffer.length
      (sh.engine line) := by
  have hfind := h.findCmd hzero hlen
  unfold PrjOS.runEntry Shell.engine
  simp only [hline]
  cases hx : sh.find name with
  | none =>
    simp only [hx] at hfind
    obtain ⟨data', effects, hfound, hrep, hdriver, hui, hsends⟩ := hfind
    refine ⟨data', buffer, effects ++ cliredraw data', ?_, rfl, hrep, hdriver, hui, effects, ?_,
      hsends⟩
    · rw [hfound]
      rfl
    · rw [cliredraw, hui, Option.toList_none, List.map_nil, List.append_nil]
  | some x =>
    simp only [hx] at hfind
    obtain ⟨hlog, hentry⟩ := sh.find_mem hx
    have hfv := h.holds.fv x hlog
    simp only [hfind, bind, Except.bind, hfv]
    cases hcommand : x.command with
    | some fv => exact ⟨data, buffer, _, rfl, rfl, h, rfl, rfl, [], rfl, .nil⟩
    | none =>
      have hplace : Place sh.log 0 (x.record :: sh.path) :=
        .enter h.place (hentry hcommand) hcommand
      exact ⟨_, buffer, _, rfl, rfl, ⟨h.holds.currentDirectory _, hplace, rfl, h.named⟩, rfl, rfl,
        [], rfl, .nil⟩

theorem length_of_argvOf {line : List Byte} {parameters : List (List Byte)}
    (h : argvOf line = name :: parameters) : name.length ≤ line.length := by
  simp only [argvOf] at h
  split_ifs at h
  rw [← (List.cons.inj h).1]
  exact (List.takeWhile_prefix _).length_le.trans (List.dropWhile_suffix _).length_le

/-- Only a word that nothing is found for has to be short: it is printed. -/
theorem ShellOf.engine (h : ShellOf data sh) {buffer : List Byte} (hzero : 0 ∈ buffer)
    (hlen : ∀ name parameters, argvOf (cString buffer) = name :: parameters →
      sh.find name = none → name.length < maxLineLength) :
    EngineShows data (cliEngine data buffer) buffer.length (sh.engine (cString buffer)) := by
  have hredraw (hnil : argvOf (cString buffer) = []) :
      EngineShows data (.ok ⟨data, buffer, cliredraw data⟩) buffer.length
        (sh.engine (cString buffer)) := by
    rw [Shell.engine, hnil]
    exact ⟨data, buffer, _, rfl, rfl, h, rfl, rfl, [], rfl, .nil⟩
  unfold cliEngine
  by_cases hempty : buffer.getD 0 0 = 0
  · rw [if_pos hempty]
    refine hredraw ?_
    obtain ⟨b, l, rfl⟩ := List.exists_cons_of_ne_nil (List.ne_nil_of_mem hzero)
    obtain rfl : b = 0 := hempty
    rfl
  rw [if_neg hempty]
  by_cases hne : (cString buffer).dropWhile (ascii ", \t\n\r").contains = []
  · have hnone : strtokR (ascii ", \t\n\r") (buffer, 0) = none := by
      simp only [strtokR, List.drop_zero, hne]
      rfl
    rw [hnone]
    refine hredraw ?_
    rw [argvOf, hne]
    rfl
  · obtain ⟨buffer', place, htoken, hlength, hzero', hstring⟩ :=
      strtokR_eq (s := (buffer, 0)) hzero hne
    obtain ⟨hwords, hlength'⟩ :=
      pickParameters_eq (argcMax - 1) (s := (buffer', place)) hzero'
    rw [List.drop_zero] at htoken hstring
    have hname : ((cString buffer).dropWhile (ascii ", \t\n\r").contains).takeWhile
        (fun b ↦ !(ascii ", \t\n\r").contains b) ⊆ cString buffer :=
      List.Subset.trans (List.takeWhile_prefix _).subset (List.dropWhile_suffix _).subset
    have hargv : argvOf (cString buffer) =
        ((cString buffer).dropWhile (ascii ", \t\n\r").contains).takeWhile
            (fun b ↦ !(ascii ", \t\n\r").contains b) ::
          (pickParameters (argcMax - 1) (buffer', place)).1 := by
      rw [argvOf, if_neg hne, hwords, hstring]
    have hrun := h.runEntry (fun h0 ↦ ne_zero_of_mem_cString (hname h0) rfl) (hlen _ _ hargv)
      (pickParameters (argcMax - 1) (buffer', place)).1
      (pickParameters (argcMax - 1) (buffer', place)).2 hargv
    rw [hlength', hlength] at hrun
    rw [htoken]
    exact hrun

end Engine

inductive ShellAction (n : ℕ) (F : Type)
  | bind (c : BindCall n F)
  | engine (inputString : List Byte)

namespace ShellAction

def run (data : CliInternalData n F) :
    ShellAction n F → Except CliFault ((RcCli ⊕ List (CliEffect F)) × CliInternalData n F)
  | bind c => do
    let (rc, data) ← c.run data
    return (.inl rc, data)
  | engine inputString => do
    let result ← cliEngine data inputString
    return (.inr result.effects, result.data)

def runAll (data : CliInternalData n F) : List (ShellAction n F) →
    Except CliFault (List (RcCli ⊕ List (CliEffect F)) × CliInternalData n F)
  | [] => .ok ([], data)
  | a :: as => do
    let (outcome, data) ← a.run data
    let (outcomes, data) ← runAll data as
    return (outcome :: outcomes, data)

def act (sh : Shell n F) : ShellAction n F → (RcCli ⊕ ShellOutput F) × Shell n F
  | bind c => (.inl (c.register sh.log).1, { sh with log := (c.register sh.log).2 })
  | engine inputString =>
    (.inr (sh.engine (cString inputString)).2, (sh.engine (cString inputString)).1)

def actAll (sh : Shell n F) : List (ShellAction n F) → List (RcCli ⊕ ShellOutput F) × Shell n F
  | [] => ([], sh)
  | a :: as => ((a.act sh).1 :: (actAll (a.act sh).2 as).1, (actAll (a.act sh).2 as).2)

/-- Names are not empty, and lines end within the buffer. -/
def Proper (sh : Shell n F) : ShellAction n F → Prop
  | bind c => c.Proper sh.log ∧ ∀ name ∈ c.name, name ≠ []
  | engine inputString => 0 ∈ inputString.take maxLineLength

def ProperAll (sh : Shell n F) : List (ShellAction n F) → Prop
  | [] => True
  | a :: as => a.Proper sh ∧ ProperAll (a.act sh).2 as

instance : (sh : Shell n F) → (a : ShellAction n F) → Decidable (a.Proper sh)
  | sh, bind c => inferInstanceAs (Decidable (c.Proper sh.log ∧ ∀ name ∈ c.name, name ≠ []))
  | _, engine inputString => inferInstanceAs (Decidable (0 ∈ inputString.take maxLineLength))

instance decidableProperAll : (sh : Shell n F) → (as : List (ShellAction n F)) →
    Decidable (ProperAll sh as)
  | _, [] => inferInstanceAs (Decidable True)
  | sh, a :: as =>
    haveI := decidableProperAll (a.act sh).2 as
    inferInstanceAs (Decidable (_ ∧ _))

def Matches (serialDriverTid serialUITid : Word) :
    RcCli ⊕ List (CliEffect F) → RcCli ⊕ ShellOutput F → Prop
  | .inl rc, .inl rc' => rc = rc'
  | .inr effects, .inr out => Displays serialDriverTid serialUITid effects out
  | _, _ => False

end ShellAction

section Runs

variable {data : CliInternalData n F} {sh : Shell n F}

theorem BindCall.place_register {log : CliLog n F} {path : List (RecordPtr n)}
    (h : Place log 0 path) (c : BindCall n F) : Place (c.register log).2 0 path := by
  rcases c.register_cases log with ⟨-, hlog⟩ | ⟨name, r, -, -, -, -, hlog⟩
  · rwa [hlog]
  · rw [hlog]
    exact h.snoc _

theorem BindCall.named_register {log : CliLog n F} (h : ∀ x ∈ log, x.name ≠ []) {c : BindCall n F}
    (hc : ∀ name ∈ c.name, name ≠ []) : ∀ x ∈ (c.register log).2, x.name ≠ [] := by
  rcases c.register_cases log with ⟨-, hlog⟩ | ⟨name, r, hname, -, -, -, hlog⟩
  · rwa [hlog]
  · rw [hlog]
    intro x hx
    rcases List.mem_append.mp hx with hx | hx
    · exact h x hx
    · obtain rfl := List.mem_singleton.mp hx
      simpa [cliEntryLen] using hc name hname

theorem length_cString_take {buffer : List Byte} {m : ℕ} (h : 0 ∈ buffer.take m) :
    0 ∈ buffer ∧ (cString buffer).length < m := by
  refine ⟨List.mem_of_mem_take h, ?_⟩
  have htake := cString_append_of_mem h (buffer.drop m)
  rw [List.take_append_drop] at htake
  rw [htake]
  exact (length_cString_lt h).trans_le (List.length_take_le m buffer)

/-- One action. -/
theorem ShellOf.run (h : ShellOf data sh) {a : ShellAction n F} (ha : a.Proper sh) :
    ∃ outcome data', a.run data = .ok (outcome, data') ∧ ShellOf data' (a.act sh).2 ∧
      data'.serialDriverTid = data.serialDriverTid ∧ data'.serialUITid = data.serialUITid ∧
      ShellAction.Matches data.serialDriverTid data.serialUITid outcome (a.act sh).1 := by
  cases a with
  | bind c =>
    obtain ⟨data', hrun, hholds, hsame⟩ := h.holds.run ha.1
    refine ⟨.inl _, data', ?_, ⟨hholds, BindCall.place_register h.place c, ?_,
      BindCall.named_register h.named ha.2⟩, hsame.serialDriverTid, hsame.serialUITid, rfl⟩
    · rw [ShellAction.run, hrun]
      rfl
    · rw [hsame.currentDirectory, h.currentDirectory]
      rfl
  | engine inputString =>
    obtain ⟨hzero, hlen⟩ := length_cString_take ha
    obtain ⟨data', buffer, effects, hrun, -, hrep, hdriver, hui, hdisplays⟩ :=
      h.engine hzero fun _ _ hargv _ ↦ (length_of_argvOf hargv).trans_lt hlen
    refine ⟨.inr effects, data', ?_, hrep, hdriver, hui, hdisplays⟩
    rw [ShellAction.run, hrun]
    rfl

theorem ShellOf.runAll (h : ShellOf data sh) {as : List (ShellAction n F)}
    (has : ShellAction.ProperAll sh as) :
    ∃ outcomes data', ShellAction.runAll data as = .ok (outcomes, data') ∧
      ShellOf data' (ShellAction.actAll sh as).2 ∧
      data'.serialDriverTid = data.serialDriverTid ∧ data'.serialUITid = data.serialUITid ∧
      List.Forall₂ (ShellAction.Matches data.serialDriverTid data.serialUITid) outcomes
        (ShellAction.actAll sh as).1 := by
  induction as generalizing data sh with
  | nil => exact ⟨[], data, rfl, h, rfl, rfl, .nil⟩
  | cons a as ih =>
    obtain ⟨outcome, data₁, hrun, h₁, hdriver₁, hui₁, hmatch⟩ := h.run has.1
    obtain ⟨outcomes, data₂, hrun₂, h₂, hdriver₂, hui₂, hmatches⟩ := ih h₁ has.2
    rw [hdriver₁, hui₁] at hmatches
    refine ⟨outcome :: outcomes, data₂, ?_, h₂, hdriver₂.trans hdriver₁, hui₂.trans hui₁,
      .cons hmatch hmatches⟩
    simp only [ShellAction.runAll, hrun, bind, Except.bind, hrun₂]
    rfl

end Runs

section Typed

variable {name : List Byte} {parameters : List (List Byte)}

def typedLine (name : List Byte) (parameters : List (List Byte)) : List Byte :=
  [32].intercalate (name :: parameters)

/-- Words that can be typed: not empty, and without separators and zeros. -/
structure Typeable (name : List Byte) (parameters : List (List Byte)) : Prop where
  name_ne : name ≠ []
  name_chars : ∀ b ∈ name, b ≠ 0 ∧ b ∉ ascii ", \t\n\r"
  parameter_ne : ∀ w ∈ parameters, w ≠ []
  parameter_chars : ∀ w ∈ parameters, ∀ b ∈ w, b ≠ 0 ∧ b ∉ ascii " \t\n"
  count : parameters.length < argcMax

theorem typedLine_eq (name : List Byte) (parameters : List (List Byte)) :
    typedLine name parameters =
      name ++ if parameters = [] then [] else 32 :: [32].intercalate parameters := by
  cases parameters with
  | nil => simp [typedLine]
  | cons w ws => simp [typedLine, List.intercalate_cons_cons]

theorem mem_intercalate {ws : List (List Byte)} {b : Byte} (h : b ∈ [32].intercalate ws) :
    b = 32 ∨ ∃ w ∈ ws, b ∈ w := by
  induction ws with
  | nil => simp at h
  | cons w ws ih =>
    cases ws with
    | nil =>
      rw [List.intercalate_singleton] at h
      exact .inr ⟨w, List.mem_cons_self, h⟩
    | cons v ws =>
      rw [List.intercalate_cons_cons, List.append_assoc, List.mem_append, List.mem_append,
        List.mem_singleton] at h
      rcases h with h | rfl | h
      · exact .inr ⟨w, List.mem_cons_self, h⟩
      · exact .inl rfl
      · exact (ih h).imp id fun ⟨u, hu, hb⟩ ↦ ⟨u, List.mem_cons_of_mem w hu, hb⟩

theorem Typeable.nonzero (h : Typeable name parameters) {b : Byte}
    (hb : b ∈ typedLine name parameters) : b ≠ 0 := by
  rcases mem_intercalate hb with rfl | ⟨w, hw, hbw⟩
  · decide
  · rcases List.mem_cons.mp hw with rfl | hw
    · exact (h.name_chars b hbw).1
    · exact (h.parameter_chars w hw b hbw).1

theorem Typeable.argvOf_typedLine (h : Typeable name parameters) :
    argvOf (typedLine name parameters) = name :: parameters := by
  set rest := if parameters = [] then [] else 32 :: [32].intercalate parameters with hrest
  have hname : ∀ b ∈ name, (!(ascii ", \t\n\r").contains b) = true := fun b hb ↦ by
    simpa using (h.name_chars b hb).2
  have hfirst : (name ++ rest).dropWhile (ascii ", \t\n\r").contains = name ++ rest := by
    obtain ⟨b, l, hl⟩ := List.exists_cons_of_ne_nil h.name_ne
    rw [hl, List.cons_append, List.dropWhile_cons_of_neg]
    simpa using (h.name_chars b (by simp [hl])).2
  have hhead : ∀ b ∈ rest.head?, (!(ascii ", \t\n\r").contains b) = false := by
    intro b hb
    rw [hrest] at hb
    split_ifs at hb
    · simp at hb
    · rw [← Option.some.inj hb]
      decide
  have htake : (name ++ rest).takeWhile (fun b ↦ !(ascii ", \t\n\r").contains b) = name := by
    rw [List.takeWhile_append_of_pos hname]
    cases hr : rest with
    | nil => simp
    | cons b l =>
      rw [List.takeWhile_cons_of_neg (by rw [hhead b (by rw [hr]; rfl)]; simp), List.append_nil]
  have hdrop : (name ++ rest).dropWhile (fun b ↦ !(ascii ", \t\n\r").contains b) = rest := by
    rw [List.dropWhile_append_of_pos hname]
    cases hr : rest with
    | nil => rfl
    | cons b l => rw [List.dropWhile_cons_of_neg (by rw [hhead b (by rw [hr]; rfl)]; simp)]
  have hwords : words (ascii " \t\n").contains rest.tail = parameters := by
    rw [hrest]
    split_ifs with hnil
    · rw [hnil]
      exact words_nil
    · exact words_intercalate h.parameter_ne
        (fun w hw b hb ↦ by simpa using (h.parameter_chars w hw b hb).2)
        (show (ascii " \t\n").contains 32 = true by decide)
  have hcount : parameters.length ≤ argcMax - 1 := Nat.le_sub_one_of_lt h.count
  rw [typedLine_eq, argvOf]
  simp only [← hrest, hfirst, htake, hdrop, hwords, List.take_of_length_le hcount]
  rw [if_neg]
  simp [h.name_ne]

end Typed

section Main

variable {prefixName : List Byte} {as : List (ShellAction n F)}

/-- Any registrations and command lines after `cli_init` do what the user's view
says, and show it. -/
theorem cli_shows_shell (driver ui : Word) (hroot : prefixName.length < cliEntryLen)
    (data : CliInternalData n F) (has : ShellAction.ProperAll ⟨[], []⟩ as) :
    ∃ data₀ outcomes data', baseCliInit driver ui prefixName data = .ok (.ok, data₀) ∧
      ShellAction.runAll data₀ as = .ok (outcomes, data') ∧
      List.Forall₂ (ShellAction.Matches driver ui) outcomes (ShellAction.actAll ⟨[], []⟩ as).1 ∧
      ShellOf data' (ShellAction.actAll ⟨[], []⟩ as).2 := by
  obtain ⟨data₀, hinit, h₀, hcurrent, rfl, rfl⟩ := baseCliInit_holds driver ui hroot data
  have hrep : ShellOf data₀ ⟨[], []⟩ := ⟨h₀, .root, hcurrent, by simp⟩
  obtain ⟨outcomes, data', hrun, h', -, -, hmatches⟩ := hrep.runAll has
  exact ⟨data₀, outcomes, data', hinit, hrun, hmatches, h'⟩

def listActions : List (ShellAction 3 CommandFunction) :=
  commandCalls.map .bind ++ [.engine (ascii "ls" ++ [0])]

theorem cli_shows_shell_list :
    ∃ data₀ outcomes data', baseCliInit 0 1 [] CliInternalData.unset = .ok (.ok, data₀) ∧
      ShellAction.runAll data₀ listActions = .ok (outcomes, data') ∧
      List.Forall₂ (ShellAction.Matches 0 1) outcomes
        [.inl .ok, .inl .ok, .inl .ok, .inr ⟨ascii "time, tasks, task\r\n", none⟩] ∧
      ShellOf data' ⟨commandLog, []⟩ :=
  cli_shows_shell 0 1 emptyPrefix_short CliInternalData.unset
    (show ShellAction.ProperAll ⟨[], []⟩ listActions by decide)

/-- After any such run, a command is called with the words that were typed. -/
theorem typed_command_is_called (driver ui : Word) (hroot : prefixName.length < cliEntryLen)
    (data : CliInternalData n F) (has : ShellAction.ProperAll ⟨[], []⟩ as) {name : List Byte}
    {parameters : List (List Byte)} (htyped : Typeable name parameters)
    {x : Registration (RecordPtr n) (List Byte) F} {fv : F}
    (hfind : (ShellAction.actAll ⟨[], []⟩ as).2.find name = some x) (hfv : x.command = some fv)
    (behind : List Byte) :
    ∃ data₀ outcomes data' data'' buffer effects,
      baseCliInit driver ui prefixName data = .ok (.ok, data₀) ∧
      ShellAction.runAll data₀ as = .ok (outcomes, data') ∧
      cliEngine data' (typedLine name parameters ++ 0 :: behind) = .ok ⟨data'', buffer, effects⟩ ∧
      ShellOf data'' (ShellAction.actAll ⟨[], []⟩ as).2 ∧
      Displays driver ui effects ⟨[], some (fv, name :: parameters)⟩ := by
  obtain ⟨data₀, hinit, h₀, hcurrent, rfl, rfl⟩ := baseCliInit_holds driver ui hroot data
  have hrep : ShellOf data₀ ⟨[], []⟩ := ⟨h₀, .root, hcurrent, by simp⟩
  obtain ⟨outcomes, data', hrun, h', hdriver, hui, -⟩ := hrep.runAll has
  have hstring : cString (typedLine name parameters ++ 0 :: behind) = typedLine name parameters :=
    cString_terminated (fun _ ↦ htyped.nonzero) behind
  have hfound : ∀ name' parameters', argvOf (cString (typedLine name parameters ++ 0 :: behind)) =
      name' :: parameters' → (ShellAction.actAll ⟨[], []⟩ as).2.find name' = none →
        name'.length < maxLineLength := by
    intro name' parameters' hargv hnone
    rw [hstring, htyped.argvOf_typedLine] at hargv
    rw [← (List.cons.inj hargv).1, hfind] at hnone
    cases hnone
  obtain ⟨data'', buffer, effects, hengine, -, hrep', -, -, hdisplays⟩ :=
    h'.engine (show 0 ∈ typedLine name parameters ++ 0 :: behind by simp) hfound
  simp only [hstring, Shell.engine, htyped.argvOf_typedLine, hfind, hfv] at hrep' hdisplays
  rw [hdriver, hui] at hdisplays
  exact ⟨data₀, outcomes, data', data'', buffer, effects, hinit, hrun, hengine, hrep', hdisplays⟩

theorem typed_command_is_called_task :
    ∃ data₀ outcomes data' data'' buffer effects,
      baseCliInit 0 1 [] CliInternalData.unset = .ok (.ok, data₀) ∧
      ShellAction.runAll data₀ listActions = .ok (outcomes, data') ∧
      cliEngine data' (typedLine (ascii "task") [ascii "7"] ++ 0 :: []) =
        .ok ⟨data'', buffer, effects⟩ ∧
      ShellOf data'' ⟨commandLog, []⟩ ∧
      Displays 0 1 effects ⟨[], some (.cmdTaskInfo, [ascii "task", ascii "7"])⟩ := by
  have hproper : ShellAction.ProperAll ⟨[], []⟩ listActions := by decide
  have htyped : Typeable (ascii "task") [ascii "7"] :=
    ⟨by decide, by decide, by decide, by decide, by decide⟩
  have hfind : (ShellAction.actAll ⟨[], []⟩ listActions).2.find (ascii "task") =
      some ⟨1, 0, ascii "task", some .cmdTaskInfo⟩ := by decide
  exact typed_command_is_called 0 1 emptyPrefix_short CliInternalData.unset hproper htyped
    hfind rfl []

end Main

end PrjOS
