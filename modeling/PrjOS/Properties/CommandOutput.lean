import PrjOS.Properties.CommandTree
import PrjOS.Properties.FormatArguments

namespace PrjOS

open ByteMemory LinkedQueue

section Formats

variable {l : List Byte} {v : VarArgs}

/-- Characters that a format prints as they are. -/
def plain (l : List Byte) (h : ∀ c ∈ l, c ≠ 37) : List Piece := l.pmap Piece.text h

theorem plain_cons {c : Byte} (h : ∀ d ∈ c :: l, d ≠ 37) (ps : List Piece) :
    plain (c :: l) h ++ ps = .text c (h c List.mem_cons_self) ::
      (plain l (fun d hd ↦ h d (List.mem_cons_of_mem c hd)) ++ ps) := rfl

theorem render_plain (h : ∀ c ∈ l, c ≠ 37) (ps : List Piece) :
    render (plain l h ++ ps) = l ++ render ps := by
  induction l with
  | nil => rfl
  | cons c l ih =>
    rw [plain_cons, List.cons_append, ← ih fun d hd ↦ h d (List.mem_cons_of_mem c hd)]
    rfl

theorem kinds_plain (h : ∀ c ∈ l, c ≠ 37) (ps : List Piece) :
    kinds (plain l h ++ ps) = kinds ps := by
  induction l with
  | nil => rfl
  | cons c l ih => exact ih fun d hd ↦ h d (List.mem_cons_of_mem c hd)

theorem printedText_plain (h : ∀ c ∈ l, c ≠ 37) (ps : List Piece) (args : List Argument) :
    printedText v (plain l h ++ ps) args = l ++ printedText v ps args := by
  induction l with
  | nil => rfl
  | cons c l ih =>
    rw [plain_cons, List.cons_append, ← ih fun d hd ↦ h d (List.mem_cons_of_mem c hd)]
    rfl

theorem argumentsFit_plain (h : ∀ c ∈ l, c ≠ 37) (ps : List Piece) (args : List Argument) :
    ArgumentsFit v (plain l h ++ ps) args = ArgumentsFit v ps args := by
  induction l with
  | nil => rfl
  | cons c l ih => exact ih fun d hd ↦ h d (List.mem_cons_of_mem c hd)

def Flags.none : Flags := ⟨false, [], false, by simp⟩

def stringPiece : Piece := .directive .none 115 (by decide)

theorem print_plain (h : ∀ c ∈ l, c ≠ 37) : ∃ p, print v l = .ok p ∧ p.chars = l := by
  obtain ⟨p, hp, hshows⟩ := print_shows v (plain l h ++ []) (by
    rw [argumentsFit_plain]
    trivial)
  rw [printedText_plain] at hshows
  rw [render_plain] at hp
  simp only [render, List.flatMap_nil, printedText, List.append_nil] at hp hshows
  exact ⟨p, hp, hshows.1⟩

/-- A format with a `%s` in it. -/
theorem print_string {pre post : List Byte} (hpre : ∀ c ∈ pre, c ≠ 37)
    (hpost : ∀ c ∈ post, c ≠ 37) (hnull : v.word 0 ≠ 0)
    (hlen : (cString (v.memory (v.word 0))).length < 2 ^ 31) :
    ∃ p, print v (pre ++ 37 :: 115 :: post) = .ok p ∧
      p.chars = pre ++ cString (v.memory (v.word 0)) ++ post := by
  have hbytes : render (plain pre hpre ++ stringPiece :: (plain post hpost ++ [])) =
      pre ++ 37 :: 115 :: post := by
    have hrest : render (plain post hpost ++ []) = post :=
      (render_plain hpost []).trans (List.append_nil post)
    rw [render_plain]
    exact congrArg (fun l ↦ pre ++ 37 :: 115 :: l) hrest
  have hkinds : kinds (plain pre hpre ++ stringPiece :: (plain post hpost ++ [])) = [.word] := by
    rw [kinds_plain]
    exact congrArg (ArgumentKind.word :: ·) (kinds_plain hpost [])
  obtain ⟨p, hp, hshows⟩ :=
    print_shows v (plain pre hpre ++ stringPiece :: (plain post hpost ++ [])) (by
      rw [hkinds, argumentsFit_plain]
      refine ⟨by decide, fun _ ↦ hlen, ?_⟩
      rw [argumentsFit_plain]
      trivial)
  refine ⟨p, hbytes ▸ hp, ?_⟩
  rw [hshows.1, hkinds, printedText_plain, List.append_assoc]
  congr 1
  have hpadded (s : List Byte) : padded s 0 0 = s := by
    rw [padded, List.replicate_eq_nil_iff _ |>.mpr (by omega)]
    rfl
  have hrest : printedText v (plain post hpost ++ []) [] = post :=
    (printedText_plain hpost [] []).trans (List.append_nil post)
  have hstep : printedText v (stringPiece :: (plain post hpost ++ []))
      (readArguments v.word 0 [.word]) =
        padded (if v.word 0 = 0 then nullString else cString (v.memory (v.word 0))) 0 0 ++
          printedText v (plain post hpost ++ []) [] := rfl
  rw [hstep, hrest, hpadded, if_neg hnull]

end Formats

section Output

variable {n : ℕ} {F : Type} {data : CliInternalData n F} {tid : Word} {text text' : List Byte}
  {effects effects' : List (CliEffect F)}

/-- The effects send a text to the driver, as strings that are not empty: an
empty one would not come back. -/
def SendsText (serialDriverTid : Word) (effects : List (CliEffect F)) (text : List Byte) : Prop :=
  ∃ strings : List (List Byte),
    effects = strings.map (fun s ↦ .putStr (s ++ [0]) serialDriverTid) ∧
      strings.flatten = text ∧ ∀ s ∈ strings, s ≠ [] ∧ 0 ∉ s

theorem SendsText.nil : SendsText tid ([] : List (CliEffect F)) [] := ⟨[], rfl, rfl, by simp⟩

theorem SendsText.append (h : SendsText tid effects text) (h' : SendsText tid effects' text') :
    SendsText tid (effects ++ effects') (text ++ text') := by
  obtain ⟨strings, rfl, rfl, hs⟩ := h
  obtain ⟨strings', rfl, rfl, hs'⟩ := h'
  refine ⟨strings ++ strings', List.map_append.symm, List.flatten_append, fun s hmem ↦ ?_⟩
  exact (List.mem_append.mp hmem).elim (hs s) (hs' s)

theorem SendsText.one (hne : text ≠ []) (h : 0 ∉ text) :
    SendsText tid [(.putStr (text ++ [0]) tid : CliEffect F)] text :=
  ⟨[text], rfl, List.append_nil text, by simpa using ⟨hne, h⟩⟩

theorem cliprintf_plain (data : CliInternalData n F) {format : String}
    (h : ∀ c ∈ ascii format, c ≠ 37 ∧ c ≠ 0) (hne : ascii format ≠ [])
    (hlen : (ascii format).length < cliprintfLen) (args : List (List Byte)) :
    ∃ effects, cliprintf data format args = .ok effects ∧
      SendsText data.serialDriverTid effects (ascii format) := by
  refine ⟨_, ?_, .one hne fun h0 ↦ (h 0 h0).2 rfl⟩
  obtain ⟨p, hp, hchars⟩ : ∃ p, print (stringArgs args) (ascii format) = .ok p ∧
      p.chars = ascii format := print_plain fun c hc ↦ (h c hc).1
  rw [cliprintf, bwsprintf, hp]
  simp only [bind, Except.bind, pure, Except.pure, hchars]
  rw [if_pos]
  rw [List.length_append, List.length_singleton]
  exact hlen

theorem cliprintf_string (data : CliInternalData n F) {format : String} {pre post s : List Byte}
    (hformat : ascii format = pre ++ 37 :: 115 :: post) (hpre : ∀ c ∈ pre, c ≠ 37 ∧ c ≠ 0)
    (hpost : ∀ c ∈ post, c ≠ 37 ∧ c ≠ 0) (hne : pre ++ s ++ post ≠ []) (hs : 0 ∉ s)
    (hlen : pre.length + s.length + post.length < cliprintfLen) :
    ∃ effects, cliprintf data format [s] = .ok effects ∧
      SendsText data.serialDriverTid effects (pre ++ s ++ post) := by
  refine ⟨_, ?_, .one hne ?_⟩
  · have hstring : cString ((stringArgs [s]).memory ((stringArgs [s]).word 0)) = s :=
      List.takeWhile_eq_self_iff.mpr fun b hb ↦ by simpa using fun h0 : b = 0 ↦ hs (h0 ▸ hb)
    have hnull : (stringArgs [s]).word 0 ≠ 0 := by simp [stringArgs]
    have hshort : s.length < 2 ^ 31 := by
      unfold cliprintfLen at hlen
      omega
    obtain ⟨p, hp, hchars⟩ := print_string (fun c hc ↦ (hpre c hc).1) (fun c hc ↦ (hpost c hc).1)
      hnull (by rwa [hstring])
    rw [hstring] at hchars
    rw [cliprintf, bwsprintf, hformat, hp]
    simp only [bind, Except.bind, pure, Except.pure, hchars]
    rw [if_pos]
    simp only [List.length_append, List.length_singleton]
    omega
  · simp only [List.mem_append, not_or]
    exact ⟨⟨fun h0 ↦ (hpre 0 h0).2 rfl, hs⟩, fun h0 ↦ (hpost 0 h0).2 rfl⟩

/-- Texts that are printed one after the other. -/
theorem cliprintf_texts (data : CliInternalData n F) {texts : List String}
    (h : ∀ text ∈ texts, (∀ c ∈ ascii text, c ≠ 37 ∧ c ≠ 0) ∧ ascii text ≠ [] ∧
      (ascii text).length < cliprintfLen) :
    ∃ out, texts.mapM (fun text ↦ cliprintf data text []) = .ok out ∧
      SendsText data.serialDriverTid out.flatten (texts.flatMap ascii) := by
  induction texts with
  | nil => exact ⟨[], rfl, .nil⟩
  | cons text texts ih =>
    obtain ⟨hplain, hne, hlen⟩ := h text List.mem_cons_self
    obtain ⟨effects, heffects, hsends⟩ := cliprintf_plain data hplain hne hlen []
    obtain ⟨out, hout, hsends'⟩ := ih fun t ht ↦ h t (List.mem_cons_of_mem text ht)
    refine ⟨effects :: out, ?_, hsends.append hsends'⟩
    rw [List.mapM_cons, heffects, hout]
    rfl

theorem helpTexts_plain : ∀ text ∈ helpTexts, (∀ c ∈ ascii text, c ≠ 37 ∧ c ≠ 0) ∧
    ascii text ≠ [] ∧ (ascii text).length < cliprintfLen := by
  simp [helpTexts, ascii, cliprintfLen]

theorem cliHelp_sends (data : CliInternalData n F) :
    ∃ effects, cliHelp data = .ok effects ∧
      SendsText data.serialDriverTid effects (helpTexts.flatMap ascii) := by
  obtain ⟨out, hout, hsends⟩ := cliprintf_texts data helpTexts_plain
  refine ⟨out.flatten, ?_, hsends⟩
  rw [cliHelp, hout]
  rfl

end Output

section Listing

variable {n : ℕ} {F : Type} {data : CliInternalData n F}

/-- What the loops print for some entries when there are `count` in the line. -/
def listed : ℕ → List (List Byte) → List Byte
  | _, [] => []
  | count, item :: items =>
    (if count ≠ 0 then ascii ", " else []) ++ item ++
      if entriesPerLine ≤ count + 1 then ascii "\r\n" ++ listed 0 items
      else listed (count + 1) items

/-- Lines of three entries. -/
def listing : List (List Byte) → List Byte
  | [] => []
  | [a] => a ++ ascii "\r\n"
  | [a, b] => a ++ ascii ", " ++ b ++ ascii "\r\n"
  | a :: b :: c :: items => a ++ ascii ", " ++ b ++ ascii ", " ++ c ++ ascii "\r\n" ++ listing items

def lineCount (count m : ℕ) : ℕ := (count + m) % entriesPerLine

theorem entriesPerLine_pos : 0 < entriesPerLine := by decide

theorem lineCount_succ {count : ℕ} (m : ℕ) (hcount : count < entriesPerLine) :
    lineCount count (m + 1) =
      if entriesPerLine ≤ count + 1 then lineCount 0 m else lineCount (count + 1) m := by
  unfold lineCount entriesPerLine at *
  split_ifs <;> omega

theorem lineCount_zero {count : ℕ} (hcount : count < entriesPerLine) :
    lineCount count 0 = count := Nat.mod_eq_of_lt hcount

theorem listed_append {count : ℕ} (items items' : List (List Byte))
    (hcount : count < entriesPerLine) :
    listed count (items ++ items') =
      listed count items ++ listed (lineCount count items.length) items' := by
  induction items generalizing count with
  | nil => rw [List.nil_append, listed, List.nil_append, List.length_nil, lineCount_zero hcount]
  | cons item items ih =>
    rw [List.cons_append, listed, listed, List.length_cons, lineCount_succ _ hcount]
    by_cases hfull : entriesPerLine ≤ count + 1
    · simp only [if_pos hfull, ih entriesPerLine_pos, List.append_assoc]
    · simp only [if_neg hfull, ih (Nat.lt_of_not_le hfull), List.append_assoc]

theorem listed_listing (items : List (List Byte)) :
    listed 0 items ++ (if lineCount 0 items.length ≠ 0 then ascii "\r\n" else []) =
      listing items := by
  induction items using listing.induct with
  | case1 => rfl
  | case2 a => simp [listed, listing, lineCount, entriesPerLine]
  | case3 a b => simp [listed, listing, lineCount, entriesPerLine]
  | case4 a b c items ih =>
    have hcount : lineCount 0 (a :: b :: c :: items).length = lineCount 0 items.length := by
      simp only [lineCount, entriesPerLine, List.length_cons]
      omega
    rw [hcount, listing, ← ih]
    simp [listed, entriesPerLine]

structure EntryFormat (format : String) (pre post : List Byte) : Prop where
  bytes : ascii format = pre ++ 37 :: 115 :: post
  before : ∀ c ∈ pre, c ≠ 37 ∧ c ≠ 0
  behind : ∀ c ∈ post, c ≠ 37 ∧ c ≠ 0
  short : pre.length + post.length ≤ 2

/-- Names that can be printed as strings of their own. -/
structure EntryName (name : List Byte) : Prop where
  ne_nil : name ≠ []
  nonzero : 0 ∉ name
  short : name.length < cliEntryLen

variable {format : String} {pre post : List Byte}

theorem listEntry_sends (hformat : EntryFormat format pre post) {p : RecordPtr n}
    (hp : EntryName (data.record p).name) (count : ℕ) :
    ∃ effects,
      listEntry data format count p =
        .ok (if entriesPerLine ≤ count + 1 then 0 else count + 1, effects) ∧
      SendsText data.serialDriverTid effects ((if count ≠ 0 then ascii ", " else []) ++
        (pre ++ (data.record p).name ++ post) ++
          if entriesPerLine ≤ count + 1 then ascii "\r\n" else []) := by
  have hfits : pre.length + (data.record p).name.length + post.length < cliprintfLen := by
    have hshort := hformat.short
    have hname := hp.short
    unfold cliEntryLen at hname
    unfold cliprintfLen
    omega
  have hne : pre ++ (data.record p).name ++ post ≠ [] := by simp [hp.ne_nil]
  obtain ⟨entry, hentry, hsends⟩ :=
    cliprintf_string data hformat.bytes hformat.before hformat.behind hne hp.nonzero hfits
  have hcomma : ∀ c ∈ ascii ", ", c ≠ 37 ∧ c ≠ 0 := by decide
  have hline : ∀ c ∈ ascii "\r\n", c ≠ 37 ∧ c ≠ 0 := by decide
  obtain ⟨comma, hcomma, hsends₁⟩ := cliprintf_plain data hcomma (by decide) (by decide) []
  obtain ⟨newline, hnewline, hsends₂⟩ := cliprintf_plain data hline (by decide) (by decide) []
  by_cases hcount : count ≠ 0 <;> by_cases hfull : entriesPerLine ≤ count + 1
  · refine ⟨comma ++ entry ++ newline, ?_, ?_⟩
    · simp only [listEntry, if_pos hcount, if_pos hfull, hcomma, hentry, hnewline, bind, Except.bind]
      rfl
    · rw [if_pos hcount, if_pos hfull]
      exact (hsends₁.append hsends).append hsends₂
  · refine ⟨comma ++ entry, ?_, ?_⟩
    · simp only [listEntry, if_pos hcount, if_neg hfull, hcomma, hentry, bind, Except.bind]
      rfl
    · rw [if_pos hcount, if_neg hfull, List.append_nil]
      exact hsends₁.append hsends
  · refine ⟨entry ++ newline, ?_, ?_⟩
    · simp only [listEntry, if_neg hcount, if_pos hfull, hentry, hnewline, bind, Except.bind]
      rfl
    · rw [if_neg hcount, if_pos hfull]
      exact hsends.append hsends₂
  · refine ⟨entry, ?_, ?_⟩
    · simp only [listEntry, if_neg hcount, if_neg hfull, hentry, bind, Except.bind]
      rfl
    · rw [if_neg hcount, if_neg hfull, List.append_nil]
      exact hsends

theorem listEntries_sends (hformat : EntryFormat format pre post) {ps : List (RecordPtr n)}
    (hps : ∀ p ∈ ps, EntryName (data.record p).name)
    {count : ℕ} (hcount : count < entriesPerLine) :
    ∃ effects, listEntries data format count ps = .ok (lineCount count ps.length, effects) ∧
      SendsText data.serialDriverTid effects
        (listed count (ps.map fun p ↦ pre ++ (data.record p).name ++ post)) := by
  induction ps generalizing count with
  | nil => exact ⟨[], by rw [List.length_nil, lineCount_zero hcount]; rfl, .nil⟩
  | cons p ps ih =>
    obtain ⟨entry, hentry, hsends⟩ := listEntry_sends hformat (hps p List.mem_cons_self) count
    have hps' := fun q hq ↦ hps q (List.mem_cons_of_mem p hq)
    rw [List.map_cons, listed, List.length_cons, lineCount_succ _ hcount]
    by_cases hfull : entriesPerLine ≤ count + 1
    · obtain ⟨rest, hrest, hsends'⟩ := ih hps' entriesPerLine_pos
      rw [if_pos hfull] at hentry hsends
      rw [if_pos hfull, if_pos hfull]
      refine ⟨entry ++ rest, ?_, ?_⟩
      · simp only [listEntries, hentry, bind, Except.bind, hrest]
        rfl
      · simpa only [List.append_assoc] using hsends.append hsends'
    · obtain ⟨rest, hrest, hsends'⟩ := ih hps' (Nat.lt_of_not_le hfull)
      rw [if_neg hfull] at hentry hsends
      rw [if_neg hfull, if_neg hfull]
      refine ⟨entry ++ rest, ?_, ?_⟩
      · simp only [listEntries, hentry, bind, Except.bind, hrest]
        rfl
      · simpa only [List.append_assoc, List.append_nil] using hsends.append hsends'

theorem endLine_sends (data : CliInternalData n F) (count : ℕ) :
    ∃ effects, endLine data count = .ok effects ∧
      SendsText data.serialDriverTid effects (if count ≠ 0 then ascii "\r\n" else []) := by
  unfold endLine
  split_ifs
  · exact cliprintf_plain data (by decide) (by decide) (by decide) []
  · exact ⟨[], rfl, .nil⟩

theorem commandFormat : EntryFormat "%s" [] [] := ⟨by decide, by simp, by simp, by decide⟩

theorem directoryFormat : EntryFormat "[%s]" [91] [93] :=
  ⟨by decide, by decide, by decide, by decide⟩

theorem globalCommandList_sends {ps : List (RecordPtr n)}
    (hchain : Chain (fun p ↦ (data.record p).cmdList) data.list ps)
    (hps : ∀ p ∈ ps, EntryName (data.record p).name) :
    ∃ effects, globalCommandList data = .ok effects ∧
      SendsText data.serialDriverTid effects (listing (ps.map fun p ↦ (data.record p).name)) := by
  have hlist := listFrom_eq_ok.mpr hchain
  obtain ⟨out, hout, hsends⟩ := listEntries_sends commandFormat hps entriesPerLine_pos
  obtain ⟨last, hlast, hsends'⟩ := endLine_sends data (lineCount 0 ps.length)
  refine ⟨out ++ last, ?_, ?_⟩
  · simp only [globalCommandList, hlist, hout, hlast, bind, Except.bind]
    rfl
  · have htext := hsends.append hsends'
    simp only [List.nil_append, List.append_nil] at htext
    rw [← listed_listing, List.length_map]
    exact htext

def NeverSpins {α : Type} (r : Except CliFault α) : Prop := r ≠ .error .spins

theorem NeverSpins.ok {α : Type} (a : α) : NeverSpins (.ok a) := by simp [NeverSpins]

theorem NeverSpins.bind {α β : Type} {r : Except CliFault α} {f : α → Except CliFault β}
    (h : NeverSpins r) (hf : ∀ a, NeverSpins (f a)) : NeverSpins (r >>= f) := by
  cases r with
  | error fault => exact fun he ↦ h (congrArg Except.error (Except.error.inj he))
  | ok a => exact hf a

theorem cliprintf_neverSpins (args : List (List Byte)) : NeverSpins (cliprintf data format args) := by
  unfold cliprintf NeverSpins
  split
  · split_ifs <;> simp
  · simp

theorem listEntry_neverSpins (count : ℕ) (p : RecordPtr n) :
    NeverSpins (listEntry data format count p) := by
  have hrest (separator : List (CliEffect F)) : NeverSpins (do
      let entry ← cliprintf data format [(data.record p).name]
      if entriesPerLine ≤ count + 1 then
        let newline ← cliprintf data "\r\n" []
        return (0, separator ++ entry ++ newline)
      else return (count + 1, separator ++ entry)) := by
    refine (cliprintf_neverSpins _).bind fun entry ↦ ?_
    split_ifs
    · exact (cliprintf_neverSpins []).bind fun newline ↦ .ok _
    · exact .ok _
  unfold listEntry
  split_ifs
  · exact (cliprintf_neverSpins []).bind hrest
  · exact (NeverSpins.ok []).bind hrest

theorem listEntries_neverSpins (count : ℕ) (ps : List (RecordPtr n)) :
    NeverSpins (listEntries data format count ps) := by
  induction ps generalizing count with
  | nil => exact .ok _
  | cons p ps ih => exact (listEntry_neverSpins count p).bind fun r ↦ (ih r.1).bind fun s ↦ .ok _

theorem endLine_neverSpins (count : ℕ) : NeverSpins (endLine data count) := by
  unfold endLine
  split_ifs
  · exact cliprintf_neverSpins []
  · exact .ok []

theorem listFrom_error {next : RecordPtr n → Option (RecordPtr n)} {fuel : ℕ}
    {a : Option (RecordPtr n)} {fault : CliFault} (h : listFrom next fuel a = .error fault) :
    fault = .spins := by
  induction fuel generalizing a fault with
  | zero => cases a <;> simp_all [listFrom]
  | succ fuel ih =>
    cases a with
    | none => simp [listFrom] at h
    | some p =>
      cases hrest : listFrom next fuel (next p) with
      | error fault' =>
        simp only [listFrom, hrest, bind, Except.bind, Except.error.injEq] at h
        exact h ▸ ih hrest
      | ok ps => simp [listFrom, hrest, bind, Except.bind, pure, Except.pure] at h

/-- The loop over the command list ends exactly when the list does. -/
theorem globalCommandList_spins_iff : globalCommandList data = .error .spins ↔
    ∀ ps, ¬ Chain (fun p ↦ (data.record p).cmdList) data.list ps := by
  constructor
  · intro hspins ps hchain
    have hnever : NeverSpins (globalCommandList data) := by
      rw [globalCommandList, listFrom_eq_ok.mpr hchain]
      exact (listEntries_neverSpins 0 ps).bind fun r ↦
        (endLine_neverSpins r.1).bind fun last ↦ .ok _
    exact hnever hspins
  · intro h
    cases hlist : listFrom (fun p ↦ (data.record p).cmdList) (n + 1) data.list with
    | error fault =>
      rw [globalCommandList, hlist, listFrom_error hlist]
      rfl
    | ok ps => exact absurd (listFrom_eq_ok.mp hlist) (h ps)

/-- Directories and then commands are one listing. -/
theorem listGroups_sends {dirs cmds : List (RecordPtr n)}
    (hdirs : ∀ p ∈ dirs, EntryName (data.record p).name)
    (hcmds : ∀ p ∈ cmds, EntryName (data.record p).name) :
    ∃ out out' last,
      listEntries data "[%s]" 0 dirs = .ok (lineCount 0 dirs.length, out) ∧
      listEntries data "%s" (lineCount 0 dirs.length) cmds =
        .ok (lineCount 0 (dirs.length + cmds.length), out') ∧
      endLine data (lineCount 0 (dirs.length + cmds.length)) = .ok last ∧
      SendsText data.serialDriverTid (out ++ out' ++ last) (listing
        ((dirs.map fun p ↦ [91] ++ (data.record p).name ++ [93]) ++
          cmds.map fun p ↦ (data.record p).name)) := by
  have hcount : lineCount 0 dirs.length < entriesPerLine := Nat.mod_lt _ entriesPerLine_pos
  have hline : lineCount (lineCount 0 dirs.length) cmds.length =
      lineCount 0 (dirs.length + cmds.length) := by
    simp only [lineCount, entriesPerLine]
    omega
  obtain ⟨out, hout, hsends⟩ := listEntries_sends directoryFormat hdirs entriesPerLine_pos
  obtain ⟨out', hout', hsends'⟩ := listEntries_sends commandFormat hcmds hcount
  obtain ⟨last, hlast, hsends''⟩ := endLine_sends data (lineCount 0 (dirs.length + cmds.length))
  refine ⟨out, out', last, hout, by rw [hout', hline], hlast, ?_⟩
  have htext := (hsends.append hsends').append hsends''
  simp only [List.nil_append, List.append_nil] at htext
  rw [← listed_listing, listed_append _ _ entriesPerLine_pos, List.length_append, List.length_map,
    List.length_map]
  exact htext

theorem listDirectory_sends {dir : RecordPtr n} (hdir : data.currentDirectory = some dir)
    {ps : List (RecordPtr n)}
    (hchain : Chain (fun p ↦ (data.record p).nextEntry) (data.record dir).link2subdir ps)
    (hps : ∀ p ∈ ps, EntryName (data.record p).name) :
    ∃ effects, listDirectory data = .ok effects ∧ SendsText data.serialDriverTid effects (listing
      (((ps.filter fun p ↦ (data.record p).fv.isNone).map fun p ↦
          [91] ++ (data.record p).name ++ [93]) ++
        (ps.filter fun p ↦ (data.record p).fv.isSome).map fun p ↦ (data.record p).name)) := by
  have hlist := listFrom_eq_ok.mpr hchain
  have hsub (f : RecordPtr n → Bool) : ∀ p ∈ ps.filter f, EntryName (data.record p).name :=
    fun p hp ↦ hps p (List.mem_of_mem_filter hp)
  obtain ⟨out, out', last, hout, hout', hlast, hsends⟩ :=
    listGroups_sends (hsub fun p ↦ (data.record p).fv.isNone)
      (hsub fun p ↦ (data.record p).fv.isSome)
  refine ⟨out ++ out' ++ last, ?_, hsends⟩
  simp only [listDirectory, hdir, hlist, bind, Except.bind, hout, hout', hlast]
  rfl

end Listing

end PrjOS
