import PrjOS.Bwio

namespace PrjOS

open ByteMemory Function

def argcMax : ℕ := 10
def cliEntryLen : ℕ := 34
def entriesPerLine : ℕ := 3

def cliprintfLen : ℕ := 128

def ascii (s : String) : List Byte := s.toList.map fun c ↦ BitVec.ofNat 8 c.toNat

inductive RcCli
  | ok | nullName | nullFv | duplicate | recordCorrupt | nullCmd | dirInvalid
  deriving DecidableEq, Repr

/-- Ways in which a call does not come back: a loop over a list that never ends,
a write outside of an array, a null dereference. -/
inductive CliFault
  | spins | overruns | nullPointer
  deriving DecidableEq, Repr

/-- The root element is record 0, and there are `n` records of the application. -/
abbrev RecordPtr (n : ℕ) : Type := Fin (n + 1)

abbrev cliRootElement {n : ℕ} : RecordPtr n := 0

/-- `name` is the string in the array. An entry with `fv` is a command, the
others are directories. -/
structure CliRecord (n : ℕ) (F : Type) where
  cmdList : Option (RecordPtr n)
  name : List Byte
  fv : Option F
  parentDir : Option (RecordPtr n)
  nextEntry : Option (RecordPtr n)
  link2subdir : Option (RecordPtr n)
  deriving DecidableEq

structure CliInternalData (n : ℕ) (F : Type) where
  serialDriverTid : Word
  serialUITid : Word
  record : RecordPtr n → CliRecord n F
  currentDirectory : Option (RecordPtr n)
  list : Option (RecordPtr n)

/-- What the command line does apart from its own data: output through the
serial driver, a redraw of the user interface, and the call of a command. -/
inductive CliEffect (F : Type)
  | putStr (str : List Byte) (serialDriverTid : Word)
  | redraw (serialUITid : Word)
  | call (fv : F) (argv : List (List Byte))
  deriving DecidableEq

variable {n : ℕ} {F : Type}

namespace CliInternalData

def modify (data : CliInternalData n F) (p : RecordPtr n)
    (f : CliRecord n F → CliRecord n F) : CliInternalData n F :=
  { data with record := update data.record p (f (data.record p)) }

@[simp] theorem modify_self (data : CliInternalData n F) (p : RecordPtr n)
    (f : CliRecord n F → CliRecord n F) : (data.modify p f).record p = f (data.record p) :=
  update_self ..

theorem modify_of_ne (data : CliInternalData n F) {p q : RecordPtr n}
    (f : CliRecord n F → CliRecord n F) (h : q ≠ p) :
    (data.modify p f).record q = data.record q := update_of_ne h ..

end CliInternalData

def stringArgs (args : List (List Byte)) : VarArgs where
  word := fun i ↦ BitVec.ofNat 32 (i + 1)
  memory := fun a ↦ args.getD (a.toNat - 1) []
  floatTop := fun _ ↦ 0
  floatBottom := fun _ ↦ 0
  printBuf := .replicate _ 0
  printLongBuf := .replicate _ 0

def cliprintf (data : CliInternalData n F) (format : String) (args : List (List Byte)) :
    Except CliFault (List (CliEffect F)) :=
  match bwsprintf (stringArgs args) (ascii format) with
  | .ok (out, _) =>
    if out.length ≤ cliprintfLen then .ok [.putStr out data.serialDriverTid]
    else .error .overruns
  | .error _ => .error .overruns

def cliredraw (data : CliInternalData n F) : List (CliEffect F) := [.redraw data.serialUITid]

def helpTexts : List String :=
  ["\r\n",
    "  Built-in commands \r\n",
    "     h   help \r\n",
    "     ~   Returns to the top or root command directory \r\n",
    "     ..  Moves the from the current directory up one directory \r\n",
    "     ld  current directory listing  \r\n",
    "     !   (bang) global command seek and execute \r\n",
    "     ls  Global list of commands \r\n",
    "  All commands followed by <enter> \r\n",
    "\r\n"]

def cliHelp (data : CliInternalData n F) : Except CliFault (List (CliEffect F)) := do
  let out ← helpTexts.mapM fun text ↦ cliprintf data text []
  return out.flatten

def strExact : List Byte → List Byte → Bool
  | [], p2 => decide (p2.length = 0)
  | _ :: _, [] => false
  | c :: p1, d :: p2 => if c = d then strExact p1 p2 else false

/-- The string in the array `name` of a record, after `strcpy` and the zero at
its 34th place. -/
def copyName (name : List Byte) : Except CliFault (List Byte) :=
  if name.length < cliEntryLen + 1 then .ok (name.take (cliEntryLen - 1)) else .error .overruns

/-- The loop of `cli_bind_entry`, from the entry `p` on: why the record is not
added, or the last entry. The last one is not compared. -/
def lastEntry (data : CliInternalData n F) (name : List Byte) (cmdRec : RecordPtr n) :
    ℕ → RecordPtr n → Except CliFault (RcCli ⊕ RecordPtr n)
  | 0, _ => .error .spins
  | fuel + 1, p =>
    match (data.record p).nextEntry with
    | none => .ok (.inr p)
    | some next =>
      if cmdRec = p then .ok (.inl .recordCorrupt)
      else if strExact (data.record p).name name then .ok (.inl .duplicate)
      else lastEntry data name cmdRec fuel next

def newEntry (data : CliInternalData n F) (name : List Byte) (fv : Option F)
    (dir cmdRec : RecordPtr n) (last : Option (RecordPtr n)) : CliInternalData n F :=
  let data :=
    match last with
    | none => data.modify dir fun r ↦ { r with link2subdir := some cmdRec }
    | some last => data.modify last fun r ↦ { r with nextEntry := some cmdRec }
  let data := data.modify cmdRec fun r ↦ { r with
    name := name
    parentDir := some dir
    nextEntry := none
    link2subdir := none
    fv := fv }
  if fv.isSome then
    { data.modify cmdRec fun r ↦ { r with cmdList := data.list } with list := some cmdRec }
  else data

def cliBindEntry (data : CliInternalData n F) (name : Option (List Byte)) (fv : Option F)
    (dirRec cmdRec : Option (RecordPtr n)) : Except CliFault (RcCli × CliInternalData n F) :=
  match name, cmdRec with
  | none, _ => .ok (.nullName, data)
  | some _, none => .ok (.nullCmd, data)
  | some name, some cmdRec =>
    let dir := dirRec.getD 0
    if cmdRec = dir then .ok (.recordCorrupt, data)
    else
      match (data.record dir).link2subdir with
      | none => do
        let stored ← copyName name
        .ok (.ok, newEntry data stored fv dir cmdRec none)
      | some first => do
        match ← lastEntry data name cmdRec (n + 1) first with
        | .inl rc => .ok (rc, data)
        | .inr last =>
          let stored ← copyName name
          .ok (.ok, newEntry data stored fv dir cmdRec (some last))

def cliMkcmd (data : CliInternalData n F) (name : Option (List Byte)) (fv : Option F)
    (dirRec cmdRec : Option (RecordPtr n)) : Except CliFault (RcCli × CliInternalData n F) :=
  if fv.isNone then .ok (.nullFv, data)
  else if (data.record (dirRec.getD 0)).fv.isSome then .ok (.dirInvalid, data)
  else cliBindEntry data name fv (some (dirRec.getD 0)) cmdRec

def cliMkdir (data : CliInternalData n F) (name : Option (List Byte))
    (dirRec subDir : Option (RecordPtr n)) : Except CliFault (RcCli × CliInternalData n F) :=
  if (data.record (dirRec.getD 0)).fv.isSome then .ok (.dirInvalid, data)
  else cliBindEntry data name none (some (dirRec.getD 0)) subDir

/-- The function `cli_init`. -/
def baseCliInit (serialDriverTid serialUITid : Word) (prefixName : List Byte)
    (data : CliInternalData n F) : Except CliFault (RcCli × CliInternalData n F) := do
  let name ← copyName prefixName
  return (.ok,
    { data.modify 0 fun r ↦ { r with
        name := name
        fv := none
        parentDir := some 0
        nextEntry := none
        link2subdir := none } with
      serialDriverTid := serialDriverTid
      serialUITid := serialUITid
      list := none
      currentDirectory := some 0 })

/-- The records that a loop over a list visits. There are `n + 1` records, so a
list that is longer never ends. -/
def listFrom (next : RecordPtr n → Option (RecordPtr n)) :
    ℕ → Option (RecordPtr n) → Except CliFault (List (RecordPtr n))
  | _, none => .ok []
  | 0, some _ => .error .spins
  | fuel + 1, some p => do
    let ps ← listFrom next fuel (next p)
    return p :: ps

def searchFrom (data : CliInternalData n F) (next : RecordPtr n → Option (RecordPtr n))
    (name : List Byte) : ℕ → Option (RecordPtr n) → Except CliFault (Option (RecordPtr n))
  | _, none => .ok none
  | 0, some _ => .error .spins
  | fuel + 1, some p =>
    if strExact (data.record p).name name then .ok (some p)
    else searchFrom data next name fuel (next p)

def listEntry (data : CliInternalData n F) (format : String) (count : ℕ) (p : RecordPtr n) :
    Except CliFault (ℕ × List (CliEffect F)) := do
  let separator ← if count ≠ 0 then cliprintf data ", " [] else .ok []
  let entry ← cliprintf data format [(data.record p).name]
  let count := count + 1
  if entriesPerLine ≤ count then
    let newline ← cliprintf data "\r\n" []
    return (0, separator ++ entry ++ newline)
  else return (count, separator ++ entry)

def listEntries (data : CliInternalData n F) (format : String) :
    ℕ → List (RecordPtr n) → Except CliFault (ℕ × List (CliEffect F))
  | count, [] => .ok (count, [])
  | count, p :: ps => do
    let (count, out) ← listEntry data format count p
    let (count, rest) ← listEntries data format count ps
    return (count, out ++ rest)

def endLine (data : CliInternalData n F) (count : ℕ) : Except CliFault (List (CliEffect F)) :=
  if count ≠ 0 then cliprintf data "\r\n" [] else .ok []

def globalCommandList (data : CliInternalData n F) : Except CliFault (List (CliEffect F)) := do
  let ps ← listFrom (fun p ↦ (data.record p).cmdList) (n + 1) data.list
  let (count, out) ← listEntries data "%s" 0 ps
  return out ++ (← endLine data count)

def listDirectory (data : CliInternalData n F) : Except CliFault (List (CliEffect F)) := do
  match data.currentDirectory with
  | none => .error .nullPointer
  | some dir =>
    let ps ← listFrom (fun p ↦ (data.record p).nextEntry) (n + 1) (data.record dir).link2subdir
    let (count, dirs) ← listEntries data "[%s]" 0 (ps.filter fun p ↦ (data.record p).fv.isNone)
    let (count, cmds) ← listEntries data "%s" count (ps.filter fun p ↦ (data.record p).fv.isSome)
    return dirs ++ cmds ++ (← endLine data count)

def unknownEntry (data : CliInternalData n F) (name : List Byte) :
    Except CliFault (List (CliEffect F)) := cliprintf data "\n*Unknown entry \"%s\"\r\n" [name]

structure CliFound (n : ℕ) (F : Type) where
  data : CliInternalData n F
  record : Option (RecordPtr n)
  output : List (CliEffect F)

/-- What `cli_find_cmd` does with a name that no entry has. -/
def builtIn (data : CliInternalData n F) (name : List Byte) : Except CliFault (CliFound n F) :=
  if strExact name (ascii "..") then
    match data.currentDirectory with
    | none => .error .nullPointer
    | some dir => .ok ⟨{ data with currentDirectory := (data.record dir).parentDir }, none, []⟩
  else if strExact name (ascii "~") then
    .ok ⟨{ data with currentDirectory := some 0 }, none, []⟩
  else if strExact name (ascii "ld") then do return ⟨data, none, ← listDirectory data⟩
  else if strExact name (ascii "ls") then do return ⟨data, none, ← globalCommandList data⟩
  else if strExact name (ascii "h") ∨ strExact name (ascii "help") ∨ strExact name (ascii "?") then do
    return ⟨data, none, ← cliHelp data⟩
  else do return ⟨data, none, ← unknownEntry data name⟩

def cliFindCmd (data : CliInternalData n F) (name : List Byte) :
    Except CliFault (CliFound n F) :=
  if name.head? = some 33 then do
    let name := name.tail
    match ← searchFrom data (fun p ↦ (data.record p).cmdList) name (n + 1) data.list with
    | some p => return ⟨data, some p, []⟩
    | none => return ⟨data, none, ← unknownEntry data name⟩
  else
    match data.currentDirectory with
    | none => .error .nullPointer
    | some dir => do
      match ← searchFrom data (fun p ↦ (data.record p).nextEntry) name (n + 1)
          (data.record dir).link2subdir with
      | some p => return ⟨data, some p, []⟩
      | none => builtIn data name

/-- The arguments behind the first one, and what is left of the buffer. -/
def pickParameters : ℕ → List Byte × ℕ → List (List Byte) × List Byte
  | 0, s => ([], s.1)
  | fuel + 1, s =>
    match strtokR (ascii " \t\n") s with
    | none => ([], s.1)
    | some (token, s) => (token :: (pickParameters fuel s).1, (pickParameters fuel s).2)

structure CliResult (n : ℕ) (F : Type) where
  data : CliInternalData n F
  buffer : List Byte
  effects : List (CliEffect F)

def runEntry (data : CliInternalData n F) (argv0 : List Byte) (parameters : List (List Byte))
    (buffer : List Byte) : Except CliFault (CliResult n F) := do
  let found ← cliFindCmd data argv0
  match found.record with
  | none => return ⟨found.data, buffer, found.output ++ cliredraw found.data⟩
  | some p =>
    match (found.data.record p).fv with
    | some fv =>
      return ⟨found.data, buffer,
        found.output ++ .call fv (argv0 :: parameters) :: cliredraw found.data⟩
    | none =>
      return ⟨{ found.data with currentDirectory := some p }, buffer,
        found.output ++ cliredraw found.data⟩

def cliEngine (data : CliInternalData n F) (inputString : List Byte) :
    Except CliFault (CliResult n F) :=
  if inputString.getD 0 0 = 0 then .ok ⟨data, inputString, cliredraw data⟩
  else
    match strtokR (ascii ", \t\n\r") (inputString, 0) with
    | none => .ok ⟨data, inputString, cliredraw data⟩
    | some (argv0, s) =>
      runEntry data argv0 (pickParameters (argcMax - 1) s).1 (pickParameters (argcMax - 1) s).2

end PrjOS
