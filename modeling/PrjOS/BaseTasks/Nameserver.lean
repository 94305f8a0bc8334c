import PrjOS.Library.Bytes
import Mathlib.Data.List.FinRange
import Mathlib.Logic.Function.Basic

namespace PrjOS

open ByteMemory Function

def nameserverMaxNames : Nat := 16
def nameserverMaxNameLength : Nat := 32

def nameserverOperationInvalid : Byte := 0
def nameserverOperationRegister : Byte := 1
def nameserverOperationWhois : Byte := 2
def nameserverOperationExit : Byte := 3
def nameserverOperationNoSpace : Byte := 4
def nameserverOperationTooLong : Byte := 5
def nameserverOperationError : Byte := 6

structure NameserverEntry where
  tid : Word
  name : List Byte
  deriving DecidableEq

structure NameserverQuery where
  senderTid : Word
  buffer : List Byte
  bufferLen : BitVec 16
  operation : Byte
  deriving DecidableEq

/-- `sizeof(NameserverQuery)`, with the byte that aligns its end. -/
def nameserverQuerySize : Word := 40

abbrev NameEntries := Fin 16 → NameserverEntry

def noEntries : NameEntries := fun _ ↦ ⟨0, List.replicate nameserverMaxNameLength 0⟩

/-- What the nameserver puts into its reply. `returnValue` is `none` where the
source sends the variable without having set it. -/
structure Answer where
  operation : Byte
  returnValue : Option Word
  deriving DecidableEq

/-- `strcmp(a, b) == 0` -/
def sameString (a b : List Byte) : Bool := cString a = cString b

/-- Where the loop of a register request stops: the first entry that is empty
or has the name. -/
def registerSlot (nameEntries : NameEntries) (name : List Byte) : Option (Fin 16) :=
  (List.finRange 16).find? fun i ↦
    (nameEntries i).tid == 0 || sameString name (nameEntries i).name

def register (nameEntries : NameEntries) (sender : Word) (query : NameserverQuery) :
    NameEntries × Answer :=
  match registerSlot nameEntries query.buffer with
  | none => (nameEntries, ⟨nameserverOperationNoSpace, none⟩)
  | some i =>
    if (nameEntries i).tid = 0 then
      if query.bufferLen.toNat ≤ nameserverMaxNameLength then
        (update nameEntries i ⟨sender, strcpy (nameEntries i).name query.buffer⟩,
          ⟨nameserverOperationRegister, none⟩)
      else
        (update nameEntries i { nameEntries i with tid := sender },
          ⟨nameserverOperationTooLong, none⟩)
    else
      (update nameEntries i { nameEntries i with tid := sender },
        ⟨nameserverOperationRegister, none⟩)

def whois (nameEntries : NameEntries) (query : NameserverQuery) : Answer :=
  match (List.finRange 16).find? fun i ↦ sameString query.buffer (nameEntries i).name with
  | none => ⟨nameserverOperationWhois, some (-1)⟩
  | some i => ⟨nameserverOperationWhois, some (nameEntries i).tid⟩

/-- What the sender of a message gets: its own message back, an answer, or
nothing. -/
inductive Response
  | echo
  | ignored
  | answer (a : Answer)
  deriving DecidableEq

structure Nameserver where
  nameEntries : NameEntries
  run : Bool

def nameserverStart : Nameserver := ⟨noEntries, true⟩

/-- A message as `prjReceive` delivers it. If the size is not that of a query,
`query` is what the variable then holds. -/
structure Received where
  sender : Word
  receiveRet : Word
  query : NameserverQuery

def nameserverEntry (s : Nameserver) (m : Received) : Nameserver × Response :=
  if m.receiveRet ≠ nameserverQuerySize then (s, .echo)
  else if m.sender = 0 then (s, .ignored)
  else if m.query.operation = nameserverOperationRegister then
    let r := register s.nameEntries m.sender m.query
    ({ s with nameEntries := r.1 }, .answer r.2)
  else if m.query.operation = nameserverOperationWhois then
    (s, .answer (whois s.nameEntries m.query))
  else if m.query.operation = nameserverOperationExit then
    ({ s with run := false }, .answer ⟨nameserverOperationWhois, none⟩)
  else (s, .answer ⟨nameserverOperationInvalid, none⟩)

end PrjOS
