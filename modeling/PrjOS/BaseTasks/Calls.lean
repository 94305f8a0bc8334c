import PrjOS.Library.Bytes
import PrjOS.Library.Rendezvous

namespace PrjOS

open ByteMemory Program Rendezvous

structure SerialDriverData where
  keepRunning : Bool
  blockedCharTid : Word
  receiveAwaitEventId : Word
  deriving DecidableEq

structure SerialDriverInitData where
  receiveAwaitEventId : Word
  getCharNonBlocking : Word
  putCharBlocking : Word

/-- The variables of `serialUITask` at the head of its loop. -/
structure SerialUI where
  serialDriverTid : Word
  commandExecutorTid : Word
  line : List Byte
  cursor : Nat
  command : List Byte
  message : List Byte
  dummy : List Byte
  deriving DecidableEq

structure Courier where
  uiTaskTid : Word
  serialDriverTid : Word
  message : List Byte
  ch : Word
  deriving DecidableEq

structure CommandExecutor where
  serialDriverTid : Word
  serialUITid : Word
  message : List Byte
  command : List Byte
  deriving DecidableEq

inductive Request
  | output (str : List Byte) (len : BitVec 16)
  | redraw
  | subscribe
  deriving DecidableEq

/-- The points between which the base tasks run: their entries, and the heads
of their loops. The last two are tasks of an application. -/
inductive Point
  | initialise (initData : SerialDriverInitData)
  | serialDriverTask
  | serialDriver (data : SerialDriverData)
  | incomingCharacterPollingTask
  | polling (parentTid eventId : Word)
  | serialUITask
  | serialUI (ui : SerialUI)
  | serialUICharacterCourier
  | courier (c : Courier)
  | commandExecutorEntry
  | commandExecutor (c : CommandExecutor)
  | stopped
  | reader (serialTid ch : Word)
  | application (serialDriverTid serialUITid : Word)

structure CliRun where
  output : List (List Byte)
  command : List Byte

/-- What the base tasks do apart from kernel calls. `stray` reads a byte of a
receive buffer behind the received message, and `unset` a local variable of `n`
bytes that has no value yet. -/
inductive Outside
  | getCharNonBlocking
  | putCharBlocking (ch : Word)
  | stray (i : Nat)
  | unset (n : Nat)
  | cliEngine (command : List Byte)
  | request

@[reducible] def Outside.Answer : Outside → Type
  | getCharNonBlocking => Word
  | putCharBlocking _ => Word
  | stray _ => Byte
  | unset n => Fin n → Byte
  | cliEngine _ => CliRun
  | request => Request

abbrev BaseCall : Type := Call Outside Point

abbrev BaseAnswer : BaseCall → Type := Call.Answer Outside.Answer

instance (c : BaseCall) : Nonempty (BaseAnswer c) := by
  cases c with
  | send => exact ⟨⟨0, []⟩⟩
  | receive => exact ⟨⟨0, 0, []⟩⟩
  | outside e =>
    cases e with
    | unset n => exact ⟨fun _ ↦ 0⟩
    | cliEngine => exact ⟨⟨[], []⟩⟩
    | request => exact ⟨.redraw⟩
    | _ => exact ⟨0⟩
  | _ => exact ⟨0⟩

abbrev BaseProg (α : Type) : Type := Prog BaseCall BaseAnswer α

abbrev BaseEvent : Type := CallEvent BaseAnswer

def prjSend (tid : Word) (message : List Byte) (replyLen : Word) : BaseProg Returned :=
  .call (.send tid message replyLen) .done

def prjReceive (msgLen : Word) : BaseProg Incoming := .call (.receive msgLen) .done

def prjReply (tid : Word) (message : List Byte) (size : Word) : BaseProg Word :=
  .call (.reply tid message size) .done

def prjAwaitEvent (eventId : Word) : BaseProg Word := .call (.awaitEvent eventId) .done

def prjCreate (entry : Point) : BaseProg Word := .call (.create entry) .done

def prjGetParentTid : BaseProg Word := .call .getParent .done

def getCharNonBlocking : BaseProg Word := .call (.outside .getCharNonBlocking) .done

def putCharBlocking (ch : Word) : BaseProg Word := .call (.outside (.putCharBlocking ch)) .done

def unset (n : Nat) : BaseProg (List Byte) := do
  let bytes ← (.call (.outside (.unset n)) .done : BaseProg (Fin n → Byte))
  return List.ofFn bytes

def overwrite (old new : List Byte) : List Byte := new ++ old.drop new.length

def messageByte (message : List Byte) (i : Nat) : BaseProg Byte :=
  match message[i]? with
  | some b => return b
  | none => .call (.outside (.stray i)) .done

def messageHalf (message : List Byte) (i : Nat) : BaseProg (BitVec 16) := do
  let b₀ ← messageByte message i
  let b₁ ← messageByte message (i + 1)
  return b₁ ++ b₀

def messageWord (message : List Byte) (i : Nat) : BaseProg Word := do
  let b₀ ← messageByte message i
  let b₁ ← messageByte message (i + 1)
  let b₂ ← messageByte message (i + 2)
  let b₃ ← messageByte message (i + 3)
  return b₃ ++ b₂ ++ b₁ ++ b₀

section Binds

variable {α : Type}

@[simp] theorem prjSend_bind (tid : Word) (message : List Byte) (replyLen : Word)
    (f : Returned → BaseProg α) :
    prjSend tid message replyLen >>= f = .call (.send tid message replyLen) f := rfl

@[simp] theorem prjReceive_bind (msgLen : Word) (f : Incoming → BaseProg α) :
    prjReceive msgLen >>= f = .call (.receive msgLen) f := rfl

@[simp] theorem prjReply_bind (tid : Word) (message : List Byte) (size : Word)
    (f : Word → BaseProg α) :
    prjReply tid message size >>= f = .call (.reply tid message size) f := rfl

@[simp] theorem prjAwaitEvent_bind (eventId : Word) (f : Word → BaseProg α) :
    prjAwaitEvent eventId >>= f = .call (.awaitEvent eventId) f := rfl

@[simp] theorem prjCreate_bind (entry : Point) (f : Word → BaseProg α) :
    prjCreate entry >>= f = .call (.create entry) f := rfl

@[simp] theorem prjGetParentTid_bind (f : Word → BaseProg α) :
    prjGetParentTid >>= f = .call .getParent f := rfl

@[simp] theorem getCharNonBlocking_bind (f : Word → BaseProg α) :
    getCharNonBlocking >>= f = .call (.outside .getCharNonBlocking) f := rfl

@[simp] theorem putCharBlocking_bind (ch : Word) (f : Word → BaseProg α) :
    putCharBlocking ch >>= f = .call (.outside (.putCharBlocking ch)) f := rfl

@[simp] theorem unset_bind (n : Nat) (f : List Byte → BaseProg α) :
    unset n >>= f =
      .call (.outside (.unset n)) fun bytes : Fin n → Byte ↦ f (List.ofFn bytes) := rfl

end Binds

theorem messageByte_of_lt {message : List Byte} {i : Nat} (h : i < message.length) :
    messageByte message i = .done (message.getD i 0) := by
  simp [messageByte, List.getElem?_eq_getElem h]

theorem messageByte_of_le {message : List Byte} {i : Nat} (h : message.length ≤ i) :
    messageByte message i = .call (.outside (.stray i)) .done := by
  simp [messageByte, List.getElem?_eq_none h]

theorem messageHalf_of_le {message : List Byte} {i : Nat} (h : i + 2 ≤ message.length) :
    messageHalf message i = .done (halfAt message i) := by
  have h₀ : i < message.length := by omega
  have h₁ : i + 1 < message.length := by omega
  simp only [messageHalf, messageByte_of_lt h₀, messageByte_of_lt h₁, done_bind, pure_eq_done,
    halfAt]

theorem messageWord_of_le {message : List Byte} {i : Nat} (h : i + 4 ≤ message.length) :
    messageWord message i = .done (wordAt message i) := by
  have h₀ : i < message.length := by omega
  have h₁ : i + 1 < message.length := by omega
  have h₂ : i + 2 < message.length := by omega
  have h₃ : i + 3 < message.length := by omega
  simp only [messageWord, messageByte_of_lt h₀, messageByte_of_lt h₁, messageByte_of_lt h₂,
    messageByte_of_lt h₃, done_bind, pure_eq_done, wordAt]

end PrjOS
