import PrjOS.Syscall.Serial

namespace PrjOS

open ByteMemory Program Rendezvous

def maxLineLength : Nat := 80

def serialUiMessageTypeCommandSubscribe : Byte := 1
def serialUiMessageTypeCharacterReceived : Byte := 2
def serialUiMessageTypeRedraw : Byte := 3

/-- `sizeof(serialUIMessage)`: a byte for the type, three for the alignment, and
a word of data. -/
def serialUIMessageSize : Word := 8

def messageType (message : List Byte) : Byte := message.getD 0 0

def messageData (message : List Byte) : Word := wordAt message 4

def withData (message : List Byte) (data : Word) : List Byte := message.take 4 ++ wordBytes data

def initializeSerialUI (serialDriverTid : Word) : BaseProg Word := do
  let uiTid ← prjCreate .serialUITask
  let _ ← prjSend uiTid (wordBytes serialDriverTid) 4
  return uiTid

def SerialUI.clearLine (ui : SerialUI) : SerialUI :=
  { ui with line := 62 :: List.replicate (maxLineLength - 1) 0, cursor := 1 }

def SerialUI.shortenLine (ui : SerialUI) : SerialUI :=
  { ui with line := ui.line.take ui.cursor ++ List.replicate (maxLineLength - ui.cursor) 0 }

def SerialUI.addchar (ui : SerialUI) (ch : Byte) : SerialUI :=
  if ui.cursor < maxLineLength - 1 then
    { ui with line := (ui.line.set ui.cursor ch).set (ui.cursor + 1) 0, cursor := ui.cursor + 1 }
  else ui

def SerialUI.backspace (ui : SerialUI) : SerialUI :=
  if 1 < ui.cursor then
    { ui with line := (ui.line.set (ui.cursor - 1) 32).set ui.cursor 0, cursor := ui.cursor - 1 }
  else ui

/-- The command is the string after the prompt. -/
def SerialUI.getCommand (ui : SerialUI) : SerialUI :=
  let src := cString ((ui.line.drop 1).take maxLineLength)
  { ui with command := overwrite ui.command (src ++ [0]) }

def serialUICharacterCourier : BaseProg Point := do
  let tid ← unset 4
  let message ← unset 8
  let received ← prjReceive 4
  let serialDriverTid := wordAt (overwrite tid received.bytes) 0
  let _ ← prjReply received.sender (wordBytes 0) 4
  return .courier ⟨received.sender, serialDriverTid,
    message.set 0 serialUiMessageTypeCharacterReceived, 0⟩

def courierLoop (c : Courier) : BaseProg Point := do
  let read ← prjGetCh c.ch c.serialDriverTid
  if 0 < read.ret ∧ 0 < (byteOf read.charOut 0).toInt then
    let message := withData c.message read.charOut
    let sent ← prjSend c.uiTaskTid message 4
    return .courier { c with
      message := message, ch := wordAt (overwrite (wordBytes read.charOut) sent.bytes) 0 }
  else return .courier { c with ch := read.charOut }

def serialUITask : BaseProg Point := do
  let tid ← unset 4
  let command ← unset maxLineLength
  let message ← unset 8
  let received ← prjReceive 4
  let serialDriverTid := wordAt (overwrite tid received.bytes) 0
  let courier ← prjCreate .serialUICharacterCourier
  let sent ← prjSend courier (wordBytes serialDriverTid) 4
  let dummy := overwrite (wordBytes courier) sent.bytes
  let _ ← prjReply received.sender dummy 4
  let ui := SerialUI.clearLine ⟨serialDriverTid, 0, [], 0, command, message, dummy⟩
  let _ ← prjPutStr ui.line serialDriverTid
  return .serialUI ui

def SerialUI.redraw (ui : SerialUI) : BaseProg Unit := do
  let _ ← prjPutStr [13] ui.serialDriverTid
  let _ ← prjPutStr ui.line ui.serialDriverTid
  return ()

def SerialUI.enter (ui : SerialUI) : BaseProg SerialUI := do
  let ui := ui.getCommand
  let _ ← prjPutStr [10, 13] ui.serialDriverTid
  let ui := ui.clearLine
  if ui.commandExecutorTid ≠ 0 then
    let command := cString ui.command ++ [0]
    let _ ← prjReply ui.commandExecutorTid command (BitVec.ofNat 32 command.length)
    return { ui with commandExecutorTid := 0 }
  else
    let _ ← prjPutStr ui.line ui.serialDriverTid
    return ui

def SerialUI.character (ui : SerialUI) (ch : Byte) : BaseProg SerialUI := do
  if 32 ≤ ch ∧ ch ≤ 126 then
    let ui := ui.addchar ch
    ui.redraw
    return ui
  else if ch = 8 then
    let ui := ui.backspace
    ui.redraw
    let ui := ui.shortenLine
    ui.redraw
    return ui
  else if ch = 13 then ui.enter
  else return ui

def SerialUI.handle (ui : SerialUI) (otherTask : Word) : BaseProg SerialUI := do
  if messageType ui.message = serialUiMessageTypeCommandSubscribe then
    if ui.commandExecutorTid = 0 then return { ui with commandExecutorTid := otherTask }
    else
      let _ ← prjReply otherTask [0] 1
      return ui
  else if messageType ui.message = serialUiMessageTypeRedraw then
    ui.redraw
    let _ ← prjReply otherTask ui.dummy 1
    return ui
  else if messageType ui.message = serialUiMessageTypeCharacterReceived then
    let _ ← prjReply otherTask ui.dummy 1
    ui.character (byteOf (messageData ui.message) 0)
  else return ui

def serialUILoop (ui : SerialUI) : BaseProg Point := do
  let received ← prjReceive serialUIMessageSize
  let ui := { ui with message := overwrite ui.message received.bytes }
  if 0 < received.size then
    let ui ← ui.handle received.sender
    return .serialUI ui
  else return .serialUI ui

end PrjOS
