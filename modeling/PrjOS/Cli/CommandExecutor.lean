import PrjOS.BaseTasks.SerialDriver
import PrjOS.Cli.SerialUI

namespace PrjOS

open ByteMemory Program Rendezvous

/-- The string ends within the buffer, and is printable up to there. -/
def isCommandOk (command : List Byte) : Bool :=
  (0 : Byte) ∈ command.take maxLineLength ∧
    ∀ b ∈ cString (command.take maxLineLength), 32 ≤ b ∧ b ≤ 126

/-- The calls of `cli_engine` that other tasks see: output, and at the end
`cliredraw`. -/
def cliPrint (serialDriverTid : Word) : List (List Byte) → BaseProg Unit
  | [] => return ()
  | str :: output => do
    let _ ← prjPutStr str serialDriverTid
    cliPrint serialDriverTid output

def cliRedraw (serialUITid : Word) : BaseProg Unit := do
  let message ← unset 8
  let _ ← prjSend serialUITid (message.set 0 serialUiMessageTypeRedraw) 1
  return ()

def executeCommand (c : CommandExecutor) : BaseProg CommandExecutor := do
  if isCommandOk c.command then
    let run ← (.call (.outside (.cliEngine c.command)) .done : BaseProg CliRun)
    cliPrint c.serialDriverTid run.output
    cliRedraw c.serialUITid
    return { c with command := run.command }
  else return c

def commandExecutorDataSize : Word := 8

def commandExecutorEntry : BaseProg Point := do
  let data ← unset commandExecutorDataSize.toNat
  let message ← unset 8
  let command ← unset maxLineLength
  let received ← prjReceive commandExecutorDataSize
  let data := overwrite data received.bytes
  let _ ← prjReply received.sender [] 0
  return .commandExecutor ⟨wordAt data 0, wordAt data 4,
    message.set 0 serialUiMessageTypeCommandSubscribe, command⟩

def commandExecutorLoop (c : CommandExecutor) : BaseProg Point := do
  let sent ← prjSend c.serialUITid c.message (BitVec.ofNat 32 maxLineLength)
  let c ← executeCommand { c with command := overwrite c.command sent.bytes }
  return .commandExecutor c

def cliInit (serialDriverTid serialUITid : Word) : BaseProg Word := do
  let commandExecutorTid ← prjCreate .commandExecutorEntry
  let _ ← prjSend commandExecutorTid (wordBytes serialDriverTid ++ wordBytes serialUITid) 4
  return commandExecutorTid

/-- The task of an application that sets up the others. -/
def initialise (initData : SerialDriverInitData) : BaseProg Point := do
  let serialDriverTid ← initializeSerialDriver initData
  let serialUITid ← initializeSerialUI serialDriverTid
  let _ ← cliInit serialDriverTid serialUITid
  return .stopped

/-- A reader that does nothing else. -/
def readerLoop (serialTid ch : Word) : BaseProg Point := do
  let read ← prjGetCh ch serialTid
  return .reader serialTid read.charOut

/-- Any other client of the driver and the user interface. -/
def applicationLoop (serialDriverTid serialUITid : Word) : BaseProg Point := do
  let request ← (.call (.outside .request) .done : BaseProg Request)
  match request with
  | .output str len =>
    let _ ← prjPutBuf str len serialDriverTid
    return .application serialDriverTid serialUITid
  | .redraw =>
    cliRedraw serialUITid
    return .application serialDriverTid serialUITid
  | .subscribe =>
    let message ← unset 8
    let _ ← prjSend serialUITid (message.set 0 serialUiMessageTypeCommandSubscribe)
      (BitVec.ofNat 32 maxLineLength)
    return .application serialDriverTid serialUITid

def baseTasks : Blocks BaseCall BaseAnswer Point
  | .initialise initData => some (initialise initData)
  | .serialDriverTask => some serialDriverTask
  | .serialDriver data => if data.keepRunning then some (serialDriverLoop data) else none
  | .incomingCharacterPollingTask => some incomingCharacterPollingTask
  | .polling parentTid eventId => some (pollingLoop parentTid eventId)
  | .serialUITask => some serialUITask
  | .serialUI ui => some (serialUILoop ui)
  | .serialUICharacterCourier => some serialUICharacterCourier
  | .courier c => some (courierLoop c)
  | .commandExecutorEntry => some commandExecutorEntry
  | .commandExecutor c => some (commandExecutorLoop c)
  | .stopped => none
  | .reader serialTid ch => some (readerLoop serialTid ch)
  | .application serialDriverTid serialUITid =>
    some (applicationLoop serialDriverTid serialUITid)

end PrjOS
