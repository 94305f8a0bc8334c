import PrjOS.Cli.BaseCli

namespace PrjOS

open ByteMemory

inductive CommandFunction
  | cmdTaskInfo | cmdTasksInfo | cmdTime
  deriving DecidableEq, Repr

def initCli (serialDriverTid serialUITid : Word) (data : CliInternalData 3 CommandFunction) :
    Except CliFault (RcCli × CliInternalData 3 CommandFunction) :=
  baseCliInit serialDriverTid serialUITid [] data

def cmdtaskInfo : RecordPtr 3 := 1
def cmdtasksInfo : RecordPtr 3 := 2
def cmdtimeInfo : RecordPtr 3 := 3

/-- The calls of `cli_mkcmd` at the start of the command executor, whose results
are not looked at. -/
def registerCommands (data : CliInternalData 3 CommandFunction) :
    Except CliFault (CliInternalData 3 CommandFunction) := do
  let (_, data) ← cliMkcmd data (some (ascii "task")) (some .cmdTaskInfo) none (some cmdtaskInfo)
  let (_, data) ← cliMkcmd data (some (ascii "tasks")) (some .cmdTasksInfo) none (some cmdtasksInfo)
  let (_, data) ← cliMkcmd data (some (ascii "time")) (some .cmdTime) none (some cmdtimeInfo)
  return data

/-- The loop of `myAtoi` at index `i`, which is of eight bits. There is no result
if it goes below zero. -/
def atoiDigits (sign : Word) : Word → ℕ → List Byte → Option Word
  | res, i, [] => if i < 128 then some (sign * res) else none
  | res, i, c :: str =>
    if i < 128 then
      if 48 ≤ c ∧ c ≤ 57 then atoiDigits sign (res * 10 + c.setWidth 32 - 48) (i + 1) str
      else some 0
    else none

def myAtoi (str : List Byte) : Option Word :=
  match str with
  | [] => some 0
  | c :: rest => if c = 45 then atoiDigits (-1) 0 1 rest else atoiDigits 1 0 0 (c :: rest)

end PrjOS
