import PrjOS.Syscall.Messages
import PrjOS.BaseTasks.Nameserver

namespace PrjOS

open ByteMemory

def errRegisterasInvalidTid : Word := -1
def errRegisterasWrongTid : Word := -2
def errRegisterasNoSpace : Word := -3
def errRegisterasTooLong : Word := -4
def errRegisterasError : Word := -5

def errWhoisInvalidTid : Word := -1
def errWhoisWrongTid : Word := -2
def errWhoisNotFound : Word := -3
def errWhoisError : Word := -4

def nameserverNamestr : List Byte := [78, 97, 109, 101, 83, 101, 114, 118, 101, 114]

/-- What `prjSend` returns, and the reply variable after it. -/
structure Sent where
  ret : Word
  reply : NameserverQuery

/-- The query about `name`. The buffer keeps its old bytes `rest` after the
string. -/
def clientQuery (self : Word) (operation : Byte) (name rest : List Byte) : NameserverQuery where
  senderTid := self
  buffer := name ++ 0 :: rest
  bufferLen := BitVec.ofNat 16 (name.length + 1)
  operation := operation

def whoisStatus (ret : Word) : Word :=
  if ret = errSendTaskidDne then errWhoisInvalidTid
  else if ret = errSendTaskidNotfound then errWhoisWrongTid
  else if ret = errSendBadBuffer then errWhoisError
  else if ret = errSendIncomplete then errWhoisError
  else ret

/-- The end of `prjWhoIs`. The comparisons with 0 are between unsigned
numbers. -/
def whoisResult (sent : Sent) : Word :=
  let ret := whoisStatus sent.ret
  if 0 < ret then
    if sent.reply.operation ≠ nameserverOperationWhois then errWhoisError
    else if sent.reply.bufferLen ≠ 4 then errWhoisError
    else
      let value := wordAt sent.reply.buffer 0
      if 0 < value then value else errWhoisNotFound
  else ret

/-- `nameserverTid` is what the kernel returns for the name of the nameserver
itself, and `send` is the Send to it. -/
def prjWhoIs (nameserverTid self : Word) (rest : List Byte)
    (send : Word → NameserverQuery → Sent) (name : List Byte) : Word :=
  if name = nameserverNamestr then nameserverTid
  else if nameserverTid ≤ 0 then errWhoisWrongTid
  else whoisResult (send nameserverTid (clientQuery self nameserverOperationWhois name rest))

def registerasStatus (ret : Word) : Word :=
  if ret = errSendTaskidDne then errRegisterasInvalidTid
  else if ret = errSendTaskidNotfound then errRegisterasWrongTid
  else if ret = errSendBadBuffer then errRegisterasError
  else if ret = errSendIncomplete then errRegisterasError
  else ret

def registerasResult (sent : Sent) : Word :=
  let ret := registerasStatus sent.ret
  if 0 < ret then
    if sent.reply.operation = nameserverOperationTooLong then errRegisterasTooLong
    else if sent.reply.operation = nameserverOperationError then errRegisterasError
    else if sent.reply.operation = nameserverOperationNoSpace then errRegisterasNoSpace
    else if sent.reply.operation = nameserverOperationRegister then 0
    else errRegisterasError
  else ret

def prjRegisterAs (nameserverTid self : Word) (rest : List Byte)
    (send : Word → NameserverQuery → Sent) (name : List Byte) : Word :=
  registerasResult (send nameserverTid (clientQuery self nameserverOperationRegister name rest))

/-- The reply that the nameserver builds from its answer. `unset` is what a
variable holds that it has not set, `rest` the end of the buffer. -/
def replyQuery (nameserverTid : Word) (a : Answer) (unset : Word) (rest : List Byte) :
    NameserverQuery where
  senderTid := nameserverTid
  buffer := wordBytes (a.returnValue.getD unset) ++ rest
  bufferLen := 4
  operation := a.operation

inductive SendError
  | taskidDne | taskidNotfound | incomplete | badBuffer | exited
  deriving DecidableEq

def SendError.code : SendError → Word
  | taskidDne => errSendTaskidDne
  | taskidNotfound => errSendTaskidNotfound
  | incomplete => errSendIncomplete
  | badBuffer => errSendBadBuffer
  | exited => errSendExited

end PrjOS
