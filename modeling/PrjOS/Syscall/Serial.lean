import PrjOS.BaseTasks.Calls

namespace PrjOS

open ByteMemory Program

def maxMessageLen : Nat := 512

def messageTypeGetChar : Word := 1
def messageTypeGetCharNonblocking : Word := 2
def messageTypeSendMessage : Word := 3
def messageTypeQuit : Word := 4
def messageTypeCharacterReceived : Word := 5

structure CharRead where
  ret : Word
  charOut : Word
  deriving DecidableEq

def prjGetCh (charOut serialTid : Word) : BaseProg CharRead := do
  if serialTid = 0 then return ⟨-1, charOut⟩
  else
    let ch ← unset 4
    let sent ← prjSend serialTid (wordBytes messageTypeGetChar) 4
    if sent.size < 1 then return ⟨-1, charOut⟩
    else return ⟨1, wordAt (overwrite ch sent.bytes) 0⟩

def prjGetChNonBlocking (charOut serialTid : Word) : BaseProg CharRead := do
  if serialTid = 0 then return ⟨-1, charOut⟩
  else
    let ch ← unset 4
    let sent ← prjSend serialTid (wordBytes messageTypeGetCharNonblocking) 4
    -- seven digits, not the eight of the driver's -1
    if wordAt (overwrite ch sent.bytes) 0 = 0xfffffff then return ⟨-1, charOut⟩
    else return ⟨1, wordAt (overwrite ch sent.bytes) 0⟩

/-- The length of `str` in the message is at most `MAX_MESSAGE_LEN`. -/
def putBufLen (len : BitVec 16) : BitVec 16 :=
  if BitVec.ofNat 16 maxMessageLen < len then BitVec.ofNat 16 maxMessageLen else len

def putBufMessage (str : List Byte) (len : BitVec 16) : List Byte :=
  wordBytes messageTypeSendMessage ++ halfBytes (putBufLen len) ++ str.take (putBufLen len).toNat

def prjPutBuf (str : List Byte) (len : BitVec 16) (serialTid : Word) : BaseProg Word := do
  if serialTid = 0 then return -1
  else
    let _ ← prjSend serialTid (putBufMessage str len) 2
    return (putBufLen len).setWidth 32

def prjPutStr (str : List Byte) (serialTid : Word) : BaseProg Word := do
  let len := BitVec.ofNat 16 (cString str).length
  if len = 0 then return 0 else prjPutBuf str len serialTid

end PrjOS
