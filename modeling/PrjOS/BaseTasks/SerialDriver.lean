import PrjOS.Syscall.Serial
import PrjOS.Syscall.Messages

namespace PrjOS

open ByteMemory Program Rendezvous

def serialDriverDataSize : Word := 20

def initializeSerialDriver (initData : SerialDriverInitData) : BaseProg Word := do
  let head ← unset 8
  let driverData := head ++ wordBytes initData.receiveAwaitEventId ++
    wordBytes initData.getCharNonBlocking ++ wordBytes initData.putCharBlocking
  let driverTid ← prjCreate .serialDriverTask
  let _ ← prjSend driverTid driverData 4
  return driverTid

def putChars (message : List Byte) : Nat → Nat → BaseProg Unit
  | _, 0 => return ()
  | i, n + 1 => do
    let b ← messageByte message i
    let _ ← putCharBlocking (b.setWidth 32)
    putChars message (i + 1) n

def characterReceived (data : SerialDriverData) (otherTask : Word) :
    BaseProg SerialDriverData := do
  let _ ← prjReply otherTask (wordBytes 0) 4
  if data.blockedCharTid ≠ 0 then
    let ch ← getCharNonBlocking
    if ch ≠ -1 then
      let _ ← prjReply data.blockedCharTid (wordBytes ch) 4
      return { data with blockedCharTid := 0 }
    else return data
  else return data

def getChar (data : SerialDriverData) (otherTask : Word) : BaseProg SerialDriverData := do
  let ch ← getCharNonBlocking
  if ch = -1 then
    if data.blockedCharTid = 0 then return { data with blockedCharTid := otherTask }
    else
      let _ ← prjReply otherTask (wordBytes (-1)) 4
      return data
  else
    let _ ← prjReply otherTask (wordBytes ch) 4
    return data

def sendMessage (data : SerialDriverData) (otherTask : Word) (message : List Byte) (size : Word) :
    BaseProg SerialDriverData := do
  if size < 7 then return data
  else
    let len ← messageHalf message 4
    let bytesSent := putBufLen len
    putChars message 6 bytesSent.toNat
    let _ ← prjReply otherTask (halfBytes bytesSent) 2
    return data

/-- `message` holds the received bytes. What the driver reads behind them is
old. -/
def processMessage (data : SerialDriverData) (otherTask : Word) (message : List Byte)
    (size : Word) : BaseProg SerialDriverData := do
  if size < 4 then
    let _ ← prjReply otherTask message size
    return data
  else
    let messageType ← messageWord message 0
    if messageType = messageTypeCharacterReceived then characterReceived data otherTask
    else if messageType = messageTypeGetChar then getChar data otherTask
    else if messageType = messageTypeGetCharNonblocking then
      let ch ← getCharNonBlocking
      let _ ← prjReply otherTask (wordBytes ch) 4
      return data
    else if messageType = messageTypeSendMessage then sendMessage data otherTask message size
    else if messageType = messageTypeQuit then return { data with keepRunning := false }
    else
      let _ ← prjReply otherTask (message.drop 4) size
      return data

def incomingCharacterPollingTask : BaseProg Point := do
  let parentTid ← prjGetParentTid
  let eventId ← unset 4
  let received ← prjReceive 4
  let eventId := overwrite eventId received.bytes
  let _ ← prjReply received.sender eventId 4
  return .polling parentTid (wordAt eventId 0)

def pollingLoop (parentTid eventId : Word) : BaseProg Point := do
  let _ ← prjAwaitEvent eventId
  let _ ← prjSend parentTid (wordBytes messageTypeCharacterReceived) 4
  return .polling parentTid eventId

def serialDriverTask : BaseProg Point := do
  let data ← unset serialDriverDataSize.toNat
  let received ← prjReceive serialDriverDataSize
  let receiveAwaitEventId := wordAt (overwrite data received.bytes) 8
  let pollingTask ← prjCreate .incomingCharacterPollingTask
  let _ ← prjSend pollingTask (wordBytes receiveAwaitEventId) 4
  let _ ← prjReply received.sender (wordBytes received.sender) 4
  return .serialDriver ⟨true, 0, receiveAwaitEventId⟩

def serialDriverLoop (data : SerialDriverData) : BaseProg Point := do
  let received ← prjReceive (BitVec.ofNat 32 maxMessageLen)
  if 0 < received.size then
    let data ← processMessage data received.sender received.bytes received.size
    return .serialDriver data
  else return .serialDriver data

def driverReceives (sender : Word) (message : List Byte) : Incoming :=
  .of errReceiveBufferTooSmall sender (BitVec.ofNat 32 maxMessageLen) message

section Received

variable (sender : Word) (message : List Byte)

@[simp] theorem driverReceives_sender : (driverReceives sender message).sender = sender := rfl

theorem driverReceives_bytes : (driverReceives sender message).bytes = message.take 512 := rfl

theorem driverReceives_size_lt {n : Nat} (hn : n ≤ 512) :
    (driverReceives sender message).size < BitVec.ofNat 32 n ↔ message.length < n := by
  have hroom : (BitVec.ofNat 32 maxMessageLen).toNat = 512 := by decide
  simp only [driverReceives, Incoming.of, hroom]
  split_ifs with hlong
  · have hmax : errReceiveBufferTooSmall.toNat = 4294967295 := by decide
    rw [BitVec.lt_def, hmax, BitVec.toNat_ofNat, Nat.mod_eq_of_lt (by omega)]
    omega
  · rw [BitVec.lt_def, BitVec.toNat_ofNat, BitVec.toNat_ofNat, Nat.mod_eq_of_lt (by omega),
      Nat.mod_eq_of_lt (by omega)]

theorem driverReceives_size_pos :
    0 < (driverReceives sender message).size ↔ message ≠ [] := by
  have hone := driverReceives_size_lt sender message (n := 1) (by omega)
  have hzero : (0 : Word).toNat = 0 := rfl
  have h1 : (BitVec.ofNat 32 1).toNat = 1 := rfl
  rw [BitVec.lt_def, h1] at hone
  rw [← List.length_pos_iff, BitVec.lt_def, hzero]
  omega

/-- The start of a message arrives whole. -/
theorem driverReceives_getD {i : Nat} (hi : i < 512) :
    (driverReceives sender message).bytes.getD i 0 = message.getD i 0 := by
  rw [driverReceives_bytes, List.getD_eq_getElem?_getD, List.getD_eq_getElem?_getD,
    List.getElem?_take_of_lt hi]

theorem driverReceives_wordAt :
    wordAt (driverReceives sender message).bytes 0 = wordAt message 0 := by
  simp only [wordAt, driverReceives_getD _ _ (i := 0 + 3) (by omega),
    driverReceives_getD _ _ (i := 0 + 2) (by omega),
    driverReceives_getD _ _ (i := 0 + 1) (by omega), driverReceives_getD _ _ (i := 0) (by omega)]

theorem driverReceives_halfAt :
    halfAt (driverReceives sender message).bytes 4 = halfAt message 4 := by
  simp only [halfAt, driverReceives_getD _ _ (i := 4 + 1) (by omega),
    driverReceives_getD _ _ (i := 4) (by omega)]

theorem le_length_driverReceives {n : Nat} (hn : n ≤ 512) :
    n ≤ (driverReceives sender message).bytes.length ↔ n ≤ message.length := by
  rw [driverReceives_bytes, List.length_take]
  omega

end Received

end PrjOS
