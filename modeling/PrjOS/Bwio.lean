import PrjOS.Library.Bytes

namespace PrjOS

open ByteMemory

def printBufLen : ℕ := 12
def printLongBufLen : ℕ := 22

def padRight : Word := 1
def padZero : Word := 2

/-- What was given to `putchar` so far, and the counter `pc`. -/
structure Printed where
  chars : List Byte
  pc : Word

def Printed.printchar (p : Printed) (c : Byte) : Printed := ⟨p.chars ++ [c], p.pc + 1⟩

/-- `for ( ; width > 0; --width) printchar(padchar)`. -/
def Printed.pad (padchar : Byte) : ℕ → Printed → Printed
  | 0, p => p
  | width + 1, p => (p.printchar padchar).pad padchar width

def prints (string : List Byte) (width pad : Word) : Printed :=
  let len := BitVec.ofNat 32 string.length
  let padchar : Byte := if 0 < width.toInt ∧ pad &&& padZero ≠ 0 then 48 else 32
  let width :=
    if 0 < width.toInt then if width.toInt ≤ len.toInt then 0 else width - len else width
  let count := width.toInt.toNat
  let left := if pad &&& padRight = 0 then count else 0
  -- The first loop leaves nothing to the last one.
  let right := if pad &&& padRight = 0 then 0 else count
  (string.foldl Printed.printchar (.pad padchar left ⟨[], 0⟩)).pad padchar right

abbrev PrintBuf (n : ℕ) : Type := Vector Byte n

namespace PrintBuf

variable {n : ℕ}

/-- `print_buf[s] = c`, which must be inside. -/
def store (buf : PrintBuf n) (s : ℕ) (c : Byte) : Option (PrintBuf n) :=
  if h : s < n then some (buf.set s c h) else none

/-- `*--s = c` for a pointer `s` into the array. -/
def push (buf : PrintBuf n) (s : ℕ) (c : Byte) : Option (ℕ × PrintBuf n) :=
  match s with
  | 0 => none
  | s + 1 => (buf.store s c).map fun buf ↦ (s, buf)

def string (buf : PrintBuf n) (s : ℕ) : List Byte := cString (buf.toList.drop s)

end PrintBuf

section Numbers

variable {n w : ℕ}

def digitChar (letbase : Word) (t : BitVec w) : Byte :=
  let t := if 10 ≤ t.toInt then t + (letbase - 48 - 10).signExtend w else t
  (t + 48).setWidth 8

/-- The loop `while (u)`, which ends at the latest in front of the array. -/
def printDigits (b letbase : Word) : ℕ → BitVec w → PrintBuf n → Option (ℕ × PrintBuf n)
  | 0, u, buf => if u = 0 then some (0, buf) else none
  | s + 1, u, buf =>
    if u = 0 then some (s + 1, buf)
    else do
      let buf ← buf.store s (digitChar letbase (u % b.signExtend w))
      printDigits b letbase s (u / b.signExtend w) buf

/-- The common body of `printi` and `printli`, for numbers of `w` bits and an
array of `n` bytes that is not initialised. There is no result if it writes
outside of the array. -/
def printNumber (buf : PrintBuf n) (i : BitVec w) (b sg width pad letbase : Word) :
    Option Printed :=
  if i = 0 then do
    let buf ← buf.store 0 48
    let buf ← buf.store 1 0
    return prints (buf.string 0) width pad
  else do
    let neg := sg ≠ 0 ∧ b = 10 ∧ i.toInt < 0
    let u := if neg then -i else i
    let s := printBufLen - 1
    let buf ← buf.store s 0
    let (s, buf) ← printDigits b letbase s u buf
    if neg then
      if width ≠ 0 ∧ pad &&& padZero ≠ 0 then
        let p := prints (buf.string s) (width - 1) pad
        return ⟨45 :: p.chars, 1 + p.pc⟩
      else
        let (s, buf) ← buf.push s 45
        return prints (buf.string s) width pad
    else return prints (buf.string s) width pad

end Numbers

def printi (buf : PrintBuf printBufLen) (i b sg width pad letbase : Word) : Option Printed :=
  printNumber buf i b sg width pad letbase

def printli (buf : PrintBuf printLongBufLen) (i : BitVec 64) (b sg width pad letbase : Word) :
    Option Printed := printNumber buf i b sg width pad letbase

/-- What `varg` leads to: the argument words, the memory that they point into,
and the two numbers that `%f` makes of one. The local arrays of the number
printers hold anything. -/
structure VarArgs where
  word : ℕ → Word
  memory : Word → List Byte
  floatTop : Word → Word
  floatBottom : Word → Word
  printBuf : PrintBuf printBufLen
  printLongBuf : PrintBuf printLongBufLen

/-- `print` reads behind the end of its format, or writes outside of a local
array. -/
inductive PrintFault
  | format
  | printBuf
  deriving DecidableEq, Repr

/-- The variables `width`, `pad` and `isLong` before the letter of a directive. -/
structure FormatSpec where
  width : Word
  pad : Word
  isLong : Bool
  deriving DecidableEq

def readWidth : Word → List Byte → Word × List Byte
  | width, [] => (width, [])
  | width, c :: format =>
    if 48 ≤ c ∧ c ≤ 57 then readWidth (width * 10 + (c.setWidth 32 - 48)) format
    else (width, c :: format)

def readSpec (format : List Byte) : FormatSpec × List Byte :=
  let minus := format.head? = some 45
  let pad := if minus then padRight else 0
  let format := if minus then format.tail else format
  let pad := if format.head? = some 48 then pad ||| padZero else pad
  let (width, format) := readWidth 0 (format.dropWhile (· = 48))
  if format.head? = some 108 then (⟨width, pad, true⟩, format.tail)
  else (⟨width, pad, false⟩, format)

def Printed.append (p q : Printed) : Printed := ⟨p.chars ++ q.chars, p.pc + q.pc⟩

def inPrintBuf : Option Printed → Except PrintFault Printed
  | some p => .ok p
  | none => .error .printBuf

def printArgument (v : VarArgs) (varg : ℕ) (f : FormatSpec) (b sg letbase : Word) :
    Except PrintFault (Printed × ℕ) :=
  if f.isLong then do
    let longVal := v.word (varg + 2) ++ v.word (varg + 1)
    let p ← inPrintBuf (printli v.printLongBuf longVal b sg f.width f.pad letbase)
    return (p, varg + 2)
  else do
    let p ← inPrintBuf (printi v.printBuf (v.word varg) b sg f.width f.pad letbase)
    return (p, varg + 1)

def nullString : List Byte := [40, 110, 117, 108, 108, 41]

def printDirective (v : VarArgs) (varg : ℕ) (f : FormatSpec) (letter : Byte) :
    Except PrintFault (Printed × ℕ) :=
  if letter = 115 then
    let s := if v.word varg = 0 then nullString else cString (v.memory (v.word varg))
    return (prints s f.width f.pad, varg + 1)
  else if letter = 100 then printArgument v varg f 10 1 97
  else if letter = 120 then printArgument v varg f 16 1 97
  else if letter = 88 then printArgument v varg f 16 1 65
  else if letter = 117 then printArgument v varg f 10 0 97
  else if letter = 102 then do
    let top ← inPrintBuf (printi v.printBuf (v.floatTop (v.word varg)) 10 1 0 f.pad 97)
    let bottom ← inPrintBuf (printi v.printBuf (v.floatBottom (v.word varg)) 10 0 0 f.pad 97)
    return ((top.append (prints [46] 0 f.pad)).append bottom, varg + 1)
  else if letter = 99 then
    return (prints (cString [byteOf (v.word varg) 0]) f.width f.pad, varg + 1)
  else return (⟨[], 0⟩, varg)

/-- The loop of `print`, which takes a character of the format at least in
every pass. -/
def printLoop (v : VarArgs) : ℕ → List Byte → ℕ → Printed → Except PrintFault Printed
  | _, [], _, p => .ok p
  | 0, _ :: _, _, _ => .error .format
  | fuel + 1, c :: format, varg, p =>
    if c ≠ 37 then printLoop v fuel format varg (p.printchar c)
    else if format = [] then .ok p
    else if format.head? = some 37 then printLoop v fuel format.tail varg (p.printchar 37)
    else
      match readSpec format with
      | (_, []) => .error .format
      | (f, letter :: format) => do
        let (q, varg) ← printDirective v varg f letter
        printLoop v fuel format varg (p.append q)

def print (v : VarArgs) (format : List Byte) : Except PrintFault Printed :=
  printLoop v format.length format 0 ⟨[], 0⟩

/-- The bytes that are written to `out`, and the result. -/
def bwsprintf (v : VarArgs) (format : List Byte) : Except PrintFault (List Byte × Word) := do
  let p ← print v format
  return (p.chars ++ [0], p.pc)

end PrjOS
