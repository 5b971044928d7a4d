import AnkiDrive.CStrings
import AnkiDrive.Lib.Memory

/-! `anki_util.c`. Addresses are those of one memory, which holds `value`, what `output`
points to and the row buffer of `hexdump`. The array `str` is apart from it. What goes past an
array, or through a null pointer, does not return. -/
namespace AnkiDrive
open CModel

/-- `memmove(dst, bytes, sizeof bytes)` in the memory of the caller. -/
structure Move where
  dst : Nat
  bytes : List UInt8
  deriving DecidableEq

def Move.apply (mem : Memory) (m : Move) : Memory := mem.write m.dst m.bytes

/-- The `char *` that is stored at an address. -/
def loadPointer (mem : Memory) (p : Nat) : Nat :=
  (slice mem p 8).foldr (fun b n => b.toNat + 256 * n) 0

def hex : CString := CString.literal "0123456789ABCDEF"

def hexChar (n : UInt8) : UInt8 := hex.chars.getD (n &&& 0xf).toNat 0

def putChar (size : Nat) (str : Memory) (s : Nat) (c : UInt8) : Option Memory :=
  if s < size then some (str.store s c) else none

/-- The digits of the byte at `bytes`, and a character behind them. -/
def bytesToHex.put (mem : Memory) (size bytes s : Nat) (str : Memory) (c : UInt8) :
    Option Memory := do
  let str ← putChar size str s (hexChar (mem bytes >>> 4))
  let str ← putChar size str (s + 1) (hexChar (mem bytes))
  putChar size str (s + 2) c

/-- The `for` loop, by how often it is still entered: `bytes`, `s` and `str` after it. -/
def bytesToHex.loop (mem : Memory) (size : Nat) :
    Nat → Nat → Nat → Memory → Option (Nat × Nat × Memory)
  | 0, bytes, s, str => some (bytes, s, str)
  | n + 1, bytes, s, str => do
    let str ← bytesToHex.put mem size bytes s str 0x20
    bytesToHex.loop mem size n (bytes + 1) (s + 3) str

/-- `if (output != NULL) memmove(*output, str, bufferLen)` -/
def bytesToHex.moveOut (mem : Memory) (str : List UInt8) : Option Nat → Option (List Move)
  | none => some []
  | some output =>
    if loadPointer mem output = 0 then none else some [⟨loadPointer mem output, str⟩]

/-- `stack` is what is where `str` is put. -/
def bytesToHex (stack mem : Memory) (value : Nat) (len : UInt64) (output : Option Nat) :
    Option (List Move) := do
  let bufferLen := (len * 3).toNat
  let str := stack.fill 0 0 bufferLen
  let (bytes, s, str) ← bytesToHex.loop mem bufferLen (len - 1).toNat value 0 str
  let str ← bytesToHex.put mem bufferLen bytes s str 0
  bytesToHex.moveOut mem (slice str 0 bufferLen) output

/-- The string in an array of `size` characters. -/
def stringAt (mem : Memory) (p size : Nat) : Option (List UInt8) :=
  if 0 ∈ slice mem p size then some ((slice mem p size).takeWhile (· ≠ 0)) else none

/-- One turn of the loop of `hexdump`: what is moved, the string that is then at `s`, and the
line that is printed. -/
structure Row where
  moves : List Move
  shown : List UInt8
  line : List UInt8

section Rows

variable (stack : Memory) (prefixText : CString) (s slen value : Nat) (len : UInt64)

def hexdump.row (mem : Memory) : Option (Memory × Row) := do
  let mem := mem.fill s 0 slen
  let moves ← bytesToHex stack mem value len (some s)
  let mem := moves.foldl Move.apply mem
  let shown ← stringAt mem s slen
  return (mem, ⟨moves, shown, prefixText.chars ++ text " " ++ shown ++ text "\n"⟩)

def hexdump.rows : Nat → Memory → Option (List Row)
  | 0, _ => some []
  | n + 1, mem => do
    let (mem, row) ← hexdump.row stack prefixText s slen value len mem
    let rows ← hexdump.rows n mem
    return row :: rows

end Rows

/-- `s` is where the row buffer is put. It is passed to `bytes_to_hex` as if it were the
address of a pointer. -/
def hexdump (stack mem : Memory) (s : Nat) (prefixText : Option CString) (columnLen : UInt64)
    (value : Nat) (len : UInt64) : Option (List Row) :=
  match prefixText with
  | none => none
  | some prefixText =>
    if columnLen = 0 then none
    else
      let rowCount : Int32 := (len / columnLen + 1).toUInt32.toInt32
      let slen := (columnLen * 3).toNat
      hexdump.rows stack prefixText s slen value len rowCount.toInt.toNat mem

end AnkiDrive
