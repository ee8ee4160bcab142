import IrStream.Error

/-!
Bounds-checked reading of one named stream. Reading past the end is an error
that names the stream and the position of the failed read, never a short
read. A varint that fails part way leaves the cursor after the bytes it did
consume, which is what a later report of the position shows.
-/

namespace IrStream

/-- A read position inside one named stream. -/
structure Cursor where
  name : String
  data : ByteArray
  pos : Nat := 0
  deriving Inhabited

/-- Reading from a cursor; an error keeps the cursor as the failed read left it. -/
abbrev CursorM := EStateM StreamError Cursor

namespace Cursor

/-- A varint never needs more than ten bytes for 64 bits. -/
def maxVarintLen : Nat := 10

def truncated (c : Cursor) : StreamError := .truncated c.name c.pos

def remaining (c : Cursor) : Nat := c.data.size - c.pos

def isAtEnd (c : Cursor) : Bool := c.data.size ≤ c.pos

/-- The same bytes read from `pos`, which may be the end but not past it. -/
def seek (c : Cursor) (pos : Nat) : Except StreamError Cursor :=
  if pos ≤ c.data.size then .ok { c with pos } else .error c.truncated

/-- Bound a count read from the stream before anything is sized by it:
every entry takes at least one byte of what is left, except that tables whose
unused entries are not written pass with up to `unwritten` entries. -/
def checkCount (c : Cursor) (what : String) (count : UInt64) (unwritten : Nat) :
    Except StreamError Nat :=
  let limit := max c.remaining unwritten
  if count.toNat ≤ limit then .ok count.toNat
  else
    let index : Int64 := if count.toNat < Nat.pow 2 63 then count.toInt64 else Int64.ofInt (Int.pow 2 63 - 1)
    .error (.indexOutOfRange what index limit)

end Cursor

namespace CursorM

def fail (e : StreamError) : CursorM α := throw e

def position : CursorM Nat := return (← get).pos

def readU8 : CursorM UInt8 := do
  let c ← get
  if h : c.pos < c.data.size then
    set { c with pos := c.pos + 1 }
    return c.data[c.pos]
  else throw c.truncated

/-- `len` bytes, or a truncation error that leaves the cursor where it was. -/
def readBytes (len : Nat) : CursorM ByteArray := do
  let c ← get
  if c.pos + len ≤ c.data.size then
    set { c with pos := c.pos + len }
    return c.data.extract c.pos (c.pos + len)
  else throw c.truncated

/-- Unsigned varint groups from the `i`-th on; the group of the tenth byte
keeps only the bit that still fits in 64. -/
def ulebFrom (start : Nat) (i : Nat) (acc : UInt64) : CursorM UInt64 :=
  if i < Cursor.maxVarintLen then do
    let b ← readU8
    let acc := acc ||| ((b &&& 0x7f).toUInt64 <<< (7 * i).toUInt64)
    if b &&& 0x80 == 0 then return acc else ulebFrom start (i + 1) acc
  else do
    throw (.overlong (← get).name start)
termination_by Cursor.maxVarintLen - i

def readUleb : CursorM UInt64 := do
  ulebFrom (← position) 0 0

/-- Signed varint groups from the `i`-th on; a last group with bit 6 set
extends the sign when it ends below bit 64. -/
def slebFrom (start : Nat) (i : Nat) (acc : UInt64) : CursorM Int64 :=
  if i < Cursor.maxVarintLen then do
    let b ← readU8
    let acc := acc ||| ((b &&& 0x7f).toUInt64 <<< (7 * i).toUInt64)
    let shift := 7 * (i + 1)
    if b &&& 0x80 == 0 then
      if shift < 64 && b &&& 0x40 != 0 then
        return (acc ||| ((0 - 1 : UInt64) <<< shift.toUInt64)).toInt64
      else return acc.toInt64
    else slebFrom start (i + 1) acc
  else do
    throw (.overlong (← get).name start)
termination_by Cursor.maxVarintLen - i

def readSleb : CursorM Int64 := do
  slebFrom (← position) 0 0

/-- An unsigned varint that must fit in 32 bits. -/
def readU32 : CursorM UInt32 := do
  let v ← readUleb
  if v.toNat < Nat.pow 2 32 then return v.toUInt32
  else throw (.consistency s!"{(← get).name} stream: {v} does not fit 32 bits")

/-- A signed varint that must fit in 32 bits. -/
def readI32 : CursorM Int32 := do
  let v ← readSleb
  if -Int.pow 2 31 ≤ v.toInt && v.toInt < Int.pow 2 31 then return v.toInt32
  else throw (.consistency s!"{(← get).name} stream: {v} does not fit 32 bits")

/-- The number whose base-256 digits are `bytes`, lowest first. -/
def littleEndian (bytes : ByteArray) : Nat :=
  bytes.toList.foldr (fun b acc => b.toNat + 256 * acc) 0

def readU16le : CursorM UInt16 := do
  return UInt16.ofNat (littleEndian (← readBytes 2))

def readU32le : CursorM UInt32 := do
  return UInt32.ofNat (littleEndian (← readBytes 4))

def checkCount (what : String) (count : UInt64) (unwritten : Nat) : CursorM Nat := do
  match (← get).checkCount what count unwritten with
  | .ok n => return n
  | .error e => throw e

def isAtEnd : CursorM Bool := return (← get).isAtEnd

end CursorM

/-- Run a cursor read from the start of `data`. -/
def Cursor.run (name : String) (data : ByteArray) (m : CursorM α) :
    EStateM.Result StreamError Cursor α :=
  m.run { name, data }

end IrStream
