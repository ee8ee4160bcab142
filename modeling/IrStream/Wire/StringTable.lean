import Std.Data.HashMap
import IrStream.Wire.Cursor
import IrStream.Wire.Output

/-!
The interned string stream of a section. Each distinct byte string is stored
once, as its ULEB length followed by its bytes, and other streams refer to it
by its offset. Offset 0 is a sentinel byte written before any entry and
stands for "no string".
-/

namespace IrStream

/-- The write side: the stream so far and the offset of every entry in it. -/
structure StringTable where
  stream : ByteArray := ByteArray.mk #[0]
  offsets : Std.HashMap (List UInt8) UInt64 := {}

namespace StringTable

/-- The offset of `bytes`, appending the entry on first sight. -/
def intern (t : StringTable) (bytes : ByteArray) : UInt64 × StringTable :=
  match t.offsets.get? bytes.toList with
  | some offset => (offset, t)
  | none =>
    let offset := t.stream.size.toUInt64
    let stream := Out.bytes (Out.uleb t.stream bytes.size.toUInt64) bytes
    (offset, { stream, offsets := t.offsets.insert bytes.toList offset })

/-- Write a reference to `bytes` into `out`; no string writes the null offset. -/
def writeRef (t : StringTable) (out : ByteArray) (bytes : Option ByteArray) :
    ByteArray × StringTable :=
  match bytes with
  | none => (Out.uleb out 0, t)
  | some b =>
    let (offset, t) := t.intern b
    (Out.uleb out offset, t)

/-- Bytes of the stream, sentinel included. -/
def size (t : StringTable) : Nat := t.stream.size

/-- True while only the sentinel has been written. -/
def isEmpty (t : StringTable) : Bool := t.offsets.isEmpty

end StringTable

namespace StringReader

/-- The entry at `offset` of the string stream `data`; offset 0 is no string.
An offset outside the stream is a bad reference; an entry that runs past the
end is a truncation of the string stream. -/
def get (data : ByteArray) (offset : UInt64) : Except StreamError (Option ByteArray) :=
  if offset == 0 then .ok none
  else if data.size ≤ offset.toNat then .error (.badString offset)
  else
    let read : CursorM ByteArray := do
      let len ← CursorM.readUleb
      CursorM.readBytes len.toNat
    match read.run { name := "strings", data, pos := offset.toNat } with
    | .ok bytes _ => .ok (some bytes)
    | .error e _ => .error e

/-- Lift a string-stream lookup into a read of the referring stream. -/
def lift (r : Except StreamError α) : CursorM α :=
  match r with
  | .ok a => pure a
  | .error e => throw e

/-- Read an offset from the cursor and resolve it. -/
def readRef (data : ByteArray) : CursorM (Option ByteArray) := do
  let offset ← CursorM.readUleb
  lift (get data offset)

/-- Decode an entry as UTF-8 text; bytes that are not text are a bad reference. -/
def text (offset : UInt64) (bytes : Option ByteArray) : Except StreamError (Option String) :=
  match bytes with
  | none => .ok none
  | some b =>
    match String.fromUTF8? b with
    | some s => .ok (some s)
    | none => .error (.badString offset)

/-- Like `readRef`, for entries that must be UTF-8 text. -/
def readStr (data : ByteArray) : CursorM (Option String) := do
  let offset ← CursorM.readUleb
  let bytes ← lift (get data offset)
  lift (text offset bytes)

end StringReader

end IrStream
