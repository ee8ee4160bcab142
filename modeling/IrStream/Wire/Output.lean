import IrStream.Wire.Leb128

/-!
Appending to a byte stream: single bytes, raw runs, varints and little-endian
words. A stream being written is a plain `ByteArray`; each operation returns
the longer stream.
-/

namespace IrStream.Out

/-- Append raw bytes. -/
def list (out : ByteArray) (bytes : List UInt8) : ByteArray :=
  bytes.foldl ByteArray.push out

def u8 (out : ByteArray) (b : UInt8) : ByteArray := out.push b

def bytes (out : ByteArray) (more : ByteArray) : ByteArray := out ++ more

def uleb (out : ByteArray) (v : UInt64) : ByteArray := list out (Leb128.ofUInt64 v)

def sleb (out : ByteArray) (v : Int64) : ByteArray := list out (Leb128.ofInt64 v)

/-- A 16-bit word, low byte first. -/
def u16le (out : ByteArray) (v : UInt16) : ByteArray :=
  list out [v.toUInt8, (v >>> 8).toUInt8]

/-- A 32-bit word, low byte first. -/
def u32le (out : ByteArray) (v : UInt32) : ByteArray :=
  list out [v.toUInt8, (v >>> 8).toUInt8, (v >>> 16).toUInt8, (v >>> 24).toUInt8]

end IrStream.Out
