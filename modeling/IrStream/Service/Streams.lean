import IrStream.Service.Reply
import IrStream.Service.Input
import IrStream.Wire.StringTable
import IrStream.Real.HexText
import IrStream.Program

/-!
Requests on the byte level: writing and reading varints and words, the
string table, hex-float text and the split of a wide integer constant.
-/

namespace IrStream.Service

/-- `encode`: append each item to one stream; bytes that are not hex text
are none. -/
def encodeItems (req : Doc) : Decode Doc := do
  let step (out : ByteArray) (item : Doc) : Decode ByteArray := do
    match stepOf item with
    | some ("u8", v) => return Out.u8 out (← u8Named "u8" v)
    | some ("uleb", v) => return Out.uleb out (← u64 v)
    | some ("sleb", v) => return Out.sleb out (← i64 v)
    | some ("u16le", v) => return Out.u16le out (← u16Named "u16" v)
    | some ("u32le", v) => return Out.u32le out (← u32Named "u32" v)
    | some ("bytes", v) => return Out.bytes out (← hexOrEmpty v)
    | some (name, _) => refuse s!"unknown encode item {name}"
    | none => refuse s!"unknown encode item {render item}"
  let out ← (← list (req.field "items")).foldlM step .empty
  return .obj [("hex", hexDoc out), ("len", .nat out.size)]

/-- One read of a `decode` request, as a cursor action giving its value. -/
def decodeRead (read : Doc) : Decode (CursorM Doc) :=
  match stepOf read with
  | some ("u8", _) => pure do return .nat (← CursorM.readU8).toNat
  | some ("uleb", _) => pure do return .nat (← CursorM.readUleb).toNat
  | some ("sleb", _) => pure do return .int (← CursorM.readSleb).toInt
  | some ("u32", _) => pure do return .nat (← CursorM.readU32).toNat
  | some ("i32", _) => pure do return .int (← CursorM.readI32).toInt
  | some ("u16le", _) => pure do return .nat (← CursorM.readU16le).toNat
  | some ("u32le", _) => pure do return .nat (← CursorM.readU32le).toNat
  | some ("position", _) => pure do return .nat (← CursorM.position)
  | some ("remaining", _) => pure do return .nat (← get).remaining
  | some ("at_end", _) => pure do return .bool (← CursorM.isAtEnd)
  | some ("bytes", n) => do
    let n ← u64 n
    pure do return hexDoc (← CursorM.readBytes n.toNat)
  | some ("at", p) => do
    let p ← u64 p
    pure do
      match (← get).seek p.toNat with
      | .ok c => set c; return .null
      | .error e => throw e
  | some ("check_count", .arr [count, unwritten]) => do
    let count ← u64 count
    let unwritten ← u64 unwritten
    pure do return .nat (← CursorM.checkCount "test" count unwritten.toNat)
  | some ("check_count", _) => refuse "check_count takes [count, unwritten]"
  | some (name, _) => refuse s!"unknown read {name}"
  | none => refuse s!"unknown read {render read}"

/-- Read in turn on one cursor, each read decoded only when its turn comes;
the first error ends the list. -/
def runReads : List Doc → Cursor → Decode (List Doc)
  | [], _ => pure []
  | r :: rest, c => do
    match (← decodeRead r).run c with
    | .ok v c => return v :: (← runReads rest c)
    | .error e _ => return [streamError e]

/-- `decode`: reads on one named stream. -/
def decodeReads (req : Doc) : Decode Doc := do
  let data ← requiredHex req "hex"
  let name := (text? (req.field "stream")).getD "main"
  let reads ← list (req.field "reads")
  return .obj [("results", .arr (← runReads reads { name, data }))]

/-- `strings`: operations on one string table and one side stream. An
operation is named by the first of its keys in the order `intern_hex`,
`intern`, `ref_hex`, `ref`, `len`, `is_empty`; interned text that is left
out is empty, and a reference that is left out is the null string. -/
def stringOps (req : Doc) : Decode Doc := do
  let step (acc : StringTable × ByteArray × List Doc) (op : Doc) :
      Decode (StringTable × ByteArray × List Doc) := do
    let (t, out, results) := acc
    if let some h := op.get? "intern_hex" then
      let (offset, t) := t.intern (← hexOrEmpty h)
      return (t, out, .nat offset.toNat :: results)
    else if (op.get? "intern").isSome then
      let s := (← optionalText op "intern").getD ""
      let (offset, t) := t.intern s.toUTF8
      return (t, out, .nat offset.toNat :: results)
    else if let some h := op.get? "ref_hex" then
      let (out, t) := t.writeRef out (some (← hexOrEmpty h))
      return (t, out, .nat out.size :: results)
    else if (op.get? "ref").isSome then
      let (out, t) := t.writeRef out ((← optionalText op "ref").map String.toUTF8)
      return (t, out, .nat out.size :: results)
    else if (op.get? "len").isSome then return (t, out, .nat t.size :: results)
    else if (op.get? "is_empty").isSome then return (t, out, .bool t.isEmpty :: results)
    else refuse "unknown strings op"
  let (t, out, results) ← (← list (req.field "ops")).foldlM step ({}, .empty, [])
  return .obj [("results", .arr results.reverse), ("out", hexDoc out),
    ("strings", hexDoc t.stream)]

/-- `string_read`: entries of a string stream, as bytes or, when `text` is
`true`, as text. -/
def stringRead (req : Doc) : Decode Doc := do
  let data ← requiredHex req "data"
  let asText := isTrue (req.field "text")
  let offsets ← (← list (req.field "offsets")).mapM u64
  let one (offset : UInt64) : Doc :=
    if asText then
      let read : CursorM (Option String) := StringReader.readStr data
      match read.run { name := "main", data := Leb128.ofUInt64 offset |>.toByteArray } with
      | .ok s _ => Doc.opt .str s
      | .error e _ => streamError e
    else outcome (StringReader.get data offset) (Doc.opt hexDoc)
  return .obj [("results", .arr (offsets.map one))]

def realFormat (req : Doc) : Decode Doc := do
  return .obj [("text", .str (HexReal.format (← u64At req "bits")))]

def realParse (req : Doc) : Decode Doc := do
  return outcome (HexReal.parse (← requiredText req "text")) fun b => .obj [("bits", .nat b.toNat)]

/-- `int_cst`: the two words of a 128-bit constant. -/
def intCst (req : Doc) : Decode Doc := do
  let i ← intAt req "value"
  let (low, high) := Program.intWords i
  return .obj [("low", .nat low.toNat), ("high", .int high.toInt)]

end IrStream.Service
