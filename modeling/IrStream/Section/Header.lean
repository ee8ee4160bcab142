import IrStream.Wire.Cursor
import IrStream.Wire.Output
import IrStream.Text.Quote

/-!
Section framing. A section opens with a fixed little-endian header: the format
version, the section kind, the three body counts when the section holds a
function body, and the size of each stream. The streams follow back to back in
the order the kind fixes, so a reader finds every stream by adding sizes.
-/

namespace IrStream

/-- The streams a section may carry, in the order they are framed. -/
inductive StreamId where
  | namedLabels
  | ssaNames
  | cfg
  | localDeclIndex
  | localDecls
  | main
  | strings
  deriving DecidableEq, Repr

namespace StreamId

def all : List StreamId :=
  [namedLabels, ssaNames, cfg, localDeclIndex, localDecls, main, strings]

/-- The name a stream is reported by. -/
def name : StreamId → String
  | namedLabels => "named labels"
  | ssaNames => "ssa names"
  | cfg => "cfg"
  | localDeclIndex => "local decl index"
  | localDecls => "local decls"
  | main => "main"
  | strings => "strings"

def ofName? (s : String) : Option StreamId := all.find? (·.name == s)

end StreamId

/-- The three kinds of section a unit is made of. -/
inductive SectionKind where
  | decls
  | cgraph
  | functionBody
  deriving DecidableEq, Repr

namespace SectionKind

def all : List SectionKind := [decls, cgraph, functionBody]

/-- The kind's number in a section header. -/
def code : SectionKind → UInt16
  | decls => 0
  | cgraph => 1
  | functionBody => 2

def ofCode? (raw : UInt16) : Option SectionKind := all.find? (·.code == raw)

/-- The kind as messages name it. -/
def label : SectionKind → String
  | decls => "decls"
  | cgraph => "cgraph"
  | functionBody => "function body"

/-- The streams of a section of this kind, in framing order. -/
def streams : SectionKind → List StreamId
  | decls | cgraph => [.namedLabels, .main, .strings]
  | functionBody => StreamId.all

end SectionKind

/-- Counts a function body section carries in its header. -/
structure BodyCounts where
  localDecls : UInt32 := 0
  namedLabels : UInt32 := 0
  unnamedLabels : UInt32 := 0
  deriving DecidableEq, Repr

/-- A parsed section header. -/
structure SectionHeader where
  major : UInt16
  minor : UInt16
  kind : SectionKind
  counts : BodyCounts
  streamSizes : List UInt32
  deriving Repr

/-- A parsed section: its header and the bytes of each stream. -/
structure SectionData where
  header : SectionHeader
  streams : List (StreamId × ByteArray)

namespace SectionData

/-- The version this library writes and the only major version it reads. -/
def majorVersion : UInt16 := 1

def minorVersion : UInt16 := 0

/-- Frame `streams`, given by name, as a section of `kind`. The names must be
exactly the kind's streams in order, and each stream's size must fit the
32-bit word that frames it. -/
def write (kind : SectionKind) (counts : BodyCounts) (streams : List (String × ByteArray)) :
    Except StreamError ByteArray :=
  if streams.map (·.1) != kind.streams.map StreamId.name then
    .error (.consistency
      s!"{kind.label} section built with streams {Text.quoteList (streams.map (·.1))}")
  else match streams.find? (fun s => Nat.pow 2 32 ≤ s.2.size) with
  | some (name, _) => .error (.consistency s!"{name} stream exceeds 4 GiB")
  | none =>
    let out := Out.u16le (Out.u16le (Out.u16le .empty majorVersion) minorVersion) kind.code
    let out :=
      if kind = .functionBody then
        Out.u32le (Out.u32le (Out.u32le out counts.localDecls) counts.namedLabels)
          counts.unnamedLabels
      else out
    let out := streams.foldl (fun out s => Out.u32le out s.2.size.toUInt32) out
    .ok (streams.foldl (fun out s => Out.bytes out s.2) out)

/-- Each stream's bytes in turn; a size past the end truncates the stream it
belongs to, at the position where its bytes would start. -/
def readStreams : List (StreamId × UInt32) → CursorM (List (StreamId × ByteArray))
  | [] => return []
  | (id, size) :: rest => do
    let c ← get
    let bytes ← tryCatch (CursorM.readBytes size.toNat)
      (fun _ => throw (.truncated id.name c.pos))
    return (id, bytes) :: (← readStreams rest)

def readHeader (expected : SectionKind) : CursorM SectionData := do
  let major ← CursorM.readU16le
  let minor ← CursorM.readU16le
  if major != majorVersion then
    throw (.versionMismatch major minor majorVersion)
  let raw ← CursorM.readU16le
  let kind ← match SectionKind.ofCode? raw with
    | some k => if k = expected then pure k else throw (.badSectionKind raw expected.code)
    | none => throw (.badSectionKind raw expected.code)
  let counts ← if kind = .functionBody then do
      let localDecls ← CursorM.readU32le
      let namedLabels ← CursorM.readU32le
      let unnamedLabels ← CursorM.readU32le
      pure { localDecls, namedLabels, unnamedLabels : BodyCounts }
    else pure {}
  let sizes ← kind.streams.mapM fun _ => CursorM.readU32le
  let streams ← readStreams (kind.streams.zip sizes)
  return { header := { major, minor, kind, counts, streamSizes := sizes }, streams }

/-- Parse a section that must be of kind `expected`. Bytes after the last
stream are ignored. -/
def parse (data : ByteArray) (expected : SectionKind) : Except StreamError SectionData :=
  match Cursor.run "header" data (readHeader expected) with
  | .ok s _ => .ok s
  | .error e _ => .error e

/-- The bytes of one stream of the section. -/
def bytes (s : SectionData) (id : StreamId) : Except StreamError ByteArray :=
  match s.streams.find? (·.1 == id) with
  | some (_, b) => .ok b
  | none => .error (.consistency s!"{s.header.kind.label} section has no {id.name} stream")

/-- A cursor at the start of one stream of the section. -/
def cursor (s : SectionData) (id : StreamId) : Except StreamError Cursor := do
  return { name := id.name, data := ← s.bytes id }

end SectionData

end IrStream
