import IrStream.Service.Sections

/-!
Edits that requests apply to written bytes, to reach the reader's error
paths: byte edits on a whole section or on one of its streams, and stream
edits that change a section's streams or counts and frame it again.
-/

namespace IrStream.Service

/-- A position in `size` bytes, a negative one counting from the end. It
has to fall inside the bytes, or at their end when `atEnd` allows it. -/
def positionIn (size : Nat) (pos : Int) (atEnd : Bool) : Decode Nat :=
  let p : Int := if pos < 0 then size + pos else pos
  if 0 ≤ p && (p < size || (atEnd && p == size)) then pure p.toNat
  else refuse s!"position {pos} outside {size} bytes"

/-- Apply the byte edits in `e`, in their fixed order: replace, truncate,
set, insert, append. A replacement or an appendix that is not a string is
no edit, and inserted bytes that are not a string are none. -/
def applyByteEdit (bytes : ByteArray) (e : Doc) : Decode ByteArray := do
  let mut b := bytes
  if let some h := text? (e.field "replace_hex") then b ← hexText h
  if let some t := e.get? "truncate" then
    let keep ← positionIn b.size (← int t) true
    b := b.extract 0 keep
  if let some s := e.get? "set" then
    match s with
    | .arr [p, v] =>
      let i ← positionIn b.size (← int p) false
      let v ← u8 v
      b := b.set! i v
    | _ => refuse "set needs a position and a byte"
  if let some s := e.get? "insert" then
    match s with
    | .arr [p, h] =>
      let i ← positionIn b.size (← int p) true
      b := b.extract 0 i ++ (← hexOrEmpty h) ++ b.extract i b.size
    | _ => refuse "insert needs a position and hex bytes"
  if let some h := text? (e.field "append_hex") then b := b ++ (← hexText h)
  return b

/-- Whether `e` changes counts or streams, so that the section is framed again. -/
def changesStreams (e : Doc) : Bool := (e.get? "counts").isSome || (e.get? "streams").isSome

/-- Replace the given count fields. -/
def countsWith (c : BodyCounts) (d : Doc) : Decode BodyCounts := do
  let pick (key : String) (old : UInt32) : Decode UInt32 :=
    match d.get? key with
    | some _ => u32At d key
    | none => pure old
  return { localDecls := ← pick "num_local_decls" c.localDecls,
           namedLabels := ← pick "num_named_labels" c.namedLabels,
           unnamedLabels := ← pick "num_unnamed_labels" c.unnamedLabels }

/-- Apply the stream edits of `e` to a section of `kind` and frame it again;
a section that does not parse answers its error. -/
def applyStreamEdit (kind : SectionKind) (bytes : ByteArray) (e : Doc) : Answering ByteArray := do
  let sec ← settled ((SectionData.parse bytes kind).mapError streamError)
  let counts ← countsWith sec.header.counts (e.field "counts")
  let edits ← fields (e.field "streams")
  let streams ← sec.streams.mapM fun (id, b) => do
    match edits.lookup id.name with
    | some edit =>
      discard (members edit)
      return (id.name, ← applyByteEdit b edit)
    | none => return (id.name, b)
  settled ((SectionData.write kind counts streams).mapError streamError)

/-- Stream edits if any, then the byte edits of `e`. -/
def applySectionEdit (kind : SectionKind) (bytes : ByteArray) (e : Doc) : Answering ByteArray := do
  let b ← if changesStreams e then applyStreamEdit kind bytes e else pure bytes
  applyByteEdit b e

/-- A section of `kind` framed from `{name: hex}` streams and counts; a
stream not given as a string holds only the sentinel if it is the string
stream, and is empty otherwise. -/
def framedSection (kind : SectionKind) (streams : Doc) (counts : Doc) : Decode ByteArray := do
  let counts ← countsOf counts
  let given ← fields streams
  let parts ← kind.streams.mapM fun id => do
    match (given.lookup id.name).bind text? with
    | some h => return (id.name, ← hexText h)
    | none => return (id.name, if id == .strings then ByteArray.mk #[0] else .empty)
  match SectionData.write kind counts parts with
  | .ok b => pure b
  | .error err => refuse err.message

end IrStream.Service
