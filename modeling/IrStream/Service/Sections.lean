import IrStream.Service.Reply
import IrStream.Service.Input
import IrStream.Section.Archive

/-!
Requests on section framing, section names and archives.
-/

namespace IrStream.Service

/-- The name of a section kind in requests and answers. -/
def kindKey : SectionKind → String
  | .decls => "decls"
  | .cgraph => "cgraph"
  | .functionBody => "function_body"

/-- The section kind a request names under `kind`. -/
def kindOf (req : Doc) : Decode SectionKind := do
  let s ← requiredText req "kind"
  match SectionKind.all.find? (kindKey · == s) with
  | some k => pure k
  | none => refuse s!"unknown section kind {s}"

def countsOf (d : Doc) : Decode BodyCounts := do
  return { localDecls := ← u32At d "num_local_decls",
           namedLabels := ← u32At d "num_named_labels",
           unnamedLabels := ← u32At d "num_unnamed_labels" }

def countsDoc (c : BodyCounts) : Doc :=
  .obj [("num_local_decls", .nat c.localDecls.toNat), ("num_named_labels", .nat c.namedLabels.toNat),
    ("num_unnamed_labels", .nat c.unnamedLabels.toNat)]

def namedBytes (sections : List (String × ByteArray)) : Doc :=
  .arr (sections.map fun (n, b) => .arr [.str n, hexDoc b])

def namedBytesOf (d : Doc) : Decode (List (String × ByteArray)) := do
  (← list d).mapM fun e => do
    match e with
    | .arr [n, h] => return (← str n, ← hexOrEmpty h)
    | _ => refuse "expected a name and hex bytes"

def sectionWrite (req : Doc) : Decode Doc := do
  let kind ← kindOf req
  let counts ← countsOf (req.field "counts")
  let streams ← (← list (req.field "streams")).mapM fun s => do
    return (← requiredText s "name", ← hexOrEmpty (s.field "hex"))
  return outcome (SectionData.write kind counts streams) fun b => .obj [("hex", hexDoc b)]

def sectionParse (req : Doc) : Decode Doc := do
  let data ← requiredHex req "hex"
  let kind ← kindOf req
  return outcome (SectionData.parse data kind) fun s =>
    .obj [("major", .nat s.header.major.toNat), ("minor", .nat s.header.minor.toNat),
      ("kind", .str (kindKey s.header.kind)), ("counts", countsDoc s.header.counts),
      ("stream_sizes", .arr (s.header.streamSizes.map fun n => .nat n.toNat)),
      ("streams", namedBytes (s.streams.map fun (id, b) => (id.name, b)))]

def sectionName (req : Doc) : Decode Doc := do
  let kind ← kindOf req
  return .obj [("name", .str (SectionName.ofKind kind (text? (req.field "function"))))]

def sectionKind (req : Doc) : Decode Doc := do
  let name ← requiredText req "name"
  return .obj [("kind", Doc.opt (fun k => .str (kindKey k)) (SectionName.kind? name))]

/-- Each section name with the bytes a lookup by that name finds, and the
archive's byte form. -/
def archiveDoc (a : Archive) : Doc :=
  outcome a.toBytes fun bytes =>
    .obj [("sections", namedBytes (a.sections.map fun s => (s.1, (a.section? s.1).getD .empty))),
      ("hex", hexDoc bytes)]

def objectParse (req : Doc) : Decode Doc := do
  return outcome (Archive.ofBytes "x.o" (← requiredHex req "hex")) archiveDoc

def objectBuild (req : Doc) : Decode Doc := do
  let sections ← namedBytesOf (req.field "sections")
  let built := sections.foldlM (fun a (n, b) => a.emit n b) ({ name := "x.o" } : Archive)
  return outcome built archiveDoc

end IrStream.Service
