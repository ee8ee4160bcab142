import IrStream.Link.Session

/-!
The text reports of the command line: what an archive holds, what a link
merged, and how a failure is told, each a list of lines built from the
library's values.
-/

namespace IrStream

/-- The availability as reports spell it. -/
def Availability.title : Availability → String
  | .notAvailable => "NotAvailable"
  | .overwritable => "Overwritable"
  | .available => "Available"
  | .programLocal => "Local"

/-- One line per section (its kind, version, size and stream sizes, or that
it is no section of this format), then the file-scope declarations of the
declarations section if there is one. -/
def Archive.describe (a : Archive) : Pipeline (List String) := do
  let mut lines := #[s!"{a.name}:"]
  for (name, _) in a.sections do
    match SectionName.kind? name with
    | none => lines := lines.push s!"  {name}: not an LTO section"
    | some kind =>
      let bytes := (a.section? name).getD .empty
      let sec ← Pipeline.within s!"bad section {name}" (SectionData.parse bytes kind)
      let h := sec.header
      let sizes := ", ".intercalate
        ((kind.streams.zip h.streamSizes).map fun (id, size) => s!"{id.name} {size}")
      lines := lines.push s!"  {name}: {kind.label} v{h.major}.{h.minor}, {bytes.size} bytes ({sizes})"
  let some decls := a.section? SectionName.decls | return lines.toList
  let (r, p) := DeclsSection.read Program.new decls
  let sec ← Pipeline.within "failed to read declarations" r
  lines := lines.push "globals:"
  for decl in sec.globals do
    match SymbolInfo.of? p decl with
    | some info =>
      let attrs := [("public", info.isPublic), ("external", info.external), ("weak", info.weak)]
      let attrs := ", ".intercalate ((attrs.filter (·.2)).map (·.1))
      lines := lines.push s!"  {info.kind.name} {info.name} [{attrs}]"
    | none => lines := lines.push s!"  {(p.arena.code decl).name}"
  return lines.toList

/-- The link-time name of a call-graph node's function. -/
def Program.nodeName (p : Program) (id : CgNodeId) : String :=
  ((p.callgraph.node? id).bind fun n => p.symbolName? n.decl).getD "<anonymous>"

/-- The symbols of a link with the unit each prevailed in, then each live
call-graph node with its calls. -/
def linkReport (p : Program) (t : SymbolTable) (units : List Archive) : List String :=
  let symbols := t.symbols.map fun (name, e) =>
    let unit := (units[e.unit]?.map (·.name)).getD ""
    s!"  {name} {e.kind.name} {e.resolution.pluginName} from {unit}"
  let graph := p.callgraph.live.flatMap fun (id, n) =>
    s!"  {p.nodeName id} ({n.availability.title})" ::
      (p.callgraph.callees id).map fun e => s!"    -> {p.nodeName e.callee} (call {e.stmtUid})"
  ["symbols:"] ++ symbols ++ ["call graph:"] ++ graph

/-- A failure as the command line reports it: the outermost step, then the
steps and the cause beneath it, numbered when there are several. -/
def PipelineError.report (e : PipelineError) : String :=
  match e.chain with
  | [] => "Error: "
  | [only] => s!"Error: {only}"
  | top :: [cause] => s!"Error: {top}\n\nCaused by:\n    {cause}"
  | top :: causes =>
    let numbered := causes.zipIdx.map fun (c, i) =>
      let n := toString i
      "\n" ++ "".pushn ' ' (5 - n.length) ++ n ++ ": " ++ c
    s!"Error: {top}\n\nCaused by:" ++ String.join numbered

end IrStream
