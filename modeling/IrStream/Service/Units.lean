import IrStream.Service.Bodies
import IrStream.Codec.Decls
import IrStream.Codec.CallGraph

/-!
Requests on the sections of a unit other than bodies: the declarations
section, and the call-graph section's choice of nodes.
-/

namespace IrStream.Service

/-- Seed tables `{category: [REF]}` for a writer; seeds that are not an
object, and names that are no category, are passed over. -/
def seedOf (slots : Array NodeId) (d : Doc) : Build OutDeclState := do
  let mut s : OutDeclState := {}
  let .obj given := d | return s
  for (name, refsDoc) in given do
    let some c := DeclCategory.ofName? name | continue
    for r in ← liftD (list refsDoc) do
      let some id ← nodeRef slots r | fail "seed entry must not be null"
      s := (s.encode c id).2
  return s

def writeDecls (req : Doc) : Decode Doc := do
  let (p, slots) ← programOf (req.field "program")
  let (seed, p) ← buildOn p (seedOf slots (req.field "seed"))
  let emit := boolOn (req.field "emit_locations")
  return outcome (DeclsSection.write p seed emit) fun (bytes, decls) =>
    .obj [("hex", hexDoc bytes), ("tables", tablesDoc slots p decls)]

def readDecls (req : Doc) : Decode Doc := do
  let data ← match text? (req.field "hex") with
    | some h => hexText h
    | none => framedSection .decls (req.field "streams") (req.field "counts")
  match DeclsSection.read Program.new data with
  | (.error e, _) => return streamError e
  | (.ok d, p) =>
    let arena := p.arena
    let (tables, globals, nodes) := View.run do
      let tables ← DeclCategory.all.mapM fun c => do
        return (c.name, ← View.refs arena ((d.decls.table c).toList.map some))
      let globals ← View.refs arena (d.globals.map some)
      return (Doc.obj tables, globals, ← View.nodes arena)
    return .obj [("tables", tables), ("globals", globals), ("nodes", nodes)]

/-- The call-graph node listed at `k`, by position in the request. -/
def graphNodeAt (ids : Array CgNodeId) (d : Doc) : Decode CgNodeId := do
  let k ← nat d
  match ids[k]? with
  | some id => pure id
  | none => refuse s!"call-graph node index {k} out of range"

/-- The position in the request of a call-graph node, the first if several. -/
def graphIndexDoc (ids : Array CgNodeId) (id : CgNodeId) : Doc :=
  match ids.findIdx? (· == id) with
  | some k => .int k
  | none => .null

def graphEncoder (req : Doc) : Decode Doc := do
  let (p, _, ids) ← programGraphOf (req.field "program")
  let set ← (← list (req.field "set")).mapM (graphNodeAt ids)
  return outcome (GraphEncoder.build p.callgraph set) fun e =>
    .obj [("nodes", .arr (e.nodes.toList.zipIdx.map fun (id, i) =>
      .arr [graphIndexDoc ids id, .bool (e.isBoundary i)]))]

end IrStream.Service
