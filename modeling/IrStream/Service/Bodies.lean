import IrStream.Service.Trees
import IrStream.Service.Edits
import IrStream.Codec.Body
import IrStream.View.Body

/-!
Requests on function bodies: control-flow streams alone, body sections written
and read back, reading bodies from given streams, and body verification.
-/

namespace IrStream.Service

/-- The answer of a verification. An unchecked region lookup past the end of
a table stops the whole request. -/
def verifyDoc (r : Except VerifyError Unit) : Decode Doc :=
  match r with
  | .ok () => pure (.bool true)
  | .error (.ehSlotOutOfRange ..) => throw .panic
  | .error fault => pure (errorObject "Verify" fault.message)

def cfgWrite (req : Doc) : Decode Doc := do
  let (g, _) ← buildOn Program.new (cfgOf #[] (req.field "cfg"))
  return .obj [("hex", hexDoc (Cfg.write .empty g))]

def cfgRead (req : Doc) : Decode Doc := do
  let data ← requiredHex req "hex"
  match Cursor.run "cfg" data Cfg.read with
  | .error e _ => return streamError e
  | .ok g c =>
    return .obj [("cfg", View.run (View.cfg Program.new.arena g)), ("position", .nat c.pos),
      ("verify", ← verifyDoc g.verify)]

/-- The body of the function a request names. -/
def requestedBody (p : Program) (slots : Array NodeId) (d : Doc) : Decode (NodeId × FunctionBody) := do
  let (some decl, _) ← buildOn p (nodeRef slots d) | refuse "no function given"
  match p.body? decl with
  | some b => return (decl, b)
  | none => refuse s!"function {render d} has no body"

def verifyBody (req : Doc) : Decode Doc := do
  let (p, slots) ← programOf (req.field "program")
  let (_, b) ← requestedBody p slots (req.field "function")
  return .obj [("verify", ← verifyDoc b.verify)]

/-- Every listed node first, in list order, then the rest of a view. -/
def afterInputs (arena : Arena) (slots : Array NodeId) (m : ViewM Doc) : Doc × Doc :=
  View.run do
    discard (View.refs arena (slots.toList.map some))
    let d ← m
    return (d, ← View.nodes arena)

def bodyRoundtrip (req : Doc) : Decode Doc := do
  let (p, slots) ← programOf (req.field "program")
  let (decl, b) ← requestedBody p slots (req.field "function")
  let emit := boolOn (req.field "emit_locations")
  let verify := boolOn (req.field "verify")
  match FunctionBody.writeSection p {} b emit with
  | .error e => return streamError e
  | .ok (bytes, decls) =>
    let edited ← match req.field "edit" with
      | .null => pure (.ok bytes)
      | e => (applySectionEdit .functionBody bytes e).run
    match edited with
    | .error d => return d
    | .ok edited =>
      let tables := tablesDoc slots p decls
      match FunctionBody.readSection p (UnitDecls.ofOut decls) decl edited verify with
      | (.error e, _) => return .obj [("hex", hexDoc bytes), ("tables", tables), ("read_error", streamError e)]
      | (.ok body, p) =>
        let (read, nodes) := afterInputs p.arena slots (View.body p.arena body)
        return .obj [("hex", hexDoc bytes), ("tables", tables), ("read", read), ("nodes", nodes)]

def readBody (req : Doc) : Decode Doc := do
  let (p, slots) ← programOf (req.field "program")
  let (decls, p) ← buildOn p (unitDeclsOf slots (req.field "decls"))
  let (some decl, p) ← buildOn p (nodeRef slots (req.field "function")) | refuse "no function given"
  let verify := boolOn (req.field "verify")
  let data ← match text? (req.field "hex") with
    | some h => hexText h
    | none => framedSection .functionBody (req.field "streams") (req.field "counts")
  match FunctionBody.readSection p decls decl data verify with
  | (.error e, _) => return streamError e
  | (.ok body, p) =>
    let (d, nodes) := afterInputs p.arena slots (View.body p.arena body)
    return .obj [("body", d), ("nodes", nodes)]

end IrStream.Service
