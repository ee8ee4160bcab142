import IrStream.Service.Reply
import IrStream.Service.ProgramInput
import IrStream.Codec.Writer
import IrStream.Codec.Reader
import IrStream.Tree.Equivalence
import IrStream.View.Nodes

/-!
Requests on single trees: writing trees of a described program, reading trees
into a program, and the round trip through both with a structural check.
-/

namespace IrStream.Service

/-- Run a step of program building on an existing program. -/
def buildOn (p : Program) (m : Build α) : Decode (α × Program) := m.run p

/-- How a node of a described program is named in a request: by its position
in the node list, as a common node, or as an identifier's spelling. -/
def inputRef (slots : Array NodeId) (p : Program) (id : NodeId) : Doc :=
  match CommonNode.ofId? id with
  | some c => .str ("@" ++ c.name)
  | none =>
    match slots.findIdx? (· == id) with
    | some k => .nat k
    | none =>
      match p.arena.identifierName? id with
      | some s => .str ("$" ++ s)
      | none => .null

def inputRefs (slots : Array NodeId) (p : Program) (ids : List NodeId) : Doc :=
  .arr (ids.map (inputRef slots p))

/-- The unit tables of a writer, by category name, as request references. -/
def tablesDoc (slots : Array NodeId) (p : Program) (decls : OutDeclState) : Doc :=
  .obj (DeclCategory.all.map fun c => (c.name, inputRefs slots p (decls.trees c)))

/-- Decode `{category: [REF]}` into unit tables; a name that is no
category is passed over. -/
def unitDeclsOf (slots : Array NodeId) (d : Doc) : Build UnitDecls := do
  let mut u : UnitDecls := {}
  for (name, refsDoc) in ← liftD (fields d) do
    let some c := DeclCategory.ofName? name | continue
    for r in ← liftD (list refsDoc) do
      match ← nodeRef slots r with
      | some id => u := u.push c id
      | none => fail "null decl table entry"
  return u

/-- Roots, then the node list, numbered by first mention. -/
def viewRoots (arena : Arena) (roots : List (Option NodeId)) : Doc × Doc :=
  View.run do
    let rs ← View.refs arena roots
    return (rs, ← View.nodes arena)

def treeRoundtrip (req : Doc) : Decode Doc := do
  let (p, slots) ← programOf (req.field "program")
  let (roots, p) ← buildOn p (refs slots (req.field "roots"))
  let emit := boolOn (req.field "emit_locations")
  let write := roots.foldlM (fun out r => WriteM.writeTree out r) ByteArray.empty
  match write.run (TreeWriter.new p {} emit) with
  | .error e => return streamError e
  | .ok (main, w) =>
    let reader : TreeReader :=
      { program := Program.new, strings := w.strings.stream, cursor := { name := "main", data := main } }
    match (ReadM.readCount roots.length ReadM.readTree).run reader with
    | .error e _ => return streamError e
    | .ok readRoots r =>
      let (_, equivalent) := (roots.zip readRoots).foldl (fun (acc : Equivalence × List Doc) (a, b) =>
        let (ok, e) := acc.1.check p.arena r.program.arena a b
        (e, .bool ok :: acc.2)) ({}, [])
      let (rootsDoc, nodesDoc) := viewRoots r.program.arena readRoots
      return .obj [("main", hexDoc main), ("strings", hexDoc w.strings.stream),
        ("at_end", .bool r.cursor.isAtEnd), ("equivalent", .arr equivalent.reverse),
        ("roots", rootsDoc), ("nodes", nodesDoc)]

/-- The function-local scope a request describes for writing. -/
def writeScopeOf (slots : Array NodeId) (d : Doc) : Build (Option LocalScope) := do
  match d with
  | .null => return none
  | _ =>
    let some function ← nodeRef slots (d.field "function") | fail "scope without a function"
    let locals ← (← refs slots (d.field "local_decls")).mapM fun
      | some n => pure n
      | none => fail "local decl must not be null"
    return some (LocalScope.new function locals)

def writeTreeOp (req : Doc) : Decode Doc := do
  let (p, slots) ← programOf (req.field "program")
  let (roots, p) ← buildOn p (refs slots (req.field "roots"))
  let (scope, p) ← buildOn p (writeScopeOf slots (req.field "scope"))
  let emit := boolOn (req.field "emit_locations")
  let write := roots.foldlM (fun out r => WriteM.writeTree out r) ByteArray.empty
  match write.run { TreeWriter.new p {} emit with scope } with
  | .error e => return streamError e
  | .ok (main, w) =>
    let (locals, named, unnamed) := match w.scope with
      | some sc => (sc.locals.trees.toList, sc.labels.named.toList, sc.labels.unnamed)
      | none => ([], [], 0)
    return .obj [("main", hexDoc main), ("strings", hexDoc w.strings.stream),
      ("pickles", .nat w.pickles.size), ("tables", tablesDoc slots p w.decls),
      ("locals", inputRefs slots p locals), ("named_labels", inputRefs slots p named),
      ("num_unnamed_labels", .nat unnamed)]

/-- The function-local scope a request describes for reading: fresh named
labels in list order, a number of unnamed labels and the SSA names. -/
def readScopeOf (slots : Array NodeId) (d : Doc) : Build (Option ScopeInput) := do
  match d with
  | .null => return none
  | _ =>
    let some function ← nodeRef slots (d.field "function") | fail "scope without a function"
    let mut named := #[]
    for n in ← liftD (list (d.field "named_labels")) do
      let name ← match n with
        | .null => pure none
        | _ => do
          let s ← liftD (str n)
          let p ← get
          let (id, p) := p.identifier s
          set p
          pure (some id)
      let p ← get
      let (label, p) := p.labelDecl function name
      set p
      named := named.push label
    let unnamed ← liftD (u32At d "num_unnamed_labels")
    let ssa ← refs slots (d.field "ssa_names")
    return some { function, locals := #[], localOffsets := #[], localData := .empty,
                  namedLabels := named, numUnnamedLabels := unnamed, ssaNames := ssa.toArray }

def readTreeOp (req : Doc) : Decode Doc := do
  let (p, slots) ← programOf (req.field "program")
  let (decls, p) ← buildOn p (unitDeclsOf slots (req.field "decls"))
  let (scope, p) ← buildOn p (readScopeOf slots (req.field "scope"))
  let main ← requiredHex req "main"
  let strings ← match text? (req.field "strings") with
    | none => pure (ByteArray.mk #[0])
    | some h => hexText h
  -- A negative count reads nothing.
  let count ← match req.get? "count" with
    | none => pure none
    | some d => some <$> Int.toNat <$> int d
  let reader : TreeReader := { program := p, decls, strings, scope, cursor := { name := "main", data := main } }
  -- Each root read takes at least one byte, so the stream bounds the number of roots.
  let fuel := main.size + (count.getD 0) + 1
  -- Roots read before a failure are kept: read them one at a time.
  let rec go : Nat → List (Option NodeId) → TreeReader → List (Option NodeId) × TreeReader × Option StreamError
    | 0, acc, r => (acc.reverse, r, none)
    | k + 1, acc, r =>
      let done : Bool := match count with
        | some n => decide (n ≤ acc.length)
        | none => r.cursor.isAtEnd
      if done then (acc.reverse, r, none)
      else match ReadM.readTree.run r with
        | .ok root r => go k (root :: acc) r
        | .error e r => (acc.reverse, r, some e)
  let (roots, r, err) := go fuel [] reader
  let (rootsDoc, nodesDoc) := viewRoots r.program.arena roots
  let base := [("roots", rootsDoc), ("position", .nat r.cursor.pos), ("nodes", nodesDoc)]
  return .obj (match err with
    | some e => ("error", streamError e) :: base
    | none => base)

end IrStream.Service
