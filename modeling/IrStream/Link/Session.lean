import IrStream.Link.Pipeline

/-!
Reading units back into one merged program. A session goes through three
stages, each step checking that it comes at its turn:

1. `addUnit` for every unit: its declaration tables are read and each of its
   file-scope symbols is resolved and merged into the symbol table;
2. `readCallGraph`: every unit's call graph joins the merged one, calls moved
   to the prevailing copies of their callees;
3. `fixup`: references to copies that did not prevail are redirected to the prevailing ones;

after which function bodies are read on demand. `link` runs all of it and
loads every body. A failed step leaves the session as far as it got.
-/

namespace IrStream

/-- The stage a session is at. -/
inductive SessionStage where
  | addingUnits
  | graphRead
  | merged
  deriving DecidableEq, Repr, Inhabited

/-- A unit added to a session: its sections, its declaration tables, and
per call-graph record the node it became in the merged graph. -/
structure SessionUnit where
  source : Archive
  decls : UnitDecls
  nodes : List (Option CgNodeId) := []

/-- A read session. Symbols the resolution file does not settle are
resolved from the symbols themselves (`SymbolTable.fakeResolution`). -/
structure Session where
  program : Program := .new
  resolutions : ResolutionMap := {}
  options : LinkOptions := {}
  symtab : SymbolTable := {}
  units : Array SessionUnit := #[]
  stage : SessionStage := .addingUnits
  deriving Inhabited

/-- A session step; the session survives a failure as far as it got. -/
abbrev SessionM := EStateM PipelineError Session

namespace SessionM

def liftPipeline (r : Pipeline α) : SessionM α :=
  match r with
  | .ok a => pure a
  | .error e => throw e

def stage (detail : String) : SessionM α := liftPipeline (Pipeline.stage detail)

def stream (r : Except StreamError α) : SessionM α := liftPipeline (Pipeline.stream r)

def within (context : String) (r : Except StreamError α) : SessionM α :=
  liftPipeline (Pipeline.within context r)

def setProgram (p : Program) : SessionM Unit := modify fun s => { s with program := p }

end SessionM

namespace Session

def new (resolutions : ResolutionMap) (options : LinkOptions) : Session :=
  { resolutions, options }

/-- Add a unit: read its declaration tables, then resolve and merge each of
its file-scope declarations and each function or variable of its tables,
once each, skipping the locals of functions and nameless declarations.
Answers the unit's index. -/
def addUnit (source : Archive) : SessionM Nat := do
  let s ← get
  if s.stage != .addingUnits then
    SessionM.stage s!"unit {source.name} added after the call graph was read"
  let bytes ← SessionM.stream (source.acquire SectionName.decls)
  let (r, p) := DeclsSection.read s.program bytes
  SessionM.setProgram p
  let sec ← SessionM.within s!"failed to read declarations of {source.name}" r
  let index := s.units.size
  let candidates := sec.globals ++ (sec.decls.table .function).toList ++
    (sec.decls.table .var).toList
  let mut seen : Std.HashSet NodeId := {}
  for decl in candidates do
    if seen.contains decl then continue
    seen := seen.insert decl
    let s ← get
    if s.program.isFunctionLocal decl then continue
    let some info := SymbolInfo.of? s.program decl | continue
    let some resolution := s.symtab.resolveWith s.resolutions source.name info | continue
    let (symtab, err) := s.symtab.merge index info resolution
    set { s with symtab }
    if let some e := err then
      SessionM.within s!"failed to merge {info.name} from {source.name}" (.error e)
  modify fun s => { s with
    program := sec.globals.foldl Program.addGlobal s.program
    units := s.units.push { source, decls := sec.decls } }
  return index

/-- Read every unit's call graph into the merged one. -/
def readCallGraph : SessionM Unit := do
  if (← get).stage != .addingUnits then SessionM.stage "call graph already read"
  for i in [0:(← get).units.size] do
    let s ← get
    let some u := s.units[i]? | continue
    let bytes ← SessionM.stream (u.source.acquire SectionName.cgraph)
    let (r, p) := CallGraph.readSection s.program u.decls bytes s.symtab
    SessionM.setProgram p
    let nodes ← SessionM.within s!"failed to read the call graph of {u.source.name}" r
    modify fun s => { s with units := s.units.modify i fun u => { u with nodes } }
  modify fun s => { s with stage := .graphRead }

/-- Replace the copies that did not prevail; answers how many were. -/
def fixup : SessionM Nat := do
  let s ← get
  if s.stage != .graphRead then
    SessionM.stage "declarations can only be merged once, after the call graph"
  let (program, decls, replaced) := s.symtab.apply s.program (s.units.toList.map (·.decls))
  let units := (s.units.toList.zip decls).map fun (u, d) => { u with decls := d }
  set { s with program, units := units.toArray, stage := .merged }
  return replaced

/-- The unit a function's body is read from: the unit its symbol prevailed
in, if the declaration is a merged copy that prevailed, else the first unit
whose function table names it. -/
def owner (s : Session) (decl : NodeId) (name : String) : Pipeline Nat :=
  let prevailed := if (s.symtab.resolution? decl).isSome then
      (s.symtab.entry? name).bind fun e => if e.decl == decl then some e.unit else none
    else none
  match prevailed with
  | some u => pure u
  | none =>
    match s.units.toList.findIdx? (fun u => (u.decls.table .function).contains decl) with
    | some u => pure u
    | none => Pipeline.stage s!"no unit declares function {name}"

/-- Read the body of `decl` from the unit that owns it, unless it has one. -/
def readFunctionBody (decl : NodeId) : SessionM Unit := do
  let s ← get
  if s.stage != .merged then
    SessionM.stage "function bodies are read after declarations are merged"
  if s.program.hasBody decl then return
  let some name := s.program.symbolName? decl | SessionM.stage s!"function {decl} has no name"
  let index ← SessionM.liftPipeline (s.owner decl name)
  let some u := s.units[index]? | SessionM.stage s!"no unit declares function {name}"
  let bytes ← SessionM.stream (u.source.acquire (SectionName.ofKind .functionBody (some name)))
  let (r, p) := FunctionBody.readSection s.program u.decls decl bytes s.options.verify
  SessionM.setProgram p
  let body ← SessionM.within s!"failed to read the body of {name} from {u.source.name}" r
  modify fun s => { s with program := s.program.setBody decl body }

/-- Read the body of every function with one: each live primary node whose
body is available somewhere. Answers how many were read. -/
def readAllBodies : SessionM Nat := do
  let g := (← get).program.callgraph
  let decls := (g.live.filter fun (_, n) =>
    n.availability != .notAvailable && n.cloneOf.isNone).map (·.2.decl)
  let mut loaded := 0
  for decl in decls do
    if !(← get).program.hasBody decl then
      readFunctionBody decl
      loaded := loaded + 1
  return loaded

/-- The merged program and symbol table, once declarations are merged. -/
def finish : SessionM (Program × SymbolTable) := do
  let s ← get
  if s.stage != .merged then
    SessionM.stage "read session finished before declarations were merged"
  return (s.program, s.symtab)

end Session

/-- Link units into one program: add every unit, read the call graphs,
replace the copies that did not prevail and read every body. -/
def link (sources : List Archive) (resolutions : ResolutionMap) (options : LinkOptions) :
    Pipeline (Program × SymbolTable) :=
  let run : SessionM (Program × SymbolTable) := do
    for source in sources do
      discard (Session.addUnit source)
    Session.readCallGraph
    discard Session.fixup
    discard Session.readAllBodies
    Session.finish
  match run.run (Session.new resolutions options) with
  | .ok r _ => .ok r
  | .error e _ => .error e

end IrStream
