import Std.Data.HashSet
import IrStream.Section.Archive
import IrStream.Codec.Body
import IrStream.Codec.Decls
import IrStream.Codec.CallGraph

/-!
Writing a whole unit. A program image becomes the sections of one unit: a
body section per function with a body, named by the function's link-time
name, then the call-graph section, then the declarations section. They come
in this order because the bodies and the call graph fill the declaration
tables that the declarations section writes last.

A failure carries the steps it passed through (`PipelineError`), so its text
says which body or section it was writing.
-/

namespace IrStream

/-- How units are written and read back. -/
structure LinkOptions where
  /-- Whether source positions are written. -/
  emitLocations : Bool := true
  /-- Whether bodies are checked once read. -/
  verify : Bool := true
  deriving DecidableEq, Repr, Inhabited

/-- A whole-unit step, failing with the contexts it passed through. -/
abbrev Pipeline := Except PipelineError

namespace Pipeline

/-- A stream error as it is, with no context. -/
def stream (r : Except StreamError α) : Pipeline α :=
  r.mapError fun e => { contexts := [], cause := .stream e }

/-- A stream error seen from the step `context`. -/
def within (context : String) (r : Except StreamError α) : Pipeline α :=
  r.mapError fun e => { contexts := [context], cause := .stream e }

/-- A failed stage check. -/
def stage (detail : String) : Pipeline α := throw { contexts := [], cause := .stage detail }

end Pipeline

/-- Emit the unit holding the partition `set` of `program` into `sink`:
the bodies of the partition's functions (of every function without a
partition), each once, then the call graph and the declaration tables. -/
def Program.writeUnit (program : Program) (options : LinkOptions) (set : Option (List CgNodeId))
    (sink : Archive) : Pipeline Archive := do
  let (set, bodies) : List CgNodeId × List NodeId := match set with
    | some set => (set, set.filterMap fun id => (program.callgraph.node? id).map CgNode.decl)
    | none => (program.callgraph.nodeIds, program.functions.map Prod.fst)
  let mut decls : OutDeclState := {}
  let mut written : Std.HashSet NodeId := {}
  let mut sink := sink
  for decl in bodies do
    let some body := program.body? decl | continue
    if written.contains decl then continue
    written := written.insert decl
    let some name := program.symbolName? decl
      | Pipeline.stage s!"function {decl} has a body but no name"
    let (bytes, d) ← Pipeline.within s!"failed to write the body of {name}"
      (FunctionBody.writeSection program decls body options.emitLocations)
    decls := d
    sink ← Pipeline.stream (sink.emit (SectionName.ofKind .functionBody (some name)) bytes)
  let (graph, d) ← Pipeline.within "failed to write the call graph"
    (CallGraph.writeSection program decls set)
  sink ← Pipeline.stream (sink.emit SectionName.cgraph graph)
  let (tables, _) ← Pipeline.within "failed to write the declaration tables"
    (DeclsSection.write program d options.emitLocations)
  Pipeline.stream (sink.emit SectionName.decls tables)

end IrStream
