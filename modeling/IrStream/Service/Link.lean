import IrStream.Service.Units
import IrStream.Service.Edits
import IrStream.Link.Session
import IrStream.View.Program

/-!
Requests on whole units: writing one, linking several, and driving a read
session step by step. A unit is described by a program to write, by its
sections, or by an archive's bytes, and edits may then change its sections
to reach the reader's error paths.
-/

namespace IrStream.Service

def optionsOf (d : Doc) : Decode LinkOptions := do
  return { emitLocations := boolOn (d.field "emit_locations"),
           verify := boolOn (d.field "verify") }

/-- The partition `set` of a request, by position among the listed
call-graph nodes; none if the request has none. -/
def partitionOf (ids : Array CgNodeId) (d : Doc) : Decode (Option (List CgNodeId)) :=
  match d with
  | .null => pure none
  | s => do return some (← (← list s).mapM (graphNodeAt ids))

/-- Replace the first section named `name`. -/
def replaceFirst (sections : List (String × ByteArray)) (name : String)
    (entry : String × ByteArray) : List (String × ByteArray) :=
  match sections with
  | [] => []
  | s :: rest => if s.1 == name then entry :: rest else s :: replaceFirst rest name entry

/-- Remove the first section named `name`. -/
def dropFirst (sections : List (String × ByteArray)) (name : String) : List (String × ByteArray) :=
  match sections with
  | [] => []
  | s :: rest => if s.1 == name then rest else s :: dropFirst rest name

/-- Apply one edit to a unit's sections: add a section (when `add` names
one), drop one, or edit one's streams and bytes and perhaps rename it.
Stream edits frame the section again as the kind its new name stands for. -/
def editSections (sections : List (String × ByteArray)) (e : Doc) :
    Answering (List (String × ByteArray)) := do
  if let some n := text? (e.field "add") then
    return sections ++ [(n, ← hexOrEmpty (e.field "hex"))]
  let name ← requiredText e "section"
  let some bytes := sections.lookup name | throw (badInput s!"no section {name} to edit")
  if switch (e.field "drop") then return dropFirst sections name
  let renamed := (text? (e.field "rename")).getD name
  let bytes ← if changesStreams e then
      match SectionName.kind? renamed with
      | some kind => applyStreamEdit kind bytes e
      | none => throw (badInput "not an LTO section")
    else pure bytes
  let bytes ← applyByteEdit bytes e
  return replaceFirst sections name (renamed, bytes)

/-- An archive holding `sections`, emitted in order. -/
def archiveOf (name : String) (sections : List (String × ByteArray)) : Answering Archive :=
  sections.foldlM (fun (a : Archive) (n, b) => settled ((a.emit n b).mapError streamError))
    { name }

/-- A unit of a request (the `k`-th), with the sections it wrote if it was
written from a program. -/
def unitOf (k : Nat) (d : Doc) : Answering (Archive × Option (List (String × ByteArray))) := do
  let name := (text? (d.field "name")).getD s!"unit{k}.o"
  let (archive, written) ← match d.get? "program", text? (d.field "object_hex"), d.get? "sections" with
    | some pd, _, _ => do
      let (p, _, ids) ← programGraphOf pd
      let set ← partitionOf ids (d.field "set")
      let options ← optionsOf (d.field "options")
      let a ← settled ((p.writeUnit options set { name }).mapError pipelineError)
      pure (a, some a.sections)
    | none, some h, _ => do
      pure (← settled ((Archive.ofBytes name (← hexText h)).mapError streamError), none)
    | none, none, some s => do pure (← archiveOf name (← namedBytesOf s), none)
    | none, none, none => pure ({ name }, none)
  let edits ← list (d.field "edits")
  if edits.isEmpty then return (archive, written)
  -- Edits start from each section name with the bytes a lookup by that name finds.
  let listed := archive.sections.map fun (n, _) => (n, (archive.section? n).getD .empty)
  let sections ← edits.foldlM (fun ss e => editSections ss e) listed
  return (← archiveOf name sections, written)

/-- The units, resolution file and options of a request. -/
def linkInputOf (req : Doc) :
    Answering (List (Archive × Option (List (String × ByteArray))) × ResolutionMap × LinkOptions) := do
  let units ← (← list (req.field "units")).zipIdx.mapM fun (u, k) => unitOf k u
  let text := text? (req.field "resolution")
  let resolutions ← settled ((ResolutionMap.parse (text.getD "")).mapError streamError)
  return (units, resolutions, ← optionsOf (req.field "options"))

def writeUnitOp (req : Doc) : Decode Doc := do
  let (p, _, ids) ← programGraphOf (req.field "program")
  let options ← optionsOf (req.field "options")
  let set ← partitionOf ids (req.field "set")
  let name := (text? (req.field "name")).getD "unit.o"
  return match p.writeUnit options set { name } with
    | .ok a => .obj [("sections", namedBytes a.sections)]
    | .error e => pipelineError e

/-- Add the sections each written unit wrote (none for the others). -/
def withWritten (answer : Doc) (written : List (Option (List (String × ByteArray)))) : Doc :=
  match answer with
  | .obj fs => .obj (fs ++ [("written", .arr (written.map (Doc.opt namedBytes)))])
  | d => d

def linkOp (req : Doc) : Decode Doc := do
  let shown := boolOn (req.field "show_sections")
  let r ← (do
    let (units, resolutions, options) ← linkInputOf req
    let answer := match link (units.map (·.1)) resolutions options with
      | .ok (p, t) => View.program p (some t)
      | .error e => pipelineError e
    return if shown then withWritten answer (units.map (·.2)) else answer : Answering Doc).run
  return match r with
    | .ok d => d
    | .error d => d

/-- The function a session step names: the declaration of its symbol, else
the first file-scope declaration of that name, else the first declaration of
a live call-graph node of that name. -/
def functionNamed (s : Session) (name : String) : Option NodeId :=
  let named (d : NodeId) : Bool := s.program.symbolName? d == some name
  ((s.symtab.entry? name).map (·.decl)).orElse fun _ =>
    (s.program.globals.find? named).orElse fun _ =>
      (s.program.callgraph.live.map (·.2.decl)).find? named

/-- Run a session step; its value, or the error in its place. -/
def sessionRun (s : Session) (m : SessionM α) (f : α → Doc) : Doc × Session :=
  match m.run s with
  | .ok a s => (f a, s)
  | .error e s => (pipelineError e, s)

/-- One session step: its result, the session after it, and whether the
steps end here. A step that cannot be read, or a unit that is not there,
fails the whole request; a function that is not there is that step's error. -/
def sessionStep (sources : Array Archive) (s : Session) (step : Doc) : Decode (Doc × Session × Bool) := do
  match stepOf step with
  | some ("add_unit", k) =>
    let k ← int k
    let some source := (if 0 ≤ k then sources[k.toNat]? else none) | refuse "unit index"
    let (d, s) := sessionRun s (Session.addUnit source) Doc.nat
    return (d, s, false)
  | some ("read_call_graph", _) =>
    let (d, s) := sessionRun s Session.readCallGraph fun _ => .bool true
    return (d, s, false)
  | some ("fixup", _) =>
    let (d, s) := sessionRun s Session.fixup Doc.nat
    return (d, s, false)
  | some ("read_function_body", n) =>
    let name := (text? n).getD ""
    let some decl := functionNamed s name | return (badInput s!"no function {name}", s, false)
    let (d, s) := sessionRun s (Session.readFunctionBody decl) fun _ => .bool true
    return (d, s, false)
  | some ("read_all_bodies", _) =>
    let (d, s) := sessionRun s Session.readAllBodies Doc.nat
    return (d, s, false)
  | some ("num_units", _) => return (.nat s.units.size, s, false)
  | some ("unit_nodes", k) =>
    let k ← int k
    let index := View.graphIndex s.program.callgraph
    let nodes := match (if 0 ≤ k then s.units[k.toNat]? else none) with
      | some u => u.nodes.map fun n => Doc.opt Doc.nat (n.bind index.get?)
      | none => []
    return (.arr nodes, s, false)
  | some ("dump", _) => return (View.program s.program (some s.symtab), s, false)
  | some ("finish", _) =>
    let (d, s) := sessionRun s Session.finish fun (p, t) => View.program p (some t)
    return (d, s, true)
  | some (name, _) => refuse s!"unknown session step {name}"
  | none => refuse s!"unknown session step {render step}"

def sessionOp (req : Doc) : Decode Doc := do
  let r ← (do
    let (units, resolutions, options) ← linkInputOf req
    let sources := (units.map (·.1)).toArray
    let steps ← list (req.field "steps")
    let mut s := Session.new resolutions options
    let mut results := #[]
    for step in steps do
      let (d, s', stop) ← sessionStep sources s step
      results := results.push d
      s := s'
      if stop then break
    return Doc.obj [("results", .arr results.toList), ("outstanding", .nat 0)] : Answering Doc).run
  return match r with
    | .ok d => d
    | .error d => d

end IrStream.Service
