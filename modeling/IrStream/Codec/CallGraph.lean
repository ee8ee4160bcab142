import Std.Data.HashMap
import Std.Data.HashSet
import IrStream.Section.Header
import IrStream.Codec.Tables
import IrStream.Link.SymbolTable
import IrStream.Wire.Output
import IrStream.Flags.Packing

/-!
The call-graph section of a unit. Its nodes are numbered densely for the
section, apart from the tree numbering: the partition being written comes
first, then every callee it reaches outside it. Those boundary nodes are
written as bodiless, externally visible functions, whatever they are in the
program.

The main stream holds the node records, an end tag, the edge records of the
partition's nodes and a second end tag. A node's inline target is written as
a section number and resolved once every node of the unit is read. Reading
merges the nodes into the program's graph, moves each call to the prevailing
copy of its callee, and drops the nodes whose declaration did not prevail.
-/

namespace IrStream

-- Record tags of the call-graph stream.
namespace GraphTag

def done : UInt8 := 0
def unavailable : UInt8 := 1
def available : UInt8 := 2
def overwritable : UInt8 := 3
def edge : UInt8 := 4

end GraphTag

/-- The section numbering of the nodes written for a partition: the members
first, in the order given, then the boundary callees in order of discovery. -/
structure GraphEncoder where
  index : Std.HashMap CgNodeId Nat := {}
  nodes : Array CgNodeId := #[]
  /-- How many of `nodes` are members of the partition. -/
  partitionSize : Nat := 0
  deriving Inhabited

namespace GraphEncoder

def lookup (e : GraphEncoder) (id : CgNodeId) : Option Nat := e.index.get? id

/-- Number `id` next, unless it has a number. -/
def encode (e : GraphEncoder) (id : CgNodeId) : GraphEncoder :=
  if e.index.contains id then e
  else { e with index := e.index.insert id e.nodes.size, nodes := e.nodes.push id }

/-- Whether section number `i` belongs to a callee outside the partition. -/
def isBoundary (e : GraphEncoder) (i : Nat) : Bool := e.partitionSize ≤ i

/-- Number the partition `set` and the callees it reaches. Every member must
be live, and a callee outside the partition must be live and not inlined
anywhere, since its body is not written. -/
def build (g : CallGraph) (set : List CgNodeId) : Except StreamError GraphEncoder := do
  let mut e : GraphEncoder := {}
  for id in set do
    if (g.node? id).isNone then throw (.consistency s!"{id} is not in the call graph")
    e := e.encode id
  e := { e with partitionSize := e.nodes.size }
  for id in set do
    for edge in g.callees id do
      if (e.lookup edge.callee).isSome then continue
      let some callee := g.node? edge.callee
        | throw (.consistency s!"edge from {id} to missing {edge.callee}")
      if callee.global.inlinedTo.isSome then
        throw (.consistency s!"boundary node {edge.callee} is inlined into another function")
      e := e.encode edge.callee
  return e

end GraphEncoder

/-- The record tag of a node: a boundary node is always bodiless. -/
def CgNode.tag (n : CgNode) (boundary : Bool) : UInt8 :=
  if boundary then GraphTag.unavailable
  else match n.availability with
    | .notAvailable => GraphTag.unavailable
    | .available | .programLocal => GraphTag.available
    | .overwritable => GraphTag.overwritable

/-- What writing a call graph accumulates: the main stream, the unit's
declaration tables, and the declarations some node has already named. -/
structure GraphWriter where
  out : ByteArray := .empty
  decls : OutDeclState
  declared : Std.HashSet NodeId := {}

abbrev GraphWriteM := StateT GraphWriter (Except StreamError)

namespace GraphWriteM

def emit (f : ByteArray → ByteArray) : GraphWriteM Unit :=
  modify fun w => { w with out := f w.out }

def slebs (vs : List Int64) : GraphWriteM Unit := emit fun out => vs.foldl Out.sleb out

def flag (b : Bool) : UInt64 := if b then 1 else 0

/-- One node record. A node whose declaration an earlier record named is
marked as a clone of it. -/
def node (e : GraphEncoder) (n : CgNode) (boundary : Bool) : GraphWriteM Unit := do
  let w ← get
  let tag := n.tag boundary
  let (index, decls) := w.decls.encode .function n.decl
  let flags := if boundary then
      { n.flags with isLocal := false, externallyVisible := true, inlinable := false }
    else n.flags
  set { w with decls, declared := w.declared.insert n.decl }
  emit fun out =>
    let out := Out.uleb (Out.u8 out tag) (flag (w.declared.contains n.decl))
    Out.uleb (Out.sleb (Out.uleb out index.toUInt64) n.count)
      (Flags.pack CgraphFlags.fields flags).toUInt64
  if tag != GraphTag.unavailable then
    let s := n.summary
    slebs [s.estimatedSelfStackSize, s.selfSize.toInt64, s.sizeInliningBenefit.toInt64,
      s.selfTime.toInt64, s.timeInliningBenefit.toInt64]
  let g := n.global
  let inlinedTo ← match g.inlinedTo with
    | some target =>
      if boundary then pure (-1)
      else match e.lookup target with
        | some i => pure (Int64.ofNat i)
        | none => throw (.consistency s!"inline target {target} is not being written")
    | none => pure (-1)
  slebs [g.estimatedStackSize, g.stackFrameOffset, inlinedTo, g.time.toInt64, g.size.toInt64,
    g.estimatedGrowth.toInt64]
  emit fun out => Out.uleb out (flag g.inlined)

/-- One edge record, its ends given by section number. -/
def edge (e : GraphEncoder) (edge : CgEdge) : GraphWriteM Unit := do
  let number (id : CgNodeId) : GraphWriteM Int64 :=
    match e.lookup id with
    | some i => pure (Int64.ofNat i)
    | none => throw (.consistency s!"edge endpoint {id} not numbered")
  let caller ← number edge.caller
  let callee ← number edge.callee
  emit fun out =>
    let out := Out.sleb (Out.sleb (Out.u8 out GraphTag.edge) caller) callee
    let out := Out.uleb (Out.uleb out edge.stmtUid.toUInt64) edge.inlineFailed.code.toUInt64
    let out := Out.uleb (Out.uleb (Out.sleb out edge.count) edge.frequency.toUInt64)
      edge.loopNest.toUInt64
    Out.uleb out (Flags.pack EdgeFlags.fields edge.flags).toUInt64

end GraphWriteM

/-- The call-graph section of the partition `set` of `program`, and the
declaration tables with every node's declaration added. -/
def CallGraph.writeSection (program : Program) (decls : OutDeclState) (set : List CgNodeId) :
    Except StreamError (ByteArray × OutDeclState) := do
  let g := program.callgraph
  let e ← GraphEncoder.build g set
  let write : GraphWriteM Unit := do
    for (id, i) in e.nodes.toList.zipIdx do
      let some n := g.node? id | throw (.consistency s!"{id} vanished while writing")
      GraphWriteM.node e n (e.isBoundary i)
    GraphWriteM.emit (Out.u8 · GraphTag.done)
    for id in e.nodes.toList.take e.partitionSize do
      for edge in g.callees id do
        GraphWriteM.edge e edge
    GraphWriteM.emit (Out.u8 · GraphTag.done)
  let ((), w) ← write.run { decls }
  let bytes ← SectionData.write .cgraph {}
    [("named labels", .empty), ("main", w.out), ("strings", .empty)]
  return (bytes, w.decls)

/-- What reading a call graph works on: the main stream and the program
whose graph the nodes join. Both survive a failure, as far as it got. -/
structure GraphReader where
  cursor : Cursor
  program : Program

abbrev GraphReadM := EStateM StreamError GraphReader

namespace GraphReadM

def fail (e : StreamError) : GraphReadM α := throw e

def cur (m : CursorM α) : GraphReadM α := fun s =>
  match m.run s.cursor with
  | .ok a c => .ok a { s with cursor := c }
  | .error e c => .error e { s with cursor := c }

def lift (r : Except StreamError α) : GraphReadM α :=
  match r with
  | .ok a => pure a
  | .error e => fail e

def graph : GraphReadM CallGraph := return (← get).program.callgraph

def setGraph (g : CallGraph) : GraphReadM Unit :=
  modify fun s => { s with program := { s.program with callgraph := g } }

def modifyNode (id : CgNodeId) (f : CgNode → CgNode) : GraphReadM Unit := do
  setGraph ((← graph).modifyNode id f)

def modifyGlobal (id : CgNodeId) (f : InlineGlobal → InlineGlobal) : GraphReadM Unit :=
  modifyNode id fun n => { n with global := f n.global }

/-- The node `raw` names among the nodes read so far. -/
def nodeAt (nodes : Array CgNodeId) (raw : Int64) : GraphReadM CgNodeId :=
  match (if raw < 0 then none else nodes[raw.toInt.toNat]?) with
  | some id => pure id
  | none => fail (.indexOutOfRange "cgraph node" raw nodes.size)

/-- One node record after its tag: the node of its declaration, or a new
clone of it, takes the record's fields. Returns the node and its raw inline
target, if it names one. -/
def node (decls : UnitDecls) (tag : UInt8) : GraphReadM (CgNodeId × Option Int64) := do
  if !(tag == GraphTag.unavailable || tag == GraphTag.available ||
      tag == GraphTag.overwritable) then
    fail (.unknownTag tag.toUInt64 "cgraph node")
  let clone := (← cur CursorM.readUleb) != 0
  let decl ← lift (decls.get .function (← cur CursorM.readUleb))
  let count ← cur CursorM.readSleb
  let flags := Flags.unpack CgraphFlags.fields (← cur CursorM.readUleb).toNat {}
  let summary : InlineSummary ← if tag != GraphTag.unavailable then do
      let estimatedSelfStackSize ← cur CursorM.readSleb
      let selfSize ← cur CursorM.readI32
      let sizeInliningBenefit ← cur CursorM.readI32
      let selfTime ← cur CursorM.readI32
      let timeInliningBenefit ← cur CursorM.readI32
      pure { estimatedSelfStackSize, selfSize, sizeInliningBenefit, selfTime,
             timeInliningBenefit }
    else pure {}
  let (of, g) := (← graph).getOrCreate decl
  setGraph g
  let id ← if clone then
      match g.createClone of with
      | some (id, g) => do setGraph g; pure id
      | none => fail (.consistency s!"cannot clone {of}")
    else pure of
  let availability :=
    if tag == GraphTag.unavailable then Availability.notAvailable
    else if tag == GraphTag.overwritable then .overwritable
    else if flags.isLocal then .programLocal
    else .available
  modifyNode id fun n => { n with availability, flags, count, summary }
  let v ← cur CursorM.readSleb
  modifyGlobal id fun g => { g with estimatedStackSize := v }
  let v ← cur CursorM.readSleb
  modifyGlobal id fun g => { g with stackFrameOffset := v }
  let target ← cur CursorM.readSleb
  modifyGlobal id fun g => { g with inlinedTo := none }
  let v ← cur CursorM.readI32
  modifyGlobal id fun g => { g with time := v }
  let v ← cur CursorM.readI32
  modifyGlobal id fun g => { g with size := v }
  let v ← cur CursorM.readI32
  modifyGlobal id fun g => { g with estimatedGrowth := v }
  let v := (← cur CursorM.readUleb) != 0
  modifyGlobal id fun g => { g with inlined := v }
  return (id, if target == -1 then none else some target)

/-- One edge record after its tag. A call from a preempted copy is dropped
(`false`); one from a copy that does not prevail is an error; a call to a copy
that does not prevail moves to the prevailing one. -/
def edge (nodes : Array CgNodeId) (symtab : SymbolTable) : GraphReadM Bool := do
  let caller ← nodeAt nodes (← cur CursorM.readSleb)
  let callee ← nodeAt nodes (← cur CursorM.readSleb)
  let stmtUid ← cur CursorM.readU32
  let rawReason ← cur CursorM.readU32
  let some inlineFailed := InlineFailed.ofCode? rawReason.toNat
    | fail (.unknownTag rawReason.toUInt64 "inline failure reason")
  let count ← cur CursorM.readSleb
  let frequency ← cur CursorM.readU32
  let loopNest ← cur CursorM.readU32
  let packed ← cur CursorM.readUleb
  let declOf (id : CgNodeId) : GraphReadM NodeId := do
    match (← graph).node? id with
    | some n => pure n.decl
    | none => fail (.consistency s!"edge endpoint {id} was removed")
  let callerDecl ← declOf caller
  let calleeDecl ← declOf callee
  let resolution := symtab.resolution? callerDecl
  if resolution == some .preempted then return false
  if !(resolution.any Resolution.isPrevailing) && !symtab.isPrevailing callerDecl then
    fail (.consistency s!"call {stmtUid}: caller {caller} is not the prevailing definition")
  let prevailing := symtab.prevailing calleeDecl
  let mut callee := callee
  if prevailing != calleeDecl then
    let g ← graph
    if (g.node? callee).any (·.cloneOf.isSome) then
      fail (.consistency s!"call {stmtUid}: cannot rebind clone {callee}")
    let (rebound, g) := g.getOrCreate prevailing
    setGraph g
    callee := rebound
  let flags := Flags.unpack EdgeFlags.fields packed.toNat {}
  setGraph ((← graph).addEdge
    { caller, callee, stmtUid, inlineFailed, count, frequency, loopNest, flags })
  return true

/-- Node records up to the end tag, with the raw inline targets to resolve. -/
def nodes (decls : UnitDecls) : GraphReadM (Array CgNodeId × List (CgNodeId × Int64)) := do
  let mut nodes := #[]
  let mut targets := []
  for _ in [0:(← get).cursor.remaining + 1] do
    let tag ← cur CursorM.readU8
    if tag == GraphTag.done then return (nodes, targets.reverse)
    let (id, target) ← node decls tag
    nodes := nodes.push id
    if let some t := target then targets := (id, t) :: targets
  -- every record takes a byte, so the stream ends before the loop does
  let _ ← cur CursorM.readU8
  return (nodes, targets.reverse)

/-- Point each node at its inline target, now that all nodes are known. -/
def resolveTargets (nodes : Array CgNodeId) (targets : List (CgNodeId × Int64)) :
    GraphReadM Unit := do
  for (id, raw) in targets do
    let target ← nodeAt nodes raw
    modifyGlobal id fun g => { g with inlinedTo := some target }

/-- Edge records up to the end tag. -/
def edges (nodes : Array CgNodeId) (symtab : SymbolTable) : GraphReadM Unit := do
  for _ in [0:(← get).cursor.remaining + 1] do
    let tag ← cur CursorM.readU8
    if tag == GraphTag.done then return
    if tag != GraphTag.edge then fail (.unknownTag tag.toUInt64 "cgraph edge")
    let _ ← edge nodes symtab
  let _ ← cur CursorM.readU8

end GraphReadM

/-- Read a unit's call-graph section into `program`, naming declarations
through the unit's tables. Answers, per node record, the node it became, or
`none` where the node was dropped because its declaration did not prevail.
The program keeps what was merged before a failure. -/
def CallGraph.readSection (program : Program) (decls : UnitDecls) (data : ByteArray)
    (symtab : SymbolTable) : Except StreamError (List (Option CgNodeId)) × Program :=
  match SectionData.parse data .cgraph >>= (·.cursor .main) with
  | .error e => (.error e, program)
  | .ok cursor =>
    let read : GraphReadM (List (Option CgNodeId)) := do
      let (nodes, targets) ← GraphReadM.nodes decls
      GraphReadM.resolveTargets nodes targets
      GraphReadM.edges nodes symtab
      let mut out := #[]
      for id in nodes do
        let g ← GraphReadM.graph
        match g.node? id with
        | some n =>
          if symtab.isPrevailing n.decl then out := out.push (some id)
          else
            GraphReadM.setGraph (g.removeNode id)
            out := out.push none
        | none => out := out.push (some id)
      return out.toList
    match read.run { cursor, program } with
    | .ok r s => (.ok r, s.program)
    | .error e s => (.error e, s.program)

end IrStream
