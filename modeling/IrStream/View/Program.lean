import IrStream.View.Body
import IrStream.Link.SymbolTable

/-!
The view of a whole program: its file-scope declarations, its call graph,
its bodies and, after a link, its symbols, then the node list.

Call-graph nodes are shown by their position among the live nodes in id
order; a link to a removed node shows as `removed`. Tree nodes are numbered
by first mention (see `View.ref`): the file-scope declarations first, then
the declarations of the call-graph nodes, then the bodies, then the symbols'
declarations. Bodies are shown in the order of their declarations' numbers,
those not numbered yet last, by id.
-/

namespace IrStream

namespace View

/-- The position of each live call-graph node among the live nodes. -/
def graphIndex (g : CallGraph) : Std.HashMap CgNodeId Nat :=
  g.nodeIds.zipIdx.foldl (fun m (id, i) => m.insert id i) {}

def graphRef (index : Std.HashMap CgNodeId Nat) : Option CgNodeId → Doc
  | none => .null
  | some id => match index.get? id with
    | some i => .nat i
    | none => .str "removed"

def graphNode (arena : Arena) (index : Std.HashMap CgNodeId Nat) (n : CgNode) : ViewM Doc := do
  let s := n.summary
  let g := n.global
  return Doc.dense [("decl", ← ref arena (some n.decl)), ("availability", .str n.availability.name),
    ("flags", flags CgraphFlags.fields {} n.flags), ("count", .int n.count.toInt),
    ("summary", .obj [("estimated_self_stack_size", .int s.estimatedSelfStackSize.toInt),
      ("self_size", .int s.selfSize.toInt), ("size_inlining_benefit", .int s.sizeInliningBenefit.toInt),
      ("self_time", .int s.selfTime.toInt), ("time_inlining_benefit", .int s.timeInliningBenefit.toInt)]),
    ("global", Doc.dense [("estimated_stack_size", .int g.estimatedStackSize.toInt),
      ("stack_frame_offset", .int g.stackFrameOffset.toInt), ("inlined_to", graphRef index g.inlinedTo),
      ("time", .int g.time.toInt), ("size", .int g.size.toInt),
      ("estimated_growth", .int g.estimatedGrowth.toInt), ("inlined", .bool g.inlined)]),
    ("clone_of", graphRef index n.cloneOf)]

def graphEdge (index : Std.HashMap CgNodeId Nat) (e : CgEdge) : Doc :=
  Doc.dense [("caller", graphRef index (some e.caller)), ("callee", graphRef index (some e.callee)),
    ("stmt_uid", .nat e.stmtUid.toNat), ("inline_failed", .str e.inlineFailed.name),
    ("count", .int e.count.toInt), ("frequency", .nat e.frequency.toNat),
    ("loop_nest", .nat e.loopNest.toNat), ("indirect_call", .bool e.flags.indirectCall),
    ("call_stmt_cannot_inline", .bool e.flags.callStmtCannotInline)]

/-- The call graph, mentioning each live node's declaration in id order. -/
def callGraph (arena : Arena) (g : CallGraph) : ViewM Doc := do
  let index := graphIndex g
  let nodes ← g.live.mapM fun (_, n) => graphNode arena index n
  return Doc.dense [("nodes", .arr nodes), ("edges", .arr (g.edges.toList.map (graphEdge index)))]

/-- Bodies in the order of their declarations' numbers, the unnumbered last,
ties by declaration id. -/
def bodyOrder (numbering : Numbering) (bodies : List (NodeId × FunctionBody)) :
    List (NodeId × FunctionBody) :=
  let rank (decl : NodeId) : Nat := numbering.index.getD decl numbering.queue.size
  bodies.mergeSort fun (a, _) (b, _) => rank a < rank b || (rank a == rank b && a.val ≤ b.val)

def symbol (arena : Arena) (name : String) (e : SymbolEntry) : ViewM Doc := do
  return Doc.dense [("name", .str name), ("kind", .str e.kind.name),
    ("resolution", .str e.resolution.pluginName), ("external", .bool e.external),
    ("unit", .nat e.unit), ("decl", ← ref arena (some e.decl))]

/-- The view of a program, with its symbols if a symbol table is given. -/
def program (p : Program) (symtab : Option SymbolTable) : Doc := run do
  let arena := p.arena
  let globals ← refs arena (p.globals.map some)
  let graph ← callGraph arena p.callgraph
  let functions ← (bodyOrder (← get) p.functions).mapM fun (_, b) => body arena b
  let symbols ← match symtab with
    | some t => do
      let docs ← t.symbols.mapM fun (name, e) => symbol arena name e
      pure [("symbols", Doc.arr docs)]
    | none => pure []
  let nodes ← View.nodes arena
  return .obj ([("globals", globals), ("callgraph", graph), ("functions", .arr functions)] ++
    symbols ++ [("nodes", nodes)])

end View

end IrStream
