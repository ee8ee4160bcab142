import Mathlib
import IrStream.Proofs.Codec.ReadFrame
import IrStream.Codec.CallGraph

/-!
Reading a call-graph section merges into the call graph as it goes. A node
record takes the primary node of its declaration, making it when there is none,
and overwrites its fields; an edge record appends an edge. None of this is
undone when a later record fails, so a failed read does not leave the call graph
as it was. What it does leave is a grown graph (`CallGraph.Grows`): every node
that was live is still live with its declaration, the old edges come first in
the same order, and every primary node is still primary. Outside the call graph
nothing changes at all.

* `CallGraph.Grows` with one lemma per graph step;
* `GraphReadM.OnlyGrows`: the frame spec of every call-graph reader;
* `CallGraph.readSection_frame`: whatever the read answers, only the call graph
  differs, and when it fails the graph has only grown.
-/

open Std.Do

set_option mvcgen.warning false

namespace IrStream

namespace CallGraph

/-- `h` is `g` grown: every live node of `g` is still live with the same
declaration, the edges of `g` are the first edges of `h`, and each primary node
of `g` is still the primary node of its declaration. -/
structure Grows (g h : CallGraph) : Prop where
  live : ∀ id n, g.node? id = some n → ∃ n', h.node? id = some n' ∧ n'.decl = n.decl
  edges : g.edges.toList <+: h.edges.toList
  byDecl : ∀ decl id, g.nodeForDecl decl = some id → h.nodeForDecl decl = some id

theorem lt_size_of_node? {g : CallGraph} {id : CgNodeId} {n : CgNode}
    (found : g.node? id = some n) : id.val < g.nodes.size := by
  by_contra outside
  simp [node?, Array.getElem?_eq_none (Nat.le_of_not_lt outside)] at found

namespace Grows

variable {f g h : CallGraph}

theorem refl (g : CallGraph) : g.Grows g :=
  ⟨fun _ n found => ⟨n, found, rfl⟩, List.prefix_refl _, fun _ _ found => found⟩

theorem trans (first : f.Grows g) (second : g.Grows h) : f.Grows h where
  live id n found := by
    obtain ⟨m, inG, sameDecl⟩ := first.live id n found
    obtain ⟨k, inH, sameDecl'⟩ := second.live id m inG
    exact ⟨k, inH, sameDecl'.trans sameDecl⟩
  edges := first.edges.trans second.edges
  byDecl decl id found := second.byDecl decl id (first.byDecl decl id found)

/-- A node pushed past the end leaves every slot as it was. -/
theorem push (g : CallGraph) (n : CgNode) : g.Grows (g.push n).2 where
  live id m found := by
    have different : id.val ≠ g.nodes.size := Nat.ne_of_lt (lt_size_of_node? found)
    refine ⟨m, ?_, rfl⟩
    simpa [node?, CallGraph.push, Array.getElem?_push, different] using found
  edges := List.prefix_refl _
  byDecl _ _ found := found

/-- Taking the primary node of a declaration, made if it is missing. -/
theorem getOrCreate (g : CallGraph) (decl : NodeId) : g.Grows (g.getOrCreate decl).2 := by
  unfold CallGraph.getOrCreate
  cases absent : g.byDecl.get? decl with
  | some id => exact refl g
  | none =>
    have pushed := push g { decl }
    refine ⟨pushed.live, pushed.edges, fun other id old => ?_⟩
    have different : decl ≠ other := by
      rintro rfl
      rw [Std.HashMap.get?_eq_getElem?] at absent
      simp [nodeForDecl, absent] at old
    simpa [nodeForDecl, CallGraph.push, Std.HashMap.getElem?_insert, different] using old

/-- A clone is pushed as a new node. -/
theorem createClone {of id : CgNodeId} {g' : CallGraph}
    (made : g.createClone of = some (id, g')) : g.Grows g' := by
  unfold CallGraph.createClone at made
  obtain ⟨n, _, pushed⟩ := Option.map_eq_some_iff.mp made
  have graph : (g.push { decl := n.decl, cloneOf := some of }).2 = g' := congrArg Prod.snd pushed
  rw [← graph]
  exact push g _

/-- Changing a node's fields other than its declaration. -/
theorem modifyNode (g : CallGraph) (id : CgNodeId) {f : CgNode → CgNode}
    (keeps : ∀ n, (f n).decl = n.decl) : g.Grows (g.modifyNode id f) where
  live other n found := by
    by_cases same : id.val = other.val
    · refine ⟨f n, ?_, keeps n⟩
      simp only [node?, Option.join_eq_some_iff] at found
      simp [node?, CallGraph.modifyNode, Array.getElem?_modify, same, found]
    · refine ⟨n, ?_, rfl⟩
      simpa [node?, CallGraph.modifyNode, Array.getElem?_modify, same] using found
  edges := List.prefix_refl _
  byDecl _ _ found := found

/-- An edge is appended after the old ones. -/
theorem addEdge (g : CallGraph) (e : CgEdge) : g.Grows (g.addEdge e) where
  live _ n found := ⟨n, found, rfl⟩
  edges := by simp [edges_addEdge]
  byDecl _ _ found := found

end Grows

end CallGraph

/-- `q` differs from `p` at most in its call graph. -/
structure Program.OnlyGraphChanged (p q : Program) : Prop where
  arena : q.arena = p.arena
  globals : q.globals = p.globals
  functions : q.functions = p.functions

/-- `q` is `p` with its call graph grown. -/
structure Program.GraphGrows (p q : Program) : Prop extends p.OnlyGraphChanged q where
  callgraph : p.callgraph.Grows q.callgraph

namespace Program

variable {P₀ p q r : Program}

theorem OnlyGraphChanged.refl (p : Program) : p.OnlyGraphChanged p := ⟨rfl, rfl, rfl⟩

theorem OnlyGraphChanged.trans (first : p.OnlyGraphChanged q) (second : q.OnlyGraphChanged r) :
    p.OnlyGraphChanged r :=
  ⟨second.arena.trans first.arena, second.globals.trans first.globals,
    second.functions.trans first.functions⟩

/-- Setting the call graph changes nothing else. -/
theorem OnlyGraphChanged.setGraph (same : P₀.OnlyGraphChanged p) (g : CallGraph) :
    P₀.OnlyGraphChanged { p with callgraph := g } :=
  ⟨same.arena, same.globals, same.functions⟩

theorem GraphGrows.refl (p : Program) : p.GraphGrows p :=
  ⟨.refl p, .refl p.callgraph⟩

/-- Setting a call graph grown from the current one. -/
theorem GraphGrows.setGraph (grows : P₀.GraphGrows p) {g : CallGraph} (more : p.callgraph.Grows g) :
    P₀.GraphGrows { p with callgraph := g } :=
  ⟨grows.toOnlyGraphChanged.setGraph g, grows.callgraph.trans more⟩

end Program

namespace GraphReadM

/-- The program still differs from `P₀` only by a grown call graph, whether the
step succeeded or failed. -/
abbrev stillGrows (P₀ : Program) {β : Type} :
    PostCond β (.except StreamError (.arg GraphReader .pure)) :=
  post⟨fun _ R => ⌜P₀.GraphGrows R.program⌝, fun _ R => ⌜P₀.GraphGrows R.program⌝⟩

/-- Started on a program that is `P₀` with a grown call graph, `x` ends on one
that still is, whether it succeeds or fails. -/
abbrev OnlyGrows (P₀ : Program) (x : GraphReadM α) : Prop :=
  ⦃fun R => ⌜P₀.GraphGrows R.program⌝⦄ x ⦃stillGrows P₀⦄

variable (P₀ : Program)

theorem cur_onlyGrows {α : Type} (m : CursorM α) : OnlyGrows P₀ (cur m) := by
  rw [OnlyGrows, triple_iff_run]
  intro R grows
  simp only [cur, EStateM.run]
  cases m R.cursor <;> exact grows

theorem lift_onlyGrows {α : Type} (r : Except StreamError α) : OnlyGrows P₀ (lift r) := by
  cases r <;> mvcgen [lift, fail]

theorem nodeAt_onlyGrows (nodes : Array CgNodeId) (raw : Int64) :
    OnlyGrows P₀ (nodeAt nodes raw) := by
  mvcgen [nodeAt, fail]

theorem modifyNode_onlyGrows (id : CgNodeId) {f : CgNode → CgNode}
    (keeps : ∀ n, (f n).decl = n.decl) : OnlyGrows P₀ (modifyNode id f) := by
  mvcgen [modifyNode, graph, setGraph]
  rename_i R grows _
  exact grows.setGraph (.modifyNode _ id keeps)

theorem modifyGlobal_onlyGrows (id : CgNodeId) (f : InlineGlobal → InlineGlobal) :
    OnlyGrows P₀ (modifyGlobal id f) :=
  modifyNode_onlyGrows P₀ id fun _ => rfl

theorem node_onlyGrows (decls : UnitDecls) (tag : UInt8) : OnlyGrows P₀ (node decls tag) := by
  have reads := @cur_onlyGrows P₀
  have lifts := @lift_onlyGrows P₀
  have modifies := @modifyNode_onlyGrows P₀
  have globals := modifyGlobal_onlyGrows P₀
  mvcgen [node, fail, graph, setGraph, reads, lifts, modifies, globals]
  all_goals grind [Program.GraphGrows.setGraph, CallGraph.Grows.getOrCreate,
    CallGraph.Grows.createClone, CallGraph.Grows.trans]

theorem edge_onlyGrows (nodes : Array CgNodeId) (symtab : SymbolTable) :
    OnlyGrows P₀ (edge nodes symtab) := by
  have reads := @cur_onlyGrows P₀
  have finds := nodeAt_onlyGrows P₀ nodes
  mvcgen [edge, fail, graph, setGraph, reads, finds]
  all_goals grind [Program.GraphGrows.setGraph, CallGraph.Grows.getOrCreate,
    CallGraph.Grows.addEdge, CallGraph.Grows.trans]

theorem nodes_onlyGrows (decls : UnitDecls) : OnlyGrows P₀ (nodes decls) := by
  have reads := @cur_onlyGrows P₀
  have record := node_onlyGrows P₀ decls
  mvcgen [GraphReadM.nodes, reads, record]
  case inv1 => exact stillGrows P₀
  all_goals grind

theorem resolveTargets_onlyGrows (nodes : Array CgNodeId) (targets : List (CgNodeId × Int64)) :
    OnlyGrows P₀ (resolveTargets nodes targets) := by
  have finds := nodeAt_onlyGrows P₀ nodes
  have globals := modifyGlobal_onlyGrows P₀
  mvcgen [resolveTargets, finds, globals]
  case inv1 => exact stillGrows P₀
  all_goals grind

theorem edges_onlyGrows (nodes : Array CgNodeId) (symtab : SymbolTable) :
    OnlyGrows P₀ (edges nodes symtab) := by
  have reads := @cur_onlyGrows P₀
  have record := edge_onlyGrows P₀ nodes symtab
  mvcgen [GraphReadM.edges, fail, reads, record]
  case inv1 => exact stillGrows P₀
  all_goals grind

end GraphReadM

/-- Whatever reading a call-graph section answers, the program differs from
the one it was given only in its call graph; when the read fails, that call
graph has only grown. Nodes made and fields and edges merged before the
failing record stay. -/
theorem CallGraph.readSection_frame (program : Program) (decls : UnitDecls) (data : ByteArray)
    (symtab : SymbolTable) :
    match CallGraph.readSection program decls data symtab with
    | (.ok _, q) => program.OnlyGraphChanged q
    | (.error _, q) => program.GraphGrows q := by
  unfold CallGraph.readSection
  cases parsed : SectionData.parse data .cgraph >>= (·.cursor .main) with
  | error e => exact .refl program
  | ok cursor =>
    dsimp only
    generalize run : EStateM.run _ ({ cursor, program } : GraphReader) = result
    have ends := triple_run (P := fun R => program.GraphGrows R.program)
      (Q := fun _ R => program.OnlyGraphChanged R.program)
      (E := fun _ R => program.GraphGrows R.program) ?frame (.refl program) run
    case frame =>
      have records := GraphReadM.nodes_onlyGrows program decls
      have targets := GraphReadM.resolveTargets_onlyGrows program
      have calls := GraphReadM.edges_onlyGrows program
      mvcgen [GraphReadM.graph, GraphReadM.setGraph, records, targets, calls]
      -- dropping the nodes whose declaration does not prevail can lose nodes,
      -- but it cannot fail and it touches only the call graph
      case inv1 =>
        exact post⟨fun _ R => ⌜program.OnlyGraphChanged R.program⌝,
          fun _ R => ⌜program.GraphGrows R.program⌝⟩
      all_goals grind [Program.OnlyGraphChanged.setGraph, Program.GraphGrows.toOnlyGraphChanged]
    cases result with
    | ok _ R => exact ends.1 _ R rfl
    | error _ R => exact ends.2 _ R rfl

/-- Whatever reading a call graph answers, only the call graph differs. -/
theorem CallGraph.readSection_onlyGraphChanged (program : Program) (decls : UnitDecls)
    (data : ByteArray) (symtab : SymbolTable) :
    program.OnlyGraphChanged (CallGraph.readSection program decls data symtab).2 := by
  have frame := CallGraph.readSection_frame program decls data symtab
  rcases read : CallGraph.readSection program decls data symtab with ⟨_ | _, q⟩ <;>
    rw [read] at frame
  · exact frame.toOnlyGraphChanged
  · exact frame

/-- What a section read leaves of the program it reads into, whatever it
answers. Declarations and function bodies only append nodes and identifier
entries: no node, global, body or call-graph part of the program changes. A
call graph is merged in place: nothing outside it changes, and when the read
fails the graph has grown, keeping every node with its declaration, every edge
and every primary node, but not necessarily as it was. -/
theorem section_reads_frame (program : Program) (decls : UnitDecls) (function : NodeId)
    (data : ByteArray) (verify : Bool) (symtab : SymbolTable) :
    program.Extends (DeclsSection.read program data).2 ∧
    program.Extends (FunctionBody.readSection program decls function data verify).2 ∧
    match CallGraph.readSection program decls data symtab with
    | (.ok _, q) => program.OnlyGraphChanged q
    | (.error _, q) => program.GraphGrows q :=
  ⟨DeclsSection.read_extends program data,
    FunctionBody.readSection_extends program decls function data verify,
    CallGraph.readSection_frame program decls data symtab⟩

end IrStream
