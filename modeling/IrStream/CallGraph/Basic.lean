import Std.Data.HashMap
import IrStream.Tree.Node
import IrStream.Flags.Side

/-!
The inter-procedural call graph. Nodes are numbered by `CgNodeId` and never
renumbered; a removed node leaves a hole. Each declaration has at most one
primary node (`nodeForDecl`); clones share a declaration with the node they
were made from.
-/

namespace IrStream

structure CgNodeId where
  val : Nat
  deriving DecidableEq, Repr, Inhabited, Hashable

instance : ToString CgNodeId := ⟨fun n => s!"cg{n.val}"⟩

/-- How much of a function's body the optimizer may rely on. -/
inductive Availability where
  /-- No body in this program. -/
  | notAvailable
  /-- A body exists but may be replaced at link time. -/
  | overwritable
  | available
  /-- Available and not visible outside the program. -/
  | programLocal
  deriving DecidableEq, Repr, Inhabited

namespace Availability

def name : Availability → String
  | notAvailable => "not_available"
  | overwritable => "overwritable"
  | available => "available"
  | programLocal => "local"

def ofName? : String → Option Availability
  | "not_available" => some notAvailable
  | "overwritable" => some overwritable
  | "available" => some available
  | "local" => some programLocal
  | _ => none

end Availability

/-- Why a call was not inlined. -/
inductive InlineFailed where
  | ok | unspecified | bodyNotAvailable | functionNotInlinable | notDeclaredInline
  | recursiveInlining | unlikelyCall | largeFunctionGrowth | largeStackFrameGrowth
  | mismatchedArguments | originallyIndirectCall
  deriving DecidableEq, Repr, Inhabited

namespace InlineFailed

def all : List InlineFailed :=
  [ok, unspecified, bodyNotAvailable, functionNotInlinable, notDeclaredInline, recursiveInlining,
   unlikelyCall, largeFunctionGrowth, largeStackFrameGrowth, mismatchedArguments,
   originallyIndirectCall]

def code : InlineFailed → Nat
  | ok => 0 | unspecified => 1 | bodyNotAvailable => 2 | functionNotInlinable => 3
  | notDeclaredInline => 4 | recursiveInlining => 5 | unlikelyCall => 6
  | largeFunctionGrowth => 7 | largeStackFrameGrowth => 8 | mismatchedArguments => 9
  | originallyIndirectCall => 10

def ofCode? (n : Nat) : Option InlineFailed := all[n]?

def name : InlineFailed → String
  | ok => "ok" | unspecified => "unspecified" | bodyNotAvailable => "body_not_available"
  | functionNotInlinable => "function_not_inlinable" | notDeclaredInline => "not_declared_inline"
  | recursiveInlining => "recursive_inlining" | unlikelyCall => "unlikely_call"
  | largeFunctionGrowth => "large_function_growth"
  | largeStackFrameGrowth => "large_stack_frame_growth"
  | mismatchedArguments => "mismatched_arguments"
  | originallyIndirectCall => "originally_indirect_call"

def ofName? (s : String) : Option InlineFailed := all.find? (·.name == s)

end InlineFailed

/-- Size and time estimates of the function itself. -/
structure InlineSummary where
  estimatedSelfStackSize : Int64 := 0
  selfSize : Int32 := 0
  sizeInliningBenefit : Int32 := 0
  selfTime : Int32 := 0
  timeInliningBenefit : Int32 := 0
  deriving DecidableEq, Repr, Inhabited

/-- Estimates after inlining decisions. -/
structure InlineGlobal where
  estimatedStackSize : Int64 := 0
  stackFrameOffset : Int64 := 0
  inlinedTo : Option CgNodeId := none
  time : Int32 := 0
  size : Int32 := 0
  estimatedGrowth : Int32 := 0
  inlined : Bool := false
  deriving DecidableEq, Repr, Inhabited

structure CgNode where
  decl : NodeId
  availability : Availability := .notAvailable
  flags : CgraphFlags := {}
  count : Int64 := 0
  summary : InlineSummary := {}
  global : InlineGlobal := {}
  cloneOf : Option CgNodeId := none
  deriving DecidableEq, Repr, Inhabited

structure CgEdge where
  caller : CgNodeId
  callee : CgNodeId
  stmtUid : UInt32
  inlineFailed : InlineFailed := .ok
  count : Int64 := 0
  frequency : UInt32 := 0
  loopNest : UInt32 := 0
  flags : EdgeFlags := {}
  deriving DecidableEq, Repr, Inhabited

structure CallGraph where
  nodes : Array (Option CgNode) := #[]
  edges : Array CgEdge := #[]
  byDecl : Std.HashMap NodeId CgNodeId := {}
  deriving Inhabited

namespace CallGraph

def node? (g : CallGraph) (id : CgNodeId) : Option CgNode := g.nodes[id.val]?.join

def nodeForDecl (g : CallGraph) (decl : NodeId) : Option CgNodeId := g.byDecl.get? decl

def push (g : CallGraph) (n : CgNode) : CgNodeId × CallGraph :=
  (⟨g.nodes.size⟩, { g with nodes := g.nodes.push (some n) })

/-- The primary node of `decl`, made on first request. -/
def getOrCreate (g : CallGraph) (decl : NodeId) : CgNodeId × CallGraph :=
  match g.byDecl.get? decl with
  | some id => (id, g)
  | none =>
    let (id, g) := g.push { decl }
    (id, { g with byDecl := g.byDecl.insert decl id })

/-- A new node sharing the declaration of `of`, if `of` is live. -/
def createClone (g : CallGraph) (of : CgNodeId) : Option (CgNodeId × CallGraph) :=
  (g.node? of).map fun n => g.push { decl := n.decl, cloneOf := some of }

/-- Change a live node. -/
def modifyNode (g : CallGraph) (id : CgNodeId) (f : CgNode → CgNode) : CallGraph :=
  { g with nodes := g.nodes.modify id.val (Option.map f) }

def addEdge (g : CallGraph) (e : CgEdge) : CallGraph := { g with edges := g.edges.push e }

theorem edges_addEdge (g : CallGraph) (e : CgEdge) : (g.addEdge e).edges = g.edges.push e := rfl

/-- A declaration with a primary node gets that node back, and the graph is
unchanged. -/
theorem getOrCreate_of_nodeForDecl (g : CallGraph) (decl : NodeId) (id : CgNodeId)
    (found : g.nodeForDecl decl = some id) : g.getOrCreate decl = (id, g) := by
  simp [getOrCreate, nodeForDecl] at *
  simp [found]

/-- Live node ids in increasing order. -/
def nodeIds (g : CallGraph) : List CgNodeId :=
  (List.range g.nodes.size).filterMap fun i => (g.nodes[i]?.join).map fun _ => ⟨i⟩

/-- Live nodes with their ids, in increasing order. -/
def live (g : CallGraph) : List (CgNodeId × CgNode) :=
  (List.range g.nodes.size).filterMap fun i => (g.nodes[i]?.join).map fun n => (⟨i⟩, n)

def numNodes (g : CallGraph) : Nat := g.nodeIds.length

def callees (g : CallGraph) (caller : CgNodeId) : List CgEdge :=
  g.edges.toList.filter (·.caller == caller)

def callers (g : CallGraph) (callee : CgNodeId) : List CgEdge :=
  g.edges.toList.filter (·.callee == callee)

/-- Remove a node, the edges touching it and every inline-target or clone
link to it. -/
def removeNode (g : CallGraph) (id : CgNodeId) : CallGraph :=
  match g.node? id with
  | none => g
  | some n =>
    let byDecl := if g.byDecl.get? n.decl == some id then g.byDecl.erase n.decl else g.byDecl
    let nodes := (g.nodes.set! id.val none).map fun
      | some o => some { o with
          global := { o.global with inlinedTo := if o.global.inlinedTo == some id then none
                                                 else o.global.inlinedTo },
          cloneOf := if o.cloneOf == some id then none else o.cloneOf }
      | none => none
    { nodes, byDecl, edges := g.edges.filter fun e => e.caller != id && e.callee != id }

/-- Point every node of `src` at `dst`; the primary node of `src` becomes
that of `dst` unless `dst` has one. -/
def replaceDecl (g : CallGraph) (src dst : NodeId) : CallGraph :=
  let nodes := g.nodes.map fun
    | some n => some (if n.decl == src then { n with decl := dst } else n)
    | none => none
  let byDecl := match g.byDecl.get? src with
    | some id =>
      let m := g.byDecl.erase src
      if m.contains dst then m else m.insert dst id
    | none => g.byDecl
  { g with nodes, byDecl }

end CallGraph

end IrStream
