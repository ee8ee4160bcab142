import IrStream.Tree.Common
import IrStream.Body.Function
import IrStream.CallGraph.Basic

/-!
A program image: the arena and everything that refers into it, the
file-scope declarations in declaration order, function bodies keyed by their
declaration, and the call graph.
-/

namespace IrStream

structure Program where
  arena : Arena := CommonNode.arena
  /-- File-scope declarations, in declaration order. -/
  globals : List NodeId := []
  /-- Bodies keyed by their function declaration, ascending by id. -/
  functions : List (NodeId × FunctionBody) := []
  callgraph : CallGraph := {}
  deriving Inhabited

namespace Program

/-- A program holding only the common nodes. -/
def new : Program := {}

def node (p : Program) (id : NodeId) : Node := p.arena.node id

def alloc (p : Program) (n : Node) : NodeId × Program :=
  let (id, arena) := p.arena.alloc n
  (id, { p with arena })

def identifier (p : Program) (name : String) : NodeId × Program :=
  let (id, arena) := p.arena.identifier name
  (id, { p with arena })

/-- The two words of an integer constant: the value modulo 2^64, and the
value shifted right by 64 bits as a signed word. -/
def intWords (value : Int) : UInt64 × Int64 :=
  ((value % Int.pow 2 64).toNat.toUInt64, Int64.ofInt (value / Int.pow 2 64))

/-- Record `decl` as a file-scope declaration, once. -/
def addGlobal (p : Program) (decl : NodeId) : Program :=
  if p.globals.contains decl then p else { p with globals := p.globals ++ [decl] }

def body? (p : Program) (decl : NodeId) : Option FunctionBody := p.functions.lookup decl

def hasBody (p : Program) (decl : NodeId) : Bool := (p.body? decl).isSome

/-- Insert or replace the body of `decl`, keeping bodies ascending by id. -/
def setBody (p : Program) (decl : NodeId) (b : FunctionBody) : Program :=
  let rest := p.functions.filter (·.1 != decl)
  let before := rest.filter (·.1.val < decl.val)
  let after := rest.filter (decl.val < ·.1.val)
  { p with functions := before ++ [(decl, b)] ++ after }

def eraseBody (p : Program) (decl : NodeId) : Program :=
  { p with functions := p.functions.filter (·.1 != decl) }

/-- Link-time name of a declaration: the spelling of its assembler name if it
has one, else of its name. -/
def symbolName? (p : Program) (decl : NodeId) : Option String := do
  let d ← (← p.arena.get? decl).decl?
  let id ← d.assemblerName.orElse fun _ => d.name
  p.arena.identifierName? id

/-- Whether `decl` is an automatic variable or a parameter of some function. -/
def isFunctionLocal (p : Program) (decl : NodeId) : Bool :=
  let n := p.node decl
  match n.decl? with
  | none => false
  | some d =>
    let inFunction := match d.context with
      | some c => p.arena.code c == .functionDecl
      | none => false
    match n.code with
    | .parmDecl => true
    | .varDecl => inFunction && !n.flags.isStatic && !n.flags.external
    | _ => false

end Program

end IrStream
