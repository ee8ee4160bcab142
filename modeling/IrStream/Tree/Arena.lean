import Std.Data.HashMap
import IrStream.Tree.Node

/-!
Node storage. Identifiers are hash-consed: the arena keeps one identifier
node per spelling. Freed nodes keep their slot, so ids are never reused, and
read as an error mark.
-/

namespace IrStream

structure Arena where
  nodes : Array Node := #[]
  identifiers : Std.HashMap String NodeId := {}
  freed : Std.HashMap NodeId Unit := {}
  deriving Inhabited

namespace Arena

/-- Append a node; its id is the slot count before. -/
def alloc (a : Arena) (node : Node) : NodeId × Arena :=
  (⟨a.nodes.size⟩, { a with nodes := a.nodes.push node })

/-- The unique identifier node for `name`, made on first request. -/
def identifier (a : Arena) (name : String) : NodeId × Arena :=
  match a.identifiers.get? name with
  | some id => (id, a)
  | none =>
    let (id, a) := a.alloc { Node.fresh .identifierNode with data := .identifier name }
    (id, { a with identifiers := a.identifiers.insert name id })

def get? (a : Arena) (id : NodeId) : Option Node := a.nodes[id.val]?

/-- The node in a slot; a slot out of range reads as an error mark. -/
def node (a : Arena) (id : NodeId) : Node := (a.get? id).getD (Node.fresh .errorMark)

def code (a : Arena) (id : NodeId) : TreeCode := (a.node id).code

/-- Overwrite a slot. -/
def replace (a : Arena) (id : NodeId) (node : Node) : Arena :=
  { a with nodes := a.nodes.set! id.val node }

/-- Change the node in a slot. -/
def modify (a : Arena) (id : NodeId) (f : Node → Node) : Arena :=
  { a with nodes := a.nodes.modify id.val f }

def identifierName? (a : Arena) (id : NodeId) : Option String := (a.get? id).bind Node.identifier?

/-- Release a node: its spelling, if it is an identifier, leaves the
identifier index, and its slot becomes an error mark. -/
def free (a : Arena) (id : NodeId) : Arena :=
  let identifiers := match a.identifierName? id with
    | some name => a.identifiers.erase name
    | none => a.identifiers
  { a with identifiers, nodes := a.nodes.set! id.val (Node.fresh .errorMark),
           freed := a.freed.insert id () }

def isFreed (a : Arena) (id : NodeId) : Bool := a.freed.contains id

/-- Number of slots, freed ones included. -/
def size (a : Arena) : Nat := a.nodes.size

/-- Ids of live nodes in allocation order. -/
def ids (a : Arena) : List NodeId :=
  (List.range a.nodes.size).filterMap fun i => if a.isFreed ⟨i⟩ then none else some ⟨i⟩

end Arena

end IrStream
