import Std.Data.HashMap
import IrStream.Tree.Common
import IrStream.Error

/-!
Record tags and the identity tables of the tree codec. A node already written
in the current record is written again only as a back-reference, the index it
was given the first time; writer and reader hand indices out in the same
order, and both tables start with the common nodes. Function bodies and the
call graph refer to file-scope declarations through the unit's category
tables, and to labels through a per-body label numbering.
-/

namespace IrStream

namespace Tag

def null : Nat := 0
def pickleRef : Nat := 1
/-- `categoryRef + category` for references into the unit's declaration tables. -/
def categoryRef : Nat := 2
def localRef : Nat := 9
def labelRef : Nat := 10
def ssaNameRef : Nat := 11
def function : Nat := 12
def bareBlock : Nat := 13
def fullBlock : Nat := 14
def phi : Nat := 15
def ehTable : Nat := 16
def ehShared : Nat := 17
/-- `ehRegion + 2 * kind + may_contain_throw`. -/
def ehRegion : Nat := 18
/-- `localVar + variant`. -/
def localVar : Nat := 32
/-- `localParm + variant`. -/
def localParm : Nat := 40
/-- `stmt + statement code`. -/
def stmt : Nat := 48
/-- `tree + tree code`. -/
def tree : Nat := 64

/-- Local record variant bits: which optional trees follow. -/
def variantAttributes : Nat := 1
def variantSizeUnit : Nat := 2
def variantDebugExpr : Nat := 4

/-- The tree record tag of a code. -/
def ofCode (c : TreeCode) : Nat := tree + c.index

/-- The code a tree record tag names. -/
def code? (tag : Nat) : Option TreeCode :=
  if tree ≤ tag then TreeCode.ofIndex? (tag - tree) else none

end Tag

/-- The declaration tables of a unit, in stream order. -/
inductive DeclCategory where
  | function | var | type | typeDecl | field | label
  /-- Namespaces and compilation units. -/
  | scope
  deriving DecidableEq, Repr, Inhabited

namespace DeclCategory

def all : List DeclCategory := [function, var, type, typeDecl, field, label, scope]

def index : DeclCategory → Nat
  | function => 0 | var => 1 | type => 2 | typeDecl => 3 | field => 4 | label => 5
  | scope => 6

def name : DeclCategory → String
  | function => "function" | var => "variable" | type => "type" | typeDecl => "type decl"
  | field => "field" | label => "label" | scope => "namespace"

def ofName? (s : String) : Option DeclCategory := all.find? (·.name == s)

def tag (c : DeclCategory) : Nat := Tag.categoryRef + c.index

def ofTag? (tag : Nat) : Option DeclCategory :=
  if Tag.categoryRef ≤ tag then all[tag - Tag.categoryRef]? else none

/-- The table a node of `code` is referenced through from a function body;
none for kinds never referenced by category. -/
def ofCode? : TreeCode → Option DeclCategory
  | .functionDecl => some function
  | .varDecl | .resultDecl => some var
  | .typeDecl => some typeDecl
  | .fieldDecl => some field
  | .labelDecl => some label
  | .namespaceDecl | .translationUnitDecl => some scope
  | c => if c.isType then some type else none

end DeclCategory

/-- A dense numbering of nodes in first-seen order. -/
structure RefEncoder where
  index : Std.HashMap NodeId Nat := {}
  trees : Array NodeId := #[]
  deriving Inhabited

namespace RefEncoder

/-- The index of `node`, assigned on first sight. -/
def encode (e : RefEncoder) (node : NodeId) : Nat × RefEncoder :=
  match e.index.get? node with
  | some i => (i, e)
  | none => (e.trees.size, { index := e.index.insert node e.trees.size, trees := e.trees.push node })

def lookup (e : RefEncoder) (node : NodeId) : Option Nat := e.index.get? node

def size (e : RefEncoder) : Nat := e.trees.size

end RefEncoder

/-- The unit-wide declaration tables built while writing, one per category. -/
structure OutDeclState where
  tables : Array RefEncoder := Array.replicate 7 {}
  deriving Inhabited

namespace OutDeclState

def table (s : OutDeclState) (c : DeclCategory) : RefEncoder := s.tables[c.index]?.getD {}

def encode (s : OutDeclState) (c : DeclCategory) (node : NodeId) : Nat × OutDeclState :=
  let (i, t) := (s.table c).encode node
  (i, { tables := s.tables.set! c.index t })

def trees (s : OutDeclState) (c : DeclCategory) : List NodeId := (s.table c).trees.toList

end OutDeclState

/-- The unit-wide declaration tables rebuilt from a declarations section. -/
structure UnitDecls where
  tables : Array (Array NodeId) := Array.replicate 7 #[]
  deriving Inhabited

namespace UnitDecls

def table (u : UnitDecls) (c : DeclCategory) : Array NodeId := u.tables[c.index]?.getD #[]

def push (u : UnitDecls) (c : DeclCategory) (node : NodeId) : UnitDecls :=
  { tables := u.tables.modify c.index (·.push node) }

/-- Entry `index` of a table; the index is shown as a signed word when it is out of range. -/
def get (u : UnitDecls) (c : DeclCategory) (index : UInt64) : Except StreamError NodeId :=
  let t := u.table c
  match t[index.toNat]? with
  | some id => .ok id
  | none => .error (.indexOutOfRange c.name index.toInt64 t.size)

/-- Every entry passed through `f`. -/
def map (u : UnitDecls) (f : NodeId → NodeId) : UnitDecls :=
  { tables := u.tables.map (·.map f) }

/-- The tables of a writer, as a reader would rebuild them. -/
def ofOut (s : OutDeclState) : UnitDecls := { tables := s.tables.map (·.trees) }

end UnitDecls

/-- The write side of back-references: the index of every node written. -/
structure PickleTable where
  index : Std.HashMap NodeId Nat
  deriving Inhabited

namespace PickleTable

/-- A table holding the common nodes at indices `0..22`. -/
def preloaded : PickleTable :=
  { index := (CommonNode.ids.zip (List.range CommonNode.count)).foldl
      (fun m (id, i) => m.insert id i) {} }

def lookup (t : PickleTable) (node : NodeId) : Option Nat := t.index.get? node

/-- Give `node` the next index, unless it has one. -/
def register (t : PickleTable) (node : NodeId) : PickleTable :=
  if t.index.contains node then t else { index := t.index.insert node t.index.size }

def size (t : PickleTable) : Nat := t.index.size

end PickleTable

/-- The read side of back-references: the nodes in the order they were read. -/
structure ReadTable where
  nodes : Array NodeId := CommonNode.ids.toArray
  deriving Inhabited

namespace ReadTable

def register (t : ReadTable) (node : NodeId) : ReadTable := { nodes := t.nodes.push node }

def get (t : ReadTable) (index : UInt64) : Except StreamError NodeId :=
  match t.nodes[index.toNat]? with
  | some id => .ok id
  | none => .error (.badReference index t.nodes.size)

end ReadTable

/-- Numbering of the labels a function body refers to: named labels count up
from 0, unnamed ones down from -1, each label keeping its first number. -/
structure LabelTable where
  index : Std.HashMap NodeId Int := {}
  named : Array NodeId := #[]
  unnamed : Nat := 0
  deriving Inhabited

namespace LabelTable

def encode (t : LabelTable) (label : NodeId) (named : Bool) : Int × LabelTable :=
  match t.index.get? label with
  | some i => (i, t)
  | none =>
    if named then
      let i : Int := t.named.size
      (i, { t with index := t.index.insert label i, named := t.named.push label })
    else
      let i : Int := -((t.unnamed + 1 : Nat) : Int)
      (i, { t with index := t.index.insert label i, unnamed := t.unnamed + 1 })

end LabelTable

end IrStream
