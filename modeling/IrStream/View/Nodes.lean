import Std.Data.HashMap
import IrStream.Doc
import IrStream.Program
import IrStream.Text.Hex

/-!
Canonical views of nodes. Node ids depend on allocation order, so a view
numbers the nodes it shows by first mention instead: a common node is shown
as `@name`, a live identifier as `$spelling`, any other node by its position
in the view's node list. Mentions happen in a fixed order: the roots of the
view, then the node list as a queue, each node's children (type first, then
its payload in stream order) being mentioned before the node is shown.
-/

namespace IrStream

/-- The numbering of a view: each numbered node's position, and the numbered
nodes in order. -/
structure Numbering where
  index : Std.HashMap NodeId Nat := {}
  queue : Array NodeId := #[]
  deriving Inhabited

abbrev ViewM := StateM Numbering

namespace View

/-- The reference shown for a child slot, numbering the node on first mention. -/
def ref (arena : Arena) : Option NodeId → ViewM Doc
  | none => pure .null
  | some id => do
    if let some c := CommonNode.ofId? id then return .str ("@" ++ c.name)
    if !arena.isFreed id then
      if let some name := arena.identifierName? id then return .str ("$" ++ name)
    let n ← get
    match n.index.get? id with
    | some i => return .nat i
    | none =>
      let i := n.queue.size
      set { index := n.index.insert id i, queue := n.queue.push id : Numbering }
      return .nat i

def refs (arena : Arena) (rs : List (Option NodeId)) : ViewM Doc :=
  return .arr (← rs.mapM (ref arena))

def pairs (arena : Arena) (ps : List (Option NodeId × Option NodeId)) : ViewM Doc :=
  return .arr (← ps.mapM fun p => return .arr [← ref arena p.1, ← ref arena p.2])

def locus : Option Locus → Doc
  | some l => .arr [.str l.file, .nat l.line.toNat, .nat l.column.toNat]
  | none => .null

/-- The attributes that differ from their default: booleans as `true`,
multi-bit attributes as numbers. -/
def flags (fields : List (FlagField ρ)) (base value : ρ) : Doc :=
  .obj ((Flags.changed fields base value).map fun (f, v) =>
    (f.name, if f.width == 1 then .bool true else .nat v))

def treeFlags (f : TreeFlags) : Doc := flags TreeFlags.fields {} f

/-- The payload's fields, named as in the node format. -/
def payload (arena : Arena) : NodeData → ViewM (List (String × Doc))
  | .empty => pure []
  | .identifier s => pure [("name", .str s)]
  | .int low high => pure [("low", .nat low.toNat), ("high", .int high.toInt)]
  | .real bits => pure [("bits", .nat bits.toNat)]
  | .str bytes => pure [("str_hex", .str (Hex.encode ⟨bytes.toArray⟩))]
  | .complex r i => return [("real", ← ref arena r), ("imag", ← ref arena i)]
  | .vector elts | .vec elts => return [("elts", ← refs arena elts)]
  | .operands ops => return [("ops", ← refs arena ops)]
  | .list entries => return [("entries", ← pairs arena entries)]
  | .constructor elts => return [("elts", ← pairs arena elts)]
  | .call f c args =>
    return [("func", ← ref arena f), ("static_chain", ← ref arena c), ("args", ← refs arena args)]
  | .caseLabel l h lab =>
    return [("low", ← ref arena l), ("high", ← ref arena h), ("label", ← ref arena lab)]
  | .asm text i o c =>
    return [("asm_hex", .str (Hex.encode ⟨text.toArray⟩)), ("inputs", ← ref arena i),
      ("outputs", ← ref arena o), ("clobbers", ← ref arena c)]
  | .ssa v var => return [("version", .nat v.toNat), ("var", ← ref arena var)]
  | .type t => do
    let links ← TypeLink.all.mapM fun l => return (l.label, ← ref arena (t.link l))
    return links ++ [("precision", .nat t.precision.toNat), ("mode", .nat t.mode.toNat),
      ("align", .nat t.align.toNat)]
  | .decl d => do
    let links ← DeclLink.all.mapM fun l => return (l.label, ← ref arena (d.link l))
    return links ++ [("align", .nat d.align.toNat), ("off_align", .nat d.offAlign.toNat),
      ("mode", .nat d.mode.toNat), ("builtin_code", .nat d.builtinCode.toNat)]
  | .binfo b => do
    let links ← BinfoLink.all.mapM fun l => return (l.label, ← ref arena (b.link l))
    return links ++ [("base_accesses", ← refs arena b.baseAccesses),
      ("base_binfos", ← refs arena b.baseBinfos)]

/-- The object shown for one node; its children are numbered first. -/
def node (arena : Arena) (id : NodeId) : ViewM Doc := do
  let n := arena.node id
  for c in n.children do
    discard (ref arena c)
  let head := [("code", .str n.code.name), ("ty", ← ref arena n.ty), ("flags", treeFlags n.flags),
    ("locus", locus n.locus), ("freed", .bool (arena.isFreed id))]
  return Doc.dense (head ++ (← payload arena n.data))

/-- Show the queue from position `i` on; every shown node may extend it. -/
def drainFrom (arena : Arena) (i : Nat) (fuel : Nat) (acc : Array Doc) : ViewM (Array Doc) := do
  match fuel with
  | 0 => return acc
  | fuel + 1 =>
    let q := (← get).queue
    if h : i < q.size then
      let d ← node arena q[i]
      drainFrom arena (i + 1) fuel (acc.push d)
    else return acc

/-- The node list of a view, after its roots have been mentioned. Every
numbered node is an arena slot or a root, so the queue is bounded by their
number. -/
def nodes (arena : Arena) : ViewM Doc := do
  let fuel := arena.size + (← get).queue.size + 1
  return .arr (← drainFrom arena 0 fuel #[]).toList

/-- Run a view from an empty numbering. -/
def run (m : ViewM α) : α := (m.run {}).1

end View

end IrStream
