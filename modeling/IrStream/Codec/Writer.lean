import Std.Data.HashMap
import IrStream.Codec.Tables
import IrStream.Codec.Fields
import IrStream.Wire.Position
import IrStream.Real.HexText
import IrStream.Program

/-!
Writing trees. A tree is written depth first: a tag naming its kind, then its
type, its flag word with the position folded in, and its payload, each child
written in place. Types, declarations and binfos get a back-reference number
when first written, before their children, so a later mention, cycles
included, is a back-reference. Inside a function body, declarations are
written as references into the unit's tables or into the body's own tables
of locals, labels and SSA names instead.
-/

namespace IrStream

/-- The function-local numbering of a body being written. -/
structure LocalScope where
  function : NodeId
  locals : RefEncoder := {}
  labels : LabelTable := {}
  /-- Each local's first position in the body's list of locals. -/
  positions : Std.HashMap NodeId Nat := {}
  deriving Inhabited

namespace LocalScope

/-- The scope of `function`, remembering where each local is first listed. -/
def new (function : NodeId) (localDecls : List NodeId) : LocalScope :=
  let positions := localDecls.zipIdx.foldl (fun (m : Std.HashMap NodeId Nat) (d, i) =>
    if m.contains d then m else m.insert d i) {}
  { function, positions }

end LocalScope

/-- Everything a tree writer keeps between trees. -/
structure TreeWriter where
  program : Program
  decls : OutDeclState := {}
  strings : StringTable := {}
  pickles : PickleTable := PickleTable.preloaded
  position : PositionWriter := {}
  emitLocations : Bool := true
  scope : Option LocalScope := none
  deriving Inhabited

/-- Writing trees; a failure abandons the whole write. -/
abbrev WriteM := StateT TreeWriter (Except StreamError)

namespace TreeWriter

def new (program : Program) (decls : OutDeclState) (emitLocations : Bool) : TreeWriter :=
  { program, decls, emitLocations, position := { enabled := emitLocations } }

end TreeWriter

namespace WriteM

def fail (e : StreamError) : WriteM α := throw e

/-- A reference into the string stream. -/
def stringRef (out : ByteArray) (bytes : Option ByteArray) : WriteM ByteArray :=
  modifyGet fun w =>
    let (out, strings) := w.strings.writeRef out bytes
    (out, { w with strings })

/-- The flag word of a record with its position. -/
def flagWord (out : ByteArray) (packed : Nat) (locus : Option Locus) : WriteM ByteArray :=
  modifyGet fun w =>
    let (out, strings, position) := w.position.write out w.strings packed.toUInt64 locus
    (out, { w with strings, position })

/-- Start a record with fresh back-references and positions; the returned
tables are put back by `endRecord`. -/
def beginRecord : WriteM (PickleTable × PositionWriter) :=
  modifyGet fun w =>
    ((w.pickles, w.position),
      { w with pickles := PickleTable.preloaded, position := { enabled := w.emitLocations } })

def endRecord (saved : PickleTable × PositionWriter) : WriteM Unit :=
  modify fun w => { w with pickles := saved.1, position := saved.2 }

/-- A count, then each tree. -/
def writeAll (child : ByteArray → Option NodeId → WriteM ByteArray) (out : ByteArray)
    (nodes : List (Option NodeId)) : WriteM ByteArray :=
  nodes.foldlM child (Out.uleb out nodes.length.toUInt64)

def writePairs (child : ByteArray → Option NodeId → WriteM ByteArray) (out : ByteArray)
    (pairs : List (Option NodeId × Option NodeId)) : WriteM ByteArray :=
  pairs.foldlM (fun out p => do child (← child out p.1) p.2) (Out.uleb out pairs.length.toUInt64)

/-- The streamed fields of a record, in order. -/
def writeFields (child : ByteArray → Option NodeId → WriteM ByteArray) (out : ByteArray)
    (fields : List (RecordField ρ)) (data : ρ) : WriteM ByteArray :=
  fields.foldlM (fun out f =>
    match f with
    | .link get _ => child out (get data)
    | .links get _ => writeAll child out (get data)
    | .scalar get _ => pure (Out.uleb out (get data).toUInt64)) out

/-- A reference that stands for `id` inside a function body, if the node is
one the body refers to by table: SSA names, locals, labels and declarations
of the unit's tables. -/
def scopedRef (out : ByteArray) (id : NodeId) : WriteM (Option ByteArray) := do
  let w ← get
  let some scope := w.scope | return none
  let n := w.program.node id
  if n.code == .ssaName then
    match n.data with
    | .ssa version _ => return some (Out.uleb (Out.u8 out Tag.ssaNameRef.toUInt8) version.toUInt64)
    | _ => fail (.consistency s!"{id}: ssa_name without version")
  else if (n.code == .parmDecl || n.code == .varDecl) && w.program.isFunctionLocal id then
    let (i, locals) := scope.locals.encode id
    set { w with scope := some { scope with locals } }
    return some (Out.uleb (Out.u8 out Tag.localRef.toUInt8) i.toUInt64)
  else if n.code == .labelDecl && !(n.flags.nonlocal || n.flags.forcedLabel) then
    let named := match n.decl? with
      | some d => d.name.isSome
      | none => false
    let (i, labels) := scope.labels.encode id named
    set { w with scope := some { scope with labels } }
    return some (Out.sleb (Out.u8 out Tag.labelRef.toUInt8) (Int64.ofInt i))
  else if n.code == .constDecl then
    fail (.consistency s!"{id}: const_decl referenced from a function body")
  else
    match DeclCategory.ofCode? n.code with
    | some c =>
      let (i, decls) := w.decls.encode c id
      set { w with decls }
      return some (Out.uleb (Out.u8 out c.tag.toUInt8) i.toUInt64)
    | none => return none

/-- The payload of node `id`, which must have the shape of its kind's layout. -/
def writePayload (child : ByteArray → Option NodeId → WriteM ByteArray) (out : ByteArray)
    (id : NodeId) (n : Node) : WriteM ByteArray :=
  let mismatch : WriteM ByteArray :=
    fail (.consistency s!"{id}: {n.code} payload does not match its {n.code.layout.label} layout")
  match n.code.layout, n.data with
  | .integerCst, .int low high => pure (Out.sleb (Out.uleb out low) high)
  | .realCst, .real bits => stringRef out (some (HexReal.format bits).toUTF8)
  | .complexCst, .complex r i => do child (← child out r) i
  | .vectorCst, .vector elts => writeAll child out elts
  | .vec, .vec elts => writeAll child out elts
  | .stringCst, .str bytes => stringRef out (some ⟨bytes.toArray⟩)
  | .list, .list entries => writePairs child out entries
  | .binfo, .binfo b => writeFields child out binfoFields b
  | .type, .type t => writeFields child out (typeFields n.code) t
  | .decl, .decl d => writeFields child out (declFields n.code) d
  | .constructor, .constructor elts => writePairs child out elts
  | .call, .call f c args => do writeAll child (← child (← child out f) c) args
  | .caseLabel, .caseLabel low high label => do
    let variant : UInt64 := (if low.isSome then 1 else 0) + (if high.isSome then 2 else 0)
    let out := Out.uleb out variant
    let out ← if low.isSome then child out low else pure out
    let out ← if high.isSome then child out high else pure out
    child out label
  | .asm, .asm text i o c => do
    let out ← stringRef out (some ⟨text.toArray⟩)
    child (← child (← child out i) o) c
  | .ssaName, .ssa version var => child (Out.uleb out version.toUInt64) var
  | .operands 0, .empty => pure out
  | .operands k, .operands ops =>
    if ops.length == k then ops.foldlM child out else mismatch
  | _, _ => mismatch

/-- A node written in full: tag, type, flag word and payload. -/
def writeNode (child : ByteArray → Option NodeId → WriteM ByteArray) (out : ByteArray)
    (id : NodeId) : WriteM ByteArray := do
  let n := (← get).program.node id
  let out := Out.u8 out (Tag.ofCode n.code).toUInt8
  if n.code.isGlobalIndexable then
    modify fun w => { w with pickles := w.pickles.register id }
  if let .identifier name := n.data then
    return ← stringRef out (some name.toUTF8)
  let out ← if n.code.streamsType then child out n.ty else pure out
  let out ← flagWord out (Flags.pack (TreeFlags.streamed n.code) n.flags) n.locus
  writePayload child out id n

/-- Write a tree, `fuel` bounding the nesting. -/
def writeTreeWith : Nat → ByteArray → Option NodeId → WriteM ByteArray
  | 0, _, _ => fail (.consistency "tree nesting exceeds the number of nodes")
  | _ + 1, out, none => pure (Out.u8 out Tag.null.toUInt8)
  | fuel + 1, out, some id => do
    let w ← get
    if let some i := w.pickles.lookup id then
      return Out.uleb (Out.u8 out Tag.pickleRef.toUInt8) i.toUInt64
    if let some out ← scopedRef out id then
      return out
    writeNode (writeTreeWith fuel) out id

/-- Write a tree. Every node on a path from the root is written in full at
most once, so the nesting never exceeds the number of nodes. -/
def writeTree (out : ByteArray) (node : Option NodeId) : WriteM ByteArray := do
  writeTreeWith ((← get).program.arena.size + 2) out node

end WriteM

end IrStream
