import IrStream.Tree.Node

/-!
The child visitor that may change the slots it visits. `Node.traverseChildren g`
passes every child slot of a node through `g`, the type slot first and then
the payload's slots in stream order, and stores back what `g` answers. The
visiting function runs in any monad, so it may keep state from one slot to
the next (count the slots, collect them, number them). `Node.mapChildren`, the
renaming the linker applies to every node, is this visitor run with a
function that keeps no state.
-/

namespace IrStream

variable {m : Type → Type} [Monad m]

namespace TypeData

/-- Every link through `g`, in stream order. -/
def traverseLinks (g : Option NodeId → m (Option NodeId)) (d : TypeData) : m TypeData := do
  let size ← g d.size
  let sizeUnit ← g d.sizeUnit
  let attributes ← g d.attributes
  let name ← g d.name
  let context ← g d.context
  let minValue ← g d.minValue
  let maxValue ← g d.maxValue
  let values ← g d.values
  let binfo ← g d.binfo
  let mainVariant ← g d.mainVariant
  let nextVariant ← g d.nextVariant
  let canonical ← g d.canonical
  let stubDecl ← g d.stubDecl
  let pointerTo ← g d.pointerTo
  let referenceTo ← g d.referenceTo
  return { d with
    size, sizeUnit, attributes, name, context, minValue, maxValue, values, binfo,
    mainVariant, nextVariant, canonical, stubDecl, pointerTo, referenceTo }

end TypeData

namespace DeclData

/-- Every link through `g`, in stream order. -/
def traverseLinks (g : Option NodeId → m (Option NodeId)) (d : DeclData) : m DeclData := do
  let name ← g d.name
  let context ← g d.context
  let assemblerName ← g d.assemblerName
  let sectionName ← g d.sectionName
  let comdatGroup ← g d.comdatGroup
  let attributes ← g d.attributes
  let abstractOrigin ← g d.abstractOrigin
  let size ← g d.size
  let sizeUnit ← g d.sizeUnit
  let initial ← g d.initial
  let result ← g d.result
  let personality ← g d.personality
  let vindex ← g d.vindex
  let fieldOffset ← g d.fieldOffset
  let bitFieldType ← g d.bitFieldType
  let qualifier ← g d.qualifier
  let bitOffset ← g d.bitOffset
  let fieldContext ← g d.fieldContext
  let argType ← g d.argType
  let chain ← g d.chain
  let debugExpr ← g d.debugExpr
  let valueExpr ← g d.valueExpr
  return { d with
    name, context, assemblerName, sectionName, comdatGroup, attributes, abstractOrigin, size,
    sizeUnit, initial, result, personality, vindex, fieldOffset, bitFieldType, qualifier,
    bitOffset, fieldContext, argType, chain, debugExpr, valueExpr }

end DeclData

namespace BinfoData

/-- The seven single links through `g`, in stream order; the base lists stay. -/
def traverseLinks (g : Option NodeId → m (Option NodeId)) (d : BinfoData) : m BinfoData := do
  let offset ← g d.offset
  let vtable ← g d.vtable
  let virtuals ← g d.virtuals
  let vptrField ← g d.vptrField
  let vttSubvtt ← g d.vttSubvtt
  let vttVptr ← g d.vttVptr
  let chain ← g d.chain
  return { d with offset, vtable, virtuals, vptrField, vttSubvtt, vttVptr, chain }

end BinfoData

namespace NodeData

/-- Both slots of each pair through `g`, the first before the second. -/
def traversePairs (g : Option NodeId → m (Option NodeId))
    (ps : List (Option NodeId × Option NodeId)) : m (List (Option NodeId × Option NodeId)) :=
  ps.mapM fun p => do
    let first ← g p.1
    let second ← g p.2
    return (first, second)

/-- Every child slot of the payload through `g`, in stream order. -/
def traverseChildren (g : Option NodeId → m (Option NodeId)) : NodeData → m NodeData
  | .empty => pure .empty
  | .identifier name => pure (.identifier name)
  | .int low high => pure (.int low high)
  | .real bits => pure (.real bits)
  | .str bytes => pure (.str bytes)
  | .complex r i => do
    let r ← g r
    let i ← g i
    return .complex r i
  | .vector elts => .vector <$> elts.mapM g
  | .vec elts => .vec <$> elts.mapM g
  | .operands ops => .operands <$> ops.mapM g
  | .list entries => .list <$> traversePairs g entries
  | .call f c args => do
    let f ← g f
    let c ← g c
    let args ← args.mapM g
    return .call f c args
  | .constructor elts => .constructor <$> traversePairs g elts
  | .caseLabel low high label => do
    let low ← g low
    let high ← g high
    let label ← g label
    return .caseLabel low high label
  | .asm text i o c => do
    let i ← g i
    let o ← g o
    let c ← g c
    return .asm text i o c
  | .ssa version var => .ssa version <$> g var
  | .type t => .type <$> t.traverseLinks g
  | .decl d => .decl <$> d.traverseLinks g
  | .binfo b => do
    let b ← b.traverseLinks g
    let baseAccesses ← b.baseAccesses.mapM g
    let baseBinfos ← b.baseBinfos.mapM g
    return .binfo { b with baseAccesses, baseBinfos }

end NodeData

/-- Every child slot through `g`: the type slot, then the payload's. -/
def Node.traverseChildren (g : Option NodeId → m (Option NodeId)) (n : Node) : m Node := do
  let ty ← g n.ty
  let data ← n.data.traverseChildren g
  return { n with ty, data }

end IrStream
