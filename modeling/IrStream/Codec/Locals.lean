import Std.Data.HashSet
import IrStream.Codec.Writer
import IrStream.Codec.Reader

/-!
The locals of a function body. The local-decls stream opens with a preamble
listing, with their positions, the declared locals that are not
function-local (hoisted statics and the like), written as ordinary trees.
Function-local variables and parameters follow as records of their own, one
per local referenced from the body, each with fresh back-references and
positions so that it can be read on first use in any order.
-/

namespace IrStream

namespace WriteM

/-- The preamble: listed locals that are not function-local, each with its
first position, then a null tree. Function-local ones are numbered instead. -/
def writeLocalPreamble (out : ByteArray) (localDecls : List NodeId) : WriteM ByteArray := do
  let mut out := out
  let mut seen : Std.HashSet NodeId := {}
  for (decl, position) in localDecls.zipIdx do
    let w ← get
    if w.program.isFunctionLocal decl then
      if let some sc := w.scope then
        set { w with scope := some { sc with locals := (sc.locals.encode decl).2 } }
      continue
    if seen.contains decl then continue
    seen := seen.insert decl
    out ← writeTree out (some decl)
    out := Out.uleb out position.toUInt64
  writeTree out none

/-- The record of one function-local variable or parameter. -/
def writeLocal (out : ByteArray) (decl : NodeId) : WriteM ByteArray := do
  let w ← get
  let n := w.program.node decl
  let some d := n.decl? | fail (.consistency s!"{decl}: local {n.code} is not a declaration")
  let base ← match n.code with
    | .varDecl => pure Tag.localVar
    | .parmDecl => pure Tag.localParm
    | code => fail (.consistency s!"{decl}: {code} is not a local")
  let variant := (if d.attributes.isSome then Tag.variantAttributes else 0) +
    (if d.sizeUnit.isSome then Tag.variantSizeUnit else 0) +
    (if d.debugExpr.isSome then Tag.variantDebugExpr else 0)
  let out := Out.u8 out (base + variant).toUInt8
  let out ← writeTree out d.name
  let out ← writeTree out d.assemblerName
  let out ← writeTree out n.ty
  let out ← writeTree out d.context
  let out ← if n.code == .varDecl then do
      let out ← writeTree out d.initial
      let position : Int64 := match (← get).scope.bind (·.positions.get? decl) with
        | some p => p.toUInt64.toInt64
        | none => -1
      pure (Out.sleb out position)
    else do
      writeTree (← writeTree out d.argType) d.chain
  let out ← flagWord out (Flags.pack (TreeFlags.streamed n.code) n.flags) n.locus
  let out := Out.uleb (Out.uleb out d.align.toUInt64) d.mode.toUInt64
  let out ← writeTree out d.size
  let out ← if d.attributes.isSome then writeTree out d.attributes else pure out
  let out ← if d.sizeUnit.isSome then writeTree out d.sizeUnit else pure out
  if d.debugExpr.isSome then writeTree out d.debugExpr else pure out

/-- The records of every numbered local, in number order, including locals
first numbered while earlier records are written; the offset of each record. -/
def writeLocalRecords (out : ByteArray) : WriteM (ByteArray × List UInt64) := do
  let mut out := out
  let mut offsets := #[]
  -- Locals are distinct nodes, so there are never more than the arena holds.
  for i in [0:(← get).program.arena.size + 1] do
    let some decl := (← get).scope.bind (·.locals.trees[i]?) | break
    offsets := offsets.push out.size.toUInt64
    let saved ← beginRecord
    out ← writeLocal out decl
    endRecord saved
  return (out, offsets.toList)

end WriteM

namespace ReadM

/-- The preamble: listed locals with their positions, until a null tree. -/
def readLocalPreamble : Nat → ReadM Unit
  | 0 => pure ()
  | fuel + 1 => do
    let some decl ← readTree | return
    let position ← onCursor CursorM.readUleb
    let sc ← scope "local preamble"
    setScope { sc with positions := sc.positions.push (position.toInt64.toInt, decl) }
    readLocalPreamble fuel

end ReadM

end IrStream
