import IrStream.Body.Cfg
import IrStream.Codec.Writer
import IrStream.Codec.Reader

/-!
Block contents in the main stream of a function body. Each present block is
written with its counters; a block with statements or phis also carries its
statements and then its phis, each list closed by a null tag. A statement's
exception region is written as the difference from the previous statement's
in the same block.
-/

namespace IrStream

namespace WriteM

def writeStmt (out : ByteArray) (s : Stmt) (prevRegion : Int32) : WriteM ByteArray := do
  let out := Out.u8 out (Tag.stmt + s.code.index).toUInt8
  let out ← flagWord out (Flags.pack StmtFlags.fields s.flags) s.locus
  let out := Out.uleb (Out.uleb out s.subcode.toUInt64) s.uid.toUInt64
  let out := Out.sleb out (Int64.ofInt (s.ehRegion.toInt - prevRegion.toInt))
  s.ops.foldlM writeTree (Out.uleb out s.ops.length.toUInt64)

def writePhi (out : ByteArray) (phi : Phi) : WriteM ByteArray := do
  let out := Out.uleb (Out.uleb (Out.u8 out Tag.phi.toUInt8) phi.result.toUInt64) phi.args.length.toUInt64
  phi.args.foldlM (fun out (value, src) => do return Out.uleb (← writeTree out value) src.toUInt64) out

/-- Append one block. -/
def writeBlock (out : ByteArray) (b : Block) : WriteM ByteArray := do
  let out := Out.u8 out (if b.isBare then Tag.bareBlock else Tag.fullBlock).toUInt8
  let out := Out.sleb (Out.uleb (Out.sleb (Out.uleb out b.index.toUInt64) b.count) b.loopDepth.toUInt64)
    b.frequency.toInt64
  let out := Out.uleb out b.flags.toUInt64
  if b.isBare then return out
  let (out, _) ← b.stmts.foldlM (fun (acc : ByteArray × Int32) s => do
    return (← writeStmt acc.1 s acc.2, s.ehRegion)) (out, 0)
  let out ← b.phis.foldlM writePhi (Out.u8 out Tag.null.toUInt8)
  return Out.u8 out Tag.null.toUInt8

end WriteM

namespace ReadM

/-- A statement after its tag; `prevRegion` is the region of the statement before it. -/
def readStmt (tag : Nat) (prevRegion : Int32) : ReadM Stmt := do
  let some code := (if Tag.stmt ≤ tag then StmtCode.ofIndex? (tag - Tag.stmt) else none)
    | fail (.unknownTag tag.toUInt64 "statement")
  let (packed, locus) ← flagWord
  let flags := Flags.unpack StmtFlags.fields packed.toNat {}
  let subcode ← onCursor CursorM.readU32
  let uid ← onCursor CursorM.readU32
  let delta ← onCursor CursorM.readSleb
  let region := prevRegion.toInt + delta.toInt
  if region < -Int.pow 2 31 || Int.pow 2 31 ≤ region then
    fail (.consistency s!"statement {uid}: EH region delta {delta} overflows")
  let count ← onCursor CursorM.readUleb
  let ops ← readCount count.toNat readTree
  return { code, subcode, uid, flags, locus, ehRegion := Int32.ofInt region, ops }

def readPhi : ReadM Phi := do
  let result ← onCursor CursorM.readU32
  let count ← onCursor CursorM.readUleb
  let args ← readCount count.toNat do
    let value ← readTree
    let src ← onCursor CursorM.readU32
    return (value, src)
  return { result, args }

/-- Statements until the null tag. -/
def readStmts : Nat → Int32 → Array Stmt → ReadM (List Stmt)
  | 0, _, acc => pure acc.toList
  | fuel + 1, prev, acc => do
    let tag := (← onCursor CursorM.readU8).toNat
    if tag == Tag.null then return acc.toList
    let s ← readStmt tag prev
    readStmts fuel s.ehRegion (acc.push s)

/-- Phis until the null tag. -/
def readPhis : Nat → Array Phi → ReadM (List Phi)
  | 0, acc => pure acc.toList
  | fuel + 1, acc => do
    let tag := (← onCursor CursorM.readU8).toNat
    if tag == Tag.null then return acc.toList
    if tag != Tag.phi then fail (.unknownTag tag.toUInt64 "phi")
    readPhis fuel (acc.push (← readPhi))

/-- The remaining length of the reader's stream, which bounds every loop that
takes a byte per round. -/
def remainingFuel : ReadM Nat := return (← get).cursor.remaining + 1

/-- Blocks until the null tag, filled into the blocks `g` already has. -/
def readBlocks : Nat → Cfg → ReadM Cfg
  | 0, g => pure g
  | fuel + 1, g => do
    let tag := (← onCursor CursorM.readU8).toNat
    if tag == Tag.null then return g
    let full ← if tag == Tag.bareBlock then pure false
      else if tag == Tag.fullBlock then pure true
      else fail (.unknownTag tag.toUInt64 "basic block")
    let index ← onCursor CursorM.readU32
    if (g.block? index.toNat).isNone then
      fail (.indexOutOfRange "basic block" index.toUInt64.toInt64 g.lastBlock)
    let count ← onCursor CursorM.readSleb
    let loopDepth ← onCursor CursorM.readU32
    let frequency ← onCursor CursorM.readI32
    let flags ← onCursor CursorM.readU32
    let g := g.modifyBlock index.toNat fun b => { b with count, loopDepth, frequency, flags }
    if !full then readBlocks fuel g
    else
      let stmts ← readStmts (← remainingFuel) 0 #[]
      let phis ← readPhis (← remainingFuel) #[]
      readBlocks fuel (g.modifyBlock index.toNat fun b => { b with stmts, phis })

end ReadM

end IrStream
