import IrStream.Body.Cfg
import IrStream.Wire.Cursor
import IrStream.Wire.Output

/-!
The control-flow stream of a function body: the profile status, the number
of block slots, each present block's index and outgoing edges, then the
layout chain, each list closed by -1. Statements are not here; they travel
with the trees in the main stream.
-/

namespace IrStream

namespace Cfg

/-- The end mark of the block list and of the chain. -/
def listEnd : Int64 := -1

/-- Block slots a graph may declare beyond the bytes that describe them. -/
def maxUnwrittenBlocks : Nat := Nat.pow 2 16

/-- Append the graph's stream. -/
def write (out : ByteArray) (g : Cfg) : ByteArray :=
  let out := Out.uleb (Out.uleb out g.profile.code.toUInt64) g.lastBlock.toUInt64
  let out := g.present.foldl (fun out b =>
    let out := Out.uleb (Out.sleb out b.index.toUInt64.toInt64) b.succs.length.toUInt64
    b.succs.foldl (fun out e =>
      Out.uleb (Out.sleb (Out.sleb (Out.uleb out e.dest.toUInt64) e.probability.toInt64) e.count)
        e.flags.toUInt64) out) out
  let out := Out.sleb out listEnd
  Out.sleb (g.order.foldl (fun out i => Out.sleb out i.toUInt64.toInt64) out) listEnd

/-- A block index that must lie below `last`. -/
def blockIndex (raw : Int64) (last : UInt32) : CursorM UInt32 :=
  if 0 ≤ raw.toInt && raw.toInt < last.toNat then pure raw.toInt.toNat.toUInt32
  else throw (.indexOutOfRange "basic block" raw last.toNat)

def readEdge (last : UInt32) : CursorM Edge := do
  let dest ← CursorM.readU32
  discard (blockIndex dest.toUInt64.toInt64 last)
  let probability ← CursorM.readI32
  let count ← CursorM.readSleb
  let flags ← CursorM.readU32
  return { dest, probability, count, flags }

/-- Blocks and their edges until the end mark; each entry takes a byte, so
`fuel` of the stream's remaining length suffices. -/
def readBlockList (last : UInt32) : Nat → Cfg → CursorM Cfg
  | 0, g => pure g
  | fuel + 1, g => do
    let raw ← CursorM.readSleb
    if raw == listEnd then return g
    let index ← blockIndex raw last
    let count ← CursorM.readUleb
    let mut succs := #[]
    for _ in [0:count.toNat] do
      succs := succs.push (← readEdge last)
    let g := succs.foldl (fun g e => g.ensureBlock e.dest.toNat) g
    let g := (g.ensureBlock index.toNat).modifyBlock index.toNat fun b => { b with succs := succs.toList }
    readBlockList last fuel g

/-- The chain until the end mark. -/
def readOrder (last : UInt32) : Nat → List UInt32 → CursorM (List UInt32)
  | 0, acc => pure acc.reverse
  | fuel + 1, acc => do
    let raw ← CursorM.readSleb
    if raw == listEnd then return acc.reverse
    readOrder last fuel ((← blockIndex raw last) :: acc)

/-- Read a graph's stream. -/
def read : CursorM Cfg := do
  let raw ← CursorM.readUleb
  let some profile := ProfileStatus.ofCode? raw.toNat
    | throw (.unknownTag raw "profile status")
  let last ← CursorM.readU32
  let len ← CursorM.checkCount "basic block" last.toUInt64 maxUnwrittenBlocks
  let g : Cfg := { profile, blocks := List.replicate len none }
  let g ← readBlockList last ((← get).remaining + 1) g
  let order ← readOrder last ((← get).remaining + 1) []
  return { g with order }

end Cfg

end IrStream
