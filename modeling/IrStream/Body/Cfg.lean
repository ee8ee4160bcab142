import IrStream.Tree.Node
import IrStream.Flags.Side
import IrStream.Error

/-!
Control-flow graphs of function bodies: blocks by index, holes where no block
is, outgoing edges on their source block, statements and phis in blocks, and
the layout chain. Blocks 0 and 1 are the fixed entry and exit.
`Cfg.verify` checks that the fixed blocks exist, every edge lands on a block,
and the chain lists every block exactly once starting at the entry.
-/

namespace IrStream

/-- Index of the fixed entry block. -/
def entryBlock : UInt32 := 0
/-- Index of the fixed exit block. -/
def exitBlock : UInt32 := 1

/-- Where the block counts came from. -/
inductive ProfileStatus where
  | absent | guessed | measured
  deriving DecidableEq, Repr, Inhabited

namespace ProfileStatus

def code : ProfileStatus → Nat
  | absent => 0
  | guessed => 1
  | measured => 2

def ofCode? : Nat → Option ProfileStatus
  | 0 => some absent
  | 1 => some guessed
  | 2 => some measured
  | _ => none

def label : ProfileStatus → String
  | absent => "absent"
  | guessed => "guessed"
  | measured => "read"

def ofLabel? : String → Option ProfileStatus
  | "absent" => some absent
  | "guessed" => some guessed
  | "read" => some measured
  | _ => none

end ProfileStatus

/-- An outgoing edge; its source is the block that holds it. -/
structure Edge where
  dest : UInt32
  probability : Int32 := 0
  count : Int64 := 0
  flags : UInt32 := 0
  deriving DecidableEq, Repr, Inhabited

/-- Statement kinds. -/
inductive StmtCode where
  | nop | assign | call | cond | goto | label | ret | switch | resx | asm
  deriving DecidableEq, Repr, Inhabited

namespace StmtCode

def all : List StmtCode := [nop, assign, call, cond, goto, label, ret, switch, resx, asm]

def index : StmtCode → Nat
  | nop => 0 | assign => 1 | call => 2 | cond => 3 | goto => 4
  | label => 5 | ret => 6 | switch => 7 | resx => 8 | asm => 9

def ofIndex? (i : Nat) : Option StmtCode := all[i]?

def name : StmtCode → String
  | nop => "nop" | assign => "assign" | call => "call" | cond => "cond" | goto => "goto"
  | label => "label" | ret => "return" | switch => "switch" | resx => "resx" | asm => "asm"

def ofName? (s : String) : Option StmtCode := all.find? (·.name == s)

end StmtCode

/-- One statement. Its operands are in kind-specific order. -/
structure Stmt where
  code : StmtCode
  /-- Kind-specific discriminator. -/
  subcode : UInt32 := 0
  /-- Call-site identity that call-graph edges refer to. -/
  uid : UInt32 := 0
  flags : StmtFlags := {}
  locus : Option Locus := none
  /-- Exception region of the statement; zero when none. -/
  ehRegion : Int32 := 0
  ops : List (Option NodeId) := []
  deriving DecidableEq, Repr, Inhabited

/-- A phi: the SSA version it defines and (value, predecessor) arguments. -/
structure Phi where
  result : UInt32
  args : List (Option NodeId × UInt32) := []
  deriving DecidableEq, Repr, Inhabited

structure Block where
  index : UInt32
  count : Int64 := 0
  loopDepth : UInt32 := 0
  frequency : Int32 := 0
  flags : UInt32 := 0
  succs : List Edge := []
  stmts : List Stmt := []
  phis : List Phi := []
  deriving DecidableEq, Repr, Inhabited

/-- Whether a block has neither statements nor phis. -/
def Block.isBare (b : Block) : Bool := b.stmts.isEmpty && b.phis.isEmpty

structure Cfg where
  profile : ProfileStatus := .absent
  /-- Blocks by index; `none` is a hole. -/
  blocks : List (Option Block) := []
  /-- Layout chain, entry first. -/
  order : List UInt32 := []
  deriving DecidableEq, Repr, Inhabited

namespace Cfg

/-- A graph with only the entry and exit blocks. -/
def initial : Cfg :=
  { blocks := [some { index := entryBlock }, some { index := exitBlock }],
    order := [entryBlock, exitBlock] }

/-- The empty graph, without even the fixed blocks. -/
def empty : Cfg := {}

/-- One past the highest block index. -/
def lastBlock (g : Cfg) : Nat := g.blocks.length

def block? (g : Cfg) (index : Nat) : Option Block := g.blocks[index]?.join

/-- Change the block at `index`, if there is one. -/
def modifyBlock (g : Cfg) (index : Nat) (f : Block → Block) : Cfg :=
  { g with blocks := g.blocks.modify index (Option.map f) }

/-- The graph with a block at `index`, created with default fields if absent
and the slot list padded with holes up to it. -/
def ensureBlock (g : Cfg) (index : Nat) : Cfg :=
  let blocks := if g.blocks.length ≤ index then
      g.blocks ++ List.replicate (index + 1 - g.blocks.length) none
    else g.blocks
  let blocks := blocks.modify index fun
    | some b => some b
    | none => some { index := index.toUInt32 }
  { g with blocks }

/-- Append a fresh block and place it just before the exit block in the chain. -/
def addBlock (g : Cfg) : Nat × Cfg :=
  let index := g.lastBlock
  let slot := (g.order.findIdx? (· == exitBlock)).getD g.order.length
  (index, { g with blocks := g.blocks ++ [some { index := index.toUInt32 }],
                   order := g.order.insertIdx slot index.toUInt32 })

/-- A new block takes the first index past the others. -/
theorem addBlock_fst (g : Cfg) : g.addBlock.1 = g.lastBlock := rfl

theorem lastBlock_addBlock (g : Cfg) : g.addBlock.2.lastBlock = g.lastBlock + 1 := by
  simp [addBlock, lastBlock]

/-- Add an edge from `src`, creating the source block if needed. -/
def addEdge (g : Cfg) (src : Nat) (edge : Edge) : Cfg :=
  (g.ensureBlock src).modifyBlock src fun b => { b with succs := b.succs ++ [edge] }

/-- Existing blocks in index order. -/
def present (g : Cfg) : List Block := g.blocks.filterMap id

def numBlocks (g : Cfg) : Nat := g.present.length

def numEdges (g : Cfg) : Nat := g.present.foldl (fun n b => n + b.succs.length) 0

/-- Sources of edges into `index`, in index order. -/
def preds (g : Cfg) (index : UInt32) : List UInt32 :=
  (g.present.filter fun b => b.succs.any (·.dest == index)).map (·.index)

/-- The first chain entry that names no block or repeats one. -/
def firstBadInOrder (g : Cfg) : List UInt32 → List UInt32 → Option UInt32
  | [], _ => none
  | i :: rest, seen =>
    if (g.block? i.toNat).isNone || seen.contains i then some i
    else firstBadInOrder g rest (i :: seen)

def verify (g : Cfg) : Except VerifyError Unit := do
  for fixed in [entryBlock, exitBlock] do
    if (g.block? fixed.toNat).isNone then throw (.missingFixedBlock fixed)
  for b in g.present do
    for e in b.succs do
      if (g.block? e.dest.toNat).isNone then throw (.missingEdgeTarget b.index e.dest)
  if g.order.head? != some entryBlock then throw (.badBlockOrder entryBlock)
  match g.firstBadInOrder g.order [] with
  | some i => throw (.badBlockOrder i)
  | none => pure ()
  match g.present.find? (fun b => !g.order.contains b.index) with
  | some b => throw (.badBlockOrder b.index)
  | none => pure ()

end Cfg

end IrStream
