import Std.Data.HashMap
import IrStream.Codec.Tables
import IrStream.Codec.Fields
import IrStream.Wire.Position
import IrStream.Real.HexText
import IrStream.Program

/-!
Reading trees back into a program. Every node read is allocated afresh,
except identifiers, which are shared by spelling. A type, declaration or
binfo is allocated and numbered for back-references before its fields are
read, so that references to it from inside its own fields resolve. Inside a
function body the reader also resolves references to the body's locals,
which are read on first use from their own records, to its labels, made on
first use when unnamed, and to its SSA names.

A failed read leaves the reader as the failure found it: the nodes allocated
so far stay in the program, and the cursor stays after the bytes consumed.
-/

namespace IrStream

/-- The function-local tables a body reader resolves references through. -/
structure ScopeInput where
  function : NodeId
  /-- Locals read so far, by slot. -/
  locals : Array (Option NodeId)
  /-- Where each local's record starts in `localData`. -/
  localOffsets : Array UInt64
  localData : ByteArray
  /-- Each local's position in the body's list of locals, as read. -/
  positions : Array (Int × NodeId) := #[]
  namedLabels : Array NodeId
  numUnnamedLabels : UInt32
  unnamedLabels : Std.HashMap UInt32 NodeId := {}
  ssaNames : Array (Option NodeId) := #[]
  deriving Inhabited

/-- Everything a tree reader keeps: the program read into, the unit's tables,
the string stream, back-references, the last position and the cursor. -/
structure TreeReader where
  program : Program
  decls : UnitDecls := {}
  strings : ByteArray
  pickles : ReadTable := {}
  last : Position.Last := {}
  scope : Option ScopeInput := none
  cursor : Cursor
  deriving Inhabited

/-- Reading trees; a failure keeps the reader's state as it was at the failure. -/
abbrev ReadM := EStateM StreamError TreeReader

/-- A fresh label declaration of `function`, named by the identifier `name`. -/
def Program.labelDecl (p : Program) (function : NodeId) (name : Option NodeId) : NodeId × Program :=
  p.alloc { code := .labelDecl, ty := some CommonNode.voidType.id,
            data := .decl { name, context := some function } }

namespace ReadM

def fail (e : StreamError) : ReadM α := throw e

/-- Run a cursor read on the reader's cursor. -/
def onCursor (m : CursorM α) : ReadM α := fun s =>
  match m.run s.cursor with
  | .ok a c => .ok a { s with cursor := c }
  | .error e c => .error e { s with cursor := c }

/-- Run `m` on cursor `c`, putting the reader's own cursor back afterwards,
whether `m` fails or not. -/
def withCursor (c : Cursor) (m : ReadM α) : ReadM α := fun s =>
  match m { s with cursor := c } with
  | .ok a t => .ok a { t with cursor := s.cursor }
  | .error e t => .error e { t with cursor := s.cursor }

/-- Run `m` with fresh back-references and positions, putting the reader's
own back after, whether `m` fails or not. -/
def inRecord (m : ReadM α) : ReadM α := fun s =>
  match m { s with pickles := {}, last := {} } with
  | .ok a t => .ok a { t with pickles := s.pickles, last := s.last }
  | .error e t => .error e { t with pickles := s.pickles, last := s.last }

def alloc (n : Node) : ReadM NodeId :=
  modifyGet fun s => let (id, p) := s.program.alloc n; (id, { s with program := p })

def replace (id : NodeId) (n : Node) : ReadM Unit :=
  modify fun s => { s with program := { s.program with arena := s.program.arena.replace id n } }

/-- The scope of the body being read; `what` names the reference that needs it. -/
def scope (what : String) : ReadM ScopeInput := do
  match (← get).scope with
  | some sc => return sc
  | none => fail (.consistency s!"{what} outside a function body")

def setScope (sc : ScopeInput) : ReadM Unit := modify fun s => { s with scope := some sc }

def readStr : ReadM (Option String) := do onCursor (StringReader.readStr (← get).strings)

def readRef : ReadM (Option ByteArray) := do onCursor (StringReader.readRef (← get).strings)

/-- A flag word and its position. -/
def flagWord : ReadM (UInt64 × Option Locus) := do
  let s ← get
  let (packed, locus, last) ← onCursor (PositionReader.read s.last s.strings)
  modify fun s => { s with last }
  return (packed, locus)

/-- `count` items in order. -/
def readCount (count : Nat) (item : ReadM α) : ReadM (List α) := do
  let mut acc := #[]
  for _ in [0:count] do
    acc := acc.push (← item)
  return acc.toList

/-- A count, then that many trees. -/
def readAll (child : ReadM (Option NodeId)) : ReadM (List (Option NodeId)) := do
  readCount (← onCursor CursorM.readUleb).toNat child

def readPairs (child : ReadM (Option NodeId)) : ReadM (List (Option NodeId × Option NodeId)) := do
  readCount (← onCursor CursorM.readUleb).toNat do
    let a ← child
    let b ← child
    return (a, b)

/-- The streamed fields of a record, in order, over `base`. -/
def readFields (child : ReadM (Option NodeId)) (fields : List (RecordField ρ)) (base : ρ) :
    ReadM ρ :=
  fields.foldlM (fun data f =>
    match f with
    | .link _ set => return set data (← child)
    | .links _ set => return set data (← readAll child)
    | .scalar _ set => return set data (← onCursor CursorM.readU32)) base

/-- A string entry that must be present. -/
def requiredRef : ReadM ByteArray := do
  match ← readRef with
  | some b => return b
  | none => fail (.badString 0)

def requiredStr : ReadM String := do
  match ← readStr with
  | some t => return t
  | none => fail (.badString 0)

/-- The payload of a node of kind `code`, in its layout. -/
def readPayload (child : ReadM (Option NodeId)) (code : TreeCode) : ReadM NodeData :=
  match code.layout with
  | .identifier => fail (.consistency "identifier payload out of place")
  | .integerCst => do
    let low ← onCursor CursorM.readUleb
    let high ← onCursor CursorM.readSleb
    return .int low high
  | .realCst => do
    let text ← requiredStr
    match HexReal.parse text with
    | .ok bits => return .real bits
    | .error e => fail e
  | .complexCst => do
    let r ← child
    let i ← child
    return .complex r i
  | .vectorCst => return .vector (← readAll child)
  | .stringCst => return .str (← requiredRef).toList
  | .list => return .list (← readPairs child)
  | .vec => return .vec (← readAll child)
  | .binfo => return .binfo (← readFields child binfoFields {})
  | .type => return .type (← readFields child (typeFields code) {})
  | .decl => return .decl (← readFields child (declFields code) {})
  | .constructor => return .constructor (← readPairs child)
  | .call => do
    let f ← child
    let c ← child
    return .call f c (← readAll child)
  | .caseLabel => do
    let variant ← onCursor CursorM.readUleb
    let low ← if variant &&& 1 != 0 then child else pure none
    let high ← if variant &&& 2 != 0 then child else pure none
    return .caseLabel low high (← child)
  | .asm => do
    let text ← requiredRef
    let i ← child
    let o ← child
    let c ← child
    return .asm text.toList i o c
  | .ssaName => do
    let version ← onCursor CursorM.readU32
    return .ssa version (← child)
  | .operands 0 => return .empty
  | .operands k => return .operands (← readCount k child)

/-- A node of kind `code` whose tag has been read. -/
def readNode (child : ReadM (Option NodeId)) (code : TreeCode) : ReadM NodeId := do
  if code == .identifierNode then
    let name ← requiredStr
    return ← modifyGet fun s =>
      let (id, p) := s.program.identifier name
      (id, { s with program := p })
  let placeholder ← if code.isGlobalIndexable then do
      let id ← alloc (Node.fresh code)
      modify fun s => { s with pickles := s.pickles.register id }
      pure (some id)
    else pure none
  let ty ← if code.streamsType then child else pure none
  let (packed, locus) ← flagWord
  let flags := Flags.unpack (TreeFlags.streamed code) packed.toNat {}
  let data ← readPayload child code
  let n : Node := { code, ty, flags, locus, data }
  match placeholder with
  | some id => replace id n; return id
  | none => alloc n

/-- The fields of a local's record after its tag, and its recorded position. -/
def readLocalFields (child : ReadM (Option NodeId)) (code : TreeCode) (variant : Nat) :
    ReadM (Node × Option Int) := do
  let name ← child
  let assemblerName ← child
  let ty ← child
  let context ← child
  let (d, position) ← if code == .varDecl then do
      let initial ← child
      let position ← onCursor CursorM.readSleb
      pure ({ name, assemblerName, context, initial : DeclData }, some position.toInt)
    else do
      let argType ← child
      let chain ← child
      pure ({ name, assemblerName, context, argType, chain : DeclData }, none)
  let (packed, locus) ← flagWord
  let flags := Flags.unpack (TreeFlags.streamed code) packed.toNat {}
  let align ← onCursor CursorM.readU32
  let mode ← onCursor CursorM.readU32
  let size ← child
  let attributes ← if variant &&& Tag.variantAttributes != 0 then child else pure none
  let sizeUnit ← if variant &&& Tag.variantSizeUnit != 0 then child else pure none
  let debugExpr ← if variant &&& Tag.variantDebugExpr != 0 then child else pure none
  let d := { d with align, mode, size, attributes, sizeUnit, debugExpr }
  return ({ code, ty, flags, locus, data := .decl d }, position)

/-- The local of slot `index`, read from its record on first use. The slot
is filled before the record is read, so a record may refer to its own local. -/
def localRef (child : ReadM (Option NodeId)) (index : UInt64) : ReadM NodeId := do
  let sc ← scope "local reference"
  let len := sc.locals.size
  if len ≤ index.toNat then fail (.indexOutOfRange "local decl" index.toInt64 len)
  let slot := index.toNat
  if let some (some id) := sc.locals[slot]? then return id
  let some offset := sc.localOffsets[slot]?
    | fail (.consistency s!"local decl {slot} has no index entry")
  let c ← match ({ name := "local decls", data := sc.localData } : Cursor).seek offset.toNat with
    | .ok c => pure c
    | .error e => fail e
  withCursor c do
    let tag := (← onCursor CursorM.readU8).toNat
    let (code, variant) ←
      if Tag.localVar ≤ tag && tag < Tag.localParm then pure (TreeCode.varDecl, tag - Tag.localVar)
      else if Tag.localParm ≤ tag && tag < Tag.stmt then pure (TreeCode.parmDecl, tag - Tag.localParm)
      else fail (.unknownTag tag.toUInt64 "local decl")
    let id ← alloc (Node.fresh code)
    let sc ← scope "local reference"
    setScope { sc with locals := sc.locals.set! slot (some id) }
    let (n, position) ← inRecord (readLocalFields child code variant)
    replace id n
    if let some p := position then
      if p != -1 then
        let sc ← scope "local reference"
        setScope { sc with positions := sc.positions.push (p, id) }
    return id

/-- The label numbered `index`: named labels count up from 0, unnamed ones
down from -1 and are made on first use. -/
def labelRef (index : Int64) : ReadM NodeId := do
  let sc ← scope "label reference"
  let i := index.toInt
  if 0 ≤ i then
    match sc.namedLabels[i.toNat]? with
    | some id => return id
    | none => fail (.indexOutOfRange "label" index sc.namedLabels.size)
  let slot := -(i + 1)
  if slot ≥ sc.numUnnamedLabels.toNat then
    fail (.indexOutOfRange "label" index sc.numUnnamedLabels.toNat)
  let slot := slot.toNat.toUInt32
  if let some id := sc.unnamedLabels.get? slot then return id
  let id ← modifyGet fun s =>
    let (id, p) := s.program.labelDecl sc.function none
    (id, { s with program := p })
  let sc ← scope "label reference"
  setScope { sc with unnamedLabels := sc.unnamedLabels.insert slot id }
  return id

/-- The SSA name of `version` in the body being read. -/
def ssaRef (version : UInt64) : ReadM NodeId := do
  let sc ← scope "ssa_name reference"
  match sc.ssaNames[version.toNat]? with
  | some (some id) => return id
  | _ => fail (.indexOutOfRange "ssa name" version.toInt64 sc.ssaNames.size)

/-- Read a tree, `fuel` bounding the nesting. -/
def readTreeWith : Nat → ReadM (Option NodeId)
  | 0 => fail (.consistency "tree nesting exceeds the input")
  | fuel + 1 => do
    let tag := (← onCursor CursorM.readU8).toNat
    if tag == Tag.null then return none
    if tag == Tag.pickleRef then
      let index ← onCursor CursorM.readUleb
      match (← get).pickles.get index with
      | .ok id => return some id
      | .error e => fail e
    if tag == Tag.localRef then
      let index ← onCursor CursorM.readUleb
      return some (← localRef (readTreeWith fuel) index)
    if tag == Tag.labelRef then
      let index ← onCursor CursorM.readSleb
      return some (← labelRef index)
    if tag == Tag.ssaNameRef then
      let version ← onCursor CursorM.readUleb
      return some (← ssaRef version)
    if let some c := DeclCategory.ofTag? tag then
      let index ← onCursor CursorM.readUleb
      match (← get).decls.get c index with
      | .ok id => return some id
      | .error e => fail e
    match Tag.code? tag with
    | some code => return some (← readNode (readTreeWith fuel) code)
    | none => fail (.unknownTag tag.toUInt64 "tree")

/-- How deep trees can nest from the reader's position: each level takes a
byte of its stream, and each local's record is entered once. -/
def nestingBound (s : TreeReader) : Nat :=
  let locals := match s.scope with
    | some sc => sc.locals.size * (sc.localData.size + 2)
    | none => 0
  s.cursor.remaining + locals + 2

/-- Read a tree. -/
def readTree : ReadM (Option NodeId) := do
  readTreeWith (nestingBound (← get))

/-- Read a tree that must be present; `what` names it in the error. -/
def readTreeRequired (what : String) : ReadM NodeId := do
  match ← readTree with
  | some id => return id
  | none => fail (.consistency s!"null {what}")

end ReadM

end IrStream
