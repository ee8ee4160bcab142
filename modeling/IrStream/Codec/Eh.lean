import IrStream.Body.Eh
import IrStream.Codec.Writer
import IrStream.Codec.Reader

/-!
The exception-region table of a function body. Each slot of the table is
empty, a pointer to the region that owns the number, or the region itself,
stored in the slot of its own number. Links between regions are written as
region number plus one, zero for none, and resolved only after the whole
table is read, since they may point forward.
-/

namespace IrStream

/-- The region links that can be stored. -/
inductive RegionLink where
  | outer | inner | nextPeer | firstCatch | lastCatch | nextCatch | prevCatch
  deriving DecidableEq, Repr

namespace EhRegion

/-- The region's tag: the base, then two per kind, plus one if it may throw. -/
def tag (r : EhRegion) : Nat := Tag.ehRegion + 2 * r.kind.ordinal + (if r.mayContainThrow then 1 else 0)

/-- Set a link; none when the region's kind does not carry it. -/
def setLink? (r : EhRegion) (link : RegionLink) (target : RegionId) : Option EhRegion :=
  match link, r.kind with
  | .outer, _ => some { r with outer := some target }
  | .inner, _ => some { r with inner := some target }
  | .nextPeer, _ => some { r with nextPeer := some target }
  | .firstCatch, .tryBlock _ l => some { r with kind := .tryBlock (some target) l }
  | .lastCatch, .tryBlock f _ => some { r with kind := .tryBlock f (some target) }
  | .nextCatch, .catchBlock _ p t fl => some { r with kind := .catchBlock (some target) p t fl }
  | .prevCatch, .catchBlock n _ t fl => some { r with kind := .catchBlock n (some target) t fl }
  | _, _ => none

end EhRegion

namespace WriteM

/-- Append the table of `eh`. -/
def writeEhTable (out : ByteArray) (eh : EhTable) : WriteM ByteArray := do
  let region (id : RegionId) : EhRegion := (eh.region? id).getD { number := 0, kind := .cleanup }
  let number (link : Option RegionId) : UInt64 := match link with
    | some id => (region id).number.toUInt64 + 1
    | none => 0
  let root : Int64 := match eh.root with
    | some id => (region id).number.toUInt64.toInt64
    | none => -1
  let out := Out.sleb (Out.uleb (Out.u8 out Tag.ehTable.toUInt8) eh.lastRegionNumber.toUInt64) root
  let out := Out.uleb out eh.slots.length.toUInt64
  let out ← eh.slots.zipIdx.foldlM (fun out (entry, slot) => do
    match entry with
    | none => return Out.u8 out Tag.null.toUInt8
    | some id =>
      let r := region id
      if r.number.toNat != slot then
        return Out.uleb (Out.u8 out Tag.ehShared.toUInt8) r.number.toUInt64
      let out := Out.uleb (Out.uleb (Out.u8 out r.tag.toUInt8) r.number.toUInt64) r.aka.length.toUInt64
      let out := r.aka.foldl (fun out a => Out.uleb out a.toUInt64) out
      let out := Out.uleb (Out.uleb (Out.uleb out (number r.outer)) (number r.inner)) (number r.nextPeer)
      let out ← writeTree out r.label
      match r.kind with
      | .cleanup | .mustNotThrow => return out
      | .tryBlock f l => return Out.uleb (Out.uleb out (number f)) (number l)
      | .catchBlock n p t fl => do
        let out := Out.uleb (Out.uleb out (number n)) (number p)
        writeTree (← writeTree out t) fl
      | .allowedExceptions t filter => return Out.uleb (← writeTree out t) filter.toUInt64
      | .throwType ty => writeTree out ty) out
  return Out.u8 out Tag.null.toUInt8

end WriteM

namespace ReadM

/-- Region links read but not yet resolved: the region, the link and the
number of its target. -/
abbrev PendingLinks := Array (RegionId × RegionLink × Int)

/-- Note a link of region `id` unless it is zero. -/
def deferLink (id : RegionId) (link : RegionLink) (pending : PendingLinks) : ReadM PendingLinks := do
  let n ← onCursor CursorM.readUleb
  if n == 0 then return pending
  return pending.push (id, link, n.toInt64.toInt - 1)

/-- A region record after its tag, whose low bit is `mayContainThrow` and the
rest the kind's ordinal. -/
def readRegion (variant : Nat) (id : RegionId) (pending : PendingLinks) :
    ReadM (EhRegion × PendingLinks) := do
  let number ← onCursor CursorM.readU32
  let count ← onCursor CursorM.readUleb
  let aka ← readCount count.toNat (onCursor CursorM.readU32)
  let aka := aka.foldl (fun acc a => insertAscending a acc) []
  let pending ← deferLink id .outer pending
  let pending ← deferLink id .inner pending
  let pending ← deferLink id .nextPeer pending
  let label ← readTree
  let (kind, pending) ← match variant / 2 with
    | 0 => pure (EhKind.cleanup, pending)
    | 1 => do
      let pending ← deferLink id .firstCatch pending
      let pending ← deferLink id .lastCatch pending
      pure (.tryBlock none none, pending)
    | 2 => do
      let pending ← deferLink id .nextCatch pending
      let pending ← deferLink id .prevCatch pending
      let typeList ← readTree
      let filterList ← readTree
      pure (.catchBlock none none typeList filterList, pending)
    | 3 => do
      let typeList ← readTree
      let filter ← onCursor CursorM.readU32
      pure (.allowedExceptions typeList filter, pending)
    | 4 => pure (.mustNotThrow, pending)
    | _ => do pure (.throwType (← readTree), pending)
  return ({ number, mayContainThrow := variant % 2 == 1, aka, label, kind }, pending)

/-- What the slots of a table hold while they are read. -/
structure EhSlots where
  table : EhTable
  pending : PendingLinks := #[]
  aliases : Array (UInt32 × RegionId) := #[]
  shared : Array (Nat × UInt32) := #[]

/-- Read the slot records in order. -/
def readSlots (count : Nat) : Nat → EhSlots → ReadM EhSlots
  | 0, acc => pure acc
  | k + 1, acc => do
    let slot := count - (k + 1)
    let tag := (← onCursor CursorM.readU8).toNat
    if tag == Tag.null then readSlots count k acc
    else if tag == Tag.ehShared then
      let owner ← onCursor CursorM.readU32
      readSlots count k { acc with shared := acc.shared.push (slot, owner) }
    else if Tag.ehRegion ≤ tag && tag < Tag.ehRegion + 2 * EhKind.count then
      let id : RegionId := ⟨acc.table.regions.length⟩
      let (region, pending) ← readRegion (tag - Tag.ehRegion) id acc.pending
      if region.number.toNat != slot then
        fail (.consistency s!"EH region {region.number} stored in slot {slot}")
      let t := acc.table
      readSlots count k { acc with
        table := { t with regions := t.regions ++ [region], slots := t.slots.set slot (some id) },
        pending,
        aliases := acc.aliases ++ (region.aka.map fun n => (n, id)).toArray }
    else fail (.unknownTag tag.toUInt64 "eh region")

/-- Read an exception-region table after its tag. -/
def readEhTable : ReadM EhTable := do
  let lastRegionNumber ← onCursor CursorM.readU32
  let root ← onCursor CursorM.readSleb
  let count ← onCursor CursorM.readU32
  let count ← onCursor (CursorM.checkCount "eh region" count.toUInt64 0)
  let start : EhTable := { lastRegionNumber, slots := List.replicate count none }
  let acc ← readSlots count count { table := start }
  let tag := (← onCursor CursorM.readU8).toNat
  if tag != Tag.null then fail (.unknownTag tag.toUInt64 "eh table terminator")
  let regions := acc.table.regions
  let lookup (n : Int) : Option RegionId :=
    (regions.zipIdx.reverse.find? (fun (r, _) => (r.number.toNat : Int) == n)).map fun (_, i) => ⟨i⟩
  let mut t := acc.table
  for (aliasNumber, id) in acc.aliases do
    if t.slots.length ≤ aliasNumber.toNat then
      fail (.indexOutOfRange "eh slot" aliasNumber.toUInt64.toInt64 count)
    t := { t with slots := t.slots.set aliasNumber.toNat (some id) }
  for (slot, owner) in acc.shared do
    let expected := lookup owner.toNat
    if expected.isNone || t.slots[slot]?.join != expected then
      fail (.consistency s!"shared EH slot {slot} is not an alias of region {owner}")
  if root != -1 then
    match lookup root.toInt with
    | some id => t := { t with root := some id }
    | none => fail (.indexOutOfRange "eh region" root count)
  let mut misplaced : Option RegionId := none
  for (id, link, raw) in acc.pending do
    let some target := lookup raw | fail (.indexOutOfRange "eh region" (Int64.ofInt raw) count)
    match (t.region? id).bind (·.setLink? link target) with
    | some r => t := t.modifyRegion id fun _ => r
    | none => misplaced := some id
  if let some id := misplaced then
    let n := ((t.region? id).map (·.number)).getD 0
    fail (.consistency s!"EH region {n} has a link its kind does not carry")
  return t

end ReadM

end IrStream
