import IrStream.Tree.Node
import IrStream.Error

/-!
Exception-handling regions of a function body. Regions are stored once and
named by `RegionId`, their position in `regions`; the slot list maps region
numbers to regions, and a number that aliases another region's slot is listed
in that region's `aka` set. Regions form a forest through `outer`, `inner`
and `nextPeer`. `EhTable.verify` checks that every link stays inside the
table and every slot names a region that has its number or lists it as an
alias; it looks up each slot's region without a range check, so a slot that
names no region stops it.
-/

namespace IrStream

/-- Position of a region in `EhTable.regions`. -/
structure RegionId where
  val : Nat
  deriving DecidableEq, Repr, Inhabited, Hashable

/-- What a region does, with the links and trees of its kind. -/
inductive EhKind where
  | cleanup
  | tryBlock (firstCatch lastCatch : Option RegionId)
  | catchBlock (nextCatch prevCatch : Option RegionId) (typeList filterList : Option NodeId)
  | allowedExceptions (typeList : Option NodeId) (filter : UInt32)
  | mustNotThrow
  | throwType (ty : Option NodeId)
  deriving DecidableEq, Repr, Inhabited

namespace EhKind

/-- The kind's number on the wire. -/
def ordinal : EhKind → Nat
  | cleanup => 0
  | tryBlock .. => 1
  | catchBlock .. => 2
  | allowedExceptions .. => 3
  | mustNotThrow => 4
  | throwType _ => 5

def count : Nat := 6

def name : EhKind → String
  | cleanup => "cleanup"
  | tryBlock .. => "try"
  | catchBlock .. => "catch"
  | allowedExceptions .. => "allowed_exceptions"
  | mustNotThrow => "must_not_throw"
  | throwType _ => "throw"

/-- The region links the kind carries. -/
def links : EhKind → List (Option RegionId)
  | tryBlock f l => [f, l]
  | catchBlock n p _ _ => [n, p]
  | _ => []

end EhKind

structure EhRegion where
  number : UInt32
  mayContainThrow : Bool := false
  /-- Other numbers naming this region, ascending. -/
  aka : List UInt32 := []
  outer : Option RegionId := none
  inner : Option RegionId := none
  nextPeer : Option RegionId := none
  /-- Landing-pad label. -/
  label : Option NodeId := none
  kind : EhKind
  deriving DecidableEq, Repr, Inhabited

/-- Insert into an ascending list without duplicates. -/
def insertAscending (x : UInt32) : List UInt32 → List UInt32
  | [] => [x]
  | y :: ys => if x < y then x :: y :: ys else if x == y then y :: ys else y :: insertAscending x ys

structure EhTable where
  regions : List EhRegion := []
  /-- Region of each number; `none` where no region exists. -/
  slots : List (Option RegionId) := []
  root : Option RegionId := none
  lastRegionNumber : UInt32 := 0
  deriving DecidableEq, Repr, Inhabited

namespace EhTable

def region? (t : EhTable) (id : RegionId) : Option EhRegion := t.regions[id.val]?

def modifyRegion (t : EhTable) (id : RegionId) (f : EhRegion → EhRegion) : EhTable :=
  { t with regions := t.regions.modify id.val f }

/-- The region named by number `n`, alias or not. -/
def lookup (t : EhTable) (n : Nat) : Option EhRegion :=
  t.slots[n]?.join.bind t.region?

/-- Add a region under the next number. It becomes the innermost child of
`outer`, or a top-level region chained before the current root. -/
def addRegion (t : EhTable) (kind : EhKind) (outer : Option RegionId) : RegionId × EhTable :=
  let number := t.slots.length.toUInt32
  let id : RegionId := ⟨t.regions.length⟩
  let (peer, t) := match outer with
    | some parent =>
      ((t.region? parent).bind (·.inner), t.modifyRegion parent fun r => { r with inner := some id })
    | none => (t.root, { t with root := some id })
  let region : EhRegion := { number, kind, outer, nextPeer := peer }
  (id, { t with regions := t.regions ++ [region], slots := t.slots ++ [some id],
                lastRegionNumber := number })

/-- A new region takes the next number: its slot is appended. -/
theorem slots_addRegion (t : EhTable) (kind : EhKind) (outer : Option RegionId) :
    (t.addRegion kind outer).2.slots = t.slots ++ [some (t.addRegion kind outer).1] := by
  unfold addRegion
  cases outer <;> simp [modifyRegion]

/-- Reserve the next number as an alias of `target`. -/
def addAlias (t : EhTable) (target : RegionId) : UInt32 × EhTable :=
  let number := t.slots.length.toUInt32
  let t := t.modifyRegion target fun r => { r with aka := insertAscending number r.aka }
  (number, { t with slots := t.slots ++ [some target], lastRegionNumber := number })

def inRange (t : EhTable) (link : Option RegionId) : Bool :=
  match link with
  | some id => id.val < t.regions.length
  | none => true

/-- The first region, by position, with a link outside the table. -/
def firstDangling (t : EhTable) : Option Nat :=
  (List.range t.regions.length).find? fun i =>
    match t.regions[i]? with
    | some r => !(([r.outer, r.inner, r.nextPeer] ++ r.kind.links).all t.inRange)
    | none => false

/-- The first slot whose region neither has its number nor lists it as an
alias. The region of a slot is looked up unchecked: a slot naming a region
past the end of the table stops the check there. -/
def firstMismatch (t : EhTable) : Option VerifyError :=
  ((List.range t.slots.length).filterMap fun slot =>
    match t.slots[slot]?.join with
    | none => none
    | some id =>
      match t.region? id with
      | none => some (.ehSlotOutOfRange slot.toUInt32 id.val t.regions.length)
      | some r =>
        if r.number != slot.toUInt32 && !r.aka.contains slot.toUInt32 then
          some (.ehSlotMismatch slot.toUInt32 r.number)
        else none).head?

def verify (t : EhTable) : Except VerifyError Unit := do
  if let some i := t.firstDangling then throw (.ehDanglingLink i.toUInt32)
  if !t.inRange t.root then
    throw (.ehDanglingLink ((t.root.map RegionId.val).getD 0).toUInt32)
  if let some fault := t.firstMismatch then throw fault

end EhTable

end IrStream
