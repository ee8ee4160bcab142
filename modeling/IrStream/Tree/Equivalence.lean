import Std.Data.HashMap
import IrStream.Tree.Arena
import IrStream.Text.Quote

/-!
Structural equivalence of trees in two arenas. Two trees are equivalent when
a one-to-one pairing of their nodes matches codes, flags, positions, payload
scalars and shapes, and pairs children with children. One `Equivalence`
accumulates the pairing over several checks, so that sharing must agree
across them; the first disagreement is kept as a message and makes every
later check fail.
-/

namespace IrStream

/-- The shown form of an optional node id. -/
def NodeId.debug : Option NodeId → String
  | some id => s!"Some(NodeId({id.val}))"
  | none => "None"

/-- The shown form of an optional position. -/
def Locus.debug : Option Locus → String
  | some l => s!"Some(Locus \x7b file: {Text.quote l.file}, line: {l.line}, column: {l.column} \x7d)"
  | none => "None"

/-- A pairing of left nodes with right nodes, and the first mismatch met. -/
structure Equivalence where
  forward : Std.HashMap NodeId NodeId := {}
  backward : Std.HashMap NodeId NodeId := {}
  mismatch : Option String := none
  deriving Inhabited

namespace Equivalence

/-- The result of a failed check. -/
def fail (e : Equivalence) (why : String) : Bool × Equivalence := (false, { e with mismatch := some why })

/-- Work through the pairs still to compare, last pushed first. -/
def drain (left right : Arena) : Nat → List (Option NodeId × Option NodeId) → Equivalence →
    Bool × Equivalence
  | _, [], e => (true, e)
  | 0, _ :: _, e => (true, e)
  | fuel + 1, (lo, ro) :: work, e =>
    match lo, ro with
    | none, none => drain left right fuel work e
    | some l, some r =>
      match e.forward.get? l, e.backward.get? r with
      | some mapped, _ =>
        if mapped == r then drain left right fuel work e
        else e.fail s!"{l} maps to {mapped}, also met as {r}"
      | none, some back => e.fail s!"{r} already paired with {back}, met with {l}"
      | none, none =>
        let e := { e with forward := e.forward.insert l r, backward := e.backward.insert r l }
        let ln := left.node l
        let rn := right.node r
        if ln.code != rn.code then e.fail s!"{l}: {ln.code} vs {rn.code}"
        else if ln.flags != rn.flags then e.fail s!"{l} ({ln.code}): flags differ"
        else if ln.locus != rn.locus then
          e.fail s!"{l} ({ln.code}): locus {Locus.debug ln.locus} vs {Locus.debug rn.locus}"
        else if !ln.data.sameShape rn.data then e.fail s!"{l} ({ln.code}): payload differs"
        else drain left right fuel (ln.children.zip rn.children ++ work) e
    | lo, ro => e.fail s!"presence differs: {NodeId.debug lo} vs {NodeId.debug ro}"

/-- Every pair is pushed once per newly paired left node's child, so the
work list never yields more pairs than the left arena has child slots, plus one. -/
def workBound (left : Arena) : Nat :=
  left.nodes.foldl (fun acc n => acc + n.children.length) 2

/-- Check that `l` and `r` are equivalent under the pairing so far, extending it. -/
def check (left right : Arena) (e : Equivalence) (l r : Option NodeId) : Bool × Equivalence :=
  if e.mismatch.isSome then (false, e)
  else drain left right (workBound left) [(l, r)] e

end Equivalence

end IrStream
