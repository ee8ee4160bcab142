/-!
Sets of characters given as tables of code-point ranges, the form in which
the Unicode character database states a property. Tables here follow
Unicode 17.0.
-/

namespace IrStream.Text

/-- A set of code points as ranges, each inclusive at both ends, in
ascending order and disjoint. -/
structure RangeTable where
  ranges : Array (Nat × Nat)

namespace RangeTable

/-- Whether the code point `n` is in the table: the first range that does not
end below `n` has to start at or below it, because the ranges ascend. -/
def contains (t : RangeTable) (n : Nat) : Bool :=
  match t.ranges.find? (fun r => n ≤ r.2) with
  | some r => r.1 ≤ n
  | none => false

/-- Whether a character is in the table. -/
def containsChar (t : RangeTable) (c : Char) : Bool := t.contains c.toNat

end RangeTable

end IrStream.Text
