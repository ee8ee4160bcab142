import IrStream.Number.Double

/-!
Documents: the tree-shaped values that requests and answers are made of.
A document is null, a boolean, an integer, a double, a string, an array or
an object whose keys keep their order. Dumps leave out keys whose value says
nothing (`Doc.isBlank`).
-/

namespace IrStream

inductive Doc where
  | null
  | bool (b : Bool)
  | int (i : Int)
  /-- A number read as a double: one with a fraction or an exponent, or an
  integer outside the 64-bit ranges. -/
  | real (value : Double)
  | str (s : String)
  | arr (items : List Doc)
  | obj (fields : List (String × Doc))
  deriving Inhabited, Repr

namespace Doc

/-- The value under `key` of an object; nothing for other documents. -/
def get? (d : Doc) (key : String) : Option Doc :=
  match d with
  | obj fields => fields.lookup key
  | _ => none

/-- The value under `key`, null when absent. -/
def field (d : Doc) (key : String) : Doc := (d.get? key).getD null

/-- Null, false, the empty string, array or object: what a dump omits. -/
def isBlank : Doc → Bool
  | null => true
  | bool b => !b
  | str s => s.isEmpty
  | arr items => items.isEmpty
  | obj fields => fields.isEmpty
  | int _ => false
  | real _ => false

/-- An object without its blank values. -/
def dense (fields : List (String × Doc)) : Doc :=
  obj (fields.filter fun f => !f.2.isBlank)

def nat (n : Nat) : Doc := int n

/-- An optional value, null when absent. -/
def opt (f : α → Doc) : Option α → Doc
  | some a => f a
  | none => null

end Doc

end IrStream
