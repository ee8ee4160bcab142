import IrStream.Text.Alphanumeric

/-!
Messages without arena numbers. Node numbers (`n12`), call-graph node numbers
(`cg3`) and debug-printed node numbers (`NodeId(12`) depend on allocation
order, so reports replace their digits by `#`. A number is replaced only as a
whole word: it starts the text or follows a character that is neither
alphanumeric (in the Unicode sense) nor `_`, and it ends the same way. The
digits themselves are the ASCII ones.
-/

namespace IrStream.Text

/-- Characters that continue a word. -/
def isWordChar (c : Char) : Bool := isAlphanumeric c || c == '_'

/-- The text cut into maximal runs of word characters, every other character
standing alone. -/
def runs (cs : List Char) : List (List Char) :=
  cs.foldr (fun c acc =>
    if isWordChar c then
      match acc with
      | (d :: w) :: ws => if isWordChar d then (c :: d :: w) :: ws else [c] :: acc
      | _ => [c] :: acc
    else [c] :: acc) []

def allDigits (w : List Char) : Bool := !w.isEmpty && w.all Char.isDigit

/-- A word that is a numbered node or call-graph node name, with its digits hidden. -/
def hideNumber? : List Char → Option (List Char)
  | 'n' :: ds => if allDigits ds then some ['n', '#'] else none
  | 'c' :: 'g' :: ds => if allDigits ds then some ['c', 'g', '#'] else none
  | _ => none

/-- Hide the numbers of a run list. -/
def hideRuns : List (List Char) → List (List Char)
  | [] => []
  | w :: p :: ds :: rest =>
    if w == "NodeId".toList && p == ['('] && allDigits ds then w :: p :: ['#'] :: hideRuns rest
    else (hideNumber? w).getD w :: hideRuns (p :: ds :: rest)
  | w :: rest => (hideNumber? w).getD w :: hideRuns rest

/-- The message with every whole-word arena number replaced by `#`. -/
def scrub (s : String) : String := String.ofList (hideRuns (runs s.toList)).flatten

end IrStream.Text
