/-!
Lines and words of plain text. A line ends at a line feed, and a carriage
return just before it belongs to the ending; a final line needs no ending.
Words are separated by runs of white space, where white space is the Unicode
`White_Space` property.
-/

namespace IrStream.Text

/-- The characters with the Unicode `White_Space` property. -/
def isSpace (c : Char) : Bool :=
  let n := c.toNat
  (0x09 ≤ n && n ≤ 0x0d) || n == 0x20 || n == 0x85 || n == 0xa0 || n == 0x1680 ||
    (0x2000 ≤ n && n ≤ 0x200a) || n == 0x2028 || n == 0x2029 || n == 0x202f || n == 0x205f ||
    n == 0x3000

/-- A line that ended at a line feed, without the carriage return before it. -/
def dropReturn (line : List Char) : List Char :=
  if line.getLast? = some '\r' then line.dropLast else line

/-- The lines of `s`, without their endings. Every piece before a line feed is
a line; the piece after the last one is a line unless it is empty, and keeps
a carriage return it ends in, since no line feed follows it. -/
def lines (s : String) : List String :=
  let pieces := s.toList.splitOn '\n'
  let ended := pieces.dropLast.map dropReturn
  let last := match pieces.getLast? with
    | some (c :: cs) => [c :: cs]
    | _ => []
  (ended ++ last).map String.ofList

/-- `s` without white space at either end. -/
def trimSpace (s : String) : String :=
  String.ofList ((s.toList.dropWhile isSpace).reverse.dropWhile isSpace).reverse

/-- The words of `s`: the pieces between white space characters, less the
empty ones. -/
def words (s : String) : List String :=
  ((s.toList.splitOnP isSpace).filter fun w => !w.isEmpty).map String.ofList

end IrStream.Text
