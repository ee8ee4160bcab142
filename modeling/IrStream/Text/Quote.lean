import IrStream.Text.Printable
import IrStream.Text.GraphemeExtend

/-!
Quoted text in error messages: a string is shown between double quotes with
its quote, backslash, invisible and combining characters escaped, so that a
message never hides where a malformed token starts or ends, nor what it
holds.
-/

namespace IrStream.Text

/-- Lower-case hexadecimal digits of a number, most significant first. -/
def hexDigits (n : Nat) : String :=
  String.ofList (Nat.toDigits 16 n)

/-- The escaped form of one character inside a quoted string: the quote, the
backslash, tab, line feed and carriage return by a backslash and a sign, the
null character as a backslash and a zero, a character that extends the one
before it or is not printable by its code point in hexadecimal, anything else
as itself. -/
def escapeChar (c : Char) : String :=
  if c == '"' then "\\\""
  else if c == '\\' then "\\\\"
  else if c == '\n' then "\\n"
  else if c == '\r' then "\\r"
  else if c == '\t' then "\\t"
  else if c == '\x00' then "\\0"
  else if isGraphemeExtend c || !isPrintable c then "\\u\x7b" ++ hexDigits c.toNat ++ "\x7d"
  else c.toString

/-- A string between double quotes with every character escaped as
`escapeChar` says. -/
def quote (s : String) : String :=
  "\"" ++ String.join (s.toList.map escapeChar) ++ "\""

/-- A list of strings in brackets, each quoted, separated by a comma and a
space. -/
def quoteList (items : List String) : String :=
  "[" ++ ", ".intercalate (items.map quote) ++ "]"

end IrStream.Text
