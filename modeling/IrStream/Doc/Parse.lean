import IrStream.Doc
import IrStream.Number.Scaled

/-!
Reading a document from JSON text, with the reader's own verdict on text
that is not JSON. The text is read byte by byte in its UTF-8 form. An error
names the line and the column where it was found: the column counts the
bytes of the line before that point, which is either just past the byte
that showed the error or, when the byte was only looked at, just past that
byte too, so both kinds of errors land one past the index examined
(`SyntaxError.at` and `SyntaxError.atPeek`).

Numbers keep the reader's two classes. An integer written without fraction
or exponent is an integer when it fits 64 unsigned bits or its negation fits
64 signed bits; every other number is a double, made by `Double.ofScaled?`
from the first digits whose value stays below `2^64` (later digits only
move the exponent), and `-0` is the double negative zero. An object keeps
one value per key, the last one given, ordered by key. Containers nest at
most 127 deep.
-/

namespace IrStream.Doc

/-- What is wrong with a text that is not a document. -/
inductive SyntaxFault where
  | eofWhileParsingList
  | eofWhileParsingObject
  | eofWhileParsingString
  | eofWhileParsingValue
  | expectedColon
  | expectedListCommaOrEnd
  | expectedObjectCommaOrEnd
  | expectedIdent
  | expectedValue
  | invalidEscape
  | invalidNumber
  | numberOutOfRange
  | controlCharacterInString
  | keyMustBeString
  | loneLeadingSurrogate
  | trailingComma
  | trailingCharacters
  | unexpectedEndOfHexEscape
  | recursionLimitExceeded
  deriving DecidableEq, Repr

def SyntaxFault.message : SyntaxFault → String
  | .eofWhileParsingList => "EOF while parsing a list"
  | .eofWhileParsingObject => "EOF while parsing an object"
  | .eofWhileParsingString => "EOF while parsing a string"
  | .eofWhileParsingValue => "EOF while parsing a value"
  | .expectedColon => "expected `:`"
  | .expectedListCommaOrEnd => "expected `,` or `]`"
  | .expectedObjectCommaOrEnd => "expected `,` or `\x7d`"
  | .expectedIdent => "expected ident"
  | .expectedValue => "expected value"
  | .invalidEscape => "invalid escape"
  | .invalidNumber => "invalid number"
  | .numberOutOfRange => "number out of range"
  | .controlCharacterInString => "control character (\\u0000-\\u001F) found while parsing a string"
  | .keyMustBeString => "key must be a string"
  | .loneLeadingSurrogate => "lone leading surrogate in hex escape"
  | .trailingComma => "trailing comma"
  | .trailingCharacters => "trailing characters"
  | .unexpectedEndOfHexEscape => "unexpected end of hex escape"
  | .recursionLimitExceeded => "recursion limit exceeded"

/-- A syntax error: its fault, and the line (from 1) and column where it was
found. -/
structure SyntaxError where
  fault : SyntaxFault
  line : Nat
  column : Nat
  deriving DecidableEq, Repr

def SyntaxError.message (e : SyntaxError) : String :=
  s!"{e.fault.message} at line {e.line} column {e.column}"

/-- The line and column of byte index `i`: one more than the line breaks
before it, and the bytes between the last of them and `i`. -/
def lineColumn (b : ByteArray) (i : Nat) : Nat × Nat :=
  (b.extract 0 i).toList.foldl
    (fun (acc : Nat × Nat) (c : UInt8) => if c == 10 then (acc.1 + 1, 0) else (acc.1, acc.2 + 1))
    (1, 0)

/-- An error found at index `i`, the bytes before it taken. -/
def SyntaxError.at (b : ByteArray) (fault : SyntaxFault) (i : Nat) : SyntaxError :=
  let (line, column) := lineColumn b i
  { fault, line, column }

/-- An error found by looking at the byte at index `i` without taking it. -/
def SyntaxError.atPeek (b : ByteArray) (fault : SyntaxFault) (i : Nat) : SyntaxError :=
  SyntaxError.at b fault (min b.size (i + 1))

/-- Parsing from a byte index: a value and the index after it, or an error. -/
abbrev Parsed (α : Type) := Except SyntaxError (α × Nat)

def isSpaceByte (c : UInt8) : Bool := c == 32 || c == 10 || c == 9 || c == 13

def isDigitByte (c : UInt8) : Bool := 48 ≤ c && c ≤ 57

/-- The index of the first byte from `i` on that is not white space. -/
def skipSpace (b : ByteArray) (i : Nat) : Nat :=
  if h : i < b.size then
    if isSpaceByte b[i] then skipSpace b (i + 1) else i
  else i
termination_by b.size - i

/-- The index of the first byte from `i` on that is not a digit. -/
def skipDigits (b : ByteArray) (i : Nat) : Nat :=
  if h : i < b.size then
    if isDigitByte b[i] then skipDigits b (i + 1) else i
  else i
termination_by b.size - i

/-- Take digits from `i` on into `acc` while `10 · acc + digit` stays at most
`limit`: the value reached and the index of the first digit not taken. -/
def takeDigits (b : ByteArray) (i : Nat) (acc limit : Nat) : Nat × Nat :=
  if h : i < b.size then
    let c := b[i]
    if isDigitByte c && acc * 10 + (c - 48).toNat ≤ limit then
      takeDigits b (i + 1) (acc * 10 + (c - 48).toNat) limit
    else (acc, i)
  else (acc, i)
termination_by b.size - i

/-- Whether index `i` holds a digit. -/
def digitAt (b : ByteArray) (i : Nat) : Bool :=
  match b[i]? with
  | some c => isDigitByte c
  | none => false

/-- Whether index `i` holds `e` or `E`. -/
def exponentMarkAt (b : ByteArray) (i : Nat) : Bool :=
  b[i]? == some 101 || b[i]? == some 69

/-- The largest significand: `2^64 - 1`. -/
def significandLimit : Nat := Nat.pow 2 64 - 1

/-- The largest exponent written after `e`: `2^31 - 1`. -/
def exponentLimit : Nat := Nat.pow 2 31 - 1

/-- An exponent clamped to 32 signed bits. -/
def clampExponent (e : Int) : Int :=
  max (-(Nat.pow 2 31 : Int)) (min e exponentLimit)

/-- The double `± significand · 10^e`, or the out-of-range error at `j`. -/
def scaled (b : ByteArray) (negative : Bool) (significand : Nat) (e : Int) (j : Nat) :
    Parsed Doc :=
  match Double.ofScaled? negative significand e with
  | some d => .ok (.real d, j)
  | none => .error (.at b .numberOutOfRange j)

/-- The exponent part of a number, from the index `i` of its `e`. -/
def exponentPart (b : ByteArray) (negative : Bool) (significand : Nat) (start : Int) (i : Nat) :
    Parsed Doc :=
  let (up, k) := match b[i + 1]? with
    | some 43 => (true, i + 2)
    | some 45 => (false, i + 2)
    | _ => (true, i + 1)
  match b[k]? with
  | none => .error (.at b .eofWhileParsingValue k)
  | some c =>
    if !isDigitByte c then .error (.at b .invalidNumber (k + 1))
    else
      let (e, m) := takeDigits b (k + 1) (c - 48).toNat exponentLimit
      if digitAt b m then
        -- The digit at `m` overflows the exponent; it has been taken.
        if significand != 0 && up then .error (.at b .numberOutOfRange (m + 1))
        else .ok (.real (.finite negative 0 0), skipDigits b (m + 1))
      else
        let e : Int := if up then start + e else start - e
        scaled b negative significand (clampExponent e) m

/-- The rest of a number once its significand is full: further digits are
skipped, then an exponent part may follow. -/
def afterFullSignificand (b : ByteArray) (negative : Bool) (significand : Nat) (e : Int)
    (i : Nat) : Parsed Doc :=
  let j := skipDigits b i
  if exponentMarkAt b j then exponentPart b negative significand e j
  else scaled b negative significand e j

/-- The fraction of a number, from the index `i` of its point. -/
def fraction (b : ByteArray) (negative : Bool) (significand : Nat) (before : Int) (i : Nat) :
    Parsed Doc :=
  let (m, j) := takeDigits b (i + 1) significand significandLimit
  let e : Int := before - (j - (i + 1) : Nat)
  if digitAt b j then afterFullSignificand b negative m e j
  else if j == i + 1 then
    match b[j]? with
    | some _ => .error (.atPeek b .invalidNumber j)
    | none => .error (.atPeek b .eofWhileParsingValue j)
  else if exponentMarkAt b j then exponentPart b negative m e j
  else scaled b negative m e j

/-- A number whose integer digits have been read as `significand`, up to
index `i`: its fraction or exponent, or else the integer itself. -/
def afterInteger (b : ByteArray) (negative : Bool) (significand : Nat) (i : Nat) :
    Parsed Doc :=
  if b[i]? == some 46 then fraction b negative significand 0 i
  else if exponentMarkAt b i then exponentPart b negative significand 0 i
  else if !negative then .ok (.int significand, i)
  else if significand == 0 then .ok (.real (.finite true 0 0), i)
  else if significand ≤ Nat.pow 2 63 then .ok (.int (-(significand : Int)), i)
  else .ok (.real (Double.ofNat significand).neg, i)

/-- An integer too long for its significand: the digits after the full
significand count as powers of ten. -/
def longInteger (b : ByteArray) (negative : Bool) (significand : Nat) (i : Nat) : Parsed Doc :=
  let j := skipDigits b i
  let e : Int := (j - i : Nat)
  if b[j]? == some 46 then fraction b negative significand e j
  else if exponentMarkAt b j then exponentPart b negative significand e j
  else scaled b negative significand e j

/-- A number from index `i`, just after its minus sign if it has one. -/
def number (b : ByteArray) (negative : Bool) (i : Nat) : Parsed Doc :=
  match b[i]? with
  | none => .error (.at b .eofWhileParsingValue i)
  | some c =>
    if c == 48 then
      if digitAt b (i + 1) then .error (.atPeek b .invalidNumber (i + 1))
      else afterInteger b negative 0 (i + 1)
    else if isDigitByte c then
      let (m, j) := takeDigits b (i + 1) (c - 48).toNat significandLimit
      if digitAt b j then longInteger b negative m j
      else afterInteger b negative m j
    else .error (.at b .invalidNumber (i + 1))

/-- The byte an escape letter stands for, for the one-letter escapes. -/
def simpleEscape : UInt8 → Option UInt8
  | 34 => some 34
  | 92 => some 92
  | 47 => some 47
  | 98 => some 8
  | 102 => some 12
  | 110 => some 10
  | 114 => some 13
  | 116 => some 9
  | _ => none

/-- The number four hexadecimal digits from index `i` name. -/
def hexQuad (b : ByteArray) (i : Nat) : Option Nat :=
  (List.range 4).foldlM (fun acc k => do
    let c ← b[i + k]?
    let d ← if 48 ≤ c && c ≤ 57 then some (c - 48).toNat
      else if 97 ≤ c && c ≤ 102 then some (c - 87).toNat
      else if 65 ≤ c && c ≤ 70 then some (c - 55).toNat
      else none
    pure (acc * 16 + d)) 0

/-- The UTF-8 bytes of a code point. -/
def utf8Of (n : Nat) : ByteArray := (Char.ofNat n).toString.toUTF8

/-- The characters of a string from index `i`, just after its opening quote,
collected in `acc`: the string and the index after its closing quote. -/
def scanString (b : ByteArray) (i : Nat) (acc : ByteArray) : Parsed String :=
  if h : i < b.size then
    let c := b[i]
    if c == 34 then .ok ((String.fromUTF8? acc).getD "", i + 1)
    else if c == 92 then
      match b[i + 1]? with
      | none => .error (.at b .eofWhileParsingString (i + 1))
      | some e =>
        match simpleEscape e with
        | some out => scanString b (i + 2) (acc.push out)
        | none =>
          if e != 117 then .error (.at b .invalidEscape (i + 2))
          else if b.size < i + 6 then .error (.at b .eofWhileParsingString b.size)
          else match hexQuad b (i + 2) with
            | none => .error (.at b .invalidEscape (i + 6))
            | some n =>
              if 0xDC00 ≤ n && n ≤ 0xDFFF then .error (.at b .loneLeadingSurrogate (i + 6))
              else if n < 0xD800 || 0xDBFF < n then scanString b (i + 6) (acc ++ utf8Of n)
              else
                -- A leading surrogate: a trailing one must follow as `\u` and four digits.
                match b[i + 6]? with
                | none => .error (.at b .eofWhileParsingString (i + 6))
                | some 92 =>
                  match b[i + 7]? with
                  | none => .error (.at b .eofWhileParsingString (i + 7))
                  | some 117 =>
                    if b.size < i + 12 then .error (.at b .eofWhileParsingString b.size)
                    else match hexQuad b (i + 8) with
                      | none => .error (.at b .invalidEscape (i + 12))
                      | some n₂ =>
                        if 0xDC00 ≤ n₂ && n₂ ≤ 0xDFFF then
                          let code := (n - 0xD800) * 0x400 + (n₂ - 0xDC00) + 0x10000
                          scanString b (i + 12) (acc ++ utf8Of code)
                        else .error (.at b .loneLeadingSurrogate (i + 12))
                  | some _ => .error (.at b .unexpectedEndOfHexEscape (i + 8))
                | some _ => .error (.at b .unexpectedEndOfHexEscape (i + 7))
    else if c < 32 then .error (.at b .controlCharacterInString (i + 1))
    else scanString b (i + 1) (acc.push c)
  else .error (.at b .eofWhileParsingString b.size)
termination_by b.size - i

/-- The index after the bytes of `word` from `i`, which follow a literal's
first letter. -/
def literalRest (b : ByteArray) (i : Nat) : List UInt8 → Except SyntaxError Nat
  | [] => .ok i
  | w :: rest =>
    match b[i]? with
    | none => .error (.at b .eofWhileParsingValue i)
    | some c => if c == w then literalRest b (i + 1) rest else .error (.at b .expectedIdent (i + 1))

/-- An object's fields with the value of `key` set, kept in key order. -/
def insertField (key : String) (v : Doc) : List (String × Doc) → List (String × Doc)
  | [] => [(key, v)]
  | (k, w) :: rest =>
    if key < k then (key, v) :: (k, w) :: rest
    else if key == k then (key, v) :: rest
    else (k, w) :: insertField key v rest

/-- The deepest nesting of containers: a container opened at this depth is
refused. -/
def nestingLimit : Nat := 128

mutual

/-- A value from index `i` inside `depth` open containers. `fuel` bounds the
recursion: every two levels of it take at least one byte. -/
def parseValue (b : ByteArray) (fuel depth i : Nat) : Parsed Doc :=
  match fuel with
  | 0 => .error (.atPeek b .eofWhileParsingValue i)
  | fuel + 1 =>
    let i := skipSpace b i
    match b[i]? with
    | none => .error (.atPeek b .eofWhileParsingValue i)
    | some c =>
      if c == 110 then (literalRest b (i + 1) [117, 108, 108]).map fun j => (.null, j)
      else if c == 116 then (literalRest b (i + 1) [114, 117, 101]).map fun j => (.bool true, j)
      else if c == 102 then
        (literalRest b (i + 1) [97, 108, 115, 101]).map fun j => (.bool false, j)
      else if c == 45 then number b true (i + 1)
      else if isDigitByte c then number b false i
      else if c == 34 then (scanString b (i + 1) .empty).map fun (s, j) => (.str s, j)
      else if c == 91 then
        if depth + 1 == nestingLimit then .error (.atPeek b .recursionLimitExceeded i)
        else parseItems b fuel (depth + 1) (i + 1) true []
      else if c == 123 then
        if depth + 1 == nestingLimit then .error (.atPeek b .recursionLimitExceeded i)
        else parseMembers b fuel (depth + 1) (i + 1) true []
      else .error (.atPeek b .expectedValue i)

/-- The rest of an array from index `i`, its items so far in `acc`, last first. -/
def parseItems (b : ByteArray) (fuel depth i : Nat) (first : Bool) (acc : List Doc) :
    Parsed Doc :=
  match fuel with
  | 0 => .error (.atPeek b .eofWhileParsingList i)
  | fuel + 1 =>
    let i := skipSpace b i
    match b[i]? with
    | none => .error (.atPeek b .eofWhileParsingList i)
    | some c =>
      if c == 93 then .ok (.arr acc.reverse, i + 1)
      else if first then
        match parseValue b fuel depth i with
        | .ok (v, j) => parseItems b fuel depth j false (v :: acc)
        | .error e => .error e
      else if c == 44 then
        let k := skipSpace b (i + 1)
        match b[k]? with
        | none => .error (.atPeek b .eofWhileParsingValue k)
        | some 93 => .error (.atPeek b .trailingComma k)
        | some _ =>
          match parseValue b fuel depth k with
          | .ok (v, j) => parseItems b fuel depth j false (v :: acc)
          | .error e => .error e
      else .error (.atPeek b .expectedListCommaOrEnd i)

/-- The rest of an object from index `i`, its fields so far in `acc`. -/
def parseMembers (b : ByteArray) (fuel depth i : Nat) (first : Bool)
    (acc : List (String × Doc)) : Parsed Doc :=
  match fuel with
  | 0 => .error (.atPeek b .eofWhileParsingObject i)
  | fuel + 1 =>
    let i := skipSpace b i
    match b[i]? with
    | none => .error (.atPeek b .eofWhileParsingObject i)
    | some c =>
      if c == 125 then .ok (.obj acc, i + 1)
      else if !first && c != 44 then .error (.atPeek b .expectedObjectCommaOrEnd i)
      else
        let k := if first then i else skipSpace b (i + 1)
        match b[k]? with
        | none => .error (.atPeek b .eofWhileParsingValue k)
        | some 34 =>
          match scanString b (k + 1) .empty with
          | .error e => .error e
          | .ok (key, j) =>
            let j := skipSpace b j
            match b[j]? with
            | none => .error (.atPeek b .eofWhileParsingObject j)
            | some 58 =>
              match parseValue b fuel depth (j + 1) with
              | .ok (v, m) => parseMembers b fuel depth m false (insertField key v acc)
              | .error e => .error e
            | some _ => .error (.atPeek b .expectedColon j)
        | some 125 => .error (.atPeek b .trailingComma k)
        | some _ => .error (.atPeek b .keyMustBeString k)

end

/-- The document a JSON text holds, with nothing but white space after it. -/
def parse (text : String) : Except SyntaxError Doc := do
  let b := text.toUTF8
  let (v, i) ← parseValue b (2 * b.size + 4) 0 0
  let j := skipSpace b i
  if j < b.size then .error (.atPeek b .trailingCharacters j) else pure v

end IrStream.Doc
