import IrStream.Error

/-!
Real constants as exact hexadecimal text. A double's bits are split into sign,
biased exponent and 52-bit mantissa; the text names them so that reading it
back reproduces every bit, signed zeros, subnormals and NaN payloads included:
`inf`, `nan:0x<payload>`, `0x0p+0`, `0x0.<13 digits>p-1022` for subnormals and
`0x1.<digits>p<exponent>` with trailing zero digits dropped otherwise. A
leading `-` marks the sign bit.
-/

namespace IrStream.HexReal

def mantissaBits : Nat := 52
def expMask : Nat := 0x7ff
def expBias : Int := 1023
/-- Hex digits of a full mantissa. -/
def mantissaDigits : Nat := 13

/-- The sign bit of a bit pattern. -/
def signOf (bits : UInt64) : Bool := bits.toNat / Nat.pow 2 63 == 1
/-- The biased exponent field. -/
def exponentOf (bits : UInt64) : Nat := bits.toNat / Nat.pow 2 mantissaBits % Nat.pow 2 11
/-- The mantissa field. -/
def mantissaOf (bits : UInt64) : Nat := bits.toNat % Nat.pow 2 mantissaBits

/-- Lower-case hex digits of `n`, padded with zeros on the left to `width`. -/
def hexPadded (width n : Nat) : List Char :=
  let ds := Nat.toDigits 16 n
  List.replicate (width - ds.length) '0' ++ ds

/-- The list without its trailing zero digits. -/
def dropTrailingZeros (cs : List Char) : List Char :=
  (cs.reverse.dropWhile (· == '0')).reverse

/-- An exponent with its sign always written. -/
def signedExponent (e : Int) : String :=
  if 0 ≤ e then "+" ++ toString e else toString e

/-- The text of a bit pattern. -/
def format (bits : UInt64) : String :=
  let sign := if signOf bits then "-" else ""
  let e := exponentOf bits
  let m := mantissaOf bits
  let body :=
    if e == expMask then
      if m == 0 then "inf" else "nan:0x" ++ String.ofList (Nat.toDigits 16 m)
    else if e == 0 then
      if m == 0 then "0x0p+0"
      else "0x0." ++ String.ofList (hexPadded mantissaDigits m) ++ "p-1022"
    else
      let digits := dropTrailingZeros (hexPadded mantissaDigits m)
      let exp := signedExponent ((e : Int) - expBias)
      if digits.isEmpty then "0x1p" ++ exp else "0x1." ++ String.ofList digits ++ "p" ++ exp
  sign ++ body

/-- The value of one hexadecimal digit of either case. -/
def hexValue? (c : Char) : Option Nat :=
  if '0' ≤ c && c ≤ '9' then some (c.toNat - '0'.toNat)
  else if 'a' ≤ c && c ≤ 'f' then some (c.toNat - 'a'.toNat + 10)
  else if 'A' ≤ c && c ≤ 'F' then some (c.toNat - 'A'.toNat + 10)
  else none

/-- The value of a non-empty run of hexadecimal digits. -/
def hexNumber? (cs : List Char) : Option Nat :=
  if cs.isEmpty then none
  else cs.foldlM (fun acc c => (hexValue? c).map (acc * 16 + ·)) 0

/-- The value of a non-empty run of decimal digits. -/
def decimalNumber? (cs : List Char) : Option Nat :=
  if cs.isEmpty then none
  else cs.foldlM (fun acc c => if c.isDigit then some (acc * 10 + (c.toNat - '0'.toNat)) else none) 0

/-- A 64-bit unsigned hexadecimal number, with an optional `+` sign. -/
def unsignedHex? (cs : List Char) : Option Nat :=
  let digits := match cs with
    | '+' :: rest => rest
    | _ => cs
  (hexNumber? digits).filter (· < Nat.pow 2 64)

/-- A 64-bit signed decimal number, with an optional sign. -/
def signedDecimal? (cs : List Char) : Option Int :=
  let parsed : Option Int := match cs with
    | '+' :: rest => (decimalNumber? rest).map Int.ofNat
    | '-' :: rest => (decimalNumber? rest).map (- Int.ofNat ·)
    | _ => (decimalNumber? cs).map Int.ofNat
  parsed.filter (fun v => -Int.pow 2 63 ≤ v && v < Int.pow 2 63)

/-- Mantissa digits, one to thirteen of them, aligned to the top of the 52 bits. -/
def mantissa? (digits : List Char) : Option Nat :=
  if digits.isEmpty || mantissaDigits < digits.length then none
  else (hexNumber? digits).map (· * Nat.pow 16 (mantissaDigits - digits.length))

/-- `cs` with `p` removed from its front, if it starts with it. -/
def dropPrefix? (p cs : List Char) : Option (List Char) :=
  if p.isPrefixOf cs then some (cs.drop p.length) else none

/-- `cs` with `s` removed from its end, if it ends with it. -/
def dropSuffix? (s cs : List Char) : Option (List Char) :=
  if s.isSuffixOf cs then some (cs.take (cs.length - s.length)) else none

/-- The part before the first `p` and the part after it. -/
def splitAtP? (cs : List Char) : Option (List Char × List Char) :=
  if cs.contains 'p' then some (cs.takeWhile (· ≠ 'p'), (cs.dropWhile (· ≠ 'p')).drop 1)
  else none

/-- The magnitude bits named by a text without its sign. -/
def magnitude? (body : List Char) : Option Nat :=
  if body == "inf".toList then some (expMask * Nat.pow 2 mantissaBits)
  else match dropPrefix? "nan:0x".toList body with
  | some payload =>
    (unsignedHex? payload).bind fun p =>
      if p == 0 || Nat.pow 2 mantissaBits ≤ p then none else some (expMask * Nat.pow 2 mantissaBits + p)
  | none =>
    if body == "0x0p+0".toList then some 0
    else match (dropPrefix? "0x0.".toList body).bind (dropSuffix? "p-1022".toList) with
    | some digits => mantissa? digits
    | none =>
      match dropPrefix? "0x1".toList body with
      | none => none
      | some rest =>
        (splitAtP? rest).bind fun (digits, exp) =>
          let m := match digits with
            | [] => some 0
            | '.' :: ds => mantissa? ds
            | _ => none
          m.bind fun m => (signedDecimal? exp).bind fun e =>
            if 1 - expBias ≤ e && e ≤ expBias then
              some ((e + expBias).toNat * Nat.pow 2 mantissaBits + m)
            else none

/-- The bit pattern a text names, if it is well formed. -/
def parse? (text : String) : Option UInt64 :=
  let (sign, body) := match text.toList with
    | '-' :: rest => (Nat.pow 2 63, rest)
    | cs => (0, cs)
  (magnitude? body).map fun m => (sign + m).toUInt64

/-- The bit pattern a text names, or a malformed-constant error. -/
def parse (text : String) : Except StreamError UInt64 :=
  match parse? text with
  | some bits => .ok bits
  | none => .error (.badReal text)

end IrStream.HexReal
