import IrStream.Text.Lines

/-!
Bytes as lowercase hexadecimal text, two digits a byte. Reading accepts
either case, ignores white space (in the Unicode sense) between digits, and
reads the text two UTF-8 bytes at a time as a number, so a plus sign may
stand for a leading zero digit (`+f` is `0f`). Two bytes that are one
character are no number; two bytes that end inside a character cannot be
read at all.
-/

namespace IrStream.Hex

def digit (n : Nat) : Char :=
  if n < 10 then Char.ofNat ('0'.toNat + n) else Char.ofNat ('a'.toNat + n - 10)

/-- Two lowercase digits per byte. -/
def encode (bytes : ByteArray) : String :=
  String.ofList (bytes.toList.flatMap fun b => [digit (b.toNat / 16), digit (b.toNat % 16)])

def digitValue? (c : Char) : Option Nat :=
  if '0' ≤ c && c ≤ '9' then some (c.toNat - '0'.toNat)
  else if 'a' ≤ c && c ≤ 'f' then some (c.toNat - 'a'.toNat + 10)
  else if 'A' ≤ c && c ≤ 'F' then some (c.toNat - 'A'.toNat + 10)
  else none

/-- Why a text names no bytes. -/
inductive HexError where
  /-- Without its white space the text has an odd number of bytes. -/
  | oddLength (size : Nat)
  /-- Some pair of bytes is not a byte's digits. -/
  | badPair
  /-- Some pair of bytes ends inside a character. -/
  | splitCharacter
  deriving DecidableEq, Repr

def HexError.message : HexError → String
  | .oddLength size => s!"odd hex length {size}"
  | .badPair => "bad hex"
  | .splitCharacter => "hex pair splits a character"

/-- The byte a pair of characters names: two digits, or a plus sign and one
digit (a pair is read as a signless hexadecimal number). -/
def pairValue? : Char → Char → Option UInt8
  | '+', b => (digitValue? b).map Nat.toUInt8
  | a, b => do
    let hi ← digitValue? a
    let lo ← digitValue? b
    pure (hi * 16 + lo).toUInt8

/-- Bytes from consecutive pairs of bytes of the characters, in order: two
one-byte characters name a byte by `pairValue?`, a two-byte character is a
pair that names none, and a pair that ends inside a longer character splits
it. -/
def pairs : List Char → Except HexError (List UInt8)
  | [] => .ok []
  | a :: rest =>
    if a.utf8Size == 2 then .error .badPair
    else if a.utf8Size != 1 then .error .splitCharacter
    else match rest with
      | [] => .error .badPair
      | b :: rest =>
        if b.utf8Size != 1 then .error .splitCharacter
        else match pairValue? a b with
          | some byte => (pairs rest).map (byte :: ·)
          | none => .error .badPair

/-- The bytes a hex text names, white space ignored. -/
def decode (s : String) : Except HexError ByteArray :=
  let cs := s.toList.filter (!Text.isSpace ·)
  let size := (String.ofList cs).utf8ByteSize
  if size % 2 == 1 then .error (.oddLength size)
  else (pairs cs).map fun l => ByteArray.mk l.toArray

end IrStream.Hex
