import IrStream.Doc
import IrStream.Service.Reply
import IrStream.Text.Hex
import IrStream.Flags.Packing
import IrStream.Number.Shortest

/-!
Reading requests. Integers come as numbers or as strings holding a decimal
or `0x` hexadecimal number, optionally negative; a missing integer is 0, a
missing boolean false, a missing list empty. A number read as a double is no
integer. A malformed request is refused with a bad-input message.
-/

namespace IrStream.Service

/-- Decoding a request; the error is why it is refused. -/
abbrev Decode := Except Refusal

/-- A decoding whose failure is a finished answer, such as an error object. -/
abbrev Answering := ExceptT Doc Decode

def settled (r : Except Doc α) : Answering α :=
  match r with
  | .ok a => pure a
  | .error d => throw d

/-- Whether an integer fits in 128 signed bits. -/
def fitsSigned128 (i : Int) : Bool :=
  -(Nat.pow 2 127 : Int) ≤ i && i < (Nat.pow 2 127 : Int)

/-- The value of a digit of base 10 or 16 (either case). -/
def digitIn (radix : Nat) (c : Char) : Option Nat :=
  if radix == 16 then Hex.digitValue? c
  else if c.isDigit then some (c.toNat - '0'.toNat) else none

/-- Digits of `radix` after one optional sign, within 128 signed bits. -/
def parseSigned? (radix : Nat) (cs : List Char) : Option Int :=
  let (neg, ds) := match cs with
    | '+' :: rest => (false, rest)
    | '-' :: rest => (true, rest)
    | cs => (false, cs)
  if ds.isEmpty then none
  else
    (ds.foldlM (fun acc c => (digitIn radix c).map (acc * radix + ·)) 0).bind fun m =>
      let v : Int := if neg then -(m : Int) else m
      if fitsSigned128 v then some v else none

/-- The negation of a 128-bit signed integer, the least one being its own
negation as in two's complement. -/
def wrapNegate (v : Int) : Int :=
  if v == -(Nat.pow 2 127 : Int) then v else -v

/-- An integer written as text: a leading `-` negates what follows, which is
`0x` and hexadecimal digits or decimal digits, each after one optional sign
and within 128 signed bits. -/
def parseInt? (s : String) : Option Int :=
  let (neg, body) := match s.toList with
    | '-' :: rest => (true, rest)
    | cs => (false, cs)
  let magnitude := match body with
    | '0' :: 'x' :: ds => parseSigned? 16 ds
    | ds => parseSigned? 10 ds
  magnitude.map fun v => if neg then wrapNegate v else v

/-- Whether a number is an integer of the signed or unsigned 64-bit range. -/
def isWordInteger (i : Int) : Bool :=
  -(Nat.pow 2 63 : Int) ≤ i && i < (Nat.pow 2 64 : Int)

/-- A number as the text of the double it reads as, when it has no integer
reading. -/
def numberText (d : Doc) : Option String :=
  match d with
  | .int i => if isWordInteger i then none else some (Double.ofInt i).text
  | .real x => some x.text
  | _ => none

/-- A string as a JSON string literal: the quote, the backslash and control
characters escaped, everything else as it is. -/
def jsonString (s : String) : String :=
  let escape (c : Char) : String :=
    if c == '"' then "\\\"" else if c == '\\' then "\\\\"
    else if c == '\n' then "\\n" else if c == '\r' then "\\r" else if c == '\t' then "\\t"
    else if c == '\x08' then "\\b" else if c == '\x0c' then "\\f"
    else if c.toNat < 0x20 then
      let h := Hex.encode (ByteArray.mk #[c.toNat.toUInt8])
      "\\u00" ++ h
    else c.toString
  "\"" ++ String.join (s.toList.map escape) ++ "\""

mutual

/-- A document as compact JSON text, the way messages quote a value. -/
def render : Doc → String
  | .null => "null"
  | .bool b => toString b
  | .int i => if isWordInteger i then toString i else (Double.ofInt i).text
  | .real x => x.text
  | .str s => jsonString s
  | .arr items => "[" ++ renderItems items ++ "]"
  | .obj fields => "\x7b" ++ renderFields fields ++ "\x7d"

def renderItems : List Doc → String
  | [] => ""
  | [d] => render d
  | d :: rest => render d ++ "," ++ renderItems rest

def renderFields : List (String × Doc) → String
  | [] => ""
  | [(k, v)] => jsonString k ++ ":" ++ render v
  | (k, v) :: rest => jsonString k ++ ":" ++ render v ++ "," ++ renderFields rest

end

/-- An integer; null and anything but a number or an integer text are
refused. -/
def int (d : Doc) : Decode Int :=
  match d with
  | .int i => if isWordInteger i then pure i else refuse s!"expected an integer, got {render d}"
  | .str s => match parseInt? s with
    | some i => pure i
    | none => refuse s!"expected an integer, got {render d}"
  | _ => refuse s!"expected an integer, got {render d}"

/-- An integer field of an object; absent or null it is 0. -/
def intAt (d : Doc) (key : String) : Decode Int :=
  match d.field key with
  | .null => pure 0
  | v => int v

def nat (d : Doc) : Decode Nat := do
  let i ← int d
  if i < 0 then refuse s!"expected a non-negative integer, got {i}" else pure i.toNat

/-- A natural-number field of an object; absent or null it is 0. -/
def natAt (d : Doc) (key : String) : Decode Nat :=
  match d.field key with
  | .null => pure 0
  | v => nat v

/-- An integer of `bits` bits, signed or not, or the message `what`. -/
def ranged (signed : Bool) (bits : Nat) (what : Int → String) (d : Doc) : Decode Int := do
  let i ← int d
  let (lo, hi) : Int × Int := if signed then (-(Nat.pow 2 (bits - 1) : Int), Nat.pow 2 (bits - 1))
    else (0, Nat.pow 2 bits)
  if lo ≤ i && i < hi then pure i else refuse (what i)

def u64 (d : Doc) : Decode UInt64 :=
  return (← ranged false 64 (fun i => s!"{i} is not a u64") d).toNat.toUInt64
def i64 (d : Doc) : Decode Int64 :=
  return Int64.ofInt (← ranged true 64 (fun i => s!"{i} is not an i64") d)

def u32 (d : Doc) : Decode UInt32 :=
  return (← ranged false 32 (fun i => s!"{i} is not a u32") d).toNat.toUInt32
def i32 (d : Doc) : Decode Int32 :=
  return Int32.ofInt (← ranged true 32 (fun i => s!"{i} is not an i32") d)
def u8 (d : Doc) : Decode UInt8 :=
  return (← ranged false 8 (fun i => s!"{i} is not a u8") d).toNat.toUInt8

/-- The message for a field whose value does not fit its type. -/
def outOfRange (key : String) (i : Int) : String := s!"{key}: {i} out of range"

/-- A field of an object that is absent or null. -/
def absent (d : Doc) (key : String) : Bool := d.field key matches .null

/-- A 32-bit unsigned field of an object; absent or null it is 0. -/
def u32At (d : Doc) (key : String) : Decode UInt32 :=
  if absent d key then pure 0
  else return (← ranged false 32 (outOfRange key) (d.field key)).toNat.toUInt32
/-- A 32-bit signed field of an object; absent or null it is 0. -/
def i32At (d : Doc) (key : String) : Decode Int32 :=
  if absent d key then pure 0
  else return Int32.ofInt (← ranged true 32 (outOfRange key) (d.field key))
/-- A 64-bit unsigned field of an object; absent or null it is 0. -/
def u64At (d : Doc) (key : String) : Decode UInt64 :=
  if absent d key then pure 0 else u64 (d.field key)
/-- A 64-bit signed field of an object; absent or null it is 0. -/
def i64At (d : Doc) (key : String) : Decode Int64 :=
  if absent d key then pure 0 else i64 (d.field key)

/-- An integer of the type named `what`, which is also the message. -/
def u8Named (what : String) (d : Doc) : Decode UInt8 :=
  return (← ranged false 8 (fun _ => what) d).toNat.toUInt8
def u16Named (what : String) (d : Doc) : Decode UInt16 :=
  return (← ranged false 16 (fun _ => what) d).toNat.toUInt16
def u32Named (what : String) (d : Doc) : Decode UInt32 :=
  return (← ranged false 32 (fun _ => what) d).toNat.toUInt32
def i32Named (what : String) (d : Doc) : Decode Int32 :=
  return Int32.ofInt (← ranged true 32 (fun _ => what) d)

/-- An option that is on by default: only `false` turns it off. -/
def boolOn (d : Doc) : Bool :=
  match d with
  | .bool b => b
  | _ => true

/-- An option that is on only when given as `true`. -/
def isTrue (d : Doc) : Bool := d matches .bool true

/-- An attribute that is on when given as `true` or as a nonzero number of
the unsigned 64-bit range, and off otherwise. -/
def switch (d : Doc) : Bool :=
  match d with
  | .bool b => b
  | .int i => 0 < i && i < (Nat.pow 2 64 : Int)
  | _ => false

def str (d : Doc) : Decode String :=
  match d with
  | .str s => pure s
  | _ => refuse s!"expected a string, got {render d}"

/-- A string if the value is one. -/
def text? (d : Doc) : Option String :=
  match d with
  | .str s => some s
  | _ => none

/-- A string field an object must have. -/
def requiredText (d : Doc) (key : String) : Decode String :=
  match d.field key with
  | .str s => pure s
  | _ => refuse s!"missing string field {key}"

/-- A string field an object may leave out or set to null; any other value
is refused. -/
def optionalText (d : Doc) (key : String) : Decode (Option String) :=
  match d.field key with
  | .str s => pure (some s)
  | .null => pure none
  | v => refuse s!"{key}: expected a string, got {render v}"

/-- The elements of an array; null reads as the empty list. -/
def list (d : Doc) : Decode (List Doc) :=
  match d with
  | .arr items => pure items
  | .null => pure []
  | _ => refuse s!"expected an array, got {render d}"

/-- The elements of an array; anything else reads as the empty list. -/
def items (d : Doc) : List Doc :=
  match d with
  | .arr items => items
  | _ => []

def fields (d : Doc) : Decode (List (String × Doc)) :=
  match d with
  | .obj fs => pure fs
  | .null => pure []
  | _ => refuse s!"expected an object, got {render d}"

/-- The fields of a value that must be an object. -/
def members (d : Doc) : Decode (List (String × Doc)) :=
  match d with
  | .obj fs => pure fs
  | _ => refuse s!"expected an object, got {render d}"

/-- An object that may be absent (null); anything else but an object is
refused. -/
def object? (d : Doc) : Decode (Option (List (String × Doc))) :=
  match d with
  | .obj fs => pure (some fs)
  | .null => pure none
  | _ => refuse s!"expected an object, got {render d}"

/-- The bytes of hex text; a pair of bytes that splits a character stops
the program. -/
def hexText (s : String) : Decode ByteArray :=
  match Hex.decode s with
  | .ok bytes => pure bytes
  | .error .splitCharacter => throw .panic
  | .error e => throw (.badInput e.message)

def hex (d : Doc) : Decode ByteArray := do hexText (← str d)

/-- The bytes of a hex field an object must have. -/
def requiredHex (d : Doc) (key : String) : Decode ByteArray := do
  hexText (← requiredText d key)

/-- Hex text; anything but a string reads as no bytes. -/
def hexOrEmpty (d : Doc) : Decode ByteArray :=
  match d with
  | .str s => hexText s
  | _ => pure ByteArray.empty

/-- A step of a step list: a name alone, or an object whose first key names
the step and holds its argument. -/
def stepOf (d : Doc) : Option (String × Doc) :=
  match d with
  | .str name => some (name, .null)
  | .obj ((name, arg) :: _) => some (name, arg)
  | _ => none

/-- Set attributes of a record from `{name: true | number}`; a number must
be a 64-bit unsigned one, a field keeps its low bits, and any nonzero value
sets a boolean. -/
def flagsFrom (table : List (FlagField ρ)) (base : ρ) (d : Doc) : Decode ρ := do
  let step (acc : ρ) (entry : String × Doc) : Decode ρ := do
    match Flags.find? table entry.1 with
    | none => refuse s!"unknown flag {entry.1}"
    | some f =>
      let n : Nat ← match entry.2 with
        | .bool b => pure (if b then 1 else 0)
        | v => pure (← u64 v).toNat
      pure (f.set acc n)
  (← fields d).foldlM step base

end IrStream.Service
