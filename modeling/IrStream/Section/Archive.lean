import IrStream.Section.Header

/-!
Where sections live. A unit is a list of named sections; the sections of a
unit are named by kind, a function body by the function's name. An archive
holds the sections of one unit in the order they were emitted and has a byte
form of its own: a magic word, the section count, then each section's name
and bytes, every length a 32-bit little-endian word.

Sections are written into an archive one at a time: a section is begun under
a new name, bytes are appended to it, and ending it stores it. A call out of
turn is refused and leaves the archive as it was.
-/

namespace IrStream

namespace SectionName

def pref : String := ".gnu.lto_"

def decls : String := ".gnu.lto_.decls"

def cgraph : String := ".gnu.lto_.cgraph"

/-- The name of a section of `kind`; only a body's name carries the function. -/
def ofKind (kind : SectionKind) (function : Option String) : String :=
  match kind with
  | .decls => decls
  | .cgraph => cgraph
  | .functionBody => pref ++ function.getD ""

/-- The kind a section name stands for, if it is a section of this format. -/
def kind? (name : String) : Option SectionKind :=
  if name == decls then some .decls
  else if name == cgraph then some .cgraph
  else if name.startsWith pref && name.length > pref.length then some .functionBody
  else none

end SectionName

/-- The named sections of one unit, in emission order, and the section being
written, if one is begun and not yet ended. -/
structure Archive where
  name : String
  sections : List (String × ByteArray) := []
  open? : Option (String × ByteArray) := none

namespace Archive

/-- The bytes of the section of that name. -/
def section? (a : Archive) (name : String) : Option ByteArray :=
  (a.sections.find? (·.1 == name)).map (·.2)

/-- Begin a section under a name no stored section has, unless one is open. -/
def beginSection (a : Archive) (name : String) : Except StreamError Archive :=
  match a.open? with
  | some (current, _) => .error (.consistency s!"section {name} begun while {current} is open")
  | none =>
    if (a.section? name).isSome then .error (.consistency s!"section {name} written twice")
    else .ok { a with open? := some (name, .empty) }

/-- Append bytes to the open section. -/
def appendBytes (a : Archive) (bytes : ByteArray) : Except StreamError Archive :=
  match a.open? with
  | some (name, data) => .ok { a with open? := some (name, data ++ bytes) }
  | none => .error (.consistency "append outside a section")

/-- Store the open section after the others. -/
def endSection (a : Archive) : Except StreamError Archive :=
  match a.open? with
  | some entry => .ok { a with sections := a.sections ++ [entry], open? := none }
  | none => .error (.consistency "end of a section never begun")

/-- Write a whole section: begin it, append its bytes and end it. -/
def emit (a : Archive) (name : String) (bytes : ByteArray) : Except StreamError Archive := do
  let a ← a.beginSection name
  let a ← a.appendBytes bytes
  a.endSection

/-- Emitting into an archive with no open section, under a name not stored
yet, stores the section after the others. -/
theorem emit_eq_ok (a : Archive) (name : String) (bytes : ByteArray)
    (closed : a.open? = none) (fresh : a.section? name = none) :
    a.emit name bytes = .ok { a with sections := a.sections ++ [(name, bytes)] } := by
  simp [emit, beginSection, appendBytes, endSection, closed, fresh, bind, Except.bind]

/-- A section the unit must have, or the error that names it and the unit. -/
def acquire (a : Archive) (name : String) : Except StreamError ByteArray :=
  match a.section? name with
  | some b => .ok b
  | none => .error (.missingSection s!"{name} in {a.name}")

def magic : ByteArray := "LTOOBJ01".toUTF8

/-- A count or length as the 32-bit word the byte form stores it in. -/
def len32 (n : Nat) : Except StreamError UInt32 :=
  if n < Nat.pow 2 32 then .ok n.toUInt32
  else .error (.consistency "object member exceeds 4 GiB")

/-- One section's name and bytes, each after its length. -/
def writeMember (out : ByteArray) (s : String × ByteArray) : Except StreamError ByteArray := do
  let out := Out.u32le out (← len32 s.1.utf8ByteSize)
  let out := Out.bytes out s.1.toUTF8
  let out := Out.u32le out (← len32 s.2.size)
  return Out.bytes out s.2

/-- The archive's byte form: the magic word, the section count, then each
section. A count or length that does not fit 32 bits is refused. The open
section, if any, is not part of it. -/
def toBytes (a : Archive) : Except StreamError ByteArray := do
  let out := Out.u32le (Out.bytes .empty magic) (← len32 a.sections.length)
  a.sections.foldlM writeMember out

def readSections : Nat → CursorM (List (String × ByteArray))
  | 0 => return []
  | k + 1 => do
    let len ← CursorM.readU32le
    let raw ← CursorM.readBytes len.toNat
    let name ← match String.fromUTF8? raw with
      | some s => pure s
      | none => throw (.consistency "section name is not UTF-8")
    let len ← CursorM.readU32le
    let bytes ← CursorM.readBytes len.toNat
    return (name, bytes) :: (← readSections k)

def readArchive (name : String) : CursorM Archive := do
  if (← CursorM.readBytes magic.size) != magic then
    throw (.consistency "not an LTO object archive")
  let count ← CursorM.readU32le
  return { name, sections := ← readSections count.toNat }

/-- Read an archive from its byte form; bytes after the last section are ignored. -/
def ofBytes (name : String) (data : ByteArray) : Except StreamError Archive :=
  match Cursor.run "object" data (readArchive name) with
  | .ok a _ => .ok a
  | .error e _ => .error e

end Archive

end IrStream
