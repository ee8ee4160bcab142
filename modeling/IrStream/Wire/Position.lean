import IrStream.Tree.Locus
import IrStream.Wire.StringTable

/-!
Source positions folded into flag words. The low four bits of every flag word
say whether a position follows and which of its parts differ from the last
position written to the same stream; only those parts are written, and the
reader carries the others forward. The file is a string reference, line and
column are ULEB numbers.
-/

namespace IrStream

namespace Position

def hasLoc : Nat := 1
def fileChanged : Nat := 2
def lineChanged : Nat := 4
def columnChanged : Nat := 8
/-- Bits of the flag word taken by the position marks. -/
def bits : Nat := 4

/-- The parts of the last position written or read. -/
structure Last where
  file : Option String := none
  line : UInt32 := 0
  column : UInt32 := 0
  deriving DecidableEq, Repr, Inhabited

/-- Whether bit `b` (a power of two below 16) is set in `word`. -/
def hasBit (word : UInt64) (b : Nat) : Bool := word.toNat / b % 2 == 1

end Position

/-- The write side: the last position emitted, and whether positions are
written at all. -/
structure PositionWriter where
  last : Position.Last := {}
  enabled : Bool := true
  deriving Inhabited

namespace PositionWriter

/-- Write `packed` with the position marks folded in, then the changed parts
of the position. A disabled writer drops every position. -/
def write (w : PositionWriter) (out : ByteArray) (strings : StringTable) (packed : UInt64)
    (locus : Option Locus) : ByteArray × StringTable × PositionWriter :=
  match locus with
  | some l =>
    if w.enabled then
      let newFile := w.last.file != some l.file
      let newLine := w.last.line != l.line
      let newColumn := w.last.column != l.column
      let marks := Position.hasLoc + (if newFile then Position.fileChanged else 0) +
        (if newLine then Position.lineChanged else 0) +
        (if newColumn then Position.columnChanged else 0)
      let out := Out.uleb out ((packed <<< 4) ||| marks.toUInt64)
      let (out, strings, last) :=
        if newFile then
          let (out, strings) := strings.writeRef out (some l.file.toUTF8)
          (out, strings, { w.last with file := some l.file })
        else (out, strings, w.last)
      let (out, last) := if newLine then (Out.uleb out l.line.toUInt64, { last with line := l.line })
        else (out, last)
      let (out, last) :=
        if newColumn then (Out.uleb out l.column.toUInt64, { last with column := l.column })
        else (out, last)
      (out, strings, { w with last })
    else (Out.uleb out (packed <<< 4), strings, w)
  | none => (Out.uleb out (packed <<< 4), strings, w)

end PositionWriter

namespace PositionReader

/-- Read a flag word: the packed attributes and the position, with parts
that did not change carried over from `last`; a missing file reads as the
empty name. -/
def read (last : Position.Last) (strings : ByteArray) :
    CursorM (UInt64 × Option Locus × Position.Last) := do
  let word ← CursorM.readUleb
  let packed := word >>> 4
  if !Position.hasBit word Position.hasLoc then return (packed, none, last)
  let last ← if Position.hasBit word Position.fileChanged then do
      let file ← StringReader.readStr strings
      pure { last with file := some (file.getD "") }
    else pure last
  let last ← if Position.hasBit word Position.lineChanged then do
      pure { last with line := (← CursorM.readU32) }
    else pure last
  let last ← if Position.hasBit word Position.columnChanged then do
      pure { last with column := (← CursorM.readU32) }
    else pure last
  return (packed, some ⟨last.file.getD "", last.line, last.column⟩, last)

end PositionReader

end IrStream
