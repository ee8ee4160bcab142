import Mathlib
import IrStream.Proofs.Position
import IrStream.Proofs.Varint

/-!
Runs of positions. A run of positions written with one writer and one string
table reads back with one reader over the final string stream: each step is
`PositionReader.read_write`, and the reader's last position after a step is
the writer's, so the run goes by induction over the positions
(`PositionReader.readRun_writeRun`). A disabled writer's run reads back
without positions (`PositionReader.readRun_writeRun_disabled`).
`positions_round_trip` joins the two for a fresh writer, table and reader.

The string stream is addressed by 64-bit offsets, so a run's files must fit
below `2 ^ 64` bytes; `PositionWriter.writeRun_grows` bounds what a run adds
by `Position.fileCost`.
-/

namespace IrStream

namespace Position

/-- What one position can add to the string stream: its file's name and a
length of at most ten bytes. -/
def fileCost (locus : Option Locus) : Nat := locus.elim 0 fun l => l.file.utf8ByteSize + 10

end Position

namespace StringTable

/-- Interning adds at most the bytes and their length, a varint of at most ten bytes. -/
theorem intern_size_le (t : StringTable) (b : ByteArray) :
    (t.intern b).2.stream.size ≤ t.stream.size + (b.size + 10) := by
  unfold intern
  split
  · simp
  · have length := Leb128.length_ofUInt64_le b.size.toUInt64
    have grown : (Out.bytes (Out.uleb t.stream b.size.toUInt64) b).data.toList.length =
        t.stream.data.toList.length + (Leb128.ofUInt64 b.size.toUInt64).length +
          b.data.toList.length := by
      simp [Nat.add_assoc]
    change (Out.bytes (Out.uleb t.stream b.size.toUInt64) b).data.toList.length ≤
      t.stream.data.toList.length + (b.data.toList.length + 10)
    omega

end StringTable

namespace PositionWriter

/-- Write the pairs in order with one writer and one string table. -/
def writeRun (w : PositionWriter) (out : ByteArray) (strings : StringTable) :
    List (UInt64 × Option Locus) → ByteArray × StringTable × PositionWriter
  | [] => (out, strings, w)
  | (packed, locus) :: more =>
    let next := w.write out strings packed locus
    writeRun next.2.2 next.1 next.2.1 more

/-- The string stream grows by at most the cost of the position's file. -/
theorem write_size_le (w : PositionWriter) (out : ByteArray) (strings : StringTable)
    (packed : UInt64) (locus : Option Locus) :
    (w.write out strings packed locus).2.1.stream.size ≤ strings.stream.size + Position.fileCost locus := by
  cases locus with
  | none => simp [write, Position.fileCost]
  | some l =>
    have interned := StringTable.intern_size_le strings l.file.toByteArray
    rw [String.size_toByteArray] at interned
    simp only [write, Position.fileCost, Option.elim_some]
    split_ifs <;> simp [StringTable.writeRef_table, interned]

/-- A run of writes only appends to the string stream, by at most the costs of
its files, and keeps the writer's mode. -/
theorem writeRun_grows (w : PositionWriter) (out : ByteArray) (strings : StringTable)
    (items : List (UInt64 × Option Locus)) :
    strings.stream.data.toList <+: (w.writeRun out strings items).2.1.stream.data.toList ∧
      (w.writeRun out strings items).2.1.stream.size ≤
        strings.stream.size + (items.map fun item => Position.fileCost item.2).sum ∧
      (w.writeRun out strings items).2.2.enabled = w.enabled := by
  induction items generalizing w out strings with
  | nil => simp [writeRun]
  | cons item more ih =>
    obtain ⟨packed, locus⟩ := item
    obtain ⟨grows, kept⟩ := write_grows w out strings packed locus
    obtain ⟨grows', bounded, kept'⟩ := ih (w.write out strings packed locus).2.2
      (w.write out strings packed locus).1 (w.write out strings packed locus).2.1
    have step := write_size_le w out strings packed locus
    refine ⟨grows.trans grows', ?_, kept'.trans kept⟩
    simp only [writeRun, List.map_cons, List.sum_cons]
    omega

end PositionWriter

namespace PositionReader

/-- Read `n` flag words in order with one reader, carrying its last position
from each word to the next. -/
def readRun (strings : ByteArray) : Position.Last → Nat → CursorM (List (UInt64 × Option Locus))
  | _, 0 => pure []
  | last, n + 1 => do
    let (packed, locus, last) ← read last strings
    let more ← readRun strings last n
    pure ((packed, locus) :: more)

/-- A run of positions written by an enabled writer reads back, from the
writer's first last position, as the positions written, consuming exactly the
bytes appended, over every string stream that extends the final one. -/
theorem readRun_writeRun {w : PositionWriter} (enabled : w.enabled = true) {strings : StringTable}
    (holds : strings.Holds) (out : ByteArray) (items : List (UInt64 × Option Locus))
    (small : ∀ item ∈ items, item.1.toNat < 2 ^ 60)
    (fits : (w.writeRun out strings items).2.1.stream.size < 2 ^ 64) :
    ∃ bs, (w.writeRun out strings items).1.data.toList = out.data.toList ++ bs ∧
      ∀ S : ByteArray, (w.writeRun out strings items).2.1.stream.data.toList <+: S.data.toList →
        S.size < 2 ^ 64 → ∀ (c : Cursor) (rest : List UInt8), c.ahead = bs ++ rest →
          readRun S w.last items.length c = .ok items (c.advance bs.length) := by
  induction items generalizing w out strings with
  | nil =>
    refine ⟨[], by simp [PositionWriter.writeRun], fun S _ _ c rest _ => ?_⟩
    rfl
  | cons item more ih =>
    obtain ⟨packed, locus⟩ := item
    -- the first position, then the run after it from the state the first write leaves
    rcases written : w.write out strings packed locus with ⟨out', strings', w'⟩
    have unfolded : w.writeRun out strings ((packed, locus) :: more) = w'.writeRun out' strings' more := by
      simp [PositionWriter.writeRun, written]
    rw [unfolded] at fits ⊢
    have grows := (PositionWriter.writeRun_grows w' out' strings' more).1
    have prior := (PositionWriter.write_grows w out strings packed locus).1
    rw [written] at prior
    have stringsSmall : strings.stream.size < 2 ^ 64 :=
      lt_of_le_of_lt (prior.trans grows).length_le fits
    obtain ⟨first, appended, holds', -, enabled', reads⟩ := read_write enabled holds stringsSmall out
      (small (packed, locus) (by simp)) locus written
    obtain ⟨rest', appended', readsMore⟩ := ih enabled' holds' out'
      (fun item member => small item (by simp [member])) fits
    refine ⟨first ++ rest', by rw [appended', appended, List.append_assoc],
      fun S extended fitsS c rest ahead => ?_⟩
    have readFirst := reads S (grows.trans extended) fitsS c (rest' ++ rest) (by simp [ahead])
    have readRest := readsMore S extended fitsS (c.advance first.length) rest (by simp [ahead])
    simp only [readRun, List.length_cons, bind, EStateM.bind, readFirst, readRest, pure,
      EStateM.pure, Cursor.advance_advance, List.length_append]

/-- A disabled writer writes no positions: its run reads back as the packed
words alone, consuming exactly the bytes appended, and leaves the string table
as it was. -/
theorem readRun_writeRun_disabled {w : PositionWriter} (disabled : w.enabled = false)
    (strings : StringTable) (out : ByteArray) (items : List (UInt64 × Option Locus))
    (small : ∀ item ∈ items, item.1.toNat < 2 ^ 60) :
    (w.writeRun out strings items).2.1 = strings ∧
      ∃ bs, (w.writeRun out strings items).1.data.toList = out.data.toList ++ bs ∧
        ∀ (S : ByteArray) (last : Position.Last) (c : Cursor) (rest : List UInt8),
          c.ahead = bs ++ rest →
          readRun S last items.length c = .ok (items.map fun item => (item.1, none))
            (c.advance bs.length) := by
  induction items generalizing out with
  | nil =>
    refine ⟨rfl, [], by simp [PositionWriter.writeRun], fun S last c rest _ => ?_⟩
    rfl
  | cons item more ih =>
    obtain ⟨packed, locus⟩ := item
    -- a disabled writer writes the bare word and keeps its state, whatever the position
    have bare : w.write out strings packed locus = (Out.uleb out (packed <<< 4), strings, w) := by
      cases locus <;> simp [PositionWriter.write, disabled]
    obtain ⟨kept, rest', appended, readsMore⟩ := ih (Out.uleb out (packed <<< 4))
      (fun item member => small item (by simp [member]))
    have word := Position.shift_toNat (small (packed, locus) (by simp))
    have word' : (packed <<< 4).toNat = 0 + 16 * packed.toNat := by rw [word, Nat.zero_add]
    refine ⟨by simpa [PositionWriter.writeRun, bare] using kept,
      Leb128.ofUInt64 (packed <<< 4) ++ rest', by simp [PositionWriter.writeRun, bare, appended],
      fun S last c rest ahead => ?_⟩
    have wordAhead : c.ahead = Leb128.ofUInt64 (packed <<< 4) ++ (rest' ++ rest) := by simp [ahead]
    have readWord := CursorM.readUleb_of_ahead wordAhead
    have readRest := readsMore S last (c.advance (Leb128.ofUInt64 (packed <<< 4)).length) rest
      (by simp [ahead])
    simp only [readRun, read, List.length_cons, bind, EStateM.bind, readWord,
      Position.hasLoc_of_toNat word, Position.unshift word' (by norm_num), Bool.not_false,
      if_true, pure, EStateM.pure, readRest, List.map_cons, Cursor.advance_advance,
      List.length_append]

end PositionReader

/-- Positions round trip. Pairs of packed attributes below `2 ^ 60` and
optional positions, written in order by one fresh writer into an empty stream
with one fresh string table, read back in order by one fresh reader over the
final string stream: as the same pairs when the writer is enabled, as the
packed words without positions when it is not, and the reader stops exactly
at the end of what was written. The string stream is addressed by 64-bit
offsets, so its files, each with a length, fit below `2 ^ 64` bytes. -/
theorem positions_round_trip (enabled : Bool) (items : List (UInt64 × Option Locus))
    (small : ∀ item ∈ items, item.1.toNat < 2 ^ 60)
    (fits : 1 + (items.map fun item => Position.fileCost item.2).sum < 2 ^ 64) (name : String) :
    let written := ({ enabled } : PositionWriter).writeRun .empty {} items
    Cursor.run name written.1 (PositionReader.readRun written.2.1.stream {} items.length) =
      .ok (if enabled then items else items.map fun item => (item.1, none))
        { name, data := written.1, pos := written.1.size } := by
  intro written
  have fresh : ({ name, data := written.1 } : Cursor).ahead = written.1.data.toList ++ [] := by
    simp [Cursor.ahead]
  have finish : ({ name, data := written.1 } : Cursor).advance written.1.data.toList.length =
      { name, data := written.1, pos := written.1.size } := by
    simp [Cursor.advance]
  cases enabled with
  | true =>
    have finalSmall : written.2.1.stream.size < 2 ^ 64 := by
      have := (PositionWriter.writeRun_grows { enabled := true } .empty {} items).2.1
      exact lt_of_le_of_lt this fits
    obtain ⟨bs, appended, reads⟩ := PositionReader.readRun_writeRun (w := { enabled := true }) rfl
      StringTable.empty_holds .empty items small finalSmall
    have whole : bs = written.1.data.toList := by simpa using appended.symm
    subst whole
    simpa [Cursor.run, EStateM.run, finish] using
      reads written.2.1.stream (List.prefix_refl _) finalSmall _ [] fresh
  | false =>
    obtain ⟨-, bs, appended, reads⟩ := PositionReader.readRun_writeRun_disabled
      (w := { enabled := false }) rfl {} .empty items small
    have whole : bs = written.1.data.toList := by simpa using appended.symm
    subst whole
    simpa [Cursor.run, EStateM.run, finish] using reads written.2.1.stream {} _ [] fresh

/-- Positions that leave a gap, change file, and come back to the first file
on another line and column. -/
def switchingFiles : List (UInt64 × Option Locus) :=
  [(0, some ⟨"a.c", 1, 1⟩), (1, none), (2, some ⟨"b.c", 1, 1⟩), (3, some ⟨"a.c", 2, 5⟩)]

theorem switchingFiles_round_trip :
    (∀ item ∈ switchingFiles, item.1.toNat < 2 ^ 60) ∧
      1 + (switchingFiles.map fun item => Position.fileCost item.2).sum < 2 ^ 64 ∧
      let written := ({ enabled := true } : PositionWriter).writeRun .empty {} switchingFiles
      Cursor.run "main" written.1 (PositionReader.readRun written.2.1.stream {} switchingFiles.length) =
        .ok switchingFiles { name := "main", data := written.1, pos := written.1.size } :=
  ⟨by decide, by decide, positions_round_trip true switchingFiles (by decide) (by decide) "main"⟩

end IrStream
