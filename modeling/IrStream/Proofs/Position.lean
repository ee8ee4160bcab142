import Mathlib
import IrStream.Proofs.Strings
import IrStream.Proofs.Wire
import IrStream.Wire.Position

/-!
Positions read back. The position writer folds four marks into the low bits
of a flag word and writes only the parts of the position that changed; the
reader, starting from the same last position, takes the attributes from
above the marks, rebuilds the position and advances its last position
exactly as the writer did (`PositionReader.read_write`). A file name goes
through the string stream, so it resolves in every extension of the stream
the writer leaves.
-/

namespace IrStream

namespace Position

/-- The flag word with the marks folded in: the packed attributes above four mark bits. -/
theorem word_toNat {packed : UInt64} (packedSmall : packed.toNat < 2 ^ 60) {marks : Nat}
    (marksSmall : marks < 16) :
    ((packed <<< 4) ||| marks.toUInt64).toNat = marks + 16 * packed.toNat := by
  have marksNat : marks.toUInt64.toNat = marks := by
    rw [Nat.toUInt64_eq, UInt64.toNat_ofNat_of_lt' (lt_trans marksSmall (by norm_num))]
  rw [UInt64.or_comm]
  change (marks.toUInt64 ||| packed <<< (4 : Nat).toUInt64).toNat = _
  rw [Varint.or_shift_toNat marksNat rfl marksSmall (by norm_num)]
  norm_num
  omega

theorem shift_toNat {packed : UInt64} (packedSmall : packed.toNat < 2 ^ 60) :
    (packed <<< 4).toNat = 16 * packed.toNat := by
  have := @word_toNat packed packedSmall 0 (by norm_num)
  simpa using this

/-- The attributes come back from above the marks. -/
theorem unshift {word packed : UInt64} {marks : Nat} (h : word.toNat = marks + 16 * packed.toNat)
    (marksSmall : marks < 16) : word >>> 4 = packed := by
  apply UInt64.toNat_inj.mp
  have four : (4 : UInt64).toNat % 64 = 4 := rfl
  rw [UInt64.toNat_shiftRight, h, four, Nat.shiftRight_eq_div_pow]
  omega

theorem hasBit_of_toNat {word : UInt64} {packed : Nat} {file line column : Bool}
    (h : word.toNat = 1 + (if file then 2 else 0) + (if line then 4 else 0) +
      (if column then 8 else 0) + 16 * packed) :
    hasBit word hasLoc = true ∧ hasBit word fileChanged = file ∧ hasBit word lineChanged = line ∧
      hasBit word columnChanged = column := by
  simp only [hasBit, hasLoc, fileChanged, lineChanged, columnChanged, h]
  cases file <;> cases line <;> cases column <;> simp <;> omega

theorem hasLoc_of_toNat {word : UInt64} {packed : Nat} (h : word.toNat = 16 * packed) :
    hasBit word hasLoc = false := by
  simp only [hasBit, hasLoc, h]
  simp
  omega

end Position

namespace PositionReader

/-- A part of the position read only when its mark is set: the reader then
reads it and updates the last position, and otherwise keeps it. -/
theorem optional_step {α β : Type} {b : Bool} {m : CursorM α} {g : α → Position.Last}
    {keep : Position.Last} {k : Position.Last → CursorM β} {c : Cursor} {x : α} {n : Nat}
    (part : b = true → m c = .ok x (c.advance n)) :
    (if b = true then EStateM.bind m (fun y => EStateM.bind (pure (g y)) k)
      else EStateM.bind (pure keep) k) c =
      k (if b = true then g x else keep) (c.advance (if b = true then n else 0)) := by
  cases b with
  | true => simp only [if_true, CursorM.bind_ok (part rfl)]; rfl
  | false => rfl

/-- What the position writer appends reads back: the attributes, the position
and the writer's new last position, consuming exactly the bytes appended. -/
theorem read_write {w : PositionWriter} (enabled : w.enabled = true) {strings : StringTable}
    (holds : strings.Holds) (small : strings.stream.size < 2 ^ 64) (out : ByteArray)
    {packed : UInt64} (packedSmall : packed.toNat < 2 ^ 60) (locus : Option Locus)
    {out' : ByteArray} {strings' : StringTable} {w' : PositionWriter}
    (written : w.write out strings packed locus = (out', strings', w')) :
    ∃ bs, out'.data.toList = out.data.toList ++ bs ∧ strings'.Holds ∧
      strings.stream.data.toList <+: strings'.stream.data.toList ∧ w'.enabled = true ∧
      ∀ S : ByteArray, strings'.stream.data.toList <+: S.data.toList → S.size < 2 ^ 64 →
        ∀ (c : Cursor) (rest : List UInt8), c.ahead = bs ++ rest →
          read w.last S c = .ok (packed, locus, w'.last) (c.advance bs.length) := by
  cases locus with
  | none =>
    simp only [PositionWriter.write, Prod.mk.injEq] at written
    obtain ⟨rfl, rfl, rfl⟩ := written
    refine ⟨Leb128.ofUInt64 (packed <<< 4), by simp, holds, List.prefix_refl _, enabled, ?_⟩
    intro S _ _ c rest ahead
    have word := Position.shift_toNat packedSmall
    have word' : (packed <<< 4).toNat = 0 + 16 * packed.toNat := by rw [word, Nat.zero_add]
    have back := Position.unshift word' (by norm_num)
    simp only [read, bind, EStateM.bind, CursorM.readUleb_of_ahead ahead,
      Position.hasLoc_of_toNat word, back, Bool.not_false, if_true, pure, EStateM.pure]
  | some l =>
    simp only [PositionWriter.write, enabled, if_true] at written
    generalize fileEq : (w.last.file != some l.file) = f at written
    generalize lineEq : (w.last.line != l.line) = ln at written
    generalize columnEq : (w.last.column != l.column) = col at written
    generalize marksEq : (Position.hasLoc + (if f = true then Position.fileChanged else 0) +
      (if ln = true then Position.lineChanged else 0) +
      (if col = true then Position.columnChanged else 0)) = marks at written
    have marksSmall : marks < 16 := by
      subst marksEq; simp only [Position.hasLoc, Position.fileChanged, Position.lineChanged,
        Position.columnChanged]; split <;> split <;> split <;> omega
    have wordNat := Position.word_toNat packedSmall marksSmall
    generalize packed <<< 4 ||| marks.toUInt64 = word at written wordNat
    obtain ⟨offset, refOut, refHolds, refGrows, resolves⟩ :=
      StringTable.writeRef_spec holds small (Out.uleb out word) (some l.file.toUTF8)
    generalize refEq : strings.writeRef (Out.uleb out word) (some l.file.toUTF8) = ref at written
    rw [refEq] at refOut refHolds refGrows resolves
    have wordMarks : word.toNat = 1 + (if f = true then 2 else 0) + (if ln = true then 4 else 0) +
        (if col = true then 8 else 0) + 16 * packed.toNat := by
      rw [wordNat, ← marksEq]
      simp only [Position.hasLoc, Position.fileChanged, Position.lineChanged,
        Position.columnChanged]
    obtain ⟨locBit, fileBit, lineBit, columnBit⟩ := Position.hasBit_of_toNat wordMarks
    let fileBytes := if f = true then Leb128.ofUInt64 offset else []
    let lineBytes := if ln = true then Leb128.ofUInt64 l.line.toUInt64 else []
    let columnBytes := if col = true then Leb128.ofUInt64 l.column.toUInt64 else []
    let last' : Position.Last := ⟨if f = true then some l.file else w.last.file,
      if ln = true then l.line else w.last.line, if col = true then l.column else w.last.column⟩
    have reads : ∀ S : ByteArray, (f = true → ref.2.stream.data.toList <+: S.data.toList) →
        S.size < 2 ^ 64 → ∀ (c : Cursor) (rest : List UInt8),
        c.ahead = Leb128.ofUInt64 word ++ (fileBytes ++ (lineBytes ++ (columnBytes ++ rest))) →
        read w.last S c = .ok (packed, some l, last')
          (c.advance (Leb128.ofUInt64 word ++ fileBytes ++ lineBytes ++ columnBytes).length) := by
      intro S extended fits c rest ahead
      rw [read]
      simp only [bind]
      rw [CursorM.bind_ok (CursorM.readUleb_of_ahead ahead)]
      simp only [locBit, Bool.not_true, Bool.false_eq_true, if_false, fileBit]
      have afterWord : (c.advance (Leb128.ofUInt64 word).length).ahead =
          fileBytes ++ (lineBytes ++ (columnBytes ++ rest)) := by
        rw [Cursor.ahead_advance, ahead, List.drop_left]
      rw [optional_step (x := some l.file) (n := (Leb128.ofUInt64 offset).length) (fun hf =>
        StringReader.readStr_of_ahead (by rw [afterWord]; simp only [fileBytes, hf, if_true]; rfl)
          (resolves S (extended hf) fits) (StringReader.text_toUTF8 offset l.file))]
      have afterFile : ((c.advance (Leb128.ofUInt64 word).length).advance
          (if f = true then (Leb128.ofUInt64 offset).length else 0)).ahead =
          lineBytes ++ (columnBytes ++ rest) := by
        rw [Cursor.ahead_advance, afterWord]
        cases f <;> simp [fileBytes]
      rw [lineBit, optional_step (x := l.line) (n := (Leb128.ofUInt64 l.line.toUInt64).length)
        (fun hl => CursorM.readU32_of_ahead (by rw [afterFile]; simp only [lineBytes, hl, if_true]; rfl))]
      have afterLine : (((c.advance (Leb128.ofUInt64 word).length).advance
          (if f = true then (Leb128.ofUInt64 offset).length else 0)).advance
          (if ln = true then (Leb128.ofUInt64 l.line.toUInt64).length else 0)).ahead =
          columnBytes ++ rest := by
        rw [Cursor.ahead_advance, afterFile]
        cases ln <;> simp [lineBytes]
      rw [columnBit, optional_step (x := l.column)
        (n := (Leb128.ofUInt64 l.column.toUInt64).length)
        (fun hc => CursorM.readU32_of_ahead (by rw [afterLine]; simp only [columnBytes, hc, if_true]; rfl))]
      have back := Position.unshift wordNat marksSmall
      simp only [pure, EStateM.pure, back, Cursor.advance_advance, List.length_append]
      have fileKept : f = false → w.last.file = some l.file := by
        intro h; rw [h] at fileEq; simpa using fileEq
      have lineKept : ln = false → w.last.line = l.line := by
        intro h; rw [h] at lineEq; simpa using lineEq
      have columnKept : col = false → w.last.column = l.column := by
        intro h; rw [h] at columnEq; simpa using columnEq
      cases f <;> cases ln <;> cases col <;>
        simp [last', fileBytes, lineBytes, columnBytes, fileKept, lineKept, columnKept, Nat.add_assoc]
      -- nothing changed: the last position is the locus itself
      rw [← fileKept rfl, ← lineKept rfl, ← columnKept rfl]
    refine ⟨Leb128.ofUInt64 word ++ fileBytes ++ lineBytes ++ columnBytes, ?_⟩
    cases f <;> cases ln <;> cases col <;>
      simp only [Bool.false_eq_true, if_true, if_false, Prod.mk.injEq] at written <;>
      obtain ⟨rfl, rfl, rfl⟩ := written
    all_goals
      refine ⟨by simp [refOut, fileBytes, lineBytes, columnBytes],
        by first | exact refHolds | exact holds,
        by first | exact refGrows | exact List.prefix_refl _, rfl, ?_⟩
      intro S extended fits c rest ahead
      have := reads S (fun h => by first | exact extended | simp at h) fits c rest
        (by simpa [fileBytes, lineBytes, columnBytes] using ahead)
      simpa [last', fileBytes, lineBytes, columnBytes] using this

end PositionReader

namespace PositionWriter

/-- What the position writer appends, and the state it leaves, do not depend
on what was written before. -/
theorem write_out (w : PositionWriter) (out : ByteArray) (strings : StringTable) (packed : UInt64)
    (locus : Option Locus) :
    (w.write out strings packed locus).1.data.toList =
        out.data.toList ++ (w.write .empty strings packed locus).1.data.toList ∧
      (w.write out strings packed locus).2 = (w.write .empty strings packed locus).2 := by
  cases locus with
  | none => simp [write]
  | some l =>
    simp only [write]
    split_ifs <;> simp [StringTable.writeRef_data, StringTable.writeRef_table]

/-- The position writer only appends to the string stream, and keeps its mode. -/
theorem write_grows (w : PositionWriter) (out : ByteArray) (strings : StringTable) (packed : UInt64)
    (locus : Option Locus) :
    strings.stream.data.toList <+: (w.write out strings packed locus).2.1.stream.data.toList ∧
      (w.write out strings packed locus).2.2.enabled = w.enabled := by
  cases locus with
  | none => simp [write]
  | some l =>
    simp only [write]
    split_ifs <;> simp [StringTable.writeRef_table, StringTable.intern_prefix]

end PositionWriter

end IrStream
