import Mathlib
import IrStream.Proofs.Wire
import IrStream.Wire.StringTable

/-!
The interned string stream read back. A writer interns each byte string once
and refers to it by its offset; a reader resolves offsets in the finished
stream. The offsets a table hands out stay valid in every extension of its
stream, so references written early resolve in the stream as it ends:

* `StringTable.Holds`: the stream starts with the sentinel and every interned
  entry sits at its offset as its length and bytes;
* `StringTable.intern_holds`: interning keeps that and gives the entry's offset;
* `StringReader.get_of_entry`: an entry of a table resolves in every
  extension of the table's stream;
* `StringTable.writeRef_spec`: `writeRef` appends the varint of an offset that
  resolves to the bytes referred to, and `StringReader.readRef_of_ahead`,
  `StringReader.readStr_of_ahead` read such a reference back;
* `StringReader.text_toUTF8`: text written as UTF-8 decodes to itself.
-/

namespace IrStream

namespace Leb128

theorem unsigned_ne_nil (n : Nat) : unsigned n ≠ [] := by
  by_cases small : n < 128
  · simp [unsigned_of_lt small]
  · simp [unsigned_of_le (Nat.le_of_not_lt small)]

end Leb128

namespace Bytes

/-- A byte array is determined by its bytes. -/
theorem eq_mk_of_toList {b : ByteArray} {bs : List UInt8} (h : b.data.toList = bs) :
    b = ⟨bs.toArray⟩ := by
  cases b
  simp only [ByteArray.mk.injEq]
  exact Array.ext' h

end Bytes

namespace StringTable

/-- The stream starts with the sentinel, and every interned entry sits at its
offset as its length, a varint, followed by its bytes. -/
def Holds (t : StringTable) : Prop :=
  (∃ more, t.stream.data.toList = 0 :: more) ∧
  ∀ bytes offset, t.offsets.get? bytes = some offset →
    0 < offset.toNat ∧ ∃ more, t.stream.data.toList.drop offset.toNat =
      Leb128.ofUInt64 bytes.length.toUInt64 ++ bytes ++ more

theorem empty_holds : ({} : StringTable).Holds := by
  refine ⟨⟨[], rfl⟩, ?_⟩
  intro bytes offset found
  simp at found

/-- Interning only appends to the stream. -/
theorem intern_prefix (t : StringTable) (b : ByteArray) :
    t.stream.data.toList <+: (t.intern b).2.stream.data.toList := by
  unfold intern
  split
  · exact List.prefix_refl _
  · simp only [Bytes.bytes_data, Bytes.uleb_data, List.append_assoc]
    exact List.prefix_append _ _

/-- An entry's offset lies inside the stream. -/
theorem offset_lt {t : StringTable} (holds : t.Holds) {bytes : List UInt8} {offset : UInt64}
    (found : t.offsets.get? bytes = some offset) : offset.toNat < t.stream.data.toList.length := by
  obtain ⟨-, more, entry⟩ := holds.2 bytes offset found
  have nonempty : t.stream.data.toList.drop offset.toNat ≠ [] := by
    rw [entry, List.append_assoc]
    exact List.append_ne_nil_of_left_ne_nil (Leb128.unsigned_ne_nil _) _
  by_contra outside
  exact nonempty (List.drop_eq_nil_of_le (by omega))

/-- After interning, the table still holds and has an entry for the bytes, at
the offset returned. -/
theorem intern_holds {t : StringTable} (holds : t.Holds) (b : ByteArray)
    (small : t.stream.size < 2 ^ 64) :
    (t.intern b).2.Holds ∧ (t.intern b).2.offsets.get? b.data.toList = some (t.intern b).1 := by
  obtain ⟨⟨more0, sentinel⟩, entries⟩ := holds
  unfold intern
  rw [Bytes.toList_eq]
  split
  · next offset found => exact ⟨⟨⟨more0, sentinel⟩, entries⟩, found⟩
  · next missing =>
    have offsetNat : (t.stream.size.toUInt64).toNat = t.stream.data.toList.length := by
      rw [Nat.toUInt64_eq, UInt64.toNat_ofNat_of_lt' small]; rfl
    have lengthWord : b.size.toUInt64 = b.data.toList.length.toUInt64 := by simp
    refine ⟨⟨⟨more0 ++ Leb128.ofUInt64 b.size.toUInt64 ++ b.data.toList, ?_⟩, ?_⟩, ?_⟩
    · simp [Bytes.bytes_data, Bytes.uleb_data, sentinel]
    · intro bytes offset found
      rw [Std.HashMap.get?_insert] at found
      split at found
      · next same =>
        obtain rfl := Option.some.inj found
        have same : b.data.toList = bytes := by simpa using same
        subst same
        refine ⟨?_, [], ?_⟩
        · rw [offsetNat, sentinel]; simp
        · rw [offsetNat, Bytes.bytes_data, Bytes.uleb_data, List.append_assoc, List.drop_left,
            lengthWord]
          simp
      · have old : t.offsets.get? bytes = some offset := found
        obtain ⟨positive, more, entry⟩ := entries bytes offset old
        refine ⟨positive, more ++ Leb128.ofUInt64 b.size.toUInt64 ++ b.data.toList, ?_⟩
        have inside := offset_lt ⟨⟨more0, sentinel⟩, entries⟩ old
        rw [Bytes.bytes_data, Bytes.uleb_data, List.append_assoc,
          List.drop_append_of_le_length inside.le, entry]
        simp
    · simp

end StringTable

namespace StringReader

/-- An entry of a table resolves, in every stream that extends the table's,
to the bytes interned. -/
theorem get_of_entry {t : StringTable} (holds : t.Holds) {S : ByteArray}
    (extends_ : t.stream.data.toList <+: S.data.toList) (small : S.size < 2 ^ 64)
    {bytes : List UInt8} {offset : UInt64} (found : t.offsets.get? bytes = some offset) :
    get S offset = .ok (some ⟨bytes.toArray⟩) := by
  obtain ⟨positive, more, entry⟩ := holds.2 bytes offset found
  have inside := StringTable.offset_lt holds found
  obtain ⟨tail, extended⟩ := extends_
  have sizeEq : S.size = t.stream.data.toList.length + tail.length := by
    change S.data.toList.length = _
    rw [← extended, List.length_append]
  let c : Cursor := { name := "strings", data := S, pos := offset.toNat }
  have ahead : c.ahead = Leb128.ofUInt64 bytes.length.toUInt64 ++ (bytes ++ (more ++ tail)) := by
    simp only [c, Cursor.ahead, ← extended, List.drop_append_of_le_length inside.le, entry,
      List.append_assoc]
  have lengthSmall : bytes.length < 2 ^ 64 := by
    have := congrArg List.length entry
    simp only [List.length_drop, List.length_append] at this
    omega
  have lengthNat : bytes.length.toUInt64.toNat = bytes.length := by
    rw [Nat.toUInt64_eq, UInt64.toNat_ofNat_of_lt' lengthSmall]
  have length := CursorM.readUleb_of_ahead ahead
  obtain ⟨b, readBack, fromBytes⟩ := CursorM.readBytes_of_ahead (c := c.advance _)
    (by rw [Cursor.ahead_advance, ahead, List.drop_left]) (by
      have := Cursor.pos_add_le_of_ahead ahead (by simp [c]; omega)
      simpa [Cursor.advance] using this)
  have notZero : (offset == 0) = false := by
    simp only [beq_eq_false_iff_ne, ne_eq]
    intro zero; rw [zero] at positive; simp at positive
  have notOutside : ¬ S.size ≤ offset.toNat := by omega
  have run : (do let len ← CursorM.readUleb; CursorM.readBytes len.toNat : CursorM ByteArray).run c =
      .ok b ((c.advance (Leb128.ofUInt64 bytes.length.toUInt64).length).advance bytes.length) := by
    simp only [EStateM.run, bind, EStateM.bind, length, lengthNat, readBack]
  simp only [get, notZero, if_neg notOutside, Bool.false_eq_true, if_false]
  rw [run, Bytes.eq_mk_of_toList fromBytes]

theorem readRef_of_ahead {S : ByteArray} {c : Cursor} {offset : UInt64} {rest : List UInt8}
    (ahead : c.ahead = Leb128.ofUInt64 offset ++ rest) {bytes : Option ByteArray}
    (resolved : get S offset = .ok bytes) :
    readRef S c = .ok bytes (c.advance (Leb128.ofUInt64 offset).length) := by
  simp only [readRef, bind, EStateM.bind, CursorM.readUleb_of_ahead ahead, lift, resolved]
  rfl

theorem readStr_of_ahead {S : ByteArray} {c : Cursor} {offset : UInt64} {rest : List UInt8}
    (ahead : c.ahead = Leb128.ofUInt64 offset ++ rest) {bytes : Option ByteArray}
    (resolved : get S offset = .ok bytes) {text? : Option String}
    (decoded : text offset bytes = .ok text?) :
    readStr S c = .ok text? (c.advance (Leb128.ofUInt64 offset).length) := by
  simp only [readStr, bind, EStateM.bind, CursorM.readUleb_of_ahead ahead, lift, resolved, pure,
    EStateM.pure, decoded]

/-- Text written as UTF-8 decodes to itself. -/
@[simp] theorem text_toUTF8 (offset : UInt64) (s : String) :
    text offset (some s.toUTF8) = .ok (some s) := by
  simp only [text, String.toUTF8_eq_toByteArray, String.fromUTF8?, dif_pos s.isValidUTF8]
  rfl

@[simp] theorem text_none (offset : UInt64) : text offset none = .ok none := rfl

end StringReader

namespace StringTable

/-- `writeRef` appends the varint of an offset that names, in every extension
of the new stream, the bytes referred to. -/
theorem writeRef_spec {t : StringTable} (holds : t.Holds) (small : t.stream.size < 2 ^ 64)
    (out : ByteArray) (bytes : Option ByteArray) :
    ∃ offset, (t.writeRef out bytes).1.data.toList = out.data.toList ++ Leb128.ofUInt64 offset ∧
      (t.writeRef out bytes).2.Holds ∧
      t.stream.data.toList <+: (t.writeRef out bytes).2.stream.data.toList ∧
      ∀ S : ByteArray, (t.writeRef out bytes).2.stream.data.toList <+: S.data.toList →
        S.size < 2 ^ 64 → StringReader.get S offset = .ok bytes := by
  cases bytes with
  | none =>
    refine ⟨0, by simp [writeRef], holds, List.prefix_refl _, fun S _ _ => ?_⟩
    rfl
  | some b =>
    obtain ⟨holds', found⟩ := intern_holds holds b small
    refine ⟨(t.intern b).1, by simp [writeRef], holds', intern_prefix t b, fun S extended fits => ?_⟩
    rw [StringReader.get_of_entry holds' extended fits found, ← Bytes.eq_mk_of_toList rfl]

/-- `writeRef` appends the varint of the same offset whatever was written before. -/
theorem writeRef_data (t : StringTable) (out : ByteArray) (bytes : Option ByteArray) :
    (t.writeRef out bytes).1.data.toList =
      out.data.toList ++ Leb128.ofUInt64 (bytes.elim 0 fun b => (t.intern b).1) := by
  cases bytes <;> simp [writeRef]

theorem writeRef_table (t : StringTable) (out : ByteArray) (bytes : Option ByteArray) :
    (t.writeRef out bytes).2 = bytes.elim t fun b => (t.intern b).2 := by
  cases bytes <;> simp [writeRef]

end StringTable

end IrStream
