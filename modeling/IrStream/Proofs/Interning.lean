import Mathlib
import IrStream.Proofs.PositionRun

/-!
Interning a sequence of byte strings into one string table. The table files
each distinct byte string once, under the offset where its length and bytes
start, and hands that offset out again on every later occurrence. Offsets
are positions in a stream that keeps growing, so what has to be shown is that
an offset handed out early still resolves, in the final stream, to the bytes
it was handed out for:

* `StringTable.intern_found`, `StringTable.internAll_keeps`: the offset a
  string is filed under never changes, so equal strings get equal offsets;
* `StringTable.internAll_repeat`, `StringTable.internAll_first`: a repeated
  string leaves the table as it was, a first occurrence appends its length
  and its bytes;
* `StringTable.internAll_holds`: the stream still starts with the sentinel
  and holds every entry at its offset, so each offset resolves in the final
  stream to the bytes filed under it (`StringTable.internAll_resolves`);
* `StringTable.InternsExactly` lists what a fresh table promises for a
  sequence, references written by `writeRef` and read back by `readRef`
  included, and `StringTable.intern_sequence` proves it of every sequence.

Offsets are 64-bit words, so the stream must stay below `2 ^ 64` bytes: each
string adds at most its bytes and a ten-byte length.
-/

namespace IrStream

namespace Bytes

/-- A byte array is determined by its list of bytes. -/
theorem data_toList_injective : Function.Injective fun b : ByteArray => b.data.toList := by
  intro a b same
  exact ByteArray.ext (Array.ext' same)

end Bytes

namespace StringTable

/-- Intern byte strings one after another: the offsets handed out, in order,
and the table left. -/
def internAll (t : StringTable) : List ByteArray → List UInt64 × StringTable
  | [] => ([], t)
  | b :: bs => ((t.intern b).1 :: ((t.intern b).2.internAll bs).1, ((t.intern b).2.internAll bs).2)

@[simp] theorem internAll_nil (t : StringTable) : t.internAll [] = ([], t) := rfl

@[simp] theorem internAll_cons (t : StringTable) (b : ByteArray) (bs : List ByteArray) :
    t.internAll (b :: bs) =
      ((t.intern b).1 :: ((t.intern b).2.internAll bs).1, ((t.intern b).2.internAll bs).2) := rfl

theorem internAll_append (t : StringTable) (xs ys : List ByteArray) :
    t.internAll (xs ++ ys) =
      ((t.internAll xs).1 ++ ((t.internAll xs).2.internAll ys).1,
        ((t.internAll xs).2.internAll ys).2) := by
  induction xs generalizing t with
  | nil => rfl
  | cons x xs ih => simp [ih]

/-! ### One string -/

theorem intern_of_found {t : StringTable} {b : ByteArray} {offset : UInt64}
    (found : t.offsets.get? b.data.toList = some offset) : t.intern b = (offset, t) := by
  have filed : t.offsets[b.data.toList]? = some offset := by simpa using found
  simp [intern, Bytes.toList_eq, filed]

theorem intern_of_missing {t : StringTable} {b : ByteArray}
    (missing : t.offsets.get? b.data.toList = none) :
    t.intern b = (t.stream.size.toUInt64,
      { stream := Out.bytes (Out.uleb t.stream b.size.toUInt64) b
        offsets := t.offsets.insert b.data.toList t.stream.size.toUInt64 }) := by
  have unfiled : t.offsets[b.data.toList]? = none := by simpa using missing
  simp [intern, Bytes.toList_eq, unfiled]

/-- Interning files the bytes under the offset it returns. -/
theorem intern_found (t : StringTable) (b : ByteArray) :
    (t.intern b).2.offsets.get? b.data.toList = some (t.intern b).1 := by
  cases filed : t.offsets.get? b.data.toList with
  | some offset => rw [intern_of_found filed]; exact filed
  | none => simp [intern_of_missing filed]

/-- Interning leaves the entries of other byte strings alone. -/
theorem intern_other {t : StringTable} {b : ByteArray} {key : List UInt8}
    (other : b.data.toList ≠ key) : (t.intern b).2.offsets.get? key = t.offsets.get? key := by
  cases filed : t.offsets.get? b.data.toList with
  | some offset => rw [intern_of_found filed]
  | none =>
    rw [intern_of_missing filed, Std.HashMap.get?_insert, if_neg (by simpa using other)]

/-- An entry, once filed, keeps its offset. -/
theorem intern_keeps {t : StringTable} {key : List UInt8} {offset : UInt64}
    (found : t.offsets.get? key = some offset) (b : ByteArray) :
    (t.intern b).2.offsets.get? key = some offset := by
  by_cases same : b.data.toList = key
  · subst same
    rw [intern_of_found found]
    exact found
  · rw [intern_other same, found]

/-- A string not filed yet is appended as its length and its bytes. -/
theorem intern_stream_of_missing {t : StringTable} {b : ByteArray}
    (missing : t.offsets.get? b.data.toList = none) :
    (t.intern b).2.stream.data.toList =
      t.stream.data.toList ++ Leb128.ofUInt64 b.size.toUInt64 ++ b.data.toList := by
  simp [intern_of_missing missing, Bytes.bytes_data, Bytes.uleb_data]

/-! ### A sequence of strings -/

theorem length_internAll (t : StringTable) (ss : List ByteArray) :
    (t.internAll ss).1.length = ss.length := by
  induction ss generalizing t with
  | nil => rfl
  | cons b bs ih => simp [ih]

theorem internAll_keeps {t : StringTable} {key : List UInt8} {offset : UInt64}
    (found : t.offsets.get? key = some offset) (ss : List ByteArray) :
    (t.internAll ss).2.offsets.get? key = some offset := by
  induction ss generalizing t with
  | nil => exact found
  | cons b bs ih => exact ih (intern_keeps found b)

/-- Every string of the sequence is filed, in the final table, under the
offset handed out for it. -/
theorem internAll_found (t : StringTable) (ss : List ByteArray) :
    List.Forall₂ (fun b offset => (t.internAll ss).2.offsets.get? b.data.toList = some offset)
      ss (t.internAll ss).1 := by
  induction ss generalizing t with
  | nil => exact .nil
  | cons b bs ih => exact .cons (internAll_keeps (intern_found t b) bs) (ih _)

theorem internAll_found_of_mem {t : StringTable} {ss : List ByteArray} {b : ByteArray}
    (member : b ∈ ss) : ∃ offset, (t.internAll ss).2.offsets.get? b.data.toList = some offset := by
  obtain ⟨i, below, rfl⟩ := List.getElem_of_mem member
  have filed := (List.forall₂_iff_get.1 (internAll_found t ss)).2 i below
    (by rw [length_internAll]; exact below)
  exact ⟨_, filed⟩

/-- Strings outside the sequence keep the entries they had. -/
theorem internAll_other {t : StringTable} {ss : List ByteArray} {key : List UInt8}
    (absent : ∀ b ∈ ss, b.data.toList ≠ key) :
    (t.internAll ss).2.offsets.get? key = t.offsets.get? key := by
  induction ss generalizing t with
  | nil => rfl
  | cons b bs ih =>
    rw [internAll_cons, ih fun b' member => absent b' (List.mem_cons_of_mem _ member),
      intern_other (absent b List.mem_cons_self)]

/-- Interning a string met before leaves the table as it was. -/
theorem internAll_repeat {t : StringTable} {pre : List ByteArray} {b : ByteArray} (seen : b ∈ pre) :
    (t.internAll (pre ++ [b])).2 = (t.internAll pre).2 := by
  obtain ⟨offset, found⟩ := internAll_found_of_mem (t := t) seen
  simp [internAll_append, intern_of_found found]

/-- Interning a string never met, from the empty table, appends its length and
its bytes to the stream. -/
theorem internAll_first {pre : List ByteArray} {b : ByteArray} (fresh : b ∉ pre) :
    (({} : StringTable).internAll (pre ++ [b])).2.stream.data.toList =
      (({} : StringTable).internAll pre).2.stream.data.toList ++
        Leb128.ofUInt64 b.size.toUInt64 ++ b.data.toList := by
  have missing : (({} : StringTable).internAll pre).2.offsets.get? b.data.toList = none := by
    rw [internAll_other fun b' member same => by
      obtain rfl := Bytes.data_toList_injective same
      exact fresh member]
    simp
  simp [internAll_append, intern_stream_of_missing missing]

/-! ### The final stream -/

theorem stream_isPrefix_internAll (t : StringTable) (ss : List ByteArray) :
    t.stream.data.toList <+: (t.internAll ss).2.stream.data.toList := by
  induction ss generalizing t with
  | nil => exact List.prefix_refl _
  | cons b bs ih =>
    have first := intern_prefix t b
    exact first.trans (ih _)

/-- The stream grows by at most each string's bytes and a ten-byte length. -/
theorem internAll_size_le (t : StringTable) (ss : List ByteArray) :
    (t.internAll ss).2.stream.size ≤ t.stream.size + (ss.map fun b => b.size + 10).sum := by
  induction ss generalizing t with
  | nil => simp
  | cons b bs ih =>
    have first := intern_size_le t b
    have rest := ih (t.intern b).2
    simp only [internAll_cons, List.map_cons, List.sum_cons]
    omega

theorem internAll_holds {t : StringTable} (holds : t.Holds) (ss : List ByteArray)
    (small : (t.internAll ss).2.stream.size < 2 ^ 64) : (t.internAll ss).2.Holds := by
  induction ss generalizing t with
  | nil => exact holds
  | cons b bs ih =>
    -- the stream before this string is a prefix of the final one, so it fits too
    have before : t.stream.size < 2 ^ 64 := by
      have longer := (stream_isPrefix_internAll t (b :: bs)).length_le
      simp only [Array.length_toList] at longer
      exact lt_of_le_of_lt longer small
    exact ih (intern_holds holds b before).1 small

/-- Every offset handed out resolves, in the final stream, to its string. -/
theorem internAll_resolves {t : StringTable} (holds : t.Holds) (ss : List ByteArray)
    (small : (t.internAll ss).2.stream.size < 2 ^ 64) :
    List.Forall₂ (fun b offset => StringReader.get (t.internAll ss).2.stream offset = .ok (some b))
      ss (t.internAll ss).1 := by
  have final := internAll_holds holds ss small
  refine (internAll_found t ss).imp fun b offset found => ?_
  rw [StringReader.get_of_entry final (List.prefix_refl _) small found]

/-- Every offset handed out is past the sentinel. -/
theorem internAll_positive {t : StringTable} (holds : t.Holds) (ss : List ByteArray)
    (small : (t.internAll ss).2.stream.size < 2 ^ 64) : ∀ offset ∈ (t.internAll ss).1, 1 ≤ offset := by
  intro offset member
  obtain ⟨i, below, rfl⟩ := List.getElem_of_mem member
  have filed := (List.forall₂_iff_get.1 (internAll_found t ss)).2 (i := i)
    (by rw [← length_internAll t ss]; exact below) below
  have positive := ((internAll_holds holds ss small).2 _ _ filed).1
  have one : (1 : UInt64).toNat = 1 := rfl
  rw [UInt64.le_iff_toNat_le, one]
  exact positive

/-- What interning the byte strings `ss` one after another into a fresh table
gives, with `o₀ … oₖ` the offsets handed out and `T` the table left. -/
structure InternsExactly (ss : List ByteArray) : Prop where
  /-- `oᵢ = oⱼ` exactly when `sᵢ = sⱼ`. -/
  sameOffset : ∀ i j, i < ss.length → j < ss.length →
    ((({} : StringTable).internAll ss).1[i]? = (({} : StringTable).internAll ss).1[j]? ↔
      ss[i]? = ss[j]?)
  /-- No offset is the null offset. -/
  positive : ∀ offset ∈ (({} : StringTable).internAll ss).1, 1 ≤ offset
  /-- A string met before leaves the table as it was. -/
  repeated : ∀ pre b, pre ++ [b] <+: ss → b ∈ pre →
    (({} : StringTable).internAll (pre ++ [b])).2 = (({} : StringTable).internAll pre).2
  /-- A first occurrence grows the stream by the string's length, then its bytes. -/
  firstSeen : ∀ pre b, pre ++ [b] <+: ss → b ∉ pre →
    (({} : StringTable).internAll (pre ++ [b])).2.stream.data.toList =
      (({} : StringTable).internAll pre).2.stream.data.toList ++
        Leb128.ofUInt64 b.size.toUInt64 ++ b.data.toList
  /-- In the final stream each `oᵢ` resolves to `sᵢ`. -/
  resolves : List.Forall₂
    (fun b offset => StringReader.get (({} : StringTable).internAll ss).2.stream offset = .ok (some b))
    ss (({} : StringTable).internAll ss).1
  /-- Offset 0 resolves to no string. -/
  null : StringReader.get (({} : StringTable).internAll ss).2.stream 0 = .ok none
  /-- A reference written by `writeRef` reads back by `readRef`, as the string
  or as no string, over any stream that extends the table's. -/
  readRef_writeRef : ∀ (out : ByteArray) (bytes : Option ByteArray) (S : ByteArray) (name : String),
    ((({} : StringTable).internAll ss).2.writeRef out bytes).2.stream.data.toList <+: S.data.toList →
    S.size < 2 ^ 64 →
    StringReader.readRef S ⟨name, ((({} : StringTable).internAll ss).2.writeRef out bytes).1, out.size⟩ =
      .ok bytes ⟨name, ((({} : StringTable).internAll ss).2.writeRef out bytes).1,
        ((({} : StringTable).internAll ss).2.writeRef out bytes).1.size⟩

/-- String interning: any byte strings interned into a fresh table get offsets
that name them exactly, in the final stream and through references. The
stream must fit below `2 ^ 64` bytes, its offsets being 64-bit words: each
string adds at most its bytes and a ten-byte length to the sentinel. -/
theorem intern_sequence (ss : List ByteArray) (fits : 1 + (ss.map fun b => b.size + 10).sum < 2 ^ 64) :
    InternsExactly ss := by
  have small : (({} : StringTable).internAll ss).2.stream.size < 2 ^ 64 := by
    have grown := internAll_size_le {} ss
    have sentinel : ({} : StringTable).stream.size = 1 := rfl
    omega
  have resolves := internAll_resolves empty_holds ss small
  have found := internAll_found {} ss
  have sameLength := length_internAll {} ss
  refine ⟨fun i j hi hj => ?_, internAll_positive empty_holds ss small,
    fun pre b _ seen => internAll_repeat seen, fun pre b _ fresh => internAll_first fresh, resolves,
    rfl, fun out bytes S name extended fits => ?_⟩
  · -- equal offsets resolve to the same string; equal strings are filed under one offset
    have hi' : i < (({} : StringTable).internAll ss).1.length := by rw [sameLength]; exact hi
    have hj' : j < (({} : StringTable).internAll ss).1.length := by rw [sameLength]; exact hj
    have getI := (List.forall₂_iff_get.1 resolves).2 i hi hi'
    have getJ := (List.forall₂_iff_get.1 resolves).2 j hj hj'
    have fileI := (List.forall₂_iff_get.1 found).2 i hi hi'
    have fileJ := (List.forall₂_iff_get.1 found).2 j hj hj'
    simp only [List.get_eq_getElem] at getI getJ fileI fileJ
    rw [List.getElem?_eq_getElem hi, List.getElem?_eq_getElem hj, List.getElem?_eq_getElem hi',
      List.getElem?_eq_getElem hj', Option.some.injEq, Option.some.injEq]
    constructor
    · intro same
      have both := getI.symm.trans (same ▸ getJ)
      simpa using both
    · intro same
      have both := fileI.symm.trans (same ▸ fileJ)
      simpa using both
  · -- the reference is the varint of an offset that resolves in the extended stream
    obtain ⟨offset, written, -, -, resolved⟩ :=
      writeRef_spec (internAll_holds empty_holds ss small) small out bytes
    have outSize : out.size = out.data.toList.length := by rw [Array.length_toList]; rfl
    have ahead : Cursor.ahead ⟨name, ((({} : StringTable).internAll ss).2.writeRef out bytes).1,
        out.size⟩ = Leb128.ofUInt64 offset ++ [] := by
      rw [Cursor.ahead, written, outSize, List.drop_left, List.append_nil]
    rw [StringReader.readRef_of_ahead ahead (resolved S extended fits)]
    have length := congrArg List.length written
    simp only [List.length_append, Array.length_toList] at length
    simp only [Cursor.advance, ByteArray.size, length]

/-- Byte strings with a repeat, two empty strings and bytes that read as a varint. -/
def varintLooking : List ByteArray :=
  [⟨#[0x6d, 0x61, 0x69, 0x6e]⟩, ⟨#[]⟩, ⟨#[0x80, 0x01]⟩, ⟨#[0x6d, 0x61, 0x69, 0x6e]⟩, ⟨#[]⟩]

theorem varintLooking_interned :
    1 + (varintLooking.map fun b => b.size + 10).sum < 2 ^ 64 ∧ InternsExactly varintLooking :=
  ⟨by decide, intern_sequence varintLooking (by decide)⟩

end StringTable

end IrStream
