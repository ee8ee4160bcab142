import Mathlib
import IrStream.Proofs.Wire

/-!
Varints as a whole. `Proofs.Wire` reads a varint back from any cursor whose
bytes ahead start with it; here the writers' output is bounded and the 32-bit
readers are characterised on every 64-bit word:

* `Leb128.length_unsigned_le`, `Leb128.length_signed_le`: a value of `7k`
  bits takes at most `k` groups, so a 64-bit word at most ten bytes;
* `CursorM.readU32_of_uleb`, `CursorM.readI32_of_sleb`: the 32-bit readers over
  any 64-bit varint pass exactly the words that fit and refuse the others after
  consuming them;
* `varint_round_trip`: a fresh cursor over a written varint and any bytes
  after it reads the word back, stops right after it, and the 32-bit readers
  succeed exactly on the words that fit.
-/

namespace IrStream

namespace Leb128

/-- A value below `2 ^ (7 * (k + 1))` takes at most `k + 1` groups. -/
theorem length_unsigned_le (k : Nat) {n : Nat} (below : n < 2 ^ (7 * (k + 1))) :
    (unsigned n).length ≤ k + 1 := by
  induction k generalizing n with
  | zero => rw [unsigned_of_lt (by simpa using below)]; simp
  | succ k ih =>
    by_cases small : n < 128
    · rw [unsigned_of_lt small]; simp
    · rw [unsigned_of_le (by omega), List.length_cons]
      have rest : n / 128 < 2 ^ (7 * (k + 1)) := by
        rw [Nat.div_lt_iff_lt_mul (by norm_num)]
        calc n < 2 ^ (7 * (k + 1 + 1)) := below
          _ = 2 ^ (7 * (k + 1)) * 128 := by rw [Nat.mul_succ, Nat.pow_add]
      have := ih rest
      omega

/-- A value in `[-2 ^ (7k + 6), 2 ^ (7k + 6))` takes at most `k + 1` groups:
each group carries seven bits, and the last one's bit 6 is the sign. -/
theorem length_signed_le (k : Nat) {v : Int} (lo : -2 ^ (7 * k + 6) ≤ v)
    (hi : v < 2 ^ (7 * k + 6)) : (signed v).length ≤ k + 1 := by
  induction k generalizing v with
  | zero =>
    -- one group holds every value of seven bits, sign included
    have done : signedDone (v / 128) (v % 128).toNat = true := by
      simp only [signedDone, Bool.or_eq_true, Bool.and_eq_true, beq_iff_eq, decide_eq_true_eq]
      norm_num at lo hi
      omega
    rw [signed_of_done done]; simp
  | succ k ih =>
    cases done : signedDone (v / 128) (v % 128).toNat with
    | true => rw [signed_of_done done]; simp
    | false =>
      rw [signed_of_more done, List.length_cons]
      have scale : (2 : Int) ^ (7 * (k + 1) + 6) = 2 ^ (7 * k + 6) * 128 := by
        rw [show 7 * (k + 1) + 6 = 7 * k + 6 + 7 by omega, pow_add]; norm_num
      have pos : (0 : Int) < 2 ^ (7 * k + 6) := by positivity
      have := ih (v := v / 128) (by rw [scale] at lo; omega) (by rw [scale] at hi; omega)
      omega

/-- A 64-bit word's varint has at most ten bytes. -/
theorem length_ofUInt64_le (v : UInt64) : (ofUInt64 v).length ≤ 10 :=
  length_unsigned_le 9 (lt_of_lt_of_le v.toNat_lt (by norm_num))

/-- A signed 64-bit word's varint has at most ten bytes. -/
theorem length_ofInt64_le (w : Int64) : (ofInt64 w).length ≤ 10 := by
  have lo : -2 ^ 63 ≤ w.toInt := by have := Int64.le_toInt w; simpa using this
  have hi : w.toInt < 2 ^ 63 := by have := Int64.toInt_lt w; simpa using this
  exact length_signed_le 9 (by norm_num at lo ⊢; omega) (by norm_num at hi ⊢; omega)

end Leb128

namespace Cursor

/-- A fresh cursor has the whole stream ahead of it. -/
@[simp] theorem ahead_fresh (name : String) (bytes : List UInt8) :
    ({ name, data := ⟨bytes.toArray⟩ } : Cursor).ahead = bytes := by
  simp [ahead]

@[simp] theorem fresh_advance (name : String) (data : ByteArray) (n : Nat) :
    ({ name, data } : Cursor).advance n = { name, data, pos := n } := by
  simp [advance]

end Cursor

namespace CursorM

/-- The unsigned 32-bit reader over any 64-bit varint: the word if it fits,
else a consistency error naming the stream and the word; either way after
the varint. -/
theorem readU32_of_uleb {c : Cursor} {v : UInt64} {rest : List UInt8}
    (ahead : c.ahead = Leb128.ofUInt64 v ++ rest) :
    readU32 c = if v.toNat < 2 ^ 32 then .ok v.toUInt32 (c.advance (Leb128.ofUInt64 v).length)
      else .error (.consistency s!"{c.name} stream: {v} does not fit 32 bits")
        (c.advance (Leb128.ofUInt64 v).length) := by
  have bound : Nat.pow 2 32 = 2 ^ 32 := rfl
  simp only [readU32, bind, EStateM.bind, readUleb_of_ahead ahead, bound]
  split <;> rfl

/-- The signed 32-bit reader over any signed 64-bit varint: the word if it
fits in 32 bits, else a consistency error; either way after the varint. -/
theorem readI32_of_sleb {c : Cursor} {w : Int64} {rest : List UInt8}
    (ahead : c.ahead = Leb128.ofInt64 w ++ rest) :
    readI32 c = if -2 ^ 31 ≤ w.toInt ∧ w.toInt < 2 ^ 31 then
        .ok w.toInt32 (c.advance (Leb128.ofInt64 w).length)
      else .error (.consistency s!"{c.name} stream: {w} does not fit 32 bits")
        (c.advance (Leb128.ofInt64 w).length) := by
  have bound : Int.pow 2 31 = 2 ^ 31 := rfl
  simp only [readI32, bind, EStateM.bind, readSleb_of_ahead ahead, bound, Bool.and_eq_true,
    decide_eq_true_eq]
  split <;> rfl

/-- A reader's answer is a success exactly when its outcome was chosen so. -/
theorem ok_iff_of_ite {α : Type} {p : Prop} [Decidable p] {a : α} {e : StreamError} {c d : Cursor}
    {r : EStateM.Result StreamError Cursor α} (outcome : r = if p then .ok a c else .error e d) :
    (∃ x c', r = .ok x c') ↔ p := by
  subst outcome
  by_cases holds : p <;> simp [holds]

end CursorM

/-- LEB128 round trip. A fresh cursor over the bytes `uleb` writes for a
64-bit word, followed by any bytes, reads the word back and stops right after
the at most ten bytes written; so does a signed word through `sleb`. The
32-bit readers over the same bytes succeed exactly on the words that fit in
32 bits. -/
theorem varint_round_trip (name : String) (v : UInt64) (w : Int64) (s : List UInt8) :
    let ubytes := (Out.uleb .empty v).data.toList
    let sbytes := (Out.sleb .empty w).data.toList
    let udata : ByteArray := ⟨(ubytes ++ s).toArray⟩
    let sdata : ByteArray := ⟨(sbytes ++ s).toArray⟩
    Cursor.run name udata CursorM.readUleb = .ok v { name, data := udata, pos := ubytes.length } ∧
      Cursor.run name sdata CursorM.readSleb = .ok w { name, data := sdata, pos := sbytes.length } ∧
      ubytes.length ≤ 10 ∧ sbytes.length ≤ 10 ∧
      ((∃ x c, Cursor.run name udata CursorM.readU32 = .ok x c) ↔ v.toNat < 2 ^ 32) ∧
      ((∃ x c, Cursor.run name sdata CursorM.readI32 = .ok x c) ↔
        -2 ^ 31 ≤ w.toInt ∧ w.toInt < 2 ^ 31) := by
  intro ubytes sbytes udata sdata
  have written : ubytes = Leb128.ofUInt64 v := by simp [ubytes]
  have swritten : sbytes = Leb128.ofInt64 w := by simp [sbytes]
  have uahead : ({ name, data := udata } : Cursor).ahead = Leb128.ofUInt64 v ++ s := by
    simp [udata, written]
  have sahead : ({ name, data := sdata } : Cursor).ahead = Leb128.ofInt64 w ++ s := by
    simp [sdata, swritten]
  refine ⟨?_, ?_, written ▸ Leb128.length_ofUInt64_le v, swritten ▸ Leb128.length_ofInt64_le w,
    CursorM.ok_iff_of_ite (CursorM.readU32_of_uleb uahead),
    CursorM.ok_iff_of_ite (CursorM.readI32_of_sleb sahead)⟩
  · simpa [Cursor.run, EStateM.run, written] using CursorM.readUleb_of_ahead uahead
  · simpa [Cursor.run, EStateM.run, swritten] using CursorM.readSleb_of_ahead sahead

end IrStream
