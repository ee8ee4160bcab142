import Mathlib
import IrStream.Wire.Cursor
import IrStream.Wire.Output

/-!
Reading back what the stream writers append. `Cursor.ahead` is the list of
bytes a cursor has still to read and `Cursor.advance` moves it on; every
reader, run on a cursor whose bytes ahead start with what its writer
appended, returns the value written and consumes exactly those bytes:

* `Bytes.uleb_data`, `Bytes.sleb_data` and the other `Bytes` lemmas: what each
  writer appends to a stream, as a list of bytes;
* `CursorM.readUleb_of_ahead`, `CursorM.readSleb_of_ahead`: LEB128 varints of
  64-bit words, proved along the readers' own recursion over the group index
  (`ulebFrom_unsigned`, `slebFrom_signed`), the sign extension of a short
  negative encoding and the tenth group, which keeps only bit 63, included;
* `CursorM.readU32_of_ahead`, `CursorM.readI32_of_ahead`: a 32-bit word
  written as a varint passes the reader's range check;
* `CursorM.readU16le_of_ahead`, `CursorM.readU32le_of_ahead`: little-endian words.
-/

namespace IrStream

namespace Bytes

theorem toList_loop (b : ByteArray) (i : Nat) (r : List UInt8) :
    ByteArray.toList.loop b i r = r.reverse ++ b.data.toList.drop i := by
  fun_induction ByteArray.toList.loop b i r with
  | case1 i r hi ih =>
    rw [ih, List.reverse_cons, List.append_assoc, List.singleton_append]
    have hlen : i < b.data.toList.length := by simpa using hi
    have hget : b.get! i = b.data.toList[i] := by simp [ByteArray.get!, hi]
    rw [hget, ← List.drop_eq_getElem_cons]
  | case2 i r hi =>
    rw [List.drop_eq_nil_of_le (by simpa using Nat.le_of_not_lt hi), List.append_nil]

/-- A byte array read as a list is its underlying array's list. -/
theorem toList_eq (b : ByteArray) : b.toList = b.data.toList := by
  rw [ByteArray.toList, toList_loop]; simp

@[simp] theorem list_data (out : ByteArray) (bs : List UInt8) :
    (Out.list out bs).data.toList = out.data.toList ++ bs := by
  induction bs generalizing out with
  | nil => simp [Out.list]
  | cons b bs ih =>
    have := ih (out.push b)
    simp only [Out.list, List.foldl_cons] at this ⊢
    rw [this]; simp

@[simp] theorem u8_data (out : ByteArray) (b : UInt8) :
    (Out.u8 out b).data.toList = out.data.toList ++ [b] := by
  simp [Out.u8]

@[simp] theorem bytes_data (out more : ByteArray) :
    (Out.bytes out more).data.toList = out.data.toList ++ more.data.toList := by
  simp [Out.bytes]

@[simp] theorem uleb_data (out : ByteArray) (v : UInt64) :
    (Out.uleb out v).data.toList = out.data.toList ++ Leb128.ofUInt64 v := by
  simp [Out.uleb]

@[simp] theorem sleb_data (out : ByteArray) (v : Int64) :
    (Out.sleb out v).data.toList = out.data.toList ++ Leb128.ofInt64 v := by
  simp [Out.sleb]

@[simp] theorem u16le_data (out : ByteArray) (v : UInt16) :
    (Out.u16le out v).data.toList = out.data.toList ++ [v.toUInt8, (v >>> 8).toUInt8] := by
  simp [Out.u16le]

@[simp] theorem u32le_data (out : ByteArray) (v : UInt32) :
    (Out.u32le out v).data.toList =
      out.data.toList ++ [v.toUInt8, (v >>> 8).toUInt8, (v >>> 16).toUInt8, (v >>> 24).toUInt8] := by
  simp [Out.u32le]

end Bytes

namespace Cursor

/-- The bytes a cursor has still to read. -/
def ahead (c : Cursor) : List UInt8 := c.data.data.toList.drop c.pos

/-- The cursor `n` bytes further on. -/
def advance (c : Cursor) (n : Nat) : Cursor := { c with pos := c.pos + n }

@[simp] theorem ahead_advance (c : Cursor) (n : Nat) : (c.advance n).ahead = c.ahead.drop n := by
  simp [ahead, advance, List.drop_drop, Nat.add_comm]

@[simp] theorem advance_advance (c : Cursor) (m n : Nat) :
    (c.advance m).advance n = c.advance (m + n) := by
  simp [advance, Nat.add_assoc]

@[simp] theorem advance_zero (c : Cursor) : c.advance 0 = c := rfl

@[simp] theorem advance_name (c : Cursor) (n : Nat) : (c.advance n).name = c.name := rfl

@[simp] theorem advance_data (c : Cursor) (n : Nat) : (c.advance n).data = c.data := rfl

theorem pos_add_le_of_ahead {c : Cursor} {bs rest : List UInt8} (h : c.ahead = bs ++ rest)
    (hpos : c.pos ≤ c.data.size) : c.pos + bs.length ≤ c.data.size := by
  have hlen := congrArg List.length h
  simp only [ahead, List.length_drop, Array.length_toList, List.length_append] at hlen
  change c.pos + bs.length ≤ c.data.data.size
  change c.pos ≤ c.data.data.size at hpos
  omega

/-- The bytes ahead of a cursor are the bytes it has left. -/
theorem length_le_remaining {c : Cursor} {bs rest : List UInt8} (h : c.ahead = bs ++ rest) :
    bs.length ≤ c.remaining := by
  have hlen := congrArg List.length h
  simp only [ahead, List.length_drop, Array.length_toList, List.length_append] at hlen
  change bs.length ≤ c.data.data.size - c.pos
  omega

theorem pos_lt_of_ahead {c : Cursor} {b : UInt8} {rest : List UInt8} (h : c.ahead = b :: rest) :
    c.pos < c.data.size := by
  have hlen := congrArg List.length h
  simp only [ahead, List.length_drop, Array.length_toList, List.length_cons] at hlen
  change c.pos < c.data.data.size
  omega

end Cursor

namespace Leb128

theorem unsigned_of_lt {n : Nat} (h : n < 128) : unsigned n = [n.toUInt8] := by
  rw [unsigned, if_pos h]

theorem unsigned_of_le {n : Nat} (h : 128 ≤ n) :
    unsigned n = (n % 128 + 128).toUInt8 :: unsigned (n / 128) := by
  rw [unsigned, if_neg (by omega)]

theorem signed_of_done {v : Int} (h : signedDone (v / 128) (v % 128).toNat = true) :
    signed v = [(v % 128).toNat.toUInt8] := by
  rw [signed]; simp only [h, if_true]

theorem signed_of_more {v : Int} (h : signedDone (v / 128) (v % 128).toNat = false) :
    signed v = ((v % 128).toNat + 128).toUInt8 :: signed (v / 128) := by
  rw [signed]; simp only [h, Bool.false_eq_true, if_false]

/-- A 32-bit number widened to a signed 64-bit word, as the writers do before a
signed varint, keeps its value. -/
theorem toInt_toInt64 (i : UInt32) : i.toUInt64.toInt64.toInt = i.toNat := by
  have small : i.toNat < 2 ^ 63 := by have := i.toNat_lt; simp at this ⊢; omega
  have widened : i.toUInt64 = UInt64.ofNat i.toNat := by simp
  rw [widened, UInt64.toInt64_ofNat', Int64.toInt_ofNat_of_lt small]

/-- A count below 2³² kept in a 32-bit field keeps its value. -/
theorem toNat_toUInt32 {n : Nat} (fits : n < UInt32.size) : n.toUInt32.toNat = n := by
  rw [Nat.toUInt32_eq]
  exact UInt32.toNat_ofNat_of_lt' fits

/-- Such a count widened again for a varint is the count's own 64-bit word. -/
theorem toUInt64_toUInt32 {n : Nat} (fits : n < UInt32.size) : n.toUInt32.toUInt64 = n.toUInt64 := by
  have wider : UInt32.size < UInt64.size := by decide
  apply UInt64.toNat_inj.1
  rw [UInt32.toNat_toUInt64, toNat_toUInt32 fits, Nat.toUInt64_eq, UInt64.toNat_ofNat_of_lt' (by omega)]

end Leb128

namespace CursorM

theorem readU8_of_ahead {c : Cursor} {b : UInt8} {rest : List UInt8} (h : c.ahead = b :: rest) :
    readU8 c = .ok b (c.advance 1) := by
  have hlt : c.pos < c.data.size := Cursor.pos_lt_of_ahead h
  have hb : c.data[c.pos] = b := by
    have := congrArg List.head? h
    simp only [Cursor.ahead, List.head?_drop, Array.getElem?_toList, List.head?_cons] at this
    rw [ByteArray.getElem_eq_getElem_data]
    exact Option.some.inj ((Array.getElem?_eq_getElem _).symm.trans this)
  simp only [readU8, bind, EStateM.bind, get, getThe, MonadStateOf.get, EStateM.get, set, pure]
  rw [dif_pos hlt]
  subst hb
  rfl

/-- A step that succeeds hands its value and state to what follows. -/
theorem bind_ok {ε σ α β : Type} {m : EStateM ε σ α} {k : α → EStateM ε σ β} {s s' : σ} {a : α}
    (h : m s = .ok a s') : EStateM.bind m k s = k a s' := by
  simp only [EStateM.bind, h]

/-- A count no larger than the bytes left, or than the allowance, passes the
check, which reads nothing. -/
theorem checkCount_of_le {c : Cursor} {what : String} {count : UInt64} {unwritten : Nat}
    (bounded : count.toNat ≤ max c.remaining unwritten) :
    checkCount what count unwritten c = .ok count.toNat c := by
  have passes : c.checkCount what count unwritten = .ok count.toNat := by
    rw [Cursor.checkCount, if_pos bounded]
  simp only [checkCount, bind, EStateM.bind, get, getThe, MonadStateOf.get, EStateM.get, passes, pure,
    EStateM.pure]

theorem readBytes_of_ahead {c : Cursor} {bs rest : List UInt8} (h : c.ahead = bs ++ rest)
    (hpos : c.pos ≤ c.data.size) :
    ∃ b : ByteArray, readBytes bs.length c = .ok b (c.advance bs.length) ∧ b.data.toList = bs := by
  have hle := Cursor.pos_add_le_of_ahead h hpos
  refine ⟨c.data.extract c.pos (c.pos + bs.length), ?_, ?_⟩
  · simp only [readBytes, bind, EStateM.bind, get, getThe, MonadStateOf.get, EStateM.get, set,
      pure]
    rw [if_pos hle]
    rfl
  · have := congrArg (List.take bs.length) h
    simp only [List.take_left'] at this
    rw [← this]
    have hmin : min (c.pos + bs.length) c.data.size - c.pos = bs.length := by omega
    simp [Cursor.ahead, ByteArray.data_extract, List.take_drop, hmin]

end CursorM

namespace Varint

/-- The payload and continuation bit of a final byte. -/
theorem lastByte {w : Nat} (hw : w < 128) :
    (w.toUInt8 &&& 0x7f).toUInt64.toNat = w ∧ (w.toUInt8 &&& 0x80 == 0) = true := by
  have hb : w.toUInt8.toNat = w := by simp; omega
  constructor
  · rw [UInt8.toNat_toUInt64, UInt8.toNat_and, hb, show (0x7f : UInt8).toNat = 2 ^ 7 - 1 from rfl,
      Nat.and_two_pow_sub_one_eq_mod]; omega
  · have : (w.toUInt8 &&& 0x80).toNat = 0 := by
      rw [UInt8.toNat_and, hb, show (0x80 : UInt8).toNat = 2 ^ 7 from rfl, Nat.and_two_pow,
        Nat.testBit_eq_decide_div_mod_eq]
      simp; omega
    simp only [beq_iff_eq]
    exact UInt8.toNat_inj.mp this

/-- The payload and continuation bit of a byte that another byte follows. -/
theorem moreByte (w : Nat) :
    ((w % 128 + 128).toUInt8 &&& 0x7f).toUInt64.toNat = w % 128 ∧
      ((w % 128 + 128).toUInt8 &&& 0x80 == 0) = false := by
  have hb : (w % 128 + 128).toUInt8.toNat = w % 128 + 128 := by simp; omega
  constructor
  · rw [UInt8.toNat_toUInt64, UInt8.toNat_and, hb, show (0x7f : UInt8).toNat = 2 ^ 7 - 1 from rfl,
      Nat.and_two_pow_sub_one_eq_mod]; omega
  · have : (((w % 128 + 128).toUInt8) &&& 0x80).toNat = 128 := by
      rw [UInt8.toNat_and, hb, show (0x80 : UInt8).toNat = 2 ^ 7 from rfl, Nat.and_two_pow,
        Nat.testBit_eq_decide_div_mod_eq]
      simp
    simp only [beq_eq_false_iff_ne, ne_eq]
    intro h; rw [h] at this; simp at this

/-- OR-ing a group in at bit `s`, above an accumulator that holds only lower
bits, adds the part of the group that fits in 64 bits. -/
theorem or_shift_toNat {acc x : UInt64} {low g s : Nat} (hacc : acc.toNat = low) (hx : x.toNat = g)
    (hlow : low < 2 ^ s) (hs : s < 64) :
    (acc ||| x <<< s.toUInt64).toNat = low + 2 ^ s * (g % 2 ^ (64 - s)) := by
  have hsmod : s.toUInt64.toNat % 64 = s := by simp; omega
  have hpow : 2 ^ 64 = 2 ^ s * 2 ^ (64 - s) := by rw [← Nat.pow_add]; congr 1; omega
  have hshift : (x <<< s.toUInt64).toNat = 2 ^ s * (g % 2 ^ (64 - s)) := by
    rw [UInt64.toNat_shiftLeft, hsmod, Nat.shiftLeft_eq, hx, Nat.mul_comm, hpow,
      Nat.mul_mod_mul_left]
  rw [UInt64.toNat_or, hshift, hacc, Nat.or_comm, ← Nat.two_pow_add_eq_or_of_lt hlow]
  omega

/-- Splitting off one more group below a power of two. -/
theorem emod_mul_group (v a : Int) (ha : 0 < a) : v % (a * 128) = v % a + a * (v / a % 128) := by
  have h1 := Int.mul_ediv_add_emod v a
  have h2 := Int.mul_ediv_add_emod (v / a) 128
  have hM := Int.emod_nonneg v ha.ne'
  have hM' := Int.emod_lt_of_pos v ha
  have ht := Int.emod_nonneg (v / a) (by norm_num : (128 : Int) ≠ 0)
  have ht' := Int.emod_lt_of_pos (v / a) (by norm_num : (0 : Int) < 128)
  refine ((@Int.ediv_emod_unique v (a * 128) _ (v / a / 128) (by positivity)).mpr ⟨?_, ?_, ?_⟩).2
  · linear_combination h1 + a * h2
  · exact add_nonneg hM (mul_nonneg ha.le ht)
  · nlinarith

/-- A 64-bit word is the signed word of every integer congruent to it. -/
theorem toInt64_eq_ofInt {x : UInt64} {v : Int} (h : (x.toNat : Int) = v % 2 ^ 64) :
    x.toInt64 = Int64.ofInt v := by
  apply Int64.toBitVec_inj.mp
  rw [UInt64.toBitVec_toInt64, Int64.toBitVec_ofInt]
  apply BitVec.eq_of_toNat_eq
  rw [BitVec.toNat_ofInt, UInt64.toNat_toBitVec]
  push_cast
  omega

/-- All ones, cut to the low `k` bits. -/
theorem allOnes_mod {k : Nat} (hk : k ≤ 64) : (2 ^ 64 - 1) % 2 ^ k = 2 ^ k - 1 := by
  have hpow : 2 ^ k * 2 ^ (64 - k) = 2 ^ 64 := by rw [← Nat.pow_add]; congr 1; omega
  have hpos : 0 < 2 ^ (64 - k) := by positivity
  have hk1 : 0 < 2 ^ k := by positivity
  have hsplit : 2 ^ 64 - 1 = 2 ^ k - 1 + 2 ^ k * (2 ^ (64 - k) - 1) := by
    rw [Nat.mul_sub_one, hpow]
    have hle : 2 ^ k ≤ 2 ^ 64 := Nat.pow_le_pow_right (by norm_num) hk
    generalize 2 ^ k = x at hle hk1 ⊢
    omega
  rw [hsplit, Nat.add_mul_mod_self_left, Nat.mod_eq_of_lt (by omega)]

/-- Bit 6 of a final byte is the sign of what the groups so far leave. -/
theorem signBit {g : Nat} (hg : g < 128) : (g.toUInt8 &&& 0x40 != 0) = decide (64 ≤ g) := by
  have hb : g.toUInt8.toNat = g := by simp; omega
  have : (g.toUInt8 &&& 0x40).toNat = if 64 ≤ g then 64 else 0 := by
    rw [UInt8.toNat_and, hb, show (0x40 : UInt8).toNat = 2 ^ 6 from rfl, Nat.and_two_pow,
      Nat.testBit_eq_decide_div_mod_eq]
    split <;> simp <;> omega
  by_cases h : 64 ≤ g
  · simp only [h, decide_true, bne_iff_ne, ne_eq]
    intro h0; rw [h0, if_pos h] at this; simp at this
  · simp only [h, decide_false, bne_eq_false_iff_eq]
    rw [if_neg h] at this
    exact UInt8.toNat_inj.mp this

end Varint

namespace CursorM

/-- Reading unsigned groups from the `i`-th on, over the encoding of the
groups of `V` from the `i`-th on, completes the value `V`. -/
theorem ulebFrom_unsigned (start i : Nat) (acc : UInt64) (c : Cursor) (V : Nat) (rest : List UInt8)
    (hV : V < 2 ^ 64) (hi : i < 10) (hacc : acc.toNat = V % 2 ^ (7 * i))
    (hc : c.ahead = Leb128.unsigned (V / 2 ^ (7 * i)) ++ rest) :
    ulebFrom start i acc c =
      .ok (UInt64.ofNat V) (c.advance (Leb128.unsigned (V / 2 ^ (7 * i))).length) := by
  rw [ulebFrom, if_pos (show i < Cursor.maxVarintLen from hi)]
  have hlow : V % 2 ^ (7 * i) < 2 ^ (7 * i) := Nat.mod_lt _ (by positivity)
  have hsplit := Nat.mod_add_div V (2 ^ (7 * i))
  by_cases hW : V / 2 ^ (7 * i) < 128
  · -- the last byte: its group completes the value
    rw [Leb128.unsigned_of_lt hW] at hc ⊢
    obtain ⟨hpay, hlast⟩ := Varint.lastByte hW
    have hfit : V / 2 ^ (7 * i) < 2 ^ (64 - 7 * i) := by
      rw [Nat.div_lt_iff_lt_mul (by positivity), ← Nat.pow_add]
      calc V < 2 ^ 64 := hV
        _ = 2 ^ (64 - 7 * i + 7 * i) := by congr 1; omega
    simp only [bind, EStateM.bind, readU8_of_ahead hc, hlast, if_true, pure, EStateM.pure,
      List.length_singleton]
    congr 1
    apply UInt64.toNat_inj.mp
    rw [Varint.or_shift_toNat hacc hpay hlow (by omega), Nat.mod_eq_of_lt hfit, hsplit,
      UInt64.toNat_ofNat', Nat.mod_eq_of_lt hV]
  · -- a continuation byte: seven more bits, then the groups from the next on
    rw [Leb128.unsigned_of_le (by omega)] at hc ⊢
    obtain ⟨hpay, hlast⟩ := Varint.moreByte (V / 2 ^ (7 * i))
    have hpow : 2 ^ (7 * (i + 1)) = 2 ^ (7 * i) * 128 := by rw [Nat.mul_add, Nat.pow_add]
    have hnext : V / 2 ^ (7 * i) / 128 = V / 2 ^ (7 * (i + 1)) := by
      rw [Nat.div_div_eq_div_mul, hpow]
    have hmod : V % 2 ^ (7 * (i + 1)) = V % 2 ^ (7 * i) + 2 ^ (7 * i) * (V / 2 ^ (7 * i) % 128) := by
      rw [hpow, Nat.mod_mul]
    have hi' : i + 1 < 10 := by
      have : 2 ^ (7 * (i + 1)) < 2 ^ 64 := by
        calc 2 ^ (7 * (i + 1)) = 2 ^ (7 * i) * 128 := hpow
          _ ≤ 2 ^ (7 * i) * (V / 2 ^ (7 * i)) := Nat.mul_le_mul_left _ (by omega)
          _ ≤ V := Nat.mul_div_le V _
          _ < 2 ^ 64 := hV
      have := (Nat.pow_lt_pow_iff_right (by norm_num)).mp this
      omega
    have hgroup : V / 2 ^ (7 * i) % 128 % 2 ^ (64 - 7 * i) = V / 2 ^ (7 * i) % 128 := by
      apply Nat.mod_eq_of_lt
      calc V / 2 ^ (7 * i) % 128 < 128 := Nat.mod_lt _ (by norm_num)
        _ = 2 ^ 7 := by norm_num
        _ ≤ 2 ^ (64 - 7 * i) := Nat.pow_le_pow_right (by norm_num) (by omega)
    have hacc' := Varint.or_shift_toNat hacc hpay hlow (by omega)
    rw [hgroup, ← hmod] at hacc'
    rw [List.cons_append, hnext] at hc
    simp only [bind, EStateM.bind, readU8_of_ahead hc, hlast, Bool.false_eq_true, if_false,
      List.length_cons, hnext]
    rw [ulebFrom_unsigned start (i + 1) _ (c.advance 1) V rest hV hi' hacc'
      (by rw [Cursor.ahead_advance, hc, List.drop_one, List.tail_cons]),
      Cursor.advance_advance, Nat.add_comm]
termination_by 10 - i

/-- An unsigned varint reads back as the word written, consuming exactly its bytes. -/
theorem readUleb_of_ahead {c : Cursor} {v : UInt64} {rest : List UInt8}
    (h : c.ahead = Leb128.ofUInt64 v ++ rest) :
    readUleb c = .ok v (c.advance (Leb128.ofUInt64 v).length) := by
  have hstart := ulebFrom_unsigned c.pos 0 0 c v.toNat rest v.toNat_lt (by omega) (by simp [Nat.mod_one])
    (by simpa [Leb128.ofUInt64] using h)
  simp only [Nat.mul_zero, pow_zero, Nat.div_one, UInt64.ofNat_toNat] at hstart
  simpa [readUleb, position, bind, EStateM.bind, get, getThe, MonadStateOf.get, EStateM.get,
    pure, EStateM.pure, Leb128.ofUInt64] using hstart

/-- Reading signed groups from the `i`-th on, over the encoding of what the
first `i` groups leave of `v`, completes `v`. -/
theorem slebFrom_signed (start i : Nat) (acc : UInt64) (c : Cursor) (v : Int) (rest : List UInt8)
    (hlo : -2 ^ 63 ≤ v) (hhi : v < 2 ^ 63) (hi : i < 10)
    (hacc : (acc.toNat : Int) = v % 2 ^ (7 * i))
    (hc : c.ahead = Leb128.signed (v / 2 ^ (7 * i)) ++ rest) :
    slebFrom start i acc c =
      .ok (Int64.ofInt v) (c.advance (Leb128.signed (v / 2 ^ (7 * i))).length) := by
  rw [slebFrom, if_pos (show i < Cursor.maxVarintLen from hi)]
  have hApos : (0 : Int) < 2 ^ (7 * i) := by positivity
  have hgroup := Int.emod_nonneg (v / 2 ^ (7 * i)) (by norm_num : (128 : Int) ≠ 0)
  have hgroup' := Int.emod_lt_of_pos (v / 2 ^ (7 * i)) (by norm_num : (0 : Int) < 128)
  have hg128 : (v / 2 ^ (7 * i) % 128).toNat < 128 := by omega
  have hlow : acc.toNat < 2 ^ (7 * i) := by
    have := Int.emod_lt_of_pos v hApos
    exact_mod_cast (hacc ▸ this)
  have hlowpos := Int.emod_nonneg v hApos.ne'
  -- `v` is its first `i` groups, then what they leave, split into a group and a rest
  have hv := Int.mul_ediv_add_emod v (2 ^ (7 * i))
  have hr := Int.mul_ediv_add_emod (v / 2 ^ (7 * i)) 128
  have hgt : ((v / 2 ^ (7 * i) % 128).toNat : Int) = v / 2 ^ (7 * i) % 128 :=
    Int.toNat_of_nonneg hgroup
  by_cases hd : Leb128.signedDone (v / 2 ^ (7 * i) / 128) (v / 2 ^ (7 * i) % 128).toNat = true
  · rw [Leb128.signed_of_done hd] at hc ⊢
    obtain ⟨hpay, hlast⟩ := Varint.lastByte hg128
    simp only [bind, EStateM.bind, readU8_of_ahead hc, hlast, if_true, pure,
      List.length_singleton, Varint.signBit hg128]
    have hacc1 := Varint.or_shift_toNat rfl hpay hlow (by omega)
    simp only [Leb128.signedDone, Bool.or_eq_true, Bool.and_eq_true, beq_iff_eq,
      decide_eq_true_eq] at hd
    rcases Nat.lt_or_ge i 9 with hi8 | hi9
    · have hfit : (v / 2 ^ (7 * i) % 128).toNat % 2 ^ (64 - 7 * i) = (v / 2 ^ (7 * i) % 128).toNat :=
        Nat.mod_eq_of_lt (lt_of_lt_of_le hg128
          (calc 128 = 2 ^ 7 := by norm_num
            _ ≤ 2 ^ (64 - 7 * i) := Nat.pow_le_pow_right (by norm_num) (by omega)))
      rw [hfit] at hacc1
      rcases hd with ⟨hq, hg64⟩ | ⟨hq, hg64⟩
      · -- the rest is zero: a non-negative value, no sign to extend
        rw [if_neg (by simp; omega)]
        have hval : v % 2 ^ (7 * i) + 2 ^ (7 * i) * (v / 2 ^ (7 * i) % 128) = v := by
          rw [show v / 2 ^ (7 * i) % 128 = v / 2 ^ (7 * i) by omega]; linarith
        have hnonneg : 0 ≤ v := hval ▸ add_nonneg hlowpos (mul_nonneg hApos.le hgroup)
        show EStateM.Result.ok _ _ = _
        congr 1
        apply Varint.toInt64_eq_ofInt
        rw [hacc1]
        push_cast
        rw [hacc, hgt, hval]
        omega
      · -- the rest is all ones: extend the sign above the groups read
        rw [if_pos (by simp; omega)]
        have hpow : (2 : Nat) ^ (7 * (i + 1)) = 2 ^ (7 * i) * 128 := by rw [Nat.mul_add, Nat.pow_add]
        have hgle : 2 ^ (7 * i) * (v / 2 ^ (7 * i) % 128).toNat ≤ 2 ^ (7 * i) * 127 :=
          Nat.mul_le_mul_left _ (by omega)
        have hlow1 : (acc ||| ((v / 2 ^ (7 * i) % 128).toNat.toUInt8 &&& 127).toUInt64 <<<
            (7 * i).toUInt64).toNat < 2 ^ (7 * (i + 1)) := by
          rw [hacc1, hpow]; omega
        have hext := Varint.or_shift_toNat rfl
          (show (0 - 1 : UInt64).toNat = 2 ^ 64 - 1 from rfl) hlow1 (by omega)
        rw [Varint.allOnes_mod (by omega)] at hext
        have hmask : 2 ^ (7 * (i + 1)) * (2 ^ (64 - 7 * (i + 1)) - 1) = 2 ^ 64 - 2 ^ (7 * (i + 1)) := by
          rw [Nat.mul_sub_one, ← Nat.pow_add, show 7 * (i + 1) + (64 - 7 * (i + 1)) = 64 by omega]
        have hle : 2 ^ (7 * (i + 1)) ≤ 2 ^ 64 := Nat.pow_le_pow_right (by norm_num) (by omega)
        have hval : v % 2 ^ (7 * i) + 2 ^ (7 * i) * (v / 2 ^ (7 * i) % 128) - 2 ^ (7 * i) * 128 = v := by
          have hrest : v / 2 ^ (7 * i) = v / 2 ^ (7 * i) % 128 - 128 := by omega
          rw [hrest] at hv
          linear_combination hv
        show EStateM.Result.ok _ _ = _
        congr 1
        apply Varint.toInt64_eq_ofInt
        rw [hext, hmask, hacc1, hpow]
        rw [hpow] at hle
        push_cast [Nat.cast_sub hle]
        rw [hacc, hgt]
        have hneg : v < 0 := by
          have hsum : acc.toNat + 2 ^ (7 * i) * (v / 2 ^ (7 * i) % 128).toNat < 2 ^ (7 * i) * 128 := by
            omega
          have : (acc.toNat : Int) + 2 ^ (7 * i) * ((v / 2 ^ (7 * i) % 128).toNat : Int) <
              2 ^ (7 * i) * 128 := by exact_mod_cast hsum
          rw [hacc, hgt] at this
          linarith
        have hle' : 2 ^ (7 * i) * 128 ≤ 18446744073709551616 := by simpa using hle
        rw [Nat.cast_sub hle']
        push_cast
        rw [show v % 2 ^ (7 * i) + 2 ^ (7 * i) * (v / 2 ^ (7 * i) % 128) +
            (18446744073709551616 - 2 ^ (7 * i) * 128) = v + 18446744073709551616 by linarith]
        omega
    · -- the tenth group holds only bit 63, and what the first nine leave is 0 or -1
      obtain rfl : i = 9 := by omega
      rw [if_neg (by simp)]
      show EStateM.Result.ok _ _ = _
      congr 1
      apply Varint.toInt64_eq_ofInt
      rw [hacc1]
      push_cast
      rw [hacc]
      norm_num at hgt hlo hhi ⊢
      omega
  · -- a continuation byte: what is left is not yet all zeros or all ones
    have hmore : Leb128.signedDone (v / 2 ^ (7 * i) / 128) (v / 2 ^ (7 * i) % 128).toNat = false := by
      simpa using hd
    rw [Leb128.signed_of_more hmore] at hc ⊢
    obtain ⟨hpay, hlast⟩ := Varint.moreByte (v / 2 ^ (7 * i) % 128).toNat
    rw [Nat.mod_eq_of_lt hg128] at hpay hlast
    rw [List.cons_append] at hc
    simp only [bind, EStateM.bind, readU8_of_ahead hc, hlast, Bool.false_eq_true, if_false,
      List.length_cons]
    have hi8 : i < 9 := by
      by_contra h
      obtain rfl : i = 9 := by omega
      simp only [Leb128.signedDone, Bool.or_eq_false_iff, Bool.and_eq_false_iff,
        decide_eq_false_iff_not, not_lt, not_le] at hmore
      norm_num at hmore hgt hlo hhi
      omega
    have hacc1 := Varint.or_shift_toNat rfl hpay hlow (by omega)
    have hfit : (v / 2 ^ (7 * i) % 128).toNat % 2 ^ (64 - 7 * i) = (v / 2 ^ (7 * i) % 128).toNat :=
      Nat.mod_eq_of_lt (lt_of_lt_of_le hg128
        (calc 128 = 2 ^ 7 := by norm_num
          _ ≤ 2 ^ (64 - 7 * i) := Nat.pow_le_pow_right (by norm_num) (by omega)))
    rw [hfit] at hacc1
    have hpowI : (2 : Int) ^ (7 * (i + 1)) = 2 ^ (7 * i) * 128 := by rw [Nat.mul_add, pow_add]; norm_num
    have hacc' : ((acc ||| (((v / 2 ^ (7 * i) % 128).toNat + 128).toUInt8 &&& 127).toUInt64 <<<
        (7 * i).toUInt64).toNat : Int) = v % 2 ^ (7 * (i + 1)) := by
      rw [hacc1, hpowI, Varint.emod_mul_group v _ hApos]
      push_cast
      rw [hacc, hgt]
    have hnext : v / 2 ^ (7 * i) / 128 = v / 2 ^ (7 * (i + 1)) := by
      rw [Int.ediv_ediv_of_nonneg hApos.le, hpowI]
    rw [hnext] at hc ⊢
    rw [slebFrom_signed start (i + 1) _ (c.advance 1) v rest hlo hhi (by omega) hacc'
      (by rw [Cursor.ahead_advance, hc, List.drop_one, List.tail_cons]),
      Cursor.advance_advance, Nat.add_comm]
termination_by 10 - i

/-- A signed varint reads back as the word written, consuming exactly its bytes. -/
theorem readSleb_of_ahead {c : Cursor} {w : Int64} {rest : List UInt8}
    (h : c.ahead = Leb128.ofInt64 w ++ rest) :
    readSleb c = .ok w (c.advance (Leb128.ofInt64 w).length) := by
  have hlo : -2 ^ 63 ≤ w.toInt := by have := Int64.le_toInt w; simpa using this
  have hhi : w.toInt < 2 ^ 63 := by have := Int64.toInt_lt w; simpa using this
  have hstart := slebFrom_signed c.pos 0 0 c w.toInt rest hlo hhi (by omega) (by simp)
    (by simpa [Leb128.ofInt64] using h)
  simp only [Nat.mul_zero, pow_zero, Int.ediv_one, Int64.ofInt_toInt] at hstart
  simpa [readSleb, position, bind, EStateM.bind, get, getThe, MonadStateOf.get, EStateM.get,
    pure, EStateM.pure, Leb128.ofInt64] using hstart

/-- A 32-bit word written as a varint reads back through the 32-bit check. -/
theorem readU32_of_ahead {c : Cursor} {x : UInt32} {rest : List UInt8}
    (h : c.ahead = Leb128.ofUInt64 x.toUInt64 ++ rest) :
    readU32 c = .ok x (c.advance (Leb128.ofUInt64 x.toUInt64).length) := by
  have hfit : x.toUInt64.toNat < Nat.pow 2 32 := by simpa using x.toNat_lt
  simp only [readU32, bind, EStateM.bind, readUleb_of_ahead h, if_pos hfit, pure, EStateM.pure]
  simp

/-- A signed 32-bit word written as a varint reads back through the 32-bit check. -/
theorem readI32_of_ahead {c : Cursor} {x : Int32} {rest : List UInt8}
    (h : c.ahead = Leb128.ofInt64 x.toInt64 ++ rest) :
    readI32 c = .ok x (c.advance (Leb128.ofInt64 x.toInt64).length) := by
  have hlo := Int32.le_toInt x
  have hhi := Int32.toInt_lt x
  have hfit : (-Int.pow 2 31 ≤ x.toInt64.toInt && x.toInt64.toInt < Int.pow 2 31) = true := by
    simp only [Int32.toInt_toInt64, Bool.and_eq_true, decide_eq_true_eq]
    constructor <;> simp_all [Int.pow_succ]
  simp only [readI32, bind, EStateM.bind, readSleb_of_ahead h, if_pos hfit, pure, EStateM.pure]
  simp

theorem littleEndian_eq (b : ByteArray) :
    littleEndian b = b.data.toList.foldr (fun b acc => b.toNat + 256 * acc) 0 := by
  rw [littleEndian, Bytes.toList_eq]

/-- A 16-bit word written low byte first reads back. -/
theorem readU16le_of_ahead {c : Cursor} {v : UInt16} {rest : List UInt8}
    (h : c.ahead = [v.toUInt8, (v >>> 8).toUInt8] ++ rest) (hpos : c.pos ≤ c.data.size) :
    readU16le c = .ok v (c.advance 2) := by
  obtain ⟨b, hread, hb⟩ := readBytes_of_ahead h hpos
  simp only [List.length_cons, List.length_nil] at hread
  simp only [readU16le, bind, EStateM.bind, hread, pure, EStateM.pure]
  congr 1
  apply UInt16.toNat_inj.mp
  rw [littleEndian_eq, hb]
  have h8 : (8 : UInt16).toNat % 16 = 8 := rfl
  simp only [List.foldr_cons, List.foldr_nil, UInt16.toNat_ofNat', UInt16.toNat_toUInt8,
    UInt16.toNat_shiftRight, h8, Nat.shiftRight_eq_div_pow]
  have := v.toNat_lt
  omega

/-- A 32-bit word written low byte first reads back. -/
theorem readU32le_of_ahead {c : Cursor} {v : UInt32} {rest : List UInt8}
    (h : c.ahead = [v.toUInt8, (v >>> 8).toUInt8, (v >>> 16).toUInt8, (v >>> 24).toUInt8] ++ rest)
    (hpos : c.pos ≤ c.data.size) :
    readU32le c = .ok v (c.advance 4) := by
  obtain ⟨b, hread, hb⟩ := readBytes_of_ahead h hpos
  simp only [List.length_cons, List.length_nil] at hread
  simp only [readU32le, bind, EStateM.bind, hread, pure, EStateM.pure]
  congr 1
  apply UInt32.toNat_inj.mp
  rw [littleEndian_eq, hb]
  have h8 : (8 : UInt32).toNat % 32 = 8 := rfl
  have h16 : (16 : UInt32).toNat % 32 = 16 := rfl
  have h24 : (24 : UInt32).toNat % 32 = 24 := rfl
  simp only [List.foldr_cons, List.foldr_nil, UInt32.toNat_ofNat', UInt32.toNat_toUInt8,
    UInt32.toNat_shiftRight, h8, h16, h24, Nat.shiftRight_eq_div_pow]
  have := v.toNat_lt
  omega

end CursorM

end IrStream
