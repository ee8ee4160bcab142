/-!
LEB128 varints. An unsigned value goes out in 7-bit groups, least significant
first, each byte but the last with its top bit set. A signed value uses the
same grouping on its two's-complement form and stops as soon as the rest is
all zero or all one bits and the last group's sign bit agrees.
-/

namespace IrStream.Leb128

/-- The unsigned LEB128 bytes of a natural number. -/
def unsigned (n : Nat) : List UInt8 :=
  if n < 128 then [n.toUInt8]
  else (n % 128 + 128).toUInt8 :: unsigned (n / 128)
termination_by n
decreasing_by omega

/-- Whether a signed group ends the encoding: the remaining value `rest` is
what an arithmetic shift leaves, and bit 6 of the group is its sign. -/
def signedDone (rest : Int) (group : Nat) : Bool :=
  (rest == 0 && group < 64) || (rest == -1 && 64 ≤ group)

/-- The signed LEB128 bytes of an integer. -/
def signed (v : Int) : List UInt8 :=
  let group := (v % 128).toNat
  let rest := v / 128
  if signedDone rest group then [group.toUInt8]
  else (group + 128).toUInt8 :: signed rest
termination_by v.natAbs
decreasing_by
  simp only [signedDone, Bool.or_eq_true, Bool.and_eq_true, beq_iff_eq, decide_eq_true_eq,
    not_or, not_and] at *
  omega

/-- A 64-bit word's unsigned encoding: at most ten bytes. -/
def ofUInt64 (v : UInt64) : List UInt8 := unsigned v.toNat

/-- A 64-bit signed word's encoding. -/
def ofInt64 (v : Int64) : List UInt8 := signed v.toInt

end IrStream.Leb128
