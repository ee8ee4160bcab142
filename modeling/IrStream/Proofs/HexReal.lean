import Mathlib
import IrStream.Real.HexText

/-!
Real constants read back from their hexadecimal text. `HexReal.format` names
the sign, exponent and mantissa fields of a double's bits and `HexReal.parse`
rebuilds the bits from the text; for every bit pattern, infinities, NaN
payloads, signed zeros and subnormals included, parsing the text gives the
pattern back (`HexReal.parse_format`), so the text is exact and no two patterns
share one (`HexReal.format_exact`).

The digit runs are read by folds whose value is the number `Nat.toDigits`
wrote (`hexFold_toDigits`, `decimalFold_toDigits`); leading zeros add nothing
and trailing zeros scale by sixteen each (`hexFold_zeros`,
`hexFold_append_zeros`), which is what `mantissa?` undoes. Each form of body
is read by its own lemma (`magnitude_inf`, `magnitude_nan`, `magnitude_zero`,
`magnitude_subnormal`, `magnitude_normal`).
-/

namespace IrStream.HexReal

/-- Every digit `Nat.toDigits` writes is the digit character of a number below the base. -/
theorem mem_toDigits {b : Nat} (hb : 1 < b) (n : Nat) {c : Char} (member : c ∈ Nat.toDigits b n) :
    ∃ d < b, c = Nat.digitChar d := by
  induction n using Nat.base_induction b hb with
  | single m small =>
    rw [Nat.toDigits_of_lt_base small, List.mem_singleton] at member
    exact ⟨m, small, member⟩
  | digit m k small positive ih =>
    rw [← Nat.toDigits_append_toDigits hb positive small, Nat.toDigits_of_lt_base small,
      List.mem_append, List.mem_singleton] at member
    rcases member with inHigh | last
    · exact ih inHigh
    · exact ⟨k, small, last⟩

theorem hexValue_digitChar {d : Nat} (small : d < 16) : hexValue? (Nat.digitChar d) = some d := by
  interval_cases d <;> rfl

/-- One step of reading hexadecimal digits. -/
def hexStep (acc : Nat) (c : Char) : Option Nat := (hexValue? c).map (acc * 16 + ·)

theorem hexFold_toDigits (n acc : Nat) :
    (Nat.toDigits 16 n).foldlM hexStep acc = some (acc * 16 ^ (Nat.toDigits 16 n).length + n) := by
  induction n using Nat.base_induction 16 (by norm_num) generalizing acc with
  | single m small =>
    simp [Nat.toDigits_of_lt_base small, hexStep, hexValue_digitChar small]
  | digit m k small positive ih =>
    rw [← Nat.toDigits_append_toDigits (by norm_num) positive small, List.foldlM_append, ih,
      Nat.toDigits_of_lt_base small]
    simp [hexStep, hexValue_digitChar small, pow_succ]
    ring

theorem hexFold_zeros (k acc : Nat) :
    (List.replicate k '0').foldlM hexStep acc = some (acc * 16 ^ k) := by
  induction k generalizing acc with
  | zero => simp
  | succ k ih =>
    rw [List.replicate_succ, List.foldlM_cons]
    simp [hexStep, hexValue?, ih, pow_succ]
    ring

theorem hexNumber_eq (cs : List Char) :
    hexNumber? cs = if cs.isEmpty then none else cs.foldlM hexStep 0 := rfl

theorem hexNumber_toDigits (n : Nat) : hexNumber? (Nat.toDigits 16 n) = some n := by
  simp [hexNumber_eq, hexFold_toDigits]

theorem hexNumber_hexPadded (width n : Nat) : hexNumber? (hexPadded width n) = some n := by
  simp [hexNumber_eq, hexPadded, List.foldlM_append, hexFold_zeros, hexFold_toDigits]

theorem length_hexPadded {width n : Nat} (small : n < 16 ^ width) (positive : 0 < width) :
    (hexPadded width n).length = width := by
  have := (Nat.length_toDigits_le_iff (by norm_num) positive).mpr small
  simp [hexPadded]
  omega

/-- A list is what is left after its trailing zeros, followed by them. -/
theorem dropTrailingZeros_append (cs : List Char) :
    ∃ k, cs = dropTrailingZeros cs ++ List.replicate k '0' := by
  refine ⟨(cs.reverse.takeWhile (· == '0')).length, ?_⟩
  have zeros : cs.reverse.takeWhile (· == '0') =
      List.replicate (cs.reverse.takeWhile (· == '0')).length '0' := by
    apply List.eq_replicate_iff.mpr
    refine ⟨rfl, fun c member => ?_⟩
    simpa using List.mem_takeWhile_imp member
  calc cs = (cs.reverse.takeWhile (· == '0') ++ cs.reverse.dropWhile (· == '0')).reverse := by
        rw [List.takeWhile_append_dropWhile, List.reverse_reverse]
    _ = dropTrailingZeros cs ++ List.replicate (cs.reverse.takeWhile (· == '0')).length '0' := by
        rw [List.reverse_append, dropTrailingZeros, zeros, List.reverse_replicate,
          List.length_replicate]

/-- One step of reading decimal digits. -/
def decimalStep (acc : Nat) (c : Char) : Option Nat :=
  if c.isDigit then some (acc * 10 + (c.toNat - '0'.toNat)) else none

theorem decimalNumber_eq (cs : List Char) :
    decimalNumber? cs = if cs.isEmpty then none else cs.foldlM decimalStep 0 := rfl

theorem decimalStep_digitChar (acc : Nat) {d : Nat} (small : d < 10) :
    decimalStep acc (Nat.digitChar d) = some (acc * 10 + d) := by
  interval_cases d <;> rfl

theorem decimalFold_toDigits (n acc : Nat) :
    (Nat.toDigits 10 n).foldlM decimalStep acc =
      some (acc * 10 ^ (Nat.toDigits 10 n).length + n) := by
  induction n using Nat.base_induction 10 (by norm_num) generalizing acc with
  | single m small =>
    simp [Nat.toDigits_of_lt_base small, decimalStep_digitChar acc small]
  | digit m k small positive ih =>
    rw [← Nat.toDigits_append_toDigits (by norm_num) positive small, List.foldlM_append, ih,
      Nat.toDigits_of_lt_base small]
    simp [decimalStep_digitChar _ small, pow_succ]
    ring

theorem decimalNumber_toDigits (n : Nat) : decimalNumber? (Nat.toDigits 10 n) = some n := by
  simp [decimalNumber_eq, decimalFold_toDigits]

theorem bound63 : Int.pow 2 63 = 9223372036854775808 := rfl

/-- An exponent within the double range reads back from its signed text. -/
theorem signedDecimal_signedExponent {e : Int} (low : -1023 ≤ e) (high : e ≤ 1023) :
    signedDecimal? (signedExponent e).toList = some e := by
  unfold signedExponent
  split
  · next nonneg =>
    obtain ⟨n, rfl⟩ := Int.eq_ofNat_of_zero_le nonneg
    have : (toString (n : Int)).toList = Nat.toDigits 10 n := by
      simp [toString, Int.repr]
    have plus : "+".toList = ['+'] := by decide
    simp only [String.toList_append, this, plus, List.singleton_append, signedDecimal?,
      decimalNumber_toDigits, Option.map_some, Option.filter_some]
    rw [if_pos (by simp only [bound63, Int.ofNat_eq_natCast, Bool.and_eq_true, decide_eq_true_eq]; omega)]
    rfl
  · next negative =>
    obtain ⟨k, rfl⟩ : ∃ k : Nat, e = Int.negSucc k := by
      obtain ⟨m, rfl⟩ := Int.exists_eq_neg_ofNat (by omega : e ≤ 0)
      exact ⟨m - 1, by rw [Int.negSucc_eq]; omega⟩
    have text : (toString (Int.negSucc k)).toList = '-' :: Nat.toDigits 10 (k + 1) := by
      have minus : "-".toList = ['-'] := by decide
      simp [toString, Int.repr, minus]
    simp only [text, signedDecimal?, decimalNumber_toDigits, Option.map_some, Option.filter_some]
    rw [if_pos (by simp only [bound63, Int.negSucc_eq, Int.ofNat_eq_natCast, Bool.and_eq_true,
      decide_eq_true_eq] at *; omega)]
    rw [Int.negSucc_eq]
    rfl

theorem magnitude_inf : magnitude? "inf".toList = some (expMask * 2 ^ mantissaBits) := by
  decide

theorem magnitude_zero : magnitude? "0x0p+0".toList = some 0 := by
  decide

theorem dropPrefix_append (p cs : List Char) : dropPrefix? p (p ++ cs) = some cs := by
  simp [dropPrefix?]

theorem digitChar_ne_plus {d : Nat} (small : d < 16) : Nat.digitChar d ≠ '+' := by
  interval_cases d <;> decide

theorem unsignedHex_toDigits {p : Nat} (small : p < 2 ^ 64) :
    unsignedHex? (Nat.toDigits 16 p) = some p := by
  unfold unsignedHex?
  have noSign : ∀ rest, Nat.toDigits 16 p ≠ '+' :: rest := by
    intro rest signed
    obtain ⟨d, digit, eq⟩ := mem_toDigits (b := 16) (by norm_num) p (c := '+') (by rw [signed]; simp)
    exact digitChar_ne_plus digit eq.symm
  split
  · next rest signed => exact absurd signed (noSign rest)
  · simpa [hexNumber_toDigits, Nat.pow_eq] using small

theorem magnitude_nan {p : Nat} (positive : 0 < p) (small : p < 2 ^ mantissaBits) :
    magnitude? ("nan:0x" ++ String.ofList (Nat.toDigits 16 p)).toList =
      some (expMask * 2 ^ mantissaBits + p) := by
  have prefixChars : "nan:0x".toList = ['n', 'a', 'n', ':', '0', 'x'] := by decide
  have infChars : "inf".toList = ['i', 'n', 'f'] := by decide
  have notInf : ("nan:0x".toList ++ Nat.toDigits 16 p == "inf".toList) = false := by
    simp [prefixChars, infChars]
  have payloadFits : p < 2 ^ 64 := lt_trans small (by norm_num [mantissaBits])
  simp only [magnitude?, String.toList_append, String.toList_ofList, notInf, Bool.false_eq_true,
    if_false, dropPrefix_append, unsignedHex_toDigits payloadFits, Option.bind_some]
  rw [if_neg (by simp [Nat.pow_eq]; omega)]
  rfl

theorem dropSuffix_append (s cs : List Char) : dropSuffix? s (cs ++ s) = some cs := by
  simp [dropSuffix?]

theorem dropPrefix_cons (a b : Char) (p cs : List Char) :
    dropPrefix? (a :: p) (b :: cs) = if a = b then dropPrefix? p cs else none := by
  by_cases same : a = b
  · subst same; simp [dropPrefix?, List.isPrefixOf]
  · simp [dropPrefix?, List.isPrefixOf, same]

theorem mantissa_hexPadded {m : Nat} (small : m < 2 ^ mantissaBits) :
    mantissa? (hexPadded mantissaDigits m) = some m := by
  have length : (hexPadded mantissaDigits m).length = mantissaDigits :=
    length_hexPadded (by simpa [mantissaBits, mantissaDigits] using small) (by decide)
  have nonempty : hexPadded mantissaDigits m ≠ [] := by
    rw [← List.length_pos_iff, length]; decide
  rw [mantissa?, length, hexNumber_hexPadded]
  simp [nonempty]

theorem magnitude_subnormal {m : Nat} (small : m < 2 ^ mantissaBits) :
    magnitude? ("0x0." ++ String.ofList (hexPadded mantissaDigits m) ++ "p-1022").toList =
      some m := by
  have prefixChars : "0x0.".toList = ['0', 'x', '0', '.'] := by decide
  have nanChars : "nan:0x".toList = ['n', 'a', 'n', ':', '0', 'x'] := by decide
  have infChars : "inf".toList = ['i', 'n', 'f'] := by decide
  have zeroChars : "0x0p+0".toList = ['0', 'x', '0', 'p', '+', '0'] := by decide
  have notInf : ("0x0.".toList ++ (hexPadded mantissaDigits m ++ "p-1022".toList) ==
      "inf".toList) = false := by
    simp [prefixChars, infChars]
  have notZero : ("0x0.".toList ++ (hexPadded mantissaDigits m ++ "p-1022".toList) ==
      "0x0p+0".toList) = false := by
    simp [prefixChars, zeroChars]
  have notNan : dropPrefix? "nan:0x".toList
      ("0x0.".toList ++ (hexPadded mantissaDigits m ++ "p-1022".toList)) = none := by
    simp [nanChars, prefixChars, dropPrefix_cons]
  simp only [magnitude?, String.toList_append, String.toList_ofList, notInf, Bool.false_eq_true,
    if_false, notNan, notZero, List.append_assoc, dropPrefix_append, Option.bind_some,
    dropSuffix_append, mantissa_hexPadded small]

theorem hexFold_append_zeros (cs : List Char) (k : Nat) :
    (cs ++ List.replicate k '0').foldlM hexStep 0 = (cs.foldlM hexStep 0).map (· * 16 ^ k) := by
  rw [List.foldlM_append]
  cases cs.foldlM hexStep 0 with
  | none => rfl
  | some v => simp [hexFold_zeros]

/-- No hexadecimal digit is the exponent mark. -/
theorem p_not_mem_hexPadded (width n : Nat) : 'p' ∉ hexPadded width n := by
  intro member
  simp only [hexPadded, List.mem_append, List.mem_replicate] at member
  rcases member with ⟨-, zero⟩ | digit
  · exact absurd zero (by decide)
  · obtain ⟨d, small, eq⟩ := mem_toDigits (b := 16) (by norm_num) n digit
    interval_cases d <;> simp [Nat.digitChar] at eq

theorem splitAtP_append {cs : List Char} (noMark : 'p' ∉ cs) (exp : List Char) :
    splitAtP? (cs ++ 'p' :: exp) = some (cs, exp) := by
  have before : (cs ++ 'p' :: exp).takeWhile (· ≠ 'p') = cs := by
    rw [List.takeWhile_append_of_pos (fun c member => by simp; rintro rfl; exact noMark member)]
    simp
  have after : (cs ++ 'p' :: exp).dropWhile (· ≠ 'p') = 'p' :: exp := by
    rw [List.dropWhile_append_of_pos (fun c member => by simp; rintro rfl; exact noMark member)]
    simp
  have marked : (cs ++ 'p' :: exp).contains 'p' = true := by simp
  rw [splitAtP?, if_pos marked, before, after]
  rfl

/-- The mantissa digits without their trailing zeros read back as the mantissa. -/
theorem mantissa_dropTrailingZeros {m : Nat} (small : m < 2 ^ mantissaBits)
    (nonempty : dropTrailingZeros (hexPadded mantissaDigits m) ≠ []) :
    mantissa? (dropTrailingZeros (hexPadded mantissaDigits m)) = some m := by
  obtain ⟨k, split⟩ := dropTrailingZeros_append (hexPadded mantissaDigits m)
  have length : (hexPadded mantissaDigits m).length = mantissaDigits :=
    length_hexPadded (by simpa [mantissaBits, mantissaDigits] using small) (by decide)
  have lengths := congrArg List.length split
  rw [List.length_append, List.length_replicate, length] at lengths
  have whole := hexNumber_hexPadded mantissaDigits m
  rw [hexNumber_eq, split, hexFold_append_zeros] at whole
  rw [if_neg (by simp [nonempty])] at whole
  obtain ⟨v, value, scaled⟩ := Option.map_eq_some_iff.mp whole
  have fits : ¬ mantissaDigits < (dropTrailingZeros (hexPadded mantissaDigits m)).length := by
    omega
  rw [mantissa?, if_neg (by simp [nonempty, fits]), hexNumber_eq, if_neg (by simp [nonempty]),
    value]
  simp only [Option.map_some, Option.some.injEq]
  have zeros : mantissaDigits - (dropTrailingZeros (hexPadded mantissaDigits m)).length = k := by
    omega
  rw [zeros, Nat.pow_eq, scaled]

/-- A text that starts `0x1` is none of the forms read before the normal one. -/
theorem oneBody_not_special (rest : List Char) :
    ("0x1".toList ++ rest == "inf".toList) = false ∧
      dropPrefix? "nan:0x".toList ("0x1".toList ++ rest) = none ∧
      ("0x1".toList ++ rest == "0x0p+0".toList) = false ∧
      dropPrefix? "0x0.".toList ("0x1".toList ++ rest) = none := by
  have zeroChars : "0x0p+0".toList = ['0', 'x', '0', 'p', '+', '0'] := by decide
  have nanChars : "nan:0x".toList = ['n', 'a', 'n', ':', '0', 'x'] := by decide
  have infChars : "inf".toList = ['i', 'n', 'f'] := by decide
  have subChars : "0x0.".toList = ['0', 'x', '0', '.'] := by decide
  have oneChars : "0x1".toList = ['0', 'x', '1'] := by decide
  refine ⟨?inf, ?nan, ?zero, ?sub⟩
  case inf => simp [oneChars, infChars]
  case nan => simp [nanChars, oneChars, dropPrefix_cons]
  case zero => simp [oneChars, zeroChars]
  case sub => simp [subChars, oneChars, dropPrefix_cons]

/-- A text `0x1p` and an exponent is read as a normal number with no mantissa bits. -/
theorem magnitude_oneP {exp : List Char} :
    magnitude? ("0x1".toList ++ 'p' :: exp) =
      (signedDecimal? exp).bind fun e =>
        if 1 - expBias ≤ e && e ≤ expBias then some ((e + expBias).toNat * Nat.pow 2 mantissaBits)
        else none := by
  obtain ⟨notInf, notNan, notZero, notSub⟩ := oneBody_not_special ('p' :: exp)
  have split : splitAtP? ('p' :: exp) = some ([], exp) := splitAtP_append List.not_mem_nil exp
  simp only [magnitude?, notInf, Bool.false_eq_true, if_false, notNan, notZero, notSub,
    Option.bind_none, dropPrefix_append, split, Option.bind_some, Nat.add_zero]

/-- A text `0x1.`, mantissa digits, `p` and an exponent is read as a normal
number: the digits give the mantissa, the rest after the mark the exponent. -/
theorem magnitude_oneDot {ds exp : List Char} (noMark : 'p' ∉ ds) :
    magnitude? ("0x1".toList ++ ('.' :: ds ++ 'p' :: exp)) =
      (mantissa? ds).bind fun m => (signedDecimal? exp).bind fun e =>
        if 1 - expBias ≤ e && e ≤ expBias then
          some ((e + expBias).toNat * Nat.pow 2 mantissaBits + m)
        else none := by
  obtain ⟨notInf, notNan, notZero, notSub⟩ := oneBody_not_special ('.' :: ds ++ 'p' :: exp)
  have dotted : 'p' ∉ '.' :: ds := by simp [noMark]
  simp only [magnitude?, notInf, Bool.false_eq_true, if_false, notNan, notZero, notSub,
    Option.bind_none, dropPrefix_append, splitAtP_append dotted, Option.bind_some]

theorem magnitude_normal {e m : Nat} (low : 1 ≤ e) (high : e < expMask)
    (small : m < 2 ^ mantissaBits) :
    magnitude? (if (dropTrailingZeros (hexPadded mantissaDigits m)).isEmpty then
        "0x1p" ++ signedExponent ((e : Int) - expBias)
      else "0x1." ++ String.ofList (dropTrailingZeros (hexPadded mantissaDigits m)) ++ "p" ++
        signedExponent ((e : Int) - expBias)).toList =
      some (e * 2 ^ mantissaBits + m) := by
  have exponent : signedDecimal? (signedExponent ((e : Int) - expBias)).toList =
      some ((e : Int) - expBias) :=
    signedDecimal_signedExponent (by simp only [expBias]; omega)
      (by simp only [expBias, expMask] at *; omega)
  have highField : e ≤ 2046 := by simp only [expMask] at high; omega
  have inRange : (decide (1 - expBias ≤ (e : Int) - expBias) &&
      decide ((e : Int) - expBias ≤ expBias)) = true := by
    rw [Bool.and_eq_true, decide_eq_true_eq, decide_eq_true_eq]
    simp only [expBias]
    omega
  have field : ((e : Int) - expBias + expBias).toNat = e := by omega
  split
  · next noDigits =>
    have mZero : m = 0 := by
      obtain ⟨k, split⟩ := dropTrailingZeros_append (hexPadded mantissaDigits m)
      rw [List.isEmpty_iff.mp noDigits, List.nil_append] at split
      have whole := hexNumber_hexPadded mantissaDigits m
      rw [split, hexNumber_eq] at whole
      split at whole
      · simp at whole
      · rw [hexFold_zeros] at whole
        simpa using whole.symm
    have text : ("0x1p" ++ signedExponent ((e : Int) - expBias)).toList =
        "0x1".toList ++ 'p' :: (signedExponent ((e : Int) - expBias)).toList := by
      simp only [String.toList_append]
      rfl
    rw [text, magnitude_oneP, mZero]
    simp only [Option.bind_some, exponent, inRange, if_true, field, Nat.pow_eq, Nat.add_zero]
  · next digits =>
    have nonempty : dropTrailingZeros (hexPadded mantissaDigits m) ≠ [] := by
      simpa using digits
    have noMark : 'p' ∉ dropTrailingZeros (hexPadded mantissaDigits m) := by
      obtain ⟨k, split⟩ := dropTrailingZeros_append (hexPadded mantissaDigits m)
      intro inDigits
      apply p_not_mem_hexPadded mantissaDigits m
      rw [split]
      exact List.mem_append_left _ inDigits
    have text : ("0x1." ++ String.ofList (dropTrailingZeros (hexPadded mantissaDigits m)) ++ "p" ++
        signedExponent ((e : Int) - expBias)).toList =
        "0x1".toList ++ (('.' :: dropTrailingZeros (hexPadded mantissaDigits m)) ++
          'p' :: (signedExponent ((e : Int) - expBias)).toList) := by
      simp only [String.toList_append, String.toList_ofList, List.append_assoc]
      rfl
    rw [text, magnitude_oneDot noMark]
    simp only [mantissa_dropTrailingZeros small nonempty, Option.bind_some, exponent, inRange,
      if_true, field, Nat.pow_eq]

/-- A bit pattern is its sign, exponent and mantissa fields. -/
theorem fields_toNat (bits : UInt64) :
    bits.toNat = (if signOf bits then 2 ^ 63 else 0) + exponentOf bits * 2 ^ mantissaBits +
      mantissaOf bits := by
  have small := bits.toNat_lt
  simp only [signOf, exponentOf, mantissaOf, mantissaBits, Nat.pow_eq, beq_iff_eq]
  split <;> omega

theorem exponentOf_lt (bits : UInt64) : exponentOf bits < 2048 := by
  simp only [exponentOf, Nat.pow_eq]; omega

theorem mantissaOf_lt (bits : UInt64) : mantissaOf bits < 2 ^ mantissaBits := by
  simp only [mantissaOf, Nat.pow_eq]; exact Nat.mod_lt _ (by positivity)

/-- The text of a bit pattern is its sign followed by a body that names the
exponent and mantissa fields and never starts with a minus. -/
theorem format_body (bits : UInt64) :
    ∃ body : String, format bits = (if signOf bits then "-" else "") ++ body ∧
      magnitude? body.toList = some (exponentOf bits * 2 ^ mantissaBits + mantissaOf bits) ∧
      ∀ rest, body.toList ≠ '-' :: rest := by
  have exponentSmall := exponentOf_lt bits
  have mantissaSmall := mantissaOf_lt bits
  refine ⟨_, rfl, ?_, ?_⟩
  · split
    · next top =>
      have exponentTop : exponentOf bits = expMask := by simpa using top
      split
      · next zero =>
        have mantissaZero : mantissaOf bits = 0 := by simpa using zero
        rw [magnitude_inf, exponentTop, mantissaZero, Nat.add_zero]
      · next payload =>
        have positive : 0 < mantissaOf bits := by simp at payload; omega
        rw [magnitude_nan positive mantissaSmall, exponentTop]
    · next notTop =>
      have belowTop : exponentOf bits < expMask := by
        simp only [beq_iff_eq] at notTop; simp only [expMask] at *; omega
      split
      · next bottom =>
        have exponentZero : exponentOf bits = 0 := by simpa using bottom
        split
        · next zero =>
          have mantissaZero : mantissaOf bits = 0 := by simpa using zero
          rw [magnitude_zero, exponentZero, mantissaZero, Nat.zero_mul]
        · rw [magnitude_subnormal mantissaSmall, exponentZero, Nat.zero_mul, Nat.zero_add]
      · next notBottom =>
        have positive : 1 ≤ exponentOf bits := by simp at notBottom; omega
        exact magnitude_normal positive belowTop mantissaSmall
  · -- every body starts with a letter or a zero
    intro rest
    have inf : "inf".toList = ['i', 'n', 'f'] := by decide
    have nan : "nan:0x".toList = ['n', 'a', 'n', ':', '0', 'x'] := by decide
    have zero : "0x0p+0".toList = ['0', 'x', '0', 'p', '+', '0'] := by decide
    have sub : "0x0.".toList = ['0', 'x', '0', '.'] := by decide
    have whole : "0x1p".toList = ['0', 'x', '1', 'p'] := by decide
    have frac : "0x1.".toList = ['0', 'x', '1', '.'] := by decide
    split <;> (try split) <;> (try split) <;> simp [String.toList_append, inf, nan, zero, sub]
    -- the normal numbers, with and without fraction digits
    split <;> simp [String.toList_append, whole, frac]

theorem toUInt64_fields {bits : UInt64} {n : Nat} (h : bits.toNat = n) : n.toUInt64 = bits := by
  apply UInt64.toNat_inj.mp
  rw [Nat.toUInt64_eq, UInt64.toNat_ofNat_of_lt' (h ▸ bits.toNat_lt), h]

/-- Reading the text of a bit pattern gives the pattern back, for every
pattern: infinities, NaN payloads, signed zeros and subnormals included. -/
theorem parse_format (bits : UInt64) : parse (format bits) = .ok bits := by
  obtain ⟨body, text, magnitude, unsigned⟩ := format_body bits
  have whole := fields_toNat bits
  suffices read : parse? (format bits) = some bits by simp [parse, read]
  rw [text, parse?]
  cases sign : signOf bits with
  | true =>
    have minus : "-".toList = ['-'] := by decide
    simp only [if_true, String.toList_append, minus, List.singleton_append, magnitude,
      Option.map_some, Option.some.injEq]
    rw [sign, if_pos rfl] at whole
    exact toUInt64_fields (by rw [whole, Nat.pow_eq]; omega)
  | false =>
    simp only [Bool.false_eq_true, if_false, String.toList_append, String.toList_empty,
      List.nil_append]
    rw [sign, if_neg (by simp)] at whole
    simp only [magnitude, Option.map_some, Option.some.injEq]
    exact toUInt64_fields (by rw [whole]; omega)

/-- The text of a bit pattern is exact: parsing it gives every pattern back,
signed zeros, subnormals, infinities and NaN payloads included, so no two
patterns share a text. -/
theorem format_exact : (∀ bits, parse (format bits) = .ok bits) ∧ Function.Injective format := by
  refine ⟨parse_format, fun a b same => ?_⟩
  have back : (Except.ok a : Except StreamError UInt64) = .ok b := by
    rw [← parse_format a, ← parse_format b, same]
  exact Except.ok.inj back

end IrStream.HexReal
