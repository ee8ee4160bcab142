import IrStream.Number.Double

/-!
The shortest decimal text of a double. Every real strictly between a double
and the halfway points to its two neighbours reads back as that double, and
so do the halfway points themselves when its significand is even. Of the
decimals in that interval the text takes one with the fewest significant
digits, and of two such the one nearer the double. The text is positional
while the decimal point stands at most sixteen places right of the first
digit and at most three zeros left of it (`0.0001`, `1e-05`), with `.0` after
a whole number; otherwise it is one digit, the rest after a point, and a
signed exponent of at least two digits (`1.8446744073709552e+19`).
-/

namespace IrStream

/-- The decimal `digits · 10^power`. -/
structure Decimal where
  digits : Nat
  power : Int
  deriving DecidableEq, Repr

namespace Decimal

/-- `c · 10^p` compared with `x · 2^q`, both sides brought to integers. -/
def compareScaled (c : Nat) (p : Int) (x : Nat) (q : Int) : Ordering :=
  compare (c * Nat.pow 10 p.toNat * Nat.pow 2 (-q).toNat)
    (x * Nat.pow 2 q.toNat * Nat.pow 10 (-p).toNat)

/-- `⌊x · 2^q / 10^p⌋`. -/
def floorScaled (x : Nat) (q p : Int) : Nat :=
  (x * Nat.pow 2 q.toNat * Nat.pow 10 (-p).toNat) / (Nat.pow 2 (-q).toNat * Nat.pow 10 p.toNat)

/-- The digits without trailing zeros, the power raised to match. -/
def normalize (d : Decimal) : Decimal :=
  let rec go (fuel digits : Nat) (power : Int) : Decimal :=
    match fuel with
    | 0 => ⟨digits, power⟩
    | fuel + 1 =>
      if digits != 0 && digits % 10 == 0 then go fuel (digits / 10) (power + 1)
      else ⟨digits, power⟩
  go (toString d.digits).length d.digits d.power

end Decimal

namespace Double

/-- The round-trip interval of `m · 2^k` in units of `2^(k-2)`: its low and
high ends, whether the ends belong to it, and the value itself. Below a power
of two the lower neighbour is only half as far. -/
def interval (m : Nat) (k : Int) : Nat × Nat × Bool × Nat :=
  let low := if m == Nat.pow 2 (precision - 1) && minExponent < k then 4 * m - 1 else 4 * m - 2
  (low, 4 * m + 2, m % 2 == 0, 4 * m)

/-- Whether `c · 10^p` reads back as `m · 2^k`. -/
def readsBack (m : Nat) (k : Int) (c : Nat) (p : Int) : Bool :=
  let (low, high, closed, _) := interval m k
  let atLow := Decimal.compareScaled c p low (k - 2)
  let atHigh := Decimal.compareScaled c p high (k - 2)
  if closed then atLow != .lt && atHigh != .gt else atLow == .gt && atHigh == .lt

/-- `⌊log₁₀ (m · 2^k)⌋` for a positive significand: an estimate from the bit
length, corrected while a power of ten lies on the wrong side. -/
def log10 (m : Nat) (k : Int) : Int :=
  let estimate : Int := ((Nat.log2 m : Int) + k) * 30103 / 100000
  let rec down (fuel : Nat) (e : Int) : Int :=
    match fuel with
    | 0 => e
    | fuel + 1 => if Decimal.compareScaled 1 e m k == .gt then down fuel (e - 1) else e
  let rec up (fuel : Nat) (e : Int) : Int :=
    match fuel with
    | 0 => e
    | fuel + 1 => if Decimal.compareScaled 1 (e + 1) m k != .gt then up fuel (e + 1) else e
  up 4 (down 4 estimate)

/-- Of the two decimals around `m · 2^k` with `n` significant digits, the
ones that read back, the nearer first. -/
def candidates (m : Nat) (k : Int) (e : Int) (n : Nat) : Option Decimal :=
  let p := e - n + 1
  let c := Decimal.floorScaled (4 * m) (k - 2) p
  let lowOk := readsBack m k c p
  let highOk := readsBack m k (c + 1) p
  if lowOk && highOk then
    -- nearer of the two: the value against their midpoint
    match Decimal.compareScaled (2 * c + 1) p (8 * m) (k - 2) with
    | .gt => some ⟨c, p⟩
    | .lt => some ⟨c + 1, p⟩
    | .eq => some (if c % 2 == 0 then ⟨c, p⟩ else ⟨c + 1, p⟩)
  else if lowOk then some ⟨c, p⟩
  else if highOk then some ⟨c + 1, p⟩
  else none

/-- The shortest decimal that reads back as `m · 2^k`, for a positive
significand; seventeen digits always suffice. -/
def shortest (m : Nat) (k : Int) : Decimal :=
  let e := log10 m k
  let found := (List.range 17).findSome? fun i => candidates m k e (i + 1)
  (found.getD ⟨Decimal.floorScaled (4 * m) (k - 2) (e - 16), e - 16⟩).normalize

end Double

namespace Decimal

/-- The exponent part: `e`, a sign, and at least two digits. -/
def exponentText (x : Int) : String :=
  let digits := toString x.natAbs
  "e" ++ (if x < 0 then "-" else "+") ++ (if digits.length < 2 then "0" ++ digits else digits)

/-- The text of a positive decimal, positional or with an exponent as the
module says. -/
def text (d : Decimal) : String :=
  let s := (toString d.digits).toList
  let len := s.length
  let point : Int := len + d.power
  if point ≤ -4 || 16 < point then
    let rest := s.drop 1
    String.ofList (s.take 1) ++ (if rest.isEmpty then "" else "." ++ String.ofList rest) ++
      exponentText (point - 1)
  else if point ≤ 0 then
    "0." ++ String.ofList (List.replicate point.natAbs '0') ++ String.ofList s
  else if len ≤ point.toNat then
    String.ofList s ++ String.ofList (List.replicate (point.toNat - len) '0') ++ ".0"
  else
    String.ofList (s.take point.toNat) ++ "." ++ String.ofList (s.drop point.toNat)

end Decimal

namespace Double

/-- The shortest text of a double: `inf` for an infinity, `0.0` for zero, a
leading `-` for a negative number. -/
def text : Double → String
  | .infinity negative => (if negative then "-" else "") ++ "inf"
  | .finite negative m k =>
    (if negative then "-" else "") ++ (if m == 0 then "0.0" else (shortest m k).text)

end Double

end IrStream
