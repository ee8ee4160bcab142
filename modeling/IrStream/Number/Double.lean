/-!
Double-precision numbers as a reader of decimal text produces them: the
double nearest to the decimal's value, a tie going to the even significand.
The conversion is exact, in natural-number arithmetic: a positive rational
`num / den` is scaled by a power of two until its integer part has 53 bits,
rounded once, and a value past the largest finite double is an infinity.
-/

namespace IrStream

/-- A double: `significand · 2^exponent` with the significand below `2^53`
and the exponent between `-1074` and `971`, or an infinity. -/
inductive Double where
  | finite (negative : Bool) (significand : Nat) (exponent : Int)
  | infinity (negative : Bool)
  deriving DecidableEq, Repr, Inhabited

namespace Double

/-- The smallest exponent: the least subnormal is `2^-1074`. -/
def minExponent : Int := -1074

/-- The largest exponent of a finite double. -/
def maxExponent : Int := 971

/-- Significand bits of a normal double. -/
def precision : Nat := 53

/-- `num / den` rounded to the nearest natural number, a tie to the even one. -/
def roundHalfEven (num den : Nat) : Nat :=
  let q := num / den
  let r := num % den
  if 2 * r < den then q
  else if den < 2 * r then q + 1
  else if q % 2 == 0 then q else q + 1

/-- `num · 2^t` over `den` as one fraction of natural numbers. -/
def scaleFraction (num den : Nat) (t : Int) : Nat × Nat :=
  (num * Nat.pow 2 t.toNat, den * Nat.pow 2 (-t).toNat)

/-- `⌊log₂ (num / den)⌋` for positive `num` and `den`: the difference of the
bit lengths, or one less when the quotient falls short of that power. -/
def log2Fraction (num den : Nat) : Int :=
  let t : Int := (Nat.log2 num : Int) - Nat.log2 den
  let (a, b) := scaleFraction den num t
  if b < a then t - 1 else t

/-- The double nearest to `num / den`, negated when `negative`. -/
def ofFraction (negative : Bool) (num den : Nat) : Double :=
  if num == 0 || den == 0 then .finite negative 0 0
  else
    let k := max (log2Fraction num den - (precision - 1 : Nat)) minExponent
    let (a, b) := scaleFraction num den (-k)
    let m := roundHalfEven a b
    let (m, k) := if m == Nat.pow 2 precision then (m / 2, k + 1) else (m, k)
    if maxExponent < k then .infinity negative else .finite negative m k

/-- The double nearest to an integer. -/
def ofInt (i : Int) : Double := ofFraction (i < 0) i.natAbs 1

/-- The double nearest to `mantissa / 10^exponent`. -/
def ofDecimal (mantissa : Int) (exponent : Nat) : Double :=
  ofFraction (mantissa < 0) mantissa.natAbs (Nat.pow 10 exponent)

/-- The double nearest to a natural number. -/
def ofNat (n : Nat) : Double := ofFraction false n 1

def neg : Double → Double
  | .finite negative m k => .finite (!negative) m k
  | .infinity negative => .infinity (!negative)

def isZero : Double → Bool
  | .finite _ m _ => m == 0
  | .infinity _ => false

def isInfinite : Double → Bool
  | .finite .. => false
  | .infinity _ => true

/-- The product, rounded to the nearest double: the exact product of two
finite doubles is `m₁ m₂ · 2^(k₁ + k₂)`, rounded once. -/
def mul : Double → Double → Double
  | .finite s₁ m₁ k₁, .finite s₂ m₂ k₂ =>
    let (num, den) := scaleFraction (m₁ * m₂) 1 (k₁ + k₂)
    ofFraction (s₁ != s₂) num den
  | .finite s₁ _ _, .infinity s₂ | .infinity s₁, .finite s₂ _ _ | .infinity s₁, .infinity s₂ =>
    .infinity (s₁ != s₂)

/-- The quotient by a nonzero double, rounded to the nearest double: the
exact quotient is `m₁ / m₂ · 2^(k₁ - k₂)`, rounded once. -/
def div : Double → Double → Double
  | .finite s₁ m₁ k₁, .finite s₂ m₂ k₂ =>
    let (num, den) := scaleFraction m₁ m₂ (k₁ - k₂)
    ofFraction (s₁ != s₂) num den
  | .finite s₁ _ _, .infinity s₂ => .finite (s₁ != s₂) 0 0
  | .infinity s₁, .finite s₂ _ _ | .infinity s₁, .infinity s₂ => .infinity (s₁ != s₂)

/-- A finite double as an exact decimal `mantissa / 10^exponent`: a
significand times a negative power of two is that significand times the
same power of five over a power of ten. -/
def toDecimal? : Double → Option (Int × Nat)
  | .infinity _ => none
  | .finite negative m k =>
    let sign : Int := if negative then -1 else 1
    if 0 ≤ k then some (sign * (m * Nat.pow 2 k.toNat : Nat), 0)
    else some (sign * (m * Nat.pow 5 (-k).toNat : Nat), (-k).toNat)

/-- The 64 bits of a double: the sign, eleven bits of biased exponent (zero
for a subnormal) and the 52 bits of the significand below its leading one. -/
def toBits : Double → UInt64
  | .infinity negative => (signBit negative + 0x7ff * Nat.pow 2 52).toUInt64
  | .finite negative m k =>
    let field := if m < Nat.pow 2 (precision - 1) then 0 else (k - minExponent + 1).toNat
    (signBit negative + field * Nat.pow 2 52 + m % Nat.pow 2 52).toUInt64
where
  signBit (negative : Bool) : Nat := if negative then Nat.pow 2 63 else 0

end Double

end IrStream
