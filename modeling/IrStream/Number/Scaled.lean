import IrStream.Number.Double

/-!
Decimals turned into doubles the fast way a reader of number text does it:
the decimal's significand, a natural number below `2^64`, is first rounded
to a double, and that double is then multiplied or divided by the double
nearest to a power of ten, the result rounded once more. Two roundings can
miss the double nearest to the decimal by one unit in the last place, so
this is a conversion of its own, not `Double.ofDecimal`.

Only the powers `10^0` to `10^308` are at hand. A larger negative power is
reached by dividing by `10^308` first, repeatedly, until the rest is at
hand or the value has become zero; a larger positive power, or a product
that overflows, leaves the number out of range unless it is zero.
-/

namespace IrStream.Double

/-- The largest power of ten the conversion has as a double. -/
def largestPowTen : Nat := 308

/-- The double nearest to `10^n`. -/
def powTen (n : Nat) : Double := ofNat (Nat.pow 10 n)

/-- `f / 10^n`, by at most `largestPowTen` at a time; zero stays zero. -/
def divideByPowTen (f : Double) (n : Nat) : Double :=
  if n ≤ largestPowTen then f.div (powTen n)
  else if f.isZero then f
  else divideByPowTen (f.div (powTen largestPowTen)) (n - largestPowTen)
termination_by n
decreasing_by simp only [largestPowTen] at *; omega

/-- `f · 10^e` as the fast conversion computes it, or nothing when the
result is out of range. -/
def scaleByPowTen? (f : Double) (e : Int) : Option Double :=
  if 0 ≤ e then
    if e.toNat ≤ largestPowTen then
      let g := f.mul (powTen e.toNat)
      if g.isInfinite then none else some g
    else if f.isZero then some f
    else none
  else some (divideByPowTen f (-e).toNat)

/-- The double for `± significand · 10^e` by the fast conversion, or nothing
when it is out of range. -/
def ofScaled? (negative : Bool) (significand : Nat) (e : Int) : Option Double :=
  (scaleByPowTen? (ofNat significand) e).map fun f => if negative then f.neg else f

end IrStream.Double
