/-!
# Double-precision numbers

The doubles, with their rounding done in exact arithmetic on natural numbers.

* A finite double is `± mantissa · 2 ^ exponent` with `mantissa < 2 ^ 53` and
  `-1074 ≤ exponent ≤ 971`; the mantissa is at least `2 ^ 52` unless the exponent is `-1074`;
* `Magnitude.nearest` rounds a ratio of natural numbers to the nearest double, a half going to the
  even mantissa, and gives `none` when the result is too large;
* `Magnitude.mul` and `Magnitude.div` are the rounded product and quotient;
* `Magnitude.ofDecimal` is the double nearest to `digits · 10 ^ exponent`.
-/

namespace CdkStacks.Decimal

/-- A non-negative finite double: `mantissa · 2 ^ exponent`. -/
structure Magnitude where
  mantissa : Nat
  exponent : Int
  deriving DecidableEq, Repr

/-- The least exponent of a double. -/
def leastExponent : Int := -1074

/-- The greatest exponent of a double. -/
def greatestExponent : Int := 971

namespace Magnitude

/-- The least mantissa of a double whose exponent is not the least one: `2 ^ 52`. -/
def leastNormal : Nat := 0x10000000000000

/-- Zero. -/
def zero : Magnitude := ⟨0, leastExponent⟩

/-- `n · b ^ e` when `e` is positive, and `n` otherwise. -/
def scaleUp (n base : Nat) (e : Int) : Nat := n * Nat.pow base e.toNat

/-- The quotient `num / den` rounded to the nearest integer, a half going to the even one. -/
def roundDiv (num den : Nat) : Nat :=
  let q := num / den
  let r := 2 * (num % den)
  if r < den then q else if den < r then q + 1 else if q % 2 = 0 then q else q + 1

/-- Whether `2 ^ e ≤ num / den`. -/
def powerLe (e : Int) (num den : Nat) : Bool :=
  scaleUp den 2 e ≤ scaleUp num 2 (-e)

/-- The double nearest to `num / den`, or `none` when it would exceed every double. -/
def nearest (num den : Nat) : Option Magnitude :=
  if num = 0 then some zero
  else
    let estimate : Int := (Nat.log2 num : Int) - (Nat.log2 den : Int)
    let top := if powerLe estimate num den then estimate else estimate - 1
    let e := max (top - 52) leastExponent
    let m := roundDiv (scaleUp num 2 (-e)) (scaleUp den 2 e)
    let (m, e) := if m = 2 * leastNormal then (leastNormal, e + 1) else (m, e)
    if greatestExponent < e then none else some ⟨m, e⟩

/-- The rounded product. -/
def mul (x y : Magnitude) : Option Magnitude :=
  let e := x.exponent + y.exponent
  nearest (scaleUp (x.mantissa * y.mantissa) 2 e) (scaleUp 1 2 (-e))

/-- The rounded quotient; the divisor is not zero. -/
def div (x y : Magnitude) : Option Magnitude :=
  let e := x.exponent - y.exponent
  nearest (scaleUp x.mantissa 2 e) (scaleUp y.mantissa 2 (-e))

/-- The double nearest to `digits · 10 ^ exponent`, or `none` when it would exceed every double.
Exponents far out of range are settled without computing the power. -/
def ofDecimal (digits : Nat) (exponent : Int) : Option Magnitude :=
  let size : Int := (Nat.toDigits 10 digits).length + exponent
  if digits = 0 || size < -340 then some zero
  else if 320 < size then none
  else nearest (scaleUp digits 10 exponent) (scaleUp 1 10 (-exponent))

end Magnitude

/-- A double. -/
inductive Binary64 where
  | finite (negative : Bool) (magnitude : Magnitude)
  | infinite (negative : Bool)
  | nan
  deriving DecidableEq, Repr

/-- Whether a double is neither infinite nor `nan`. -/
def Binary64.isFinite : Binary64 → Bool
  | .finite _ _ => true
  | _ => false

/-- Equality of numbers: the two zeros are equal, and so are two `nan`s. -/
def Binary64.same : Binary64 → Binary64 → Bool
  | .finite n x, .finite n' x' => x = x' && (n = n' || x.mantissa = 0)
  | .infinite n, .infinite n' => n = n'
  | .nan, .nan => true
  | _, _ => false

end CdkStacks.Decimal
