import CdkStacks.Decimal.Binary64

/-!
# Shortest decimal text

The text of a double has the fewest digits that read back as the same double; of the decimals with
that many digits it is the one nearest to the double, a tie going to the even last digit.

* `Magnitude.shortest` finds the digits and the place of the first one;
* `Binary64.text` lays them out: positional, with a fraction, when the first digit stands between
  the fifth decimal place and `10 ^ 15`, and with an exponent otherwise.
-/

namespace CdkStacks.Decimal

/-- Decimal digits: `digits`, read as one number, times `10 ^ scale`. -/
structure Digits where
  digits : Nat
  scale : Int
  deriving DecidableEq, Repr

namespace Magnitude

/-- The place of the first decimal digit of a positive number: `10 ^ e ≤ x < 10 ^ (e + 1)`. It is
read off the digits of `⌊x · 10 ^ 400⌋`. -/
def firstPlace (x : Magnitude) : Int :=
  let n := scaleUp (x.mantissa * Nat.pow 10 400) 2 x.exponent / scaleUp 1 2 (-x.exponent)
  (Nat.toDigits 10 n).length - 401

/-- A decimal grid against a double: `c · 10 ^ scale` compares with a quarter of the unit in the
last place, counted `w` times, as `c * left` with `w * right`. -/
structure Grid where
  left : Nat
  right : Nat

/-- The grid of step `10 ^ scale` for doubles with the exponent of `x`. -/
def grid (x : Magnitude) (scale : Int) : Grid where
  left := scaleUp (scaleUp 1 10 scale) 2 (2 - x.exponent)
  right := scaleUp (scaleUp 1 2 (x.exponent - 2)) 10 (-scale)

/-- Whether the grid point `c` reads back as `x`. The numbers that do reach half a unit up and
half a unit down, or a quarter down from a power of two; the ends belong to them when the mantissa
is even. -/
def readsBack (x : Magnitude) (g : Grid) (c : Nat) : Bool :=
  let low :=
    4 * x.mantissa - (if x.mantissa = leastNormal && leastExponent < x.exponent then 1 else 2)
  let high := 4 * x.mantissa + 2
  let point := c * g.left
  if x.mantissa % 2 = 0 then low * g.right ≤ point && point ≤ high * g.right
  else low * g.right < point && point < high * g.right

/-- The grid point nearest to `x` that reads back as `x`. -/
def onGrid? (x : Magnitude) (g : Grid) : Option Nat :=
  let value := 4 * x.mantissa * g.right
  let below := value / g.left
  let above := below + 1
  match readsBack x g below, readsBack x g above with
  | false, false => none
  | true, false => some below
  | false, true => some above
  | true, true =>
    let down := value - below * g.left
    let up := above * g.left - value
    if down < up then some below
    else if up < down then some above
    else if below % 2 = 0 then some below else some above

/-- Try `count` digits, then more, at most `fuel` times. Seventeen digits always suffice. -/
def search (x : Magnitude) (place : Int) : Nat → Nat → Digits
  | 0, _ => ⟨x.mantissa, 0⟩
  | fuel + 1, count =>
    let scale := place - count + 1
    match onGrid? x (grid x scale) with
    | some c => ⟨c, scale⟩
    | none => search x place fuel (count + 1)

/-- The shortest digits that read back as a positive double. -/
def shortest (x : Magnitude) : Digits :=
  search x x.firstPlace 17 1

/-- The text of a non-negative double. -/
def text (x : Magnitude) : String :=
  if x.mantissa = 0 then "0.0"
  else
    let d := x.shortest
    let all := Nat.toDigits 10 d.digits
    let place : Int := d.scale + all.length - 1
    let digits := (all.reverse.dropWhile (· = '0')).reverse
    if 0 ≤ place && place ≤ 15 then
      let whole := (digits ++ List.replicate 16 '0').take (place.toNat + 1)
      let fraction := digits.drop (place.toNat + 1)
      String.ofList (whole ++ '.' :: (if fraction.isEmpty then ['0'] else fraction))
    else if -5 ≤ place && place < 0 then
      String.ofList ('0' :: '.' :: (List.replicate ((-place).toNat - 1) '0' ++ digits))
    else
      let head := digits.take 1
      let tail := digits.drop 1
      let sign := if place < 0 then ['-'] else []
      String.ofList (head ++ (if tail.isEmpty then [] else '.' :: tail) ++ 'e' :: sign ++
        Nat.toDigits 10 place.natAbs)

end Magnitude

/-- The text of a double. -/
def Binary64.text : Binary64 → String
  | .finite negative x => if negative then "-" ++ x.text else x.text
  | .infinite negative => if negative then "-.inf" else ".inf"
  | .nan => ".nan"

end CdkStacks.Decimal
