import CdkStacks.Document.Node
import CdkStacks.Text.Digit

/-!
# What a plain scalar stands for

A scalar without quotes is a null, a truth value, a number or, failing all of these, a string.

* `isNull`, `bool?`, `integer?`, `float?` are the spellings of each kind;
* `plainNode?` resolves a plain scalar; it fails for an integer that needs more than 64 bits and
  fits 128;
* `typedNode?` resolves a scalar under one of the standard tags (`!!bool`, `!!int`, `!!float`,
  `!!null`), which fails when the text does not fit.
-/

namespace CdkStacks.Document.Yaml

open CdkStacks.Decimal CdkStacks.Text

/-- The spellings of null, apart from the empty text. -/
def isNull (s : String) : Bool :=
  ["null", "Null", "NULL", "~"].contains s

/-- The spellings of the truth values. -/
def bool? (s : String) : Option Bool :=
  if ["true", "True", "TRUE"].contains s then some true
  else if ["false", "False", "FALSE"].contains s then some false
  else none

/-- The text without a leading sign. -/
def unsigned : List Char → List Char
  | '+' :: rest => rest
  | '-' :: rest => rest
  | cs => cs

/-- Whether a text is a zero followed by more digits, which is no number. -/
def isZeroPadded (cs : List Char) : Bool :=
  match unsigned cs with
  | '0' :: d :: rest => (d :: rest).all (isDigit 10)
  | _ => false

/-- The number spelled after a base mark or, without one, in base ten. -/
def magnitude? (cs : List Char) : Option Nat :=
  match cs with
  | '0' :: 'x' :: digits => readNat? 16 digits
  | '0' :: 'o' :: digits => readNat? 8 digits
  | '0' :: 'b' :: digits => readNat? 2 digits
  | digits => readNat? 10 digits

/-- The integer that a text spells, of any size. -/
def anyInteger? (cs : List Char) : Option Int :=
  if isZeroPadded cs then none
  else
    match cs with
    | '-' :: rest => (magnitude? rest).map fun n => -(n : Int)
    | '+' :: rest => (magnitude? rest).map fun n => (n : Int)
    | _ => (magnitude? cs).map fun n => (n : Int)

/-- How an integer fits the sizes of integers. -/
inductive IntegerSize where
  /-- It fits 64 bits, signed or unsigned. -/
  | word
  /-- It fits 128 bits, signed or unsigned. -/
  | long
  | huge
  deriving DecidableEq

/-- The size of an integer. -/
def integerSize (i : Int) : IntegerSize :=
  if -0x8000000000000000 ≤ i && i < 0x10000000000000000 then .word
  else if -0x80000000000000000000000000000000 ≤ i && i < 0x100000000000000000000000000000000 then
    .long
  else .huge

/-- Split a decimal number into its digits and its exponent: digits, an optional point with
digits on at least one side, an optional exponent. -/
def decimal? (cs : List Char) : Option (Nat × Int) := do
  let (whole, rest) := spanDigits 10 cs
  let (fraction, rest) := match rest with
    | '.' :: rest => spanDigits 10 rest
    | _ => ([], rest)
  let digits ← readNat? 10 (whole ++ fraction)
  let shift : Int := -(fraction.length : Int)
  match rest with
  | [] => some (digits, shift)
  | e :: rest =>
    if e ≠ 'e' && e ≠ 'E' then none
    else
      let (down, rest) : Bool × List Char := match rest with
        | '-' :: rest => (true, rest)
        | '+' :: rest => (false, rest)
        | _ => (false, rest)
      let n ← readNat? 10 rest
      some (digits, if down then shift - n else shift + n)

/-- The double that a text spells. A decimal beyond the doubles is no number. -/
def float? (s : String) : Option Binary64 :=
  let finite (negative : Bool) (cs : List Char) : Option Binary64 := do
    let (digits, e) ← decimal? cs
    let x ← Magnitude.ofDecimal digits e
    some (.finite negative x)
  if [".inf", ".Inf", ".INF", "+.inf", "+.Inf", "+.INF"].contains s then some (.infinite false)
  else if ["-.inf", "-.Inf", "-.INF"].contains s then some (.infinite true)
  else if [".nan", ".NaN", ".NAN"].contains s then some .nan
  else
    match s.toList with
    | '-' :: rest => finite true rest
    | '+' :: rest => finite false rest
    | cs => finite false cs

/-- The node of a plain scalar without a standard tag. -/
def plainNode? (s : String) : Option Node :=
  if s.isEmpty || isNull s then some .null
  else
    match bool? s with
    | some b => some (.bool b)
    | none =>
      let other : Node :=
        if isZeroPadded s.toList then .string s
        else
          match float? s with
          | some x => .number (.float x)
          | none => .string s
      match anyInteger? s.toList with
      | none => some other
      | some i =>
        match integerSize i with
        | .word => some (.number (.integer i))
        | .long => none
        | .huge => some other

/-- The standard tag of the given name. -/
def standardTag (name : String) : String :=
  "tag:yaml.org,2002:" ++ name

/-- The node of a scalar under a tag that is not local. -/
def typedNode? (tag s : String) : Option Node :=
  if tag = standardTag "bool" then (bool? s).map .bool
  else if tag = standardTag "int" then
    match anyInteger? s.toList with
    | some i => if integerSize i = .word then some (.number (.integer i)) else none
    | none => none
  else if tag = standardTag "float" then (float? s).map fun x => .number (.float x)
  else if tag = standardTag "null" then if isNull s then some .null else none
  else some (.string s)

end CdkStacks.Document.Yaml
