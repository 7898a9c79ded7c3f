import CdkStacks.Document.Node
import CdkStacks.Text.Digit

/-!
# JSON documents

The strict reader of JSON texts. Nothing but one value, with blanks around it, makes a document;
a key may not be repeated in an object, at most 127 containers nest, and a number must be in the
range of the doubles.

* `Json.number?` reads a number: an integer of 64 bits keeps its value, any other number is a
  double. Digits are taken up while they fit 64 bits and the result is scaled by one power of ten;
* `Json.string?` reads the rest of a string after its opening quote;
* `Json.value?` reads a value with room for a number of nested containers;
* `Json.read?` reads a document.

Every reader takes the remaining characters and returns what it read with the characters after it,
or `none` where the text is no JSON.
-/

namespace CdkStacks.Document.Json

open CdkStacks.Decimal CdkStacks.Text

/-- The four blank characters. -/
def isBlank (c : Char) : Bool :=
  c = ' ' || c = '\t' || c = '\n' || c = '\r'

/-- Skip blanks. -/
def skip (cs : List Char) : List Char :=
  cs.dropWhile isBlank

/-! ## Numbers -/

/-- The bound of the integers that are taken up digit by digit. -/
def wordBound : Nat := 0x10000000000000000

/-- Take up digits while the number stays below `wordBound`; the result is the number, how many
digits were taken, and the characters from the first digit that does not fit. -/
def takeDigits : Nat → Nat → List Char → Nat × Nat × List Char
  | n, count, [] => (n, count, [])
  | n, count, c :: cs =>
    match digit? 10 c with
    | some d =>
      if n * 10 + d < wordBound then takeDigits (n * 10 + d) (count + 1) cs
      else (n, count, c :: cs)
    | none => (n, count, c :: cs)

/-- The double `10 ^ n`, for `n` up to 308. -/
def tenPower (n : Nat) : Magnitude :=
  (Magnitude.ofDecimal 1 n).getD Magnitude.zero

/-- `x · 10 ^ exponent`: one multiplication or division by a power of ten, after divisions by
`10 ^ 308` when the exponent is smaller than that. `none` when the result is out of range. -/
def scale (x : Magnitude) (exponent : Int) : Option Magnitude :=
  if x.mantissa = 0 then some x
  else if 308 < exponent then none
  else if 0 ≤ exponent then x.mul (tenPower exponent.toNat)
  else if -308 ≤ exponent then x.div (tenPower exponent.natAbs)
  else (x.div (tenPower 308)).bind fun y => scale y (exponent + 308)
termination_by (-exponent).toNat

/-- The double made of a sign, a significand and an exponent. -/
def double? (negative : Bool) (significand : Nat) (exponent : Int) : Option Number := do
  let x ← Magnitude.ofDecimal significand 0
  let y ← scale x exponent
  some (.float (.finite negative y))

/-- Read the exponent after its mark and finish the number. -/
def exponent? (negative : Bool) (significand : Nat) (start : Int) (cs : List Char) :
    Option (Number × List Char) :=
  let (down, cs) : Bool × List Char := match cs with
    | '-' :: rest => (true, rest)
    | '+' :: rest => (false, rest)
    | _ => (false, cs)
  let (digits, rest) := spanDigits 10 cs
  do
    let e ← readNat? 10 digits
    let n ← double? negative significand (if down then start - e else start + e)
    some (n, rest)

/-- Finish a number whose digits have all been read. -/
def finish? (negative : Bool) (significand : Nat) (exponent : Int) (cs : List Char) :
    Option (Number × List Char) :=
  match cs with
  | 'e' :: rest => exponent? negative significand exponent rest
  | 'E' :: rest => exponent? negative significand exponent rest
  | _ => (double? negative significand exponent).map (·, cs)

/-- Read the fraction after the decimal point and finish the number. Digits that do not fit are
dropped. -/
def fraction? (negative : Bool) (significand : Nat) (exponent : Int) (cs : List Char) :
    Option (Number × List Char) :=
  match cs with
  | [] => none
  | c :: _ =>
    if !isDigit 10 c then none
    else
      let (n, count, rest) := takeDigits significand 0 cs
      finish? negative n (exponent - count) (rest.dropWhile (isDigit 10))

/-- Finish a number after its integer part. -/
def integer? (negative : Bool) (n : Nat) (cs : List Char) : Option (Number × List Char) :=
  match cs with
  | '.' :: rest => fraction? negative n 0 rest
  | 'e' :: rest => exponent? negative n 0 rest
  | 'E' :: rest => exponent? negative n 0 rest
  | c :: _ =>
    if isDigit 10 c then
      -- The integer part goes on beyond 64 bits.
      let (more, rest) := spanDigits 10 cs
      match rest with
      | '.' :: rest => fraction? negative n more.length rest
      | _ => finish? negative n more.length rest
    else whole
  | [] => whole
where
  whole : Option (Number × List Char) :=
    if !negative then some (.integer n, cs)
    else if 0 < n && n ≤ 0x8000000000000000 then some (.integer (-n), cs)
    else (double? true n 0).map (·, cs)

/-- Read a number after its sign. A leading zero stands alone. -/
def number? (negative : Bool) (cs : List Char) : Option (Number × List Char) :=
  match cs with
  | '0' :: c :: rest => if isDigit 10 c then none else integer? negative 0 (c :: rest)
  | '0' :: rest => integer? negative 0 rest
  | c :: _ =>
    if isDigit 10 c then
      let (n, _, rest) := takeDigits 0 0 cs
      integer? negative n rest
    else none
  | [] => none

/-! ## Strings -/

/-- The character of a one-letter escape. -/
def escape? : Char → Option Char
  | '"' => some '"'
  | '\\' => some '\\'
  | '/' => some '/'
  | 'b' => some '\x08'
  | 'f' => some '\x0c'
  | 'n' => some '\n'
  | 'r' => some '\r'
  | 't' => some '\t'
  | _ => none

/-- The number spelled by four hexadecimal digits. -/
def hex4? (a b c d : Char) : Option Nat :=
  readNat? 16 [a, b, c, d]

/-- The character of a pair of surrogates. -/
def surrogates? (high low : Nat) : Option Char :=
  if 0xD800 ≤ high && high < 0xDC00 && 0xDC00 ≤ low && low < 0xE000 then
    scalar? (0x10000 + (high - 0xD800) * 0x400 + (low - 0xDC00))
  else none

/-- Read the rest of a string after its opening quote; `text` holds the characters so far, last
first. Surrogate escapes come in pairs, and characters below the space must be escaped. -/
def string? (text : List Char) : List Char → Option (String × List Char)
  | [] => none
  | '"' :: rest => some (String.ofList text.reverse, rest)
  | '\\' :: 'u' :: a :: b :: c :: d :: rest =>
    match hex4? a b c d with
    | none => none
    | some code =>
      match scalar? code with
      | some ch => string? (ch :: text) rest
      | none =>
        match rest with
        | '\\' :: 'u' :: e :: f :: g :: h :: rest' =>
          match (hex4? e f g h).bind (surrogates? code) with
          | some ch => string? (ch :: text) rest'
          | none => none
        | _ => none
  | '\\' :: c :: rest =>
    match escape? c with
    | some ch => string? (ch :: text) rest
    | none => none
  | c :: rest => if c.toNat < 0x20 || c = '\\' then none else string? (c :: text) rest

/-! ## Values -/

/-- Read one of the three named values. -/
def literal? (word : String) (node : Node) (cs : List Char) : Option (Node × List Char) :=
  if word.toList.isPrefixOf cs then some (node, cs.drop word.length) else none

/-- Read the items of an array, each by `value`, up to the closing bracket. -/
def items? (value : List Char → Option (Node × List Char)) (cs : List Char) :
    Option (List Node × List Char) :=
  match value cs with
  | none => none
  | some (item, rest) =>
    match skip rest with
    | ']' :: rest => some ([item], rest)
    | ',' :: rest =>
      if rest.length < cs.length then
        (items? value rest).map fun (items, rest) => (item :: items, rest)
      else none
    | _ => none
termination_by cs.length

/-- Read the members of an object, each value by `value`, up to the closing brace. `entries` holds
the members so far, last first. -/
def members? (value : List Char → Option (Node × List Char)) (entries : List (Node × Node))
    (cs : List Char) : Option (List (Node × Node) × List Char) :=
  match skip cs with
  | '"' :: rest =>
    match string? [] rest with
    | none => none
    | some (key, rest) =>
      match skip rest with
      | ':' :: rest =>
        if hasKey entries (.string key) then none
        else
          match value rest with
          | none => none
          | some (item, rest) =>
            let entries := (.string key, item) :: entries
            match skip rest with
            | '}' :: rest => some (entries.reverse, rest)
            | ',' :: rest =>
              if rest.length < cs.length then members? value entries rest else none
            | _ => none
      | _ => none
  | _ => none
termination_by cs.length

/-- Read a value in which `room` containers may nest. -/
def value? : Nat → List Char → Option (Node × List Char)
  | room, cs =>
    match skip cs with
    | 'n' :: rest => literal? "ull" .null rest
    | 't' :: rest => literal? "rue" (.bool true) rest
    | 'f' :: rest => literal? "alse" (.bool false) rest
    | '"' :: rest => (string? [] rest).map fun (s, rest) => (.string s, rest)
    | '[' :: rest =>
      match room with
      | 0 => none
      | room + 1 =>
        match skip rest with
        | ']' :: rest => some (.sequence [], rest)
        | _ => (items? (value? room) rest).map fun (items, rest) => (.sequence items, rest)
    | '{' :: rest =>
      match room with
      | 0 => none
      | room + 1 =>
        match skip rest with
        | '}' :: rest => some (.mapping [], rest)
        | _ => (members? (value? room) [] rest).map fun (es, rest) => (.mapping es, rest)
    | '-' :: rest => (number? true rest).map fun (n, rest) => (.number n, rest)
    | cs => (number? false cs).map fun (n, rest) => (.number n, rest)

/-- How many containers may nest in a document. -/
def maxNesting : Nat := 127

/-- Read a document: one value and nothing after it. -/
def read? (text : String) : Option Node :=
  match value? maxNesting text.toList with
  | some (node, rest) => if (skip rest).isEmpty then some node else none
  | none => none

end CdkStacks.Document.Json
