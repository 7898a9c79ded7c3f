import CdkStacks.Decimal.Binary64
import CdkStacks.Text.Digit

/-!
# TOML scalars

Strings, numbers, truth values and moments in time. Readers take the characters from which to read,
and give what they read together with the characters behind it.

* `Scalar` is a scalar;
* `string?` reads a string in any of its four forms;
* `bare?` reads any other scalar: a run of characters that is judged as a whole.
-/

namespace CdkStacks.Toml

open CdkStacks.Decimal CdkStacks.Text

/-- A scalar. -/
inductive Scalar where
  | text (text : String)
  | integer (value : Int)
  | float (value : Binary64)
  | bool (value : Bool)
  /-- A date, a time of day or both, as it is written. -/
  | moment (text : String)
  deriving DecidableEq, Repr

/-! ## Characters -/

/-- A blank or a tab. -/
def isBlankChar (c : Char) : Bool :=
  c = ' ' || c = '\t'

/-- Drop blanks and tabs. -/
def skipBlanks (cs : List Char) : List Char :=
  cs.dropWhile isBlankChar

/-- Whether a character may stand on a line: all but control characters, of which the tab may. -/
def isLineChar (c : Char) : Bool :=
  c = '\t' || (0x20 ≤ c.toNat && c.toNat ≠ 0x7F)

/-- Whether a line ends here by a carriage return that a line feed follows. -/
def startsBreak (c : Char) (rest : List Char) : Bool :=
  c = '\r' && rest.head? = some '\n'

/-- What stands behind the end of a line. -/
def lineBreak? : List Char → Option (List Char)
  | '\n' :: rest => some rest
  | '\r' :: '\n' :: rest => some rest
  | _ => none

/-! ## Strings -/

/-- The character of a one-letter escape. -/
def escape? : Char → Option Char
  | 'b' => some '\x08'
  | 't' => some '\t'
  | 'n' => some '\n'
  | 'f' => some '\x0c'
  | 'r' => some '\r'
  | '"' => some '"'
  | '\\' => some '\\'
  | _ => none

/-- The character of an escape by its code. -/
def coded? (digits : List Char) : Option Char :=
  (readNat? 16 digits).bind scalar?

/-- Read the rest of a string between double quotes; `text` holds the characters so far, last
first. -/
def basic? (text : List Char) : List Char → Option (String × List Char)
  | [] => none
  | '"' :: rest => some (String.ofList text.reverse, rest)
  | '\\' :: 'u' :: a :: b :: c :: d :: rest =>
    match coded? [a, b, c, d] with
    | some ch => basic? (ch :: text) rest
    | none => none
  | '\\' :: 'U' :: a :: b :: c :: d :: e :: f :: g :: h :: rest =>
    match coded? [a, b, c, d, e, f, g, h] with
    | some ch => basic? (ch :: text) rest
    | none => none
  | '\\' :: c :: rest =>
    match escape? c with
    | some ch => basic? (ch :: text) rest
    | none => none
  | c :: rest => if isLineChar c && c ≠ '\\' then basic? (c :: text) rest else none

/-- Read the rest of a string between single quotes. -/
def literal? (cs : List Char) : Option (String × List Char) :=
  let (text, rest) := cs.span fun c => isLineChar c && c ≠ '\''
  match rest with
  | '\'' :: rest => some (String.ofList text, rest)
  | _ => none

/-- Close a string behind three quotes: up to two more quotes belong to the text. -/
def closeQuotes (quote : Char) (text rest : List Char) : String × List Char :=
  match rest with
  | a :: b :: more =>
    if a = quote && b = quote then (String.ofList (quote :: quote :: text).reverse, more)
    else if a = quote then (String.ofList (quote :: text).reverse, b :: more)
    else (String.ofList text.reverse, rest)
  | [a] =>
    if a = quote then (String.ofList (quote :: text).reverse, [])
    else (String.ofList text.reverse, [a])
  | [] => (String.ofList text.reverse, [])

/-- Whether only blanks stand before the end of the line. -/
def endsLine (cs : List Char) : Bool :=
  (lineBreak? (skipBlanks cs)).isSome

/-- Read the rest of a string of several lines between double quotes. A backslash at the end of a
line joins it with the next line that is not blank: `joining` drops what is blank. -/
def multiBasic? (joining : Bool) (text : List Char) : List Char → Option (String × List Char)
  | [] => none
  | c :: rest =>
    if joining && (isBlankChar c || c = '\n' || startsBreak c rest) then
      multiBasic? true text rest
    else if c = '"' then
      match rest with
      | '"' :: '"' :: rest => some (closeQuotes '"' text rest)
      | _ => multiBasic? false ('"' :: text) rest
    else if c = '\\' then
      if endsLine rest then multiBasic? true text rest
      else
        match rest with
        | 'u' :: a :: b :: c :: d :: rest =>
          match coded? [a, b, c, d] with
          | some ch => multiBasic? false (ch :: text) rest
          | none => none
        | 'U' :: a :: b :: c :: d :: e :: f :: g :: h :: rest =>
          match coded? [a, b, c, d, e, f, g, h] with
          | some ch => multiBasic? false (ch :: text) rest
          | none => none
        | e :: rest =>
          match escape? e with
          | some ch => multiBasic? false (ch :: text) rest
          | none => none
        | [] => none
    else if startsBreak c rest then multiBasic? false text rest
    else if c = '\n' || isLineChar c then multiBasic? false (c :: text) rest
    else none

/-- Read the rest of a string of several lines between single quotes. -/
def multiLiteral? (text : List Char) : List Char → Option (String × List Char)
  | [] => none
  | c :: rest =>
    if c = '\'' then
      match rest with
      | '\'' :: '\'' :: rest => some (closeQuotes '\'' text rest)
      | _ => multiLiteral? (c :: text) rest
    else if startsBreak c rest then multiLiteral? text rest
    else if c = '\n' || isLineChar c then multiLiteral? (c :: text) rest
    else none

/-- Drop the end of the line that directly follows the opening quotes. -/
def dropBreak (cs : List Char) : List Char :=
  (lineBreak? cs).getD cs

/-- Read a string. -/
def string? : List Char → Option (String × List Char)
  | '"' :: '"' :: '"' :: rest => multiBasic? false [] (dropBreak rest)
  | '"' :: rest => basic? [] rest
  | '\'' :: '\'' :: '\'' :: rest => multiLiteral? [] (dropBreak rest)
  | '\'' :: rest => literal? rest
  | _ => none

/-! ## Numbers -/

/-- The digits of a number; underscores may stand between digits. -/
def digits? (base : Nat) : List Char → Option (List Char)
  | [] => none
  | [c] => if isDigit base c then some [c] else none
  | c :: '_' :: rest => if isDigit base c then (digits? base rest).map (c :: ·) else none
  | c :: rest => if isDigit base c then (digits? base rest).map (c :: ·) else none

/-- The number that digits of a base spell. -/
def natural? (base : Nat) (cs : List Char) : Option Nat :=
  (digits? base cs).bind (readNat? base)

/-- The digits of a decimal number, which starts with zero only when it is zero. -/
def decimalDigits? (cs : List Char) : Option (List Char) :=
  match cs with
  | ['0'] => some ['0']
  | '0' :: _ => none
  | _ => digits? 10 cs

/-- Split off a sign. -/
def sign (cs : List Char) : Bool × List Char :=
  match cs with
  | '-' :: rest => (true, rest)
  | '+' :: rest => (false, rest)
  | _ => (false, cs)

/-- The greatest integer. -/
def maxInteger : Nat := 0x7FFFFFFFFFFFFFFF

/-- An integer: decimal with an optional sign, or with a mark for base sixteen, eight or two. -/
def integer? (cs : List Char) : Option Int :=
  match cs with
  | '0' :: 'x' :: rest => marked? 16 rest
  | '0' :: 'o' :: rest => marked? 8 rest
  | '0' :: 'b' :: rest => marked? 2 rest
  | _ => do
    let (negative, rest) := sign cs
    let n ← readNat? 10 (← decimalDigits? rest)
    if negative then
      if n ≤ maxInteger + 1 then some (-n) else none
    else if n ≤ maxInteger then some n else none
where
  marked? (base : Nat) (cs : List Char) : Option Int := do
    let n ← natural? base cs
    if n ≤ maxInteger then some n else none

/-- The exponent of a number: the part behind the mark, if there is one. -/
def exponent? (cs : List Char) : Option Int :=
  match cs with
  | [] => some 0
  | _ :: rest => do
    let (negative, rest) := sign rest
    let n ← natural? 10 rest
    return if negative then -n else n

/-- Whether a character is the mark of an exponent. -/
def isExponentMark (c : Char) : Bool :=
  c = 'e' || c = 'E'

/-- A float: it has a fraction or an exponent. A positive number beyond all doubles is refused. -/
def float? (cs : List Char) : Option Binary64 := do
  let (negative, rest) := sign cs
  if rest = "inf".toList then return .infinite negative
  if rest = "nan".toList then return .nan
  let (whole, rest) := rest.span fun c => c ≠ '.' && !isExponentMark c
  let whole ← decimalDigits? whole
  let (fraction, rest) ← match rest with
    | '.' :: rest =>
      let (fraction, rest) := rest.span fun c => !isExponentMark c
      (digits? 10 fraction).map (·, rest)
    | _ :: _ => some ([], rest)
    | [] => none
  let digits ← readNat? 10 (whole ++ fraction)
  match Magnitude.ofDecimal digits ((← exponent? rest) - fraction.length) with
  | some magnitude => return .finite negative magnitude
  | none => if negative then return .infinite true else none

/-! ## Moments -/

/-- A number of two digits within bounds. -/
def twoDigits? (low high : Nat) (a b : Char) : Option Nat :=
  (readNat? 10 [a, b]).filter fun n => low ≤ n && n ≤ high

/-- The number of days of a month. -/
def daysOf (year month : Nat) : Nat :=
  if month = 2 then
    if year % 4 = 0 && (year % 100 ≠ 0 || year % 400 = 0) then 29 else 28
  else if month = 4 || month = 6 || month = 9 || month = 11 then 30
  else 31

/-- Read a date; the answer is what stands behind it. -/
def date? : List Char → Option (List Char)
  | y₁ :: y₂ :: y₃ :: y₄ :: '-' :: m₁ :: m₂ :: '-' :: d₁ :: d₂ :: rest => do
    let year ← readNat? 10 [y₁, y₂, y₃, y₄]
    let month ← twoDigits? 1 12 m₁ m₂
    let _ ← twoDigits? 1 (daysOf year month) d₁ d₂
    return rest
  | _ => none

/-- Read a time of day; the answer is what stands behind it. -/
def time? : List Char → Option (List Char)
  | h₁ :: h₂ :: ':' :: m₁ :: m₂ :: ':' :: s₁ :: s₂ :: rest => do
    let _ ← twoDigits? 0 23 h₁ h₂
    let _ ← twoDigits? 0 59 m₁ m₂
    let _ ← twoDigits? 0 60 s₁ s₂
    match rest with
    | '.' :: fraction =>
      let (digits, rest) := spanDigits 10 fraction
      if digits.isEmpty then none else some rest
    | _ => some rest
  | _ => none

/-- Whether this is nothing, or the offset of a time zone. -/
def isOffset (cs : List Char) : Bool :=
  match cs with
  | [] | ['Z'] | ['z'] => true
  | [s, h₁, h₂, ':', m₁, m₂] =>
    (s = '+' || s = '-') && (twoDigits? 0 23 h₁ h₂).isSome && (twoDigits? 0 59 m₁ m₂).isSome
  | _ => false

/-- Whether this is a time of day with an optional offset, and nothing else. -/
def isTime (cs : List Char) : Bool :=
  match time? cs with
  | some rest => isOffset rest
  | none => false

/-- Whether this is a date, a date and a time, or a time without an offset. -/
def isMoment (cs : List Char) : Bool :=
  match date? cs with
  | some [] => true
  | some (c :: rest) => (c = 'T' || c = 't') && isTime rest
  | none => time? cs = some []

/-! ## Bare scalars -/

/-- Whether a character may belong to a bare scalar. -/
def isBareChar (c : Char) : Bool :=
  c.isAlphanum || c = '_' || c = '+' || c = '-' || c = '.' || c = ':'

/-- The scalar that a run of characters spells. -/
def bareScalar? (run : List Char) : Option Scalar :=
  if run = "true".toList then some (.bool true)
  else if run = "false".toList then some (.bool false)
  else if isMoment run then some (.moment (String.ofList run))
  else
    match integer? run with
    | some n => some (.integer n)
    | none => (float? run).map .float

/-- Read a scalar that is no string. A date may be followed by a blank and a time. -/
def bare? (cs : List Char) : Option (Scalar × List Char) :=
  let (run, rest) := cs.span isBareChar
  match date? run, rest with
  | some [], ' ' :: behind =>
    let (time, behind) := behind.span isBareChar
    if isTime time then some (.moment (String.ofList (run ++ ' ' :: time)), behind)
    else some (.moment (String.ofList run), rest)
  | _, _ => (bareScalar? run).map (·, rest)

/-- Read a scalar. -/
def scalar? (cs : List Char) : Option (Scalar × List Char) :=
  match cs with
  | '"' :: _ | '\'' :: _ => (string? cs).map fun (text, rest) => (.text text, rest)
  | _ => bare? cs

end CdkStacks.Toml
