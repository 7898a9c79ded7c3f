/-!
# Digits

Digits of a base up to sixteen, and the number a run of digits spells.

* `digit? b c` is the value of `c` as a digit of base `b`;
* `readNat? b cs` is the number spelled by `cs`, which must be a non-empty run of such digits;
* `spanDigits b cs` splits off the longest run of digits at the front;
* `decimal n` spells `n` in base ten.
-/

namespace CdkStacks.Text

/-- The value of a hexadecimal digit in either case. -/
def hexValue? (c : Char) : Option Nat :=
  if '0' ≤ c && c ≤ '9' then some (c.toNat - '0'.toNat)
  else if 'a' ≤ c && c ≤ 'f' then some (c.toNat - 'a'.toNat + 10)
  else if 'A' ≤ c && c ≤ 'F' then some (c.toNat - 'A'.toNat + 10)
  else none

/-- The value of `c` as a digit of base `base` (at most sixteen). -/
def digit? (base : Nat) (c : Char) : Option Nat :=
  (hexValue? c).filter (· < base)

/-- Whether `c` is a digit of base `base`. -/
def isDigit (base : Nat) (c : Char) : Bool :=
  (digit? base c).isSome

/-- The number that a run of digits continues from `start`; `none` at the first character that is
no digit. -/
def continueNat? (base : Nat) : Nat → List Char → Option Nat
  | start, [] => some start
  | start, c :: cs => (digit? base c).bind fun d => continueNat? base (start * base + d) cs

/-- The number spelled by a non-empty run of digits. -/
def readNat? (base : Nat) (cs : List Char) : Option Nat :=
  if cs.isEmpty then none else continueNat? base 0 cs

/-- The longest run of digits at the front, and the rest. -/
def spanDigits (base : Nat) (cs : List Char) : List Char × List Char :=
  cs.span (isDigit base)

/-- A character from its code, when the code is one of a Unicode scalar value. -/
def scalar? (code : Nat) : Option Char :=
  if code < 0xD800 || (0xDFFF < code && code < 0x110000) then some (Char.ofNat code) else none

/-- The decimal spelling of a number. -/
def decimal (n : Nat) : String :=
  String.ofList (Nat.toDigits 10 n)

end CdkStacks.Text
