import CdkStacks.Document.Yaml.Cursor
import CdkStacks.Text.Digit

/-!
# Tags and directives of a YAML text

A tag is a handle with a suffix (`!Ref`, `!!str`, `!e!foo`) or is written out (`!<name>`). A
directive stands on a line of its own before a document and gives the version or the meaning of a
handle.

* `tag?` reads a tag, `directive?` a directive; both give `none` where the text is neither;
* `expand?` is the full name of a tag under the handles that are declared.
-/

namespace CdkStacks.Document.Yaml

open CdkStacks.Text

/-- A tag as written. The handle is empty when the tag is written out. -/
structure Tag where
  handle : String
  suffix : String

/-- A line that starts with a percent sign. -/
inductive Directive where
  | version (major minor : Nat)
  | handle (handle base : String)

/-! ## Tags -/

/-- The characters of a tag name beyond letters, digits, underscore and hyphen. -/
def isNameMark (c : Char) : Bool :=
  ";/?:@&=+$.%!~*'()".toList.contains c

/-- Whether a character may stand in a tag name. The indicators `,`, `[` and `]` may only where
the name is written out. -/
def isNameChar (full : Bool) (c : Char) : Bool :=
  isWordChar c || isNameMark c || (full && (c = ',' || c = '[' || c = ']'))

/-- How many octets a character takes whose first octet is given. -/
def octets? (first : Nat) : Option Nat :=
  if first < 0x80 then some 1
  else if 0xC0 ≤ first && first < 0xE0 then some 2
  else if 0xE0 ≤ first && first < 0xF0 then some 3
  else if 0xF0 ≤ first && first < 0xF8 then some 4
  else none

/-- Read one octet written as a percent sign and two hexadecimal digits. -/
def octet? : List Char → Option (Nat × List Char)
  | '%' :: a :: b :: rest => (readNat? 16 [a, b]).map (·, rest)
  | _ => none

/-- Read the `count` octets that continue a character. -/
def continuation? : Nat → Nat → List Char → Option (Nat × List Char)
  | 0, code, cs => some (code, cs)
  | count + 1, code, cs =>
    match octet? cs with
    | some (o, rest) =>
      if 0x80 ≤ o && o < 0xC0 then continuation? count (code * 64 + (o - 0x80)) rest else none
    | none => none

/-- Read a character written as escaped octets. -/
def escapedChar? (cs : List Char) : Option (Char × List Char) := do
  let (first, rest) ← octet? cs
  let count ← octets? first
  let start := if count = 1 then first else first % Nat.pow 2 (7 - count)
  let (code, rest) ← continuation? (count - 1) start rest
  let c ← scalar? code
  some (c, rest)

/-- Read the characters of a tag name onto `name`, last first. -/
def nameFrom? (full : Bool) (name : List Char) (cs : List Char) : Option (List Char × List Char) :=
  match cs with
  | [] => some (name, [])
  | c :: rest =>
    if !isNameChar full c then some (name, c :: rest)
    else if c = '%' then
      match escapedChar? (c :: rest) with
      | some (e, after) =>
        if after.length ≤ rest.length then nameFrom? full (e :: name) after else none
      | none => none
    else nameFrom? full (c :: name) rest
termination_by cs.length

/-- Read a tag name that continues `start`; together they must not be empty unless `bare`. -/
def name? (full bare : Bool) (start : String) (cs : List Char) : Option (String × List Char) :=
  match nameFrom? full start.toList.reverse cs with
  | some (name, rest) =>
    if name.isEmpty && !bare then none else some (String.ofList name.reverse, rest)
  | none => none

/-- Read an exclamation mark, word characters and, if it is there, a second exclamation mark. -/
def handle? : List Char → Option (String × List Char)
  | '!' :: rest =>
    let (word, rest) := rest.span isWordChar
    match rest with
    | '!' :: rest => some (String.ofList ('!' :: word ++ ['!']), rest)
    | _ => some (String.ofList ('!' :: word), rest)
  | _ => none

/-- Whether a text read by `handle?` is a handle: it ends with a second exclamation mark. -/
def isHandle (text : String) : Bool :=
  1 < text.length && text.toList.getLast? = some '!'

/-- Read a tag. In a flow collection a comma may follow it, otherwise white space must. -/
def tag? (flow : Bool) (cs : List Char) : Option (Tag × List Char) := do
  let (tag, rest) ← match cs with
    | '!' :: '<' :: rest =>
      match name? true false "" rest with
      | some (name, '>' :: rest) => some (⟨"", name⟩, rest)
      | _ => none
    | _ =>
      match handle? cs with
      | none => none
      | some (handle, rest) =>
        if isHandle handle then
          (name? false false "" rest).map fun (suffix, rest) => (⟨handle, suffix⟩, rest)
        else
          (name? false true (String.ofList handle.toList.tail) rest).map fun (suffix, rest) =>
            (if suffix.isEmpty then ⟨"", "!"⟩ else ⟨"!", suffix⟩, rest)
  if isGap rest.head? || (flow && rest.head? = some ',') then some (tag, rest) else none

/-- The handles that need no declaration. -/
def standardHandles : List (String × String) :=
  [("!", "!"), ("!!", "tag:yaml.org,2002:")]

/-- The full name of a tag, or `none` for a handle that is not declared. -/
def Tag.expand? (declared : List (String × String)) (t : Tag) : Option String :=
  if t.handle.isEmpty then some t.suffix
  else ((declared ++ standardHandles).lookup t.handle).map (· ++ t.suffix)

/-! ## Directives -/

/-- Read a number of at most nine digits. -/
def versionNumber? (cs : List Char) : Option (Nat × List Char) :=
  let (digits, rest) := spanDigits 10 cs
  if 9 < digits.length then none else (readNat? 10 digits).map (·, rest)

/-- Read what follows the percent sign of a directive. -/
def directive? (cs : List Char) : Option (Directive × List Char) := do
  let (word, rest) := cs.span isWordChar
  if word.isEmpty || !isGap rest.head? then none
  else if word = "YAML".toList then
    let (major, rest) ← versionNumber? (rest.dropWhile isBlank)
    match rest with
    | '.' :: rest =>
      let (minor, rest) ← versionNumber? rest
      some (.version major minor, rest)
    | _ => none
  else if word = "TAG".toList then
    let (handle, rest) ← handle? (rest.dropWhile isBlank)
    if !(isHandle handle || handle = "!") || !(rest.head?.any isBlank) then none
    else
      let (base, rest) ← name? true false "" (rest.dropWhile isBlank)
      if isGap rest.head? then some (.handle handle base, rest) else none
  else none

end CdkStacks.Document.Yaml
