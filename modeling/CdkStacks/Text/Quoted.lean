/-!
# Quoted texts

Two ways to write a text in source code.

* `quoted` writes a string literal between double quotes. A double quote, a backslash and the
  characters below the space are escaped, all other characters stand for themselves;
* `templateText` writes the text of a template literal. A backslash, a backtick and a dollar sign
  that a brace follows are escaped, so that the literal neither ends early nor interpolates.
-/

namespace CdkStacks.Text

/-- One lower-case hexadecimal digit. -/
def hexDigit (n : Nat) : Char :=
  if n < 10 then Char.ofNat ('0'.toNat + n) else Char.ofNat ('a'.toNat + (n - 10))

/-- How one character is written inside a string literal. -/
def quoteChar (c : Char) : List Char :=
  if c = '"' then ['\\', '"']
  else if c = '\\' then ['\\', '\\']
  else if c = '\x08' then ['\\', 'b']
  else if c = '\t' then ['\\', 't']
  else if c = '\n' then ['\\', 'n']
  else if c = '\x0c' then ['\\', 'f']
  else if c = '\r' then ['\\', 'r']
  else if c.toNat < 0x20 then
    ['\\', 'u', '0', '0', hexDigit (c.toNat / 16), hexDigit (c.toNat % 16)]
  else [c]

/-- The string literal that stands for `s`. -/
def quoted (s : String) : String :=
  String.ofList ('"' :: (s.toList.flatMap quoteChar ++ ['"']))

/-- The characters of a text as they are written inside a template literal. -/
def escapeTemplate : List Char → List Char
  | [] => []
  | '$' :: '{' :: rest => '\\' :: '$' :: '{' :: escapeTemplate rest
  | c :: rest =>
    if c = '\\' || c = '`' then '\\' :: c :: escapeTemplate rest else c :: escapeTemplate rest

/-- The text `s` as it is written inside a template literal. -/
def templateText (s : String) : String :=
  String.ofList (escapeTemplate s.toList)

end CdkStacks.Text
