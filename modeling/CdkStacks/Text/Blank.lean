/-!
# Blank characters

The characters that count as white space when a text is trimmed, and trimming at both ends.

* `isBlank` is the property `White_Space` of Unicode: twenty-five characters;
* `trim` drops the blanks at both ends and keeps those inside.
-/

namespace CdkStacks.Text

/-- The characters with the Unicode property `White_Space`. -/
def isBlank (c : Char) : Bool :=
  let n := c.toNat
  (0x09 ≤ n && n ≤ 0x0D) || n == 0x20 || n == 0x85 || n == 0xA0 || n == 0x1680 ||
    (0x2000 ≤ n && n ≤ 0x200A) || n == 0x2028 || n == 0x2029 || n == 0x202F || n == 0x205F ||
    n == 0x3000

/-- Drop the blanks at both ends of a list of characters. -/
def trimList (cs : List Char) : List Char :=
  ((cs.dropWhile isBlank).reverse.dropWhile isBlank).reverse

/-- Drop the blanks at both ends of a text. -/
def trim (s : String) : String :=
  String.ofList (trimList s.toList)

end CdkStacks.Text
