import CdkStacks.Decimal.Shortest

/-!
# Document nodes

What a template document holds before it is read as a template: a tree of nodes, the same for both
document formats.

* `Number` is an integer or a double; its text is the one shown to the user;
* `Node` is a null, a scalar, a sequence, a mapping with its entries in source order, or a tagged
  node;
* `Node.same` is the equality of nodes by which a repeated mapping key is found;
* `Node.text?`, `Node.entries?` see through tags.
-/

namespace CdkStacks.Document

open CdkStacks.Decimal

/-- A number of a document. -/
inductive Number where
  | integer (value : Int)
  | float (value : Binary64)
  deriving DecidableEq, Repr

/-- The text of an integer. -/
def integerText (i : Int) : String :=
  String.ofList (if i < 0 then '-' :: Nat.toDigits 10 i.natAbs else Nat.toDigits 10 i.natAbs)

/-- The text of a number. -/
def Number.text : Number → String
  | .integer i => integerText i
  | .float x => x.text

/-- Whether a number has a finite value. -/
def Number.isFinite : Number → Bool
  | .integer _ => true
  | .float x => x.isFinite

/-- Equality of numbers; an integer and a double differ. -/
def Number.same : Number → Number → Bool
  | .integer i, .integer j => i = j
  | .float x, .float y => x.same y
  | _, _ => false

/-- A node of a document. -/
inductive Node where
  | null
  | bool (value : Bool)
  | number (value : Number)
  | string (value : String)
  | sequence (items : List Node)
  /-- Entries in source order. -/
  | mapping (entries : List (Node × Node))
  /-- A node under a local tag, such as `!Ref`. -/
  | tagged (tag : String) (content : Node)
  deriving Repr

namespace Node

mutual

/-- Equality of nodes: mappings are equal when they have the same entries in any order. -/
def same : Node → Node → Bool
  | .null, .null => true
  | .bool a, .bool b => a = b
  | .number a, .number b => a.same b
  | .string a, .string b => a = b
  | .sequence as, .sequence bs => sameItems as bs
  | .mapping as, .mapping bs => as.length = bs.length && sameEntries as bs
  | .tagged s a, .tagged t b => s = t && a.same b
  | _, _ => false

/-- Equality of sequences, item by item. -/
def sameItems : List Node → List Node → Bool
  | [], [] => true
  | a :: as, b :: bs => a.same b && sameItems as bs
  | _, _ => false

/-- Whether every entry of the first mapping is one of the second. -/
def sameEntries : List (Node × Node) → List (Node × Node) → Bool
  | [], _ => true
  | (k, v) :: rest, bs => bs.any (fun e => k.same e.1 && v.same e.2) && sameEntries rest bs

end

/-- The text of a string node, also of a tagged one. -/
def text? : Node → Option String
  | .string s => some s
  | .tagged _ n => n.text?
  | _ => none

/-- The entries of a mapping node, also of a tagged one. -/
def entries? : Node → Option (List (Node × Node))
  | .mapping es => some es
  | .tagged _ n => n.entries?
  | _ => none

/-- The text of a scalar that may be a mapping key. -/
def keyText? : Node → Option String
  | .string s => some s
  | .number n => some n.text
  | .bool b => some (if b then "true" else "false")
  | _ => none

end Node

/-- The value of the string key `name` in the entries of a mapping. -/
def lookup? (entries : List (Node × Node)) (name : String) : Option Node :=
  match entries with
  | [] => none
  | (.string key, value) :: rest => if key = name then some value else lookup? rest name
  | _ :: rest => lookup? rest name

/-- Whether a key occurs among the entries of a mapping. -/
def hasKey (entries : List (Node × Node)) (key : Node) : Bool :=
  entries.any fun e => e.1.same key

end CdkStacks.Document
