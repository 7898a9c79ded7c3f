import CdkStacks.Text.Quoted
import CdkStacks.Text.Words

/-!
# Names in TypeScript source

* `isIdentifier` and `isReserved` say which names a local may have;
* `className`, `propertyName`, `attributeMember`, `fileName` spell a name of a template for the
  place where it is used;
* `objectKey` writes a name as a key of an object.
-/

namespace CdkStacks.TypeScript

/-- The words that no local is named. -/
def reservedWords : List String :=
  ["arguments", "await", "break", "case", "catch", "class", "const", "continue", "debugger",
    "default", "delete", "do", "else", "enum", "eval", "export", "extends", "false", "finally",
    "for", "function", "if", "implements", "import", "in", "instanceof", "interface", "let",
    "new", "null", "package", "private", "protected", "public", "return", "static", "super",
    "switch", "this", "throw", "true", "try", "typeof", "var", "void", "yield"]

/-- Whether a name is a reserved word. -/
def isReserved (name : String) : Bool :=
  reservedWords.contains name

/-- Whether a character may start an identifier. -/
def startsIdentifier (c : Char) : Bool :=
  c.isAlpha || c = '_' || c = '$'

/-- Whether a character may continue an identifier. -/
def continuesIdentifier (c : Char) : Bool :=
  c.isAlphanum || c = '_' || c = '$'

/-- Whether a name is an identifier of ASCII letters, digits, `_` and `$`. -/
def isIdentifier (name : String) : Bool :=
  match name.toList with
  | [] => false
  | c :: rest => startsIdentifier c && rest.all continuesIdentifier

/-- The name of a file: `MyStack` is `my-stack`. -/
def fileName (name : String) : String :=
  Text.kebab name

/-- The name of a class: `my-stack` is `MyStack`. -/
def className (name : String) : String :=
  Text.upperCamel name

/-- The name of a property: `SSEAlgorithm` is `sseAlgorithm`. -/
def propertyName (name : String) : String :=
  Text.lowerCamel name

/-- The member that holds an attribute: `Endpoint.Address` is `attrEndpointAddress`. -/
def attributeMember (name : String) : String :=
  "attr" ++ Text.upperCamel name

/-- A key of an object: bare when it is an identifier, quoted otherwise. -/
def objectKey (name : String) : String :=
  if isIdentifier name then name else Text.quoted name

end CdkStacks.TypeScript
