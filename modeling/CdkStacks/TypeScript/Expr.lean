import CdkStacks.TypeScript.Layout
import CdkStacks.TypeScript.Name

/-!
# Expressions

The expressions that a generated stack passes to its constructs.

* `Expr` is an expression, `Chunk` a piece of a template literal;
* `Expr.inline` writes an expression on one line;
* `Expr.steps` writes it over several lines: objects and arrays take one line per entry, anything
  else stays on one line.
-/

namespace CdkStacks.TypeScript

/-- The member of a parameter that holds its value. -/
inductive Accessor where
  | text
  | number
  | list
  deriving DecidableEq, Repr

/-- The name of the member. -/
def Accessor.member : Accessor → String
  | text => "valueAsString"
  | number => "valueAsNumber"
  | list => "valueAsList"

mutual

/-- An expression. -/
inductive Expr where
  /-- Source text as it stands. -/
  | raw (source : String)
  /-- A string literal. -/
  | string (text : String)
  | array (items : List Expr)
  /-- Entries in order; the keys are not yet quoted. -/
  | object (entries : List (String × Expr))
  /-- The value of a parameter. -/
  | parameter (name : String) (accessor : Accessor)
  /-- A member of a construct. -/
  | read (construct member : String)
  /-- A member of a construct that is declared later, read when the stack is complete. -/
  | deferred (construct member : String)
  /-- A call of an intrinsic function. -/
  | call (function : String) (arguments : List Expr)
  /-- The text of a value that is known later. -/
  | asText (value : Expr)
  /-- A template literal. -/
  | template (chunks : List Chunk)

/-- A piece of a template literal. -/
inductive Chunk where
  | text (text : String)
  | hole (value : Expr)

end

instance : Inhabited Expr := ⟨.raw ""⟩

/-- Join texts by a comma and a blank. -/
def commas (texts : List String) : String :=
  ", ".intercalate texts

mutual

/-- An expression on one line. -/
def Expr.inline : Expr → String
  | .raw source => source
  | .string text => Text.quoted text
  | .array items => "[" ++ commas (inlineItems items) ++ "]"
  | .object [] => "{}"
  | .object (entry :: rest) => "\x7b " ++ commas (inlineEntries (entry :: rest)) ++ " \x7d"
  | .parameter name accessor =>
    let owner :=
      if isIdentifier name then "parameters." ++ name else "parameters[" ++ Text.quoted name ++ "]"
    owner ++ "." ++ accessor.member
  | .read construct member => construct ++ "." ++ member
  | .deferred construct member =>
    "Lazy.string(\x7b produce: () => " ++ construct ++ "." ++ member ++ " \x7d)"
  | .call function arguments => "Fn." ++ function ++ "(" ++ commas (inlineItems arguments) ++ ")"
  | .asText value => value.inline ++ ".toString()"
  | .template chunks => "`" ++ inlineChunks chunks ++ "`"

/-- The items of an array, or the arguments of a call. -/
def inlineItems : List Expr → List String
  | [] => []
  | item :: rest => item.inline :: inlineItems rest

/-- The entries of an object. -/
def inlineEntries : List (String × Expr) → List String
  | [] => []
  | (key, value) :: rest => (objectKey key ++ ": " ++ value.inline) :: inlineEntries rest

/-- The pieces of a template literal. -/
def inlineChunks : List Chunk → String
  | [] => ""
  | .text text :: rest => Text.templateText text ++ inlineChunks rest
  | .hole value :: rest => "$\x7b" ++ value.inline ++ "\x7d" ++ inlineChunks rest

end

mutual

/-- Write `before`, the expression and `after`, on as many lines as the expression needs. -/
def Expr.steps (before after : String) : Expr → List Step
  | .array [] => [.line (before ++ "[]" ++ after)]
  | .array (item :: rest) =>
    .indent (before ++ "[") :: (itemSteps (item :: rest) ++ [.unindent ("]" ++ after)])
  | .object [] => [.line (before ++ "{}" ++ after)]
  | .object (entry :: rest) =>
    .indent (before ++ "\x7b") :: (entrySteps (entry :: rest) ++ [.unindent ("\x7d" ++ after)])
  | e => [.line (before ++ e.inline ++ after)]

/-- The items of an array, one after the other. -/
def itemSteps : List Expr → List Step
  | [] => []
  | item :: rest => item.steps "" "," ++ itemSteps rest

/-- The entries of an object, one after the other. -/
def entrySteps : List (String × Expr) → List Step
  | [] => []
  | (key, value) :: rest => value.steps (objectKey key ++ ": ") "," ++ entrySteps rest

end

end CdkStacks.TypeScript
