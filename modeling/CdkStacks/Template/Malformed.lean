import CdkStacks.Template.Function

/-!
# Malformed templates

Why a document is no template.

* `Malformed` lists the causes;
* `Malformed.reason` is the wording of a cause.
-/

namespace CdkStacks.Template

/-- The formats of template documents. -/
inductive Format where
  | json
  | yaml
  deriving DecidableEq, Repr

/-- How many levels of nesting a value may have below its outermost one. -/
def maxDepth : Nat := 64

/-- Why a document is no template. -/
inductive Malformed where
  /-- The text is no document of its format. -/
  | unreadable (format : Format)
  /-- The document is no mapping. -/
  | topLevel
  /-- A section is no mapping. -/
  | sectionShape
  /-- A declaration is no mapping. -/
  | declaration
  /-- A key is no scalar. -/
  | key
  /-- A field of a declaration is no string. -/
  | notText (field : String)
  | missingType
  | missingValue
  | allowedValues
  | properties
  /-- An entry of `DependsOn` is no string. -/
  | dependency
  /-- `DependsOn` is neither a string nor a list. -/
  | dependencies
  | exportEntry
  /-- A value nests too deep. -/
  | tooDeep
  /-- A number has no finite value. -/
  | notFinite (number : String)
  /-- A function needs a string here. -/
  | argument (function : Function)
  /-- A function needs a list of two here. -/
  | pair (function : Function)
  /-- The dotted argument of `Fn::GetAtt` has no dot. -/
  | undotted (argument : String)
  /-- The argument of `Fn::GetAtt` has the wrong form. -/
  | getAttShape
  /-- The variables of `Fn::Sub` are no mapping. -/
  | subVariables
  /-- The argument of `Fn::Sub` has the wrong form. -/
  | subShape
  /-- A name is both a parameter and a resource. -/
  | declaredTwice
  deriving DecidableEq, Repr

/-- The wording of a cause. -/
def Malformed.reason : Malformed → String
  | unreadable .json => "not a JSON document"
  | unreadable .yaml => "not a YAML document"
  | topLevel => "top level must be a mapping"
  | sectionShape => "section must be a mapping"
  | declaration => "declaration must be a mapping"
  | key => "mapping keys must be scalars"
  | notText field => field ++ " must be a string"
  | missingType => "missing string 'Type'"
  | missingValue => "missing 'Value'"
  | allowedValues => "AllowedValues must be a list"
  | properties => "Properties must be a mapping"
  | dependency => "DependsOn entries must be strings"
  | dependencies => "DependsOn must be a string or list"
  | exportEntry => "Export must be a mapping"
  | tooDeep => "properties nest deeper than " ++ toString maxDepth ++ " levels"
  | notFinite number => "number " ++ number ++ " has no finite value"
  | argument f => f.name ++ " expects a string argument"
  | pair f => f.name ++ " expects a two-element list"
  | undotted text => "Fn::GetAtt '" ++ text ++ "' must be 'Name.Attribute'"
  | getAttShape => "Fn::GetAtt expects [Name, Attribute] or 'Name.Attribute'"
  | subVariables => "Fn::Sub variables must be a mapping"
  | subShape => "Fn::Sub expects a string or [String, {Variables}]"
  | declaredTwice => "declared as both a parameter and a resource"

end CdkStacks.Template
