import CdkStacks.Text.Digit
import CdkStacks.TypeScript.Name

/-!
# Locals of the constructor

Every resource is held by a local of the generated constructor.

* `baseName` is the local that a resource is given when nothing else has it;
* `fresh` numbers a name that is already used, from two on.
-/

namespace CdkStacks.Construct

open CdkStacks.TypeScript

/-- The locals that the constructor has anyway. -/
def constructorLocals : List String :=
  ["app", "id", "parameters", "props", "scope"]

/-- Put a word in front of a name that is no identifier: it is empty or starts with a digit. -/
def asIdentifier (name : String) : String :=
  if isIdentifier name then name else "resource" ++ name

/-- The local of a resource when nothing else has it. -/
def baseName (resource : String) : String :=
  let name := asIdentifier (propertyName resource)
  if isReserved name || constructorLocals.contains name then name ++ "Resource" else name

/-- The name itself when it is unused, else the name with the least number from two on that makes it
unused. One of the first `used.length + 1` numbers does. -/
def fresh (used : List String) (name : String) : String :=
  if used.contains name then
    (((List.range (used.length + 1)).map fun i => name ++ Text.decimal (i + 2)).find?
      fun candidate => !used.contains candidate).getD name
  else name

/-- The local of a resource, when some locals are used. -/
def allocate (used : List String) (resource : String) : String :=
  fresh used (baseName resource)

end CdkStacks.Construct
