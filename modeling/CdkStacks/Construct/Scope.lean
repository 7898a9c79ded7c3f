import CdkStacks.Construct.Catalogue
import CdkStacks.Construct.Local
import CdkStacks.Template.Basic
import CdkStacks.TypeScript.Expr

/-!
# Names in scope

What the names of a template stand for in the generated constructor.

* `Scope` holds the parameters and the resources, of which only those with a construct have a local;
* `Scope.ofTemplate` gives each supported resource its local, in source order;
* `Scope.parameter?` and `Scope.resource?` look a name up; the last declaration of a name counts.
-/

namespace CdkStacks.Construct

open CdkStacks.Template CdkStacks.TypeScript

/-- A resource, as the generated code sees it. -/
structure Slot where
  name : String
  /-- The local that holds the construct; none when the type has no construct. -/
  identifier? : Option String
  /-- The place among the resources. -/
  place : Nat
  deriving DecidableEq, Repr

/-- What names stand for. -/
structure Scope where
  parameters : List (String × Accessor)
  resources : List Slot
  deriving DecidableEq, Repr

/-- The member that holds the value of a parameter, by its type. -/
def accessor (type : String) : Accessor :=
  if type.toLower = "number" then .number
  else if "List<".toList.isPrefixOf type.toList || type.toLower = "commadelimitedlist" then .list
  else .text

/-- The slots of resources from `place` on, when the locals `used` are taken. -/
def slots (used : List String) (place : Nat) : List Resource → List Slot
  | [] => []
  | resource :: rest =>
    match lookup resource.type with
    | none => ⟨resource.name, none, place⟩ :: slots used (place + 1) rest
    | some _ =>
      let identifier := allocate used resource.name
      ⟨resource.name, some identifier, place⟩ :: slots (identifier :: used) (place + 1) rest

namespace Scope

/-- What the names of a template stand for. -/
def ofTemplate (template : Template) : Scope where
  parameters := template.parameters.map fun p => (p.name, accessor p.type)
  resources := slots [] 0 template.resources

/-- The parameter of a name. -/
def parameter? (scope : Scope) (name : String) : Option Accessor :=
  (scope.parameters.reverse.find? fun p => p.1 = name).map Prod.snd

/-- The resource of a name. -/
def resource? (scope : Scope) (name : String) : Option Slot :=
  scope.resources.reverse.find? fun slot => slot.name = name

/-- The local that holds the resource of a name. -/
def identifier? (scope : Scope) (name : String) : Option String :=
  (scope.resource? name).bind Slot.identifier?

end Scope

end CdkStacks.Construct
