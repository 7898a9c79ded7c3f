import CdkStacks.Document.Json
import CdkStacks.Document.Yaml.Read
import CdkStacks.Template.Decode
import CdkStacks.Template.References

/-!
# Reading templates

A template document is a mapping with the sections `Parameters`, `Resources`, `Outputs` and
`Conditions`.

* `readParameter`, `readResource`, `readOutput` read one declaration;
* `ofNode` reads the sections of a document and checks what they declare;
* `ofText` reads the text of a document;
* `Format.ofPath` tells the format of a file by its name.
-/

namespace CdkStacks.Template

open CdkStacks.Document (Node lookup?)
open CdkStacks.Files (FilePath)

/-! ## Declarations -/

/-- The fields of a declaration. -/
abbrev Fields := List (Node × Node)

/-- The fields of a declaration, which may be tagged. -/
def fieldsOf (body : Node) : Except Malformed Fields :=
  match body.entries? with
  | some fields => .ok fields
  | none => .error .declaration

/-- A field that holds a string, or is missing or null. -/
def textField? (fields : Fields) (name : String) : Except Malformed (Option String) :=
  match lookup? fields name with
  | none | some .null => .ok none
  | some (.string text) => .ok (some text)
  | some _ => .error (.notText name)

/-- The field `Type`, which no parameter or resource lacks. -/
def typeField (fields : Fields) : Except Malformed String := do
  match ← textField? fields "Type" with
  | some type => return type
  | none => throw .missingType

/-- A field that holds a value, or is missing. -/
def valueField? (fields : Fields) (name : String) : Except Malformed (Option Value) :=
  match lookup? fields name with
  | none => .ok none
  | some node => do return some (← decode node)

/-- The constraints of a parameter that are passed on. -/
def constraintNames : List String :=
  ["AllowedPattern", "ConstraintDescription", "MaxLength", "MaxValue", "MinLength", "MinValue",
    "NoEcho"]

/-- The allowed values of a parameter. -/
def allowedField? (fields : Fields) : Except Malformed (Option (List Value)) :=
  match lookup? fields "AllowedValues" with
  | none => .ok none
  | some (.sequence items) => do return some (← items.mapM decode)
  | some _ => .error .allowedValues

/-- The constraints among the fields of a parameter, in source order. -/
def constraintFields : Fields → Except Malformed (List (String × Value))
  | [] => .ok []
  | (key, node) :: rest => do
    let name ← keyText key
    if constraintNames.contains name then
      let value ← decode node
      return (name, value) :: (← constraintFields rest)
    else
      constraintFields rest

/-- Read a parameter. -/
def readParameter (name : String) (body : Node) : Except Malformed Parameter := do
  let fields ← fieldsOf body
  let type ← typeField fields
  let description ← textField? fields "Description"
  let default ← valueField? fields "Default"
  let allowed ← allowedField? fields
  let constraints ← constraintFields fields
  return { name, type, description, default, allowed, constraints }

/-- The properties of a resource. -/
def propertyFields (fields : Fields) : Except Malformed (List (String × Value)) :=
  match lookup? fields "Properties" with
  | none | some .null => .ok []
  | some (.mapping entries) => decodeEntries decode entries
  | some _ => .error .properties

/-- An entry of a list of dependencies, which may be tagged. -/
def dependencyName (item : Node) : Except Malformed String :=
  match item.text? with
  | some name => .ok name
  | none => .error .dependency

/-- The resources that a resource depends on. -/
def dependencyFields (fields : Fields) : Except Malformed (List String) :=
  match lookup? fields "DependsOn" with
  | none | some .null => .ok []
  | some (.string name) => .ok [name]
  | some (.sequence items) => items.mapM dependencyName
  | some _ => .error .dependencies

/-- Read a resource. -/
def readResource (name : String) (body : Node) : Except Malformed Resource := do
  let fields ← fieldsOf body
  let type ← typeField fields
  let properties ← propertyFields fields
  let dependsOn ← dependencyFields fields
  let condition ← textField? fields "Condition"
  return { name, type, properties, dependsOn, condition }

/-- The name under which an output is exported. -/
def exportField? (fields : Fields) : Except Malformed (Option Value) :=
  match lookup? fields "Export" with
  | none | some .null => .ok none
  | some (.mapping entries) => valueField? entries "Name"
  | some _ => .error .exportEntry

/-- Read an output. -/
def readOutput (name : String) (body : Node) : Except Malformed Output := do
  let fields ← fieldsOf body
  match ← valueField? fields "Value" with
  | none => throw .missingValue
  | some value => do
    let exportName ← exportField? fields
    let description ← textField? fields "Description"
    let condition ← textField? fields "Condition"
    return { name, value, description, exportName, condition }

/-- Read a condition. -/
def readCondition (name : String) (body : Node) : Except Malformed (String × Value) := do
  return (name, ← decode body)

/-! ## Documents -/

/-- Name the entry or section at fault. -/
def inContext {α : Type} (context : String) : Except Malformed α → Except Failure α
  | .ok a => .ok a
  | .error cause => .error (.malformed context cause)

/-- The entries of a section, which may be missing or null. -/
def sectionEntries (root : Fields) (name : String) : Except Failure Fields :=
  match lookup? root name with
  | none | some .null => .ok []
  | some (.mapping entries) => .ok entries
  | some _ => .error (.malformed name .sectionShape)

/-- Read every entry of a section with `read`. -/
def readSection {α : Type} (read : String → Node → Except Malformed α) (root : Fields)
    (title : String) : Except Failure (List α) := do
  (← sectionEntries root title).mapM fun (key, body) => do
    let name ← inContext title (keyText key)
    inContext name (read name body)

/-- Fail with the first resource that is also a parameter. -/
def checkDeclaredOnce (template : Template) : Except Failure Unit :=
  match template.resources.find? fun r => (template.parameter? r.name).isSome with
  | some r => .error (.malformed r.name .declaredTwice)
  | none => .ok ()

/-- Read a document as a template and check that its names are declared, and in one way only. -/
def ofNode (document : Node) : Except Failure Template :=
  match document with
  | .mapping root => do
    let parameters ← readSection readParameter root "Parameters"
    let resources ← readSection readResource root "Resources"
    let outputs ← readSection readOutput root "Outputs"
    let conditions ← readSection readCondition root "Conditions"
    let template : Template := { parameters, resources, outputs, conditions }
    checkDeclaredOnce template
    template.checkReferences
    return template
  | _ => .error (.malformed "document" .topLevel)

/-- The document that a text spells. -/
def Format.readNode? : Format → String → Option Node
  | json => Document.Json.read?
  | yaml => Document.Yaml.read?

/-- The format of a file: JSON for the extension `json` in any case, YAML for all others. -/
def Format.ofPath (path : FilePath) : Format :=
  match path.extension? with
  | some extension => if extension.toLower = "json" then json else yaml
  | none => yaml

/-- Read the text of a document as a template. -/
def ofText (format : Format) (text : String) : Except Failure Template :=
  match format.readNode? text with
  | some document => ofNode document
  | none => .error (.malformed "document" (.unreadable format))

end CdkStacks.Template
