import CdkStacks.TypeScript.Expr

/-!
# Statements of the constructor

* `Statement` is a statement of the generated constructor;
* `Statement.steps` writes it.
-/

namespace CdkStacks.Construct

open CdkStacks.TypeScript

/-- A statement of the generated constructor. -/
inductive Statement where
  /-- An entry of the object that holds the parameters. -/
  | parameter (name construct : String) (props : Expr)
  /-- A construct, held by a local. -/
  | resource (name identifier construct : String) (props : Expr)
  /-- A reminder of a resource whose type has no construct. -/
  | placeholder (name type : String)
  /-- A construct depends on another one. -/
  | dependency (identifier other : String)
  | output (name : String) (props : Expr)

namespace Statement

/-- The steps that write a statement. -/
def steps : Statement → List Step
  | parameter name construct props =>
    props.steps
      (objectKey name ++ ": new " ++ construct ++ "(this, " ++ Text.quoted name ++ ", ") "),"
  | resource name identifier construct props =>
    props.steps
      ("const " ++ identifier ++ " = new " ++ construct ++ "(this, " ++ Text.quoted name ++ ", ")
      ");"
  | placeholder name type =>
    [.line ("// TODO: \"" ++ name ++ "\" has unsupported type \"" ++ type ++
      "\" and must be migrated by hand")]
  | dependency identifier other => [.line (identifier ++ ".addDependsOn(" ++ other ++ ");")]
  | output name props => props.steps ("new CfnOutput(this, " ++ Text.quoted name ++ ", ") ");"

/-- The expression that a statement passes to its construct. -/
def props? : Statement → Option Expr
  | parameter _ _ props | resource _ _ _ props | output _ props => some props
  | placeholder _ _ | dependency _ _ => none

end Statement

end CdkStacks.Construct
