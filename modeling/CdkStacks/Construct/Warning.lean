/-!
# Warnings

What the user is told about a template that was mapped with losses.

* `Warning` lists the losses, `Warning.message` their wording.
-/

namespace CdkStacks.Construct

/-- A loss in mapping a template. -/
inductive Warning where
  /-- The type of a resource has no construct. -/
  | unsupportedType (resource type : String)
  /-- A function has no counterpart. -/
  | unsupportedFunction (owner function : String)
  | conditionDropped (owner condition : String)
  | dependencySkipped (resource dependency : String)
  deriving DecidableEq, Repr

/-- The wording of a warning. -/
def Warning.message : Warning → String
  | unsupportedType resource type =>
    "Resource '" ++ resource ++ "' has unsupported type '" ++ type ++
      "'; left a TODO placeholder"
  | unsupportedFunction owner function =>
    "'" ++ owner ++ "' uses unsupported intrinsic '" ++ function ++ "'; passed through unchanged"
  | conditionDropped owner condition =>
    "'" ++ owner ++ "' is conditional on '" ++ condition ++ "'; the condition was not migrated"
  | dependencySkipped resource dependency =>
    "DependsOn from '" ++ resource ++ "' to '" ++ dependency ++
      "' skipped: unsupported resource"

end CdkStacks.Construct
