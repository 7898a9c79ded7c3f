import CdkStacks.Construct.Use
import CdkStacks.Construct.Warning

/-!
# What mapping gathers

Mapping a template goes from declaration to declaration. On the way it adds to the imports of the
generated file and to the warnings.

* `Ledger` holds both;
* `Mapping` is a step of mapping, which may add to the ledger;
* `Mapping.need` imports a name, `Mapping.warn` adds a warning.
-/

namespace CdkStacks.Construct

open CdkStacks.TypeScript

/-- The imports and the warnings so far. -/
structure Ledger where
  imports : Imports
  /-- In the order in which they were met. -/
  warnings : List Warning

/-- A step of mapping, from one ledger to the next. -/
abbrev Mapping (α : Type) := StateM Ledger α

namespace Mapping

/-- Import a name. -/
def need (use : Use) : Mapping Unit :=
  modify fun ledger => { ledger with imports := use.addTo ledger.imports }

/-- Add a warning. -/
def warn (warning : Warning) : Mapping Unit :=
  modify fun ledger => { ledger with warnings := ledger.warnings ++ [warning] }

end Mapping

end CdkStacks.Construct
