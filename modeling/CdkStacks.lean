import CdkStacks.Main
import CdkStacks.Proofs.Order
import CdkStacks.Proofs.RoundTrip
import CdkStacks.Proofs.LongForm
import CdkStacks.Proofs.Declared
import CdkStacks.Proofs.Locals
import CdkStacks.Proofs.Inventory
import CdkStacks.Proofs.Items
import CdkStacks.Proofs.Imported
import CdkStacks.Proofs.Growth
import CdkStacks.Proofs.Stores
import CdkStacks.Proofs.Saving
import CdkStacks.Proofs.Runs
import CdkStacks.Proofs.Interpolations
import CdkStacks.Proofs.Decoded
import CdkStacks.Proofs.Spelling
import CdkStacks.Proofs.Substitutions
import CdkStacks.Proofs.Bound
import CdkStacks.Proofs.TopLevel
import CdkStacks.Proofs.Rounding
import CdkStacks.Proofs.ShortestDigits
import CdkStacks.Proofs.DecimalText
import CdkStacks.Proofs.NumberText
import CdkStacks.Proofs.Keys
import CdkStacks.Proofs.UniqueNames
import CdkStacks.Proofs.Allocations
import CdkStacks.Proofs.Resolved
import CdkStacks.Proofs.Captures
import CdkStacks.Proofs.ConstructIds
import CdkStacks.Proofs.Reminders
import CdkStacks.Proofs.Fitting
import CdkStacks.Proofs.NestedFiles
import CdkStacks.Proofs.Merging
import CdkStacks.Proofs.Ledger
import CdkStacks.Proofs.Appending
import CdkStacks.Proofs.Scanning
import CdkStacks.Proofs.NumberedLocals
import CdkStacks.Proofs.PropertyKeys
import CdkStacks.Proofs.PolicyDocuments
import CdkStacks.Proofs.OneLine
import CdkStacks.Proofs.Undeclared
import CdkStacks.Proofs.ImportFacts
import CdkStacks.Proofs.PassedFunctions
import CdkStacks.Proofs.ByteOrder
import CdkStacks.Proofs.Declarations
import CdkStacks.Proofs.Places
import CdkStacks.Proofs.WriterSaves
import CdkStacks.Proofs.Interviews
import CdkStacks.Proofs.Levels
import CdkStacks.Proofs.TemplateTexts
