/-!
# Faults of a file tree

Why a file cannot be read or created.

* `Fault.message` is the wording of a fault.
-/

namespace CdkStacks.Files

/-- Why a file cannot be read or created. -/
inductive Fault where
  /-- There is nothing of that name. -/
  | missing
  /-- There is something of that name already. -/
  | occupied
  /-- A file stands where a directory is needed. -/
  | notDirectory
  /-- A directory stands where a file is needed. -/
  | isDirectory
  | nameTooLong
  /-- The contents of a file are no text. -/
  | notText
  /-- The system gives another reason. -/
  | other (reason : String)
  deriving DecidableEq, Repr

/-- The wording of a fault. -/
def Fault.message : Fault → String
  | missing => "No such file or directory (os error 2)"
  | occupied => "File exists (os error 17)"
  | notDirectory => "Not a directory (os error 20)"
  | isDirectory => "Is a directory (os error 21)"
  | nameTooLong => "File name too long (os error 36)"
  | notText => "stream did not contain valid UTF-8"
  | other reason => reason

end CdkStacks.Files
