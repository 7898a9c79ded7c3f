import CdkStacks.Files.Store
import CdkStacks.TypeScript.Layout

/-!
# Saving generated files

* `saveFile` saves one file below a directory, where there must be none yet;
* `saveFiles` saves files in order and stops at the first failure;
* `saveClosed` does so with the closed files of a writer, which gives them up.
-/

namespace CdkStacks.Scaffold

open CdkStacks.Files CdkStacks.TypeScript

variable {m : Type → Type} [Monad m]

/-- Save a file below a directory; the answer is its path. -/
def saveFile (store : Store m) (directory : FilePath) (file : File) :
    ExceptT Failure m FilePath := do
  let target := directory.join file.path
  if ← store.holds target then throw (.write target .taken)
  ExceptT.mk (store.create target file.contents)
  return target

/-- Save files below a directory, in order; the answer is their paths. -/
def saveFiles (store : Store m) (directory : FilePath) (files : List File) :
    ExceptT Failure m (List FilePath) :=
  files.mapM (saveFile store directory)

/-- Save the closed files of a writer below a directory, in closing order. The writer has no closed
files afterwards, also when one of them could not be saved. -/
def saveClosed (store : Store m) (directory : FilePath) (writer : Writer) :
    m (Except Failure (List FilePath) × Writer) := do
  let push (written : List FilePath) (file : File) : ExceptT Failure m (List FilePath) := do
    return written ++ [← saveFile store directory file]
  let result ← (writer.closed.foldlM push []).run
  return (result, { writer with closed := [] })

end CdkStacks.Scaffold
