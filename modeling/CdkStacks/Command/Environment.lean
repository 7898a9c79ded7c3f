import CdkStacks.Command.Interview
import CdkStacks.Files.Store

/-!
# The surroundings of a command

* `Environment` is what a command has around it: files and a user;
* `Session` is such an environment as a value: files of any kind, the replies of the user and the
  questions asked so far;
* `Session.environment` lets commands work on a session, by a store for its files.
-/

namespace CdkStacks.Command

open CdkStacks.Files

/-- What a command has around it. -/
structure Environment (m : Type → Type) where
  store : Store m
  /-- Ask the user for parameters. -/
  interview : m (Except Failure Confirmed)

/-- Files and a user, as a value. -/
structure Session (σ : Type) where
  files : σ
  /-- What the user replies, question by question. -/
  replies : List Reply
  /-- The questions asked so far. -/
  asked : List Question

namespace Session

variable {σ : Type}

/-- Do something with the files of a session. -/
def onFiles {α : Type} (action : StateM σ α) : StateM (Session σ) α :=
  modifyGet fun session =>
    let (result, files) := action.run session.files
    (result, { session with files })

/-- Ask the user of a session. -/
def ask : StateM (Session σ) (Except Failure Confirmed) :=
  modifyGet fun session =>
    let transcript := Command.interview session.replies
    (transcript.result,
      { session with
        replies := session.replies.drop transcript.asked.length
        asked := session.asked ++ transcript.asked })

/-- A session as the surroundings of a command. -/
def environment (store : Store (StateM σ)) : Environment (StateM (Session σ)) where
  store :=
    { holds := fun path => onFiles (store.holds path)
      isDirectory := fun path => onFiles (store.isDirectory path)
      read := fun path => onFiles (store.read path)
      create := fun path contents => onFiles (store.create path contents) }
  interview := ask

end Session

end CdkStacks.Command
