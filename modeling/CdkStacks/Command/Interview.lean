import CdkStacks.Failure
import CdkStacks.Text.Blank

/-!
# Interviews

A new stack is described in an interview: its parameters are asked for, name and type in turn, until
a name is left blank.

* `Question` and `Reply` are what is asked and answered;
* `Stage` is where an interview stands, `Stage.answer` takes it one reply further;
* `interview` goes through a list of replies. When they run out, the user has cancelled.
-/

namespace CdkStacks.Command

open CdkStacks.Text (trim)

/-- A question, with what is offered as its answer. -/
structure Question where
  text : String
  suggestion : Option String
  deriving DecidableEq, Repr

/-- What comes back for a question. -/
inductive Reply where
  | text (text : String)
  /-- The user ends the interview. -/
  | cancel
  /-- The question could not be asked. -/
  | failure (reason : String)
  deriving DecidableEq, Repr

/-- The parameters confirmed so far: their names and types, in the order of first confirmation. -/
abbrev Confirmed := List (String × String)

/-- Confirm a parameter. A name that is given again gets the new type. -/
def confirm (confirmed : Confirmed) (name type : String) : Confirmed :=
  if confirmed.any fun p => p.1 = name then
    confirmed.map fun p => if p.1 = name then (name, type) else p
  else confirmed ++ [(name, type)]

/-- Where an interview stands. -/
inductive Stage where
  /-- A name is asked for next. -/
  | name (confirmed : Confirmed)
  /-- The type of the named parameter is asked for next. -/
  | type (confirmed : Confirmed) (parameter : String)
  deriving DecidableEq, Repr

/-- The type of a parameter whose type is left blank. -/
def standardType : String := "string"

/-- What is asked next. -/
def Stage.question : Stage → Question
  | name _ => ⟨"Enter the name of the parameter (or hit enter to finish)", none⟩
  | type _ _ => ⟨"Enter the parameter type", some standardType⟩

/-- How an interview goes on. -/
inductive Next where
  | ask (stage : Stage)
  | done (confirmed : Confirmed)
  | failed (reason : String)
  deriving DecidableEq, Repr

/-- Take a reply. A blank or cancelled name and a cancelled type end the interview with what is
confirmed. -/
def Stage.answer : Stage → Reply → Next
  | name confirmed, .text reply =>
    if (trim reply).isEmpty then .done confirmed else .ask (.type confirmed (trim reply))
  | type confirmed parameter, .text reply =>
    .ask (.name (confirm confirmed parameter
      (if (trim reply).isEmpty then standardType else trim reply)))
  | name confirmed, .cancel | type confirmed _, .cancel => .done confirmed
  | _, .failure reason => .failed reason

/-- What an interview comes to, and the questions that were asked. -/
structure Transcript where
  result : Except Failure Confirmed
  asked : List Question

/-- What is confirmed at a stage. -/
def Stage.confirmed : Stage → Confirmed
  | name confirmed | type confirmed _ => confirmed

/-- Go through replies from a stage on. -/
def Stage.interview (stage : Stage) : List Reply → Transcript
  | [] => ⟨.ok stage.confirmed, [stage.question]⟩
  | reply :: rest =>
    match stage.answer reply with
    | .ask next =>
      let behind := next.interview rest
      { behind with asked := stage.question :: behind.asked }
    | .done confirmed => ⟨.ok confirmed, [stage.question]⟩
    | .failed reason => ⟨.error (.prompt reason), [stage.question]⟩

/-- Go through replies from the start. -/
def interview (replies : List Reply) : Transcript :=
  (Stage.name []).interview replies

end CdkStacks.Command
