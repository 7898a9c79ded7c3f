/-!
# Words of a name

Names come in any spelling (`MyStack`, `my-stack`, `VPCId`, `billing api`). This module splits a
name into words and spells the words again in three ways.

A name is cut at every character that is no ASCII letter or digit. Inside a piece a word ends

* before an upper-case letter, when the last cased letter of the word so far is lower case
  (`aB`, `a1B`);
* before the last upper-case letter of an upper-case run that a lower-case letter follows
  (`VPCId` is `VPC`, `Id`).

Digits have no case and start no word of their own.

* `words` is the split, `kebab`, `upperCamel` and `lowerCamel` the three spellings.
-/

namespace CdkStacks.Text

/-- What the cased letters of the current word say about the next word boundary. -/
inductive WordCase where
  /-- No cased letter yet. -/
  | none
  /-- The last cased letter is lower case. -/
  | lower
  /-- The last cased letter is upper case. -/
  | upper
  deriving DecidableEq, Repr

/-- The state after the letter `c`; a digit changes nothing. -/
def WordCase.after (state : WordCase) (c : Char) : WordCase :=
  if c.isLower then .lower else if c.isUpper then .upper else state

/-- Split one piece into words. `word` holds the letters of the current word, last letter first. -/
def splitPiece : WordCase → List Char → List Char → List (List Char)
  | _, word, [] => if word.isEmpty then [] else [word.reverse]
  | state, word, c :: rest =>
    let next := state.after c
    match rest with
    | [] => [(c :: word).reverse]
    | n :: _ =>
      if next = .lower && n.isUpper then
        (c :: word).reverse :: splitPiece .none [] rest
      else if state = .upper && c.isUpper && n.isLower then
        word.reverse :: splitPiece .none [c] rest
      else
        splitPiece next (c :: word) rest

/-- Cut a list at every character that is no ASCII letter or digit. Pieces may be empty. -/
def pieces : List Char → List (List Char)
  | [] => [[]]
  | c :: rest =>
    if c.isAlphanum then
      match pieces rest with
      | [] => [[c]]
      | piece :: more => (c :: piece) :: more
    else
      [] :: pieces rest

/-- The words of a name, in order. -/
def words (name : String) : List (List Char) :=
  (pieces name.toList).flatMap (splitPiece .none [])

/-- A word in lower case. -/
def lowerWord (word : List Char) : List Char :=
  word.map Char.toLower

/-- A word with its first letter in upper case and the others in lower case. -/
def capitalWord : List Char → List Char
  | [] => []
  | c :: rest => c.toUpper :: rest.map Char.toLower

/-- Words in lower case, joined by hyphens: `my-stack`. -/
def kebab (name : String) : String :=
  String.ofList (['-'].intercalate ((words name).map lowerWord))

/-- Words with capitals, joined: `MyStack`. -/
def upperCamel (name : String) : String :=
  String.ofList ((words name).flatMap capitalWord)

/-- The first word in lower case, the others with capitals, joined: `myStack`. -/
def lowerCamel (name : String) : String :=
  match words name with
  | [] => ""
  | word :: more => String.ofList (lowerWord word ++ more.flatMap capitalWord)

end CdkStacks.Text
