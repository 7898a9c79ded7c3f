import CdkStacks.Command.New

/-!
# Command line arguments

* `Grammar` says which arguments a command takes, `Grammar.scan` sorts them;
* `Invocation` is what the arguments ask for;
* `Invocation.ofArguments` reads them.

An argument that starts with a hyphen is an option, except for the hyphen alone; behind `--` no
argument is one. An option takes its value from behind an equals sign or from the next argument. No
option is given twice.
-/

namespace CdkStacks.Command

open CdkStacks.Files (FilePath)

/-- What a value may be. -/
inductive ValueKind where
  /-- A path, which is not empty. -/
  | path
  | text
  deriving DecidableEq, Repr

/-- Whether a value may be of a kind. -/
def ValueKind.accepts : ValueKind → String → Bool
  | path, value => !value.isEmpty
  | text, _ => true

/-- The arguments of a command. -/
structure Grammar where
  /-- The values without a name, in order. -/
  positionals : List ValueKind
  /-- How many of them have to be given. -/
  required : Nat
  /-- The options that have a value. -/
  options : List (String × ValueKind)
  /-- The options that have none. -/
  flags : List String

/-- The arguments that were given. -/
structure Given where
  positionals : List String
  options : List (String × String)
  flags : List String

/-- Why the arguments are no command to run. -/
inductive Stop where
  | help
  | version
  /-- They are wrong. -/
  | usage
  deriving DecidableEq, Repr

/-- Whether an argument is an option. -/
def isOption (argument : String) : Bool :=
  match argument.toList with
  | '-' :: _ :: _ => true
  | _ => false

/-- Split an option at its first equals sign. -/
def splitValue (argument : List Char) : String × Option String :=
  let (name, rest) := argument.span (· ≠ '=')
  match rest with
  | _ :: value => (String.ofList name, some (String.ofList value))
  | [] => (String.ofList name, none)

namespace Given

/-- Add a value without a name. -/
def addPositional (grammar : Grammar) (given : Given) (value : String) : Except Stop Given :=
  match grammar.positionals[given.positionals.length]? with
  | some kind =>
    if kind.accepts value then .ok { given with positionals := given.positionals ++ [value] }
    else .error .usage
  | none => .error .usage

/-- Add the value of an option that is not given yet. -/
def addOption (given : Given) (name : String) (kind : ValueKind) (value : String) :
    Except Stop Given :=
  if (given.options.any fun o => o.1 = name) || !kind.accepts value then .error .usage
  else .ok { given with options := given.options ++ [(name, value)] }

/-- Add an option without a value that is not given yet. -/
def addFlag (grammar : Grammar) (given : Given) (name : String) : Except Stop Given :=
  if name = "help" then .error .help
  else if !grammar.flags.contains name || given.flags.contains name then .error .usage
  else if name = "version" then .error .version
  else .ok { given with flags := given.flags ++ [name] }

/-- Add options by their letters. -/
def addLetters (grammar : Grammar) (given : Given) : List Char → Except Stop Given
  | [] => .ok given
  | letter :: rest => do
    let name ← match letter with
      | 'v' => .ok "verbose"
      | 'V' => .ok "version"
      | 'h' => .ok "help"
      | _ => .error .usage
    (← given.addFlag grammar name).addLetters grammar rest

/-- The value of an option. -/
def option? (given : Given) (name : String) : Option String :=
  (given.options.find? fun o => o.1 = name).map Prod.snd

end Given

namespace Grammar

/-- Where the sorting of arguments stands. -/
inductive Mode where
  /-- Any argument may come. -/
  | any
  /-- The value of an option has to come. -/
  | value (name : String) (kind : ValueKind)
  /-- Options are over. -/
  | plain
  deriving DecidableEq, Repr

/-- Take one argument. -/
def take (grammar : Grammar) (given : Given) (argument : String) : Mode → Except Stop (Given × Mode)
  | .plain => do return (← given.addPositional grammar argument, .plain)
  | .value name kind => do
    if isOption argument then throw .usage
    return (← given.addOption name kind argument, .any)
  | .any =>
    match argument.toList with
    | ['-', '-'] => .ok (given, .plain)
    | '-' :: '-' :: long =>
      let (name, value?) := splitValue long
      match grammar.options.find? fun o => o.1 = name, value? with
      | some (_, kind), some value => do return (← given.addOption name kind value, .any)
      | some (_, kind), none => .ok (given, .value name kind)
      | none, some _ => .error .usage
      | none, none => do return (← given.addFlag grammar name, .any)
    | '-' :: letter :: letters => do
      return (← given.addLetters grammar (letter :: letters), .any)
    | _ => do return (← given.addPositional grammar argument, .any)

/-- Sort arguments. -/
def scan (grammar : Grammar) (given : Given) (mode : Mode) : List String → Except Stop Given
  | [] =>
    match mode with
    | .value _ _ => .error .usage
    | _ => if given.positionals.length < grammar.required then .error .usage else .ok given
  | argument :: rest => do
    let (given, mode) ← grammar.take given argument mode
    grammar.scan given mode rest

end Grammar

/-- The arguments of `migrate`. -/
def migrateGrammar : Grammar where
  positionals := [.path, .path, .text]
  required := 2
  options := [("app", .text), ("config", .path)]
  flags := ["multi-app", "verbose"]

/-- The arguments of `new`. -/
def newGrammar : Grammar where
  positionals := [.path, .text, .text]
  required := 3
  options := [("config", .path)]
  flags := ["multi-app", "verbose"]

/-- The options before the name of a command. -/
def rootGrammar : Grammar where
  positionals := []
  required := 0
  options := []
  flags := ["verbose", "version"]

/-- What the arguments ask for. -/
inductive Invocation where
  | migrate (options : MigrateOptions) (settings : Option FilePath)
  | new (options : NewOptions) (settings : Option FilePath)
  deriving DecidableEq, Repr

namespace Invocation

/-- No arguments yet. -/
def nothing : Given := ⟨[], [], []⟩

/-- The settings file that was named. -/
def settingsOf (given : Given) : Option FilePath :=
  (given.option? "config").map FilePath.mk

/-- Read the arguments of `migrate`. -/
def ofMigrate (arguments : List String) : Except Stop Invocation := do
  let given ← migrateGrammar.scan nothing .any arguments
  match given.positionals with
  | template :: output :: more =>
    return .migrate
      { template := ⟨template⟩
        output := ⟨output⟩
        stack := more.head?
        app := given.option? "app"
        multiApp := given.flags.contains "multi-app" }
      (settingsOf given)
  | _ => throw .usage

/-- Read the arguments of `new`. -/
def ofNew (arguments : List String) : Except Stop Invocation := do
  let given ← newGrammar.scan nothing .any arguments
  match given.positionals with
  | [output, app, stack] =>
    return .new
      { output := ⟨output⟩, app, stack, multiApp := given.flags.contains "multi-app" }
      (settingsOf given)
  | _ => throw .usage

/-- Read the options before the name of a command, then the command. -/
def ofRoot (given : Given) : List String → Except Stop Invocation
  | [] => .error .usage
  | argument :: rest =>
    if argument = "migrate" || argument = "m" then ofMigrate rest
    else if argument = "new" || argument = "n" then ofNew rest
    else if argument = "help" then .error .help
    else
      match argument.toList with
      | '-' :: '-' :: long => do
        match splitValue long with
        | (_, some _) => throw .usage
        | (name, none) => ofRoot (← given.addFlag rootGrammar name) rest
      | '-' :: letter :: letters => do
        ofRoot (← given.addLetters rootGrammar (letter :: letters)) rest
      | _ => .error .usage

/-- Read the arguments of the program. -/
def ofArguments (arguments : List String) : Except Stop Invocation :=
  ofRoot nothing arguments

end Invocation

end CdkStacks.Command
