import CdkStacks.Construct.Stack

/-!
# Source of the generated files

* `appSteps` writes the app, `stackSteps` the stack, `testSteps` the snapshot test;
* `appImports`, `stackImports`, `testImports` are what these files import in any case.
-/

namespace CdkStacks.Scaffold

open CdkStacks.Construct CdkStacks.TypeScript

/-! ## Imports -/

/-- What an app imports. -/
def appImports (libraries : Libraries) (stack stackModule : String) : Imports :=
  ((Imports.empty.addEffect "source-map-support/register").add libraries.cdkCore ["App"]).add
    stackModule [stack]

/-- What every stack imports. -/
def stackImports (libraries : Libraries) : Imports :=
  ((Imports.empty.addTypes libraries.cdkCore ["App"]).addTypes libraries.guardianCore
    ["GuStackProps"]).add libraries.guardianCore ["GuStack"]

/-- What a snapshot test imports. -/
def testImports (libraries : Libraries) (stack testModule : String) : Imports :=
  (((Imports.empty.addEffect (libraries.cdkAssert ++ "/jest")).add libraries.cdkAssert
    ["SynthUtils"]).add libraries.cdkCore ["App"]).add testModule [stack]

/-! ## Files -/

/-- The comment at the head of a file, and an empty line behind it. -/
def headerSteps (comment : List String) : List Step :=
  if comment.isEmpty then [] else comment.map .line ++ [.blank]

/-- The object that names the app of a stack. -/
def appProps (app : String) : String :=
  "\x7b app: " ++ Text.quoted (fileName app) ++ " \x7d"

/-- The app: it creates every stack. -/
def appSteps (app : String) (names : List String) (imports : Imports) (comment : List String) :
    List Step :=
  headerSteps comment ++ imports.steps ++ [.line "const app = new App();"] ++
    names.map fun stack =>
      .line ("new " ++ stack ++ "(app, " ++ Text.quoted stack ++ ", " ++ appProps app ++ ");")

/-- The parameters of a stack, in one object. -/
def parameterSteps (parameters : List Statement) : List Step :=
  if parameters.isEmpty then []
  else [.blank, .openBlock "const parameters ="] ++ parameters.flatMap Statement.steps ++
    [.unindent "\x7d;"]

/-- A group of statements behind an empty line. -/
def groupSteps (group : List Statement) : List Step :=
  if group.isEmpty then [] else .blank :: group.flatMap Statement.steps

/-- The stack: a class whose constructor declares everything. -/
def stackSteps (stack : String) (code : StackCode) (comment : List String) : List Step :=
  headerSteps comment ++ code.imports.steps ++
    [.openBlock ("export class " ++ stack ++ " extends GuStack"),
      .openBlock "constructor(scope: App, id: string, props: GuStackProps)",
      .line "super(scope, id, props);"] ++
    parameterSteps code.parameters ++ groupSteps code.resources ++ groupSteps code.dependencies ++
    groupSteps code.outputs ++ [.closeBlock, .closeBlock]

/-- The snapshot test of a stack. -/
def testSteps (stack app : String) (imports : Imports) (comment : List String) : List Step :=
  headerSteps comment ++ imports.steps ++
    [.openBlock ("describe(\"The " ++ stack ++ " stack\", () =>"),
      .openBlock "it(\"matches the snapshot\", () =>",
      .line "const app = new App();",
      .line ("const stack = new " ++ stack ++ "(app, " ++ Text.quoted (fileName stack) ++ ", " ++
        appProps app ++ ");"),
      .line "expect(SynthUtils.toCloudFormation(stack)).toMatchSnapshot();",
      .unindent "\x7d);",
      .unindent "\x7d);"]

end CdkStacks.Scaffold
