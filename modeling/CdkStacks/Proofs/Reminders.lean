import CdkStacks.Proofs.Layout
import CdkStacks.Proofs.Literals
import CdkStacks.Proofs.Statements
import CdkStacks.Template.Read
import Mathlib.Data.List.TakeWhile

/-!
# Reminders in comments

A resource whose type has no construct leaves a reminder in the code: a comment that holds its name
and its type as they stand. A comment ends with its line, so that a line end in one of the two puts
the rest of the text behind the comment.

* `reminder` is the text of the comment;
* `behindComment` is what a reader of code finds behind a comment, `escaping` what a name and a type
  put there; `behind_reminder`: these are the same;
* `resources_written`: the statements of resources are written two levels deep in the stack;
* `Reminded` says what becomes of a resource without a construct;
* `reminders_stay_comments`: its reminder is one line of the file exactly when neither its name nor
  its type has a line end.
-/

namespace CdkStacks.Construct

open CdkStacks.Template CdkStacks.TypeScript

/-! ## Comments -/

/-- The comment for a resource without a construct. -/
def reminder (name type : String) : String :=
  "// TODO: \"" ++ name ++ "\" has unsupported type \"" ++ type ++
    "\" and must be migrated by hand"

/-- What is read behind a comment that starts a text: the text from its first line end on. -/
def behindComment (text : String) : List Char :=
  text.toList.dropWhile fun c => !endsLine c

/-- Whether a text is on one line. -/
def isOneLine (text : String) : Bool :=
  text.toList.all fun c => !endsLine c

theorem behindComment_eq_nil {text : String} : behindComment text = [] ↔ isOneLine text := by
  rw [behindComment, List.dropWhile_eq_nil_iff, isOneLine, List.all_eq_true]

/-- A comment goes on until a part of it has a line end. -/
theorem behindComment_append (first second : String) : behindComment (first ++ second) =
    if isOneLine first then behindComment second else behindComment first ++ second.toList := by
  unfold behindComment
  rw [String.toList_append, List.dropWhile_append]
  have hempty : (first.toList.dropWhile fun c => !endsLine c).isEmpty = isOneLine first := by
    rw [Bool.eq_iff_iff, List.isEmpty_iff]
    exact behindComment_eq_nil
  rw [hempty]

/-- What the name and the type of a resource put behind the comment. -/
def escaping (name type : String) : List Char :=
  if isOneLine name then
    if isOneLine type then [] else behindComment type ++ "\" and must be migrated by hand".toList
  else
    behindComment name ++ ("\" has unsupported type \"" ++ type ++
      "\" and must be migrated by hand").toList

theorem escaping_eq_nil {name type : String} :
    escaping name type = [] ↔ isOneLine name ∧ isOneLine type := by
  unfold escaping
  split_ifs with hname htype
  · simp [hname, htype]
  · simp [htype]
  · simp [hname]

/-- **What is read behind a reminder** is the rest of a name or a type with a line end. -/
theorem behind_reminder (width depth : Nat) (name type : String) :
    behindComment (indented width depth (reminder name type)) = escaping name type := by
  have hindent : isOneLine (String.ofList (List.replicate (blanks width depth) ' ')) := by
    rw [isOneLine, String.toList_ofList, List.all_eq_true]
    intro c hc
    rw [List.eq_of_mem_replicate hc]
    rfl
  have hne : reminder name type ≠ "" := by simp [reminder]
  have hfirst : isOneLine "// TODO: \"" := by decide
  have hmiddle : isOneLine "\" has unsupported type \"" := by decide
  have hlast : behindComment "\" and must be migrated by hand" = [] := by decide
  rw [indented, if_neg hne, behindComment_append, if_pos hindent, reminder]
  simp only [String.append_assoc, behindComment_append, hfirst, hmiddle, hlast, if_true]
  rfl

/-! ## The file of a stack -/

theorem written_statements (width depth : Nat) (group : List Statement) :
    written width depth (group.flatMap Statement.steps) =
      group.flatMap fun statement => written width depth statement.steps := by
  induction group with
  | nil => rfl
  | cons statement rest ih =>
    rw [List.flatMap_cons, statement.steps_balanced.written_append, ih, List.flatMap_cons]

/-- The statements of resources are written two levels deep, one after the other. -/
theorem resources_written (width : Nat) (stack : String) (code : StackCode)
    (comment : List String) :
    (code.resources.flatMap fun statement => written width 2 statement.steps) <:+:
      written width 0 (Scaffold.stackSteps stack code comment) := by
  cases hresources : code.resources with
  | nil => exact List.nil_infix
  | cons first others =>
    have hsteps : Scaffold.stackSteps stack code comment =
        (Scaffold.headerSteps comment ++ code.imports.steps) ++
          .openBlock ("export class " ++ stack ++ " extends GuStack") ::
          .openBlock "constructor(scope: App, id: string, props: GuStackProps)" ::
          ((.line "super(scope, id, props);" :: Scaffold.parameterSteps code.parameters ++
            [.blank]) ++ (code.resources.flatMap Statement.steps ++
              (Scaffold.groupSteps code.dependencies ++ Scaffold.groupSteps code.outputs ++
                [.closeBlock, .closeBlock]))) := by
      simp [Scaffold.stackSteps, Scaffold.groupSteps, hresources]
    have hhead : Balanced 0 (Scaffold.headerSteps comment ++ code.imports.steps) :=
      (Scaffold.headerSteps_balanced 0 comment).append (.lines code.imports.lines)
    have hbefore : Balanced (groupHeight code.parameters + 1)
        (.line "super(scope, id, props);" :: Scaffold.parameterSteps code.parameters ++ [.blank]) :=
      ((Balanced.line _).append (Scaffold.parameterSteps_balanced _)).append (.line "")
    have hbody := group_balanced code.resources
    rw [hsteps, hhead.written_append]
    change _ <:+: _ ++ indented width 0 _ :: indented width 1 _ :: written width 2 _
    rw [hbefore.written_append, hbody.written_append, written_statements, ← hresources]
    exact (List.infix_append' _ _ _).trans
      (((List.suffix_cons _ _).trans (List.suffix_cons _ _)).trans (List.suffix_append _ _)).isInfix

/-! ## Resources without a construct -/

/-- What becomes of the resource at a place when its type has no construct. -/
structure Reminded (code : StackCode) (place : Nat) (resource : Resource) : Prop where
  statement : code.resources[place]? = some (.placeholder resource.name resource.type)
  /-- It is written by adding one entry to the file that is open, if it has room for its blanks. -/
  entry : ∀ (width : Nat) (draft : Draft) (rest : List Draft) (closed : List File),
    Writer.run ⟨width, draft :: rest, closed⟩
        (Statement.placeholder resource.name resource.type).steps =
      if tooWide width draft.depth (reminder resource.name resource.type) then .error .tooWide
      else .ok ⟨width, draft.push width (reminder resource.name resource.type) :: rest, closed⟩
  /-- The entry is in the file of the stack. -/
  file : ∀ (width : Nat) (stack : String) (comment : List String),
    indented width 2 (reminder resource.name resource.type) ∈
      written width 0 (Scaffold.stackSteps stack code comment)
  /-- What is read behind the comment is what the name and the type put there. -/
  behind : ∀ width depth, behindComment
      (indented width depth (reminder resource.name resource.type)) =
    escaping resource.name resource.type
  /-- The entry is one line exactly when the name and the type are. -/
  oneLine_iff : ∀ width depth,
    isOneLine (indented width depth (reminder resource.name resource.type)) ↔
      isOneLine resource.name ∧ isOneLine resource.type

theorem placeholder_of_lookup {template : Template} {imports : Imports} {libraries : Libraries}
    {code : StackCode} (hcode : StackCode.ofTemplate template imports libraries = .ok code)
    {place : Nat} {resource : Resource} (hresource : template.resources[place]? = some resource)
    (hkind : lookup resource.type = none) :
    code.resources[place]? = some (.placeholder resource.name resource.type) := by
  have hunsupported : supported? (Scope.ofTemplate template) resource = none := by
    rw [supported?, hkind]
  rw [resources_getElem? hcode, hresource, Option.map_some,
    resourceStatement_of_unsupported hunsupported]

/-- **Reminders stay comments** as long as names and types have no line ends. Otherwise what stands
behind the first line end is read as code. -/
theorem reminders_stay_comments {template : Template} {imports : Imports} {libraries : Libraries}
    {code : StackCode} (hcode : StackCode.ofTemplate template imports libraries = .ok code)
    {place : Nat} {resource : Resource} (hresource : template.resources[place]? = some resource)
    (hkind : lookup resource.type = none) : Reminded code place resource where
  statement := placeholder_of_lookup hcode hresource hkind
  entry width draft rest closed := by
    change (Writer.step? _ (.line (reminder resource.name resource.type)) >>= pure) = _
    rw [Writer.step?_line]
    split_ifs <;> rfl
  file width stack comment := by
    have hmem := List.mem_of_getElem? (placeholder_of_lookup hcode hresource hkind)
    refine (resources_written width stack code comment).subset (List.mem_flatMap.2 ⟨_, hmem, ?_⟩)
    exact List.mem_singleton_self _
  behind width depth := behind_reminder width depth _ _
  oneLine_iff width depth := by
    rw [← behindComment_eq_nil, behind_reminder, escaping_eq_nil]

/-- A document with a resource that has no construct, and quotes in its type. -/
def quotedType : String :=
  "\x7b\"Resources\":\x7b\"*/ C\":\x7b\"Type\":\"\\\"X\\\"\"\x7d\x7d\x7d"

theorem reminders_stay_comments_quotedType : ∃ template code,
    ofText .json quotedType = .ok template ∧
      StackCode.ofTemplate template .empty .standard = .ok code ∧
        template.resources[0]? = some ⟨"*/ C", "\"X\"", [], [], none⟩ ∧ lookup "\"X\"" = none ∧
          Reminded code 0 ⟨"*/ C", "\"X\"", [], [], none⟩ ∧
            isOneLine (indented 2 2 (reminder "*/ C" "\"X\"")) := by
  let template : Template :=
    { parameters := []
      resources := [⟨"*/ C", "\"X\"", [], [], none⟩]
      outputs := []
      conditions := [] }
  have hread : ofText .json quotedType = .ok template := by with_unfolding_all rfl
  have hcheck : template.checkCycles = .ok () := rfl
  have hcode := ofTemplate_of_ok hcheck .empty .standard
  have hresource : template.resources[0]? = some ⟨"*/ C", "\"X\"", [], [], none⟩ := rfl
  have hkind : lookup "\"X\"" = none := by decide
  have hreminded := reminders_stay_comments hcode hresource hkind
  exact ⟨template, _, hread, hcode, hresource, hkind, hreminded,
    (hreminded.oneLine_iff 2 2).2 ⟨by decide, by decide⟩⟩

/-- A document with a resource that has no construct, and a line feed in its name. -/
def brokenName : String :=
  "\x7b\"Resources\":\x7b\"A\\nB\":\x7b\"Type\":\"X\"\x7d\x7d\x7d"

/-- **A name may leave its comment:** the document is read, and what stands behind the line feed in
the name is a line of code. -/
theorem brokenName_escapes : ∃ template code,
    ofText .json brokenName = .ok template ∧
      StackCode.ofTemplate template .empty .standard = .ok code ∧
        code.resources[0]? = some (.placeholder "A\nB" "X") ∧
          behindComment (reminder "A\nB" "X") =
            "\nB\" has unsupported type \"X\" and must be migrated by hand".toList := by
  let template : Template :=
    { parameters := []
      resources := [⟨"A\nB", "X", [], [], none⟩]
      outputs := []
      conditions := [] }
  have hread : ofText .json brokenName = .ok template := by with_unfolding_all rfl
  have hcheck : template.checkCycles = .ok () := rfl
  have hcode := ofTemplate_of_ok hcheck .empty .standard
  have hresource : template.resources[0]? = some ⟨"A\nB", "X", [], [], none⟩ := rfl
  exact ⟨template, _, hread, hcode, placeholder_of_lookup hcode hresource (by decide), by decide⟩

end CdkStacks.Construct
