import CdkStacks.Proofs.Results
import CdkStacks.Scaffold.Generate
import Mathlib.Tactic.SplitIfs

/-!
# Laying out balanced steps

The steps that write a generated file open and close blocks in pairs, so that a line with too many
blanks is all that can stop them.

* `Balanced` steps write lines and close every block they open, on a number of levels;
* `leveled` are the lines of steps, each with its depth; `written` are these lines indented;
* `LinesFit`: no line is too wide; `Balanced.linesFit`: so it is when there is room for the blanks
  of the deepest one;
* `Balanced.run`: balanced steps only add lines to the innermost file, unless one is too wide;
* `Expr.steps_balanced` and `Statement.steps_balanced`: expressions and statements are written by
  balanced steps, on as many levels as they are nested;
* `Scaffold.run_steps`, `Scaffold.generate_eq`: the steps of a scaffold write the app, the stack
  and the test, unless a line is too wide;
* `Scaffold.generate_files`: so these are the files that are generated.
-/

namespace CdkStacks.TypeScript

open CdkStacks.Files (FilePath)

/-! ## Balanced steps -/

/-- Steps inside a file that close every block they open. At most a number of `levels` are open at
the same time. -/
inductive Balanced : Nat → List Step → Prop
  | nil {levels : Nat} : Balanced levels []
  | line {levels : Nat} (text : String) : Balanced levels [.line text]
  | append {levels : Nat} {first second : List Step} : Balanced levels first →
      Balanced levels second → Balanced levels (first ++ second)
  | block {levels : Nat} (header footer : String) {body : List Step} : Balanced levels body →
      Balanced (levels + 1) (.indent header :: (body ++ [.unindent footer]))

namespace Balanced

variable {levels : Nat}

theorem mono {more : Nat} {steps : List Step} (h : Balanced levels steps) (hle : levels ≤ more) :
    Balanced more steps := by
  induction h generalizing more with
  | nil => exact .nil
  | line text => exact .line text
  | append _ _ ih₁ ih₂ => exact .append (ih₁ hle) (ih₂ hle)
  | block header footer _ ih =>
    obtain ⟨more, rfl⟩ := Nat.exists_eq_add_of_le' (Nat.one_le_of_lt hle)
    exact .block header footer (ih (Nat.le_of_succ_le_succ hle))

theorem openBlock {body : List Step} (h : Balanced levels body) (header footer : String) :
    Balanced (levels + 1) (.openBlock header :: (body ++ [.unindent footer])) :=
  .block _ _ h

theorem flatMap {α : Type} {f : α → List Step} {items : List α}
    (h : ∀ item ∈ items, Balanced levels (f item)) : Balanced levels (items.flatMap f) := by
  induction items with
  | nil => exact .nil
  | cons item items ih =>
    obtain ⟨hitem, hitems⟩ := List.forall_mem_cons.1 h
    rw [List.flatMap_cons]
    exact .append hitem (ih hitems)

theorem lines (texts : List String) : Balanced levels (texts.map .line) := by
  rw [List.map_eq_flatMap]
  exact .flatMap fun text _ => .line text

end Balanced

theorem Writer.run_append (writer : Writer) (first second : List Step) :
    writer.run (first ++ second) = writer.run first >>= fun writer => writer.run second := by
  simp only [Writer.run, List.foldlM_append]

theorem Writer.run_cons (writer : Writer) (step : Step) (steps : List Step) :
    writer.run (step :: steps) = writer.step? step >>= fun writer => writer.run steps := rfl

/-- The text that a step writes. -/
def Step.text : Step → String
  | .line text | .indent text | .unindent text => text
  | .openFile _ | .closeFile _ => ""

/-- The lines that steps inside a file write from a depth on, each with the depth it is written
at. -/
def leveled : Nat → List Step → List (Nat × String)
  | _, [] => []
  | depth, .line text :: rest => (depth, text) :: leveled depth rest
  | depth, .indent text :: rest => (depth, text) :: leveled (depth + 1) rest
  | depth, .unindent text :: rest => (depth - 1, text) :: leveled (depth - 1) rest
  | depth, .openFile _ :: rest | depth, .closeFile _ :: rest => leveled depth rest

/-- The lines that steps inside a file write from a depth on. -/
def written (width depth : Nat) (steps : List Step) : List String :=
  (leveled depth steps).map fun line => indented width line.1 line.2

theorem written_line (width depth : Nat) (text : String) (rest : List Step) :
    written width depth (.line text :: rest) =
      indented width depth text :: written width depth rest := rfl

theorem written_indent (width depth : Nat) (text : String) (rest : List Step) :
    written width depth (.indent text :: rest) =
      indented width depth text :: written width (depth + 1) rest := rfl

/-- No line that steps write from a depth on is too wide. -/
def LinesFit (width depth : Nat) (steps : List Step) : Prop :=
  ∀ line ∈ leveled depth steps, tooWide width line.1 line.2 = false

instance (width depth : Nat) (steps : List Step) : Decidable (LinesFit width depth steps) :=
  inferInstanceAs (Decidable (∀ line ∈ leveled depth steps, tooWide width line.1 line.2 = false))

namespace Balanced

section Append

variable {levels : Nat} {first : List Step}

/-- Behind balanced steps the depth is what it was. -/
theorem leveled_append (h : Balanced levels first) : ∀ (depth : Nat) (rest : List Step),
    leveled depth (first ++ rest) = leveled depth first ++ leveled depth rest := by
  induction h with
  | nil => exact fun _ _ => rfl
  | line text => exact fun _ _ => rfl
  | append _ _ ih₁ ih₂ =>
    intro depth rest
    rw [List.append_assoc, ih₁, ih₂, ih₁, List.append_assoc]
  | block header footer _ ih =>
    intro depth rest
    rw [List.cons_append, List.append_assoc, leveled, ih, leveled, ih]
    simp [leveled]

theorem written_append (h : Balanced levels first) (width depth : Nat) (rest : List Step) :
    written width depth (first ++ rest) =
      written width depth first ++ written width depth rest := by
  rw [written, h.leveled_append, List.map_append, written, written]

theorem linesFit_append (h : Balanced levels first) (width depth : Nat) (rest : List Step) :
    LinesFit width depth (first ++ rest) ↔
      LinesFit width depth first ∧ LinesFit width depth rest := by
  rw [LinesFit, h.leveled_append, List.forall_mem_append, LinesFit, LinesFit]

end Append

section Block

variable {levels : Nat} {body : List Step}

theorem leveled_block (h : Balanced levels body) (depth : Nat) (header footer : String) :
    leveled depth (.indent header :: (body ++ [.unindent footer])) =
      (depth, header) :: (leveled (depth + 1) body ++ [(depth, footer)]) := by
  rw [leveled, h.leveled_append]
  rfl

theorem written_block (h : Balanced levels body) (width depth : Nat) (header footer : String) :
    written width depth (.indent header :: (body ++ [.unindent footer])) =
      indented width depth header ::
        (written width (depth + 1) body ++ [indented width depth footer]) := by
  rw [written, h.leveled_block, List.map_cons, List.map_append]
  rfl

theorem linesFit_block (h : Balanced levels body) (width depth : Nat) (header footer : String) :
    LinesFit width depth (.indent header :: (body ++ [.unindent footer])) ↔
      tooWide width depth header = false ∧ LinesFit width (depth + 1) body ∧
        tooWide width depth footer = false := by
  rw [LinesFit, h.leveled_block, List.forall_mem_cons, List.forall_mem_append,
    List.forall_mem_singleton, LinesFit]

end Block

/-- Balanced steps write no deeper than their levels. -/
theorem leveled_le {levels : Nat} {steps : List Step} (h : Balanced levels steps) :
    ∀ depth, ∀ line ∈ leveled depth steps, line.1 ≤ depth + levels := by
  induction h with
  | nil => exact fun _ => List.forall_mem_nil _
  | line text => exact fun depth => List.forall_mem_singleton.2 (Nat.le_add_right depth _)
  | append hfirst _ ih₁ ih₂ =>
    intro depth
    rw [hfirst.leveled_append]
    exact List.forall_mem_append.2 ⟨ih₁ depth, ih₂ depth⟩
  | @block levels header footer body hbody ih =>
    intro depth
    have hinside : ∀ line ∈ leveled (depth + 1) body, line.1 ≤ depth + (levels + 1) := by
      intro line hline
      have hle := ih (depth + 1) line hline
      omega
    rw [hbody.leveled_block]
    exact List.forall_mem_cons.2 ⟨Nat.le_add_right .., List.forall_mem_append.2
      ⟨hinside, List.forall_mem_singleton.2 (Nat.le_add_right ..)⟩⟩

end Balanced

theorem blanks_zero (width : Nat) : blanks width 0 = 0 := by
  simp [blanks]

theorem indented_zero (width : Nat) (text : String) : indented width 0 text = text := by
  unfold indented
  split_ifs with h
  · exact h.symm
  · simp [blanks_zero]

/-- Outside of blocks lines are written as they stand. -/
theorem written_lines (width : Nat) (texts : List String) :
    written width 0 (texts.map .line) = texts := by
  induction texts with
  | nil => rfl
  | cons text texts ih => rw [List.map_cons, written_line, indented_zero, ih]

/-- A line has room for its blanks when these are no more than a text may have. -/
theorem tooWide_of_le {width depth : Nat} (h : depth * width ≤ maxBytes) (text : String) :
    tooWide width depth text = false := by
  have hle : blanks width depth ≤ maxBytes := Nat.le_trans (Nat.mod_le _ _) h
  simp [tooWide, hle]

/-- Balanced steps have room for their lines when there is room for the blanks of the deepest. -/
theorem Balanced.linesFit {levels width depth : Nat} {steps : List Step}
    (h : Balanced levels steps) (hroom : (depth + levels) * width ≤ maxBytes) :
    LinesFit width depth steps := by
  intro line hline
  have hle : line.1 * width ≤ (depth + levels) * width :=
    Nat.mul_le_mul_right width (h.leveled_le depth line hline)
  exact tooWide_of_le (Nat.le_trans hle hroom) line.2

/-! ## Running balanced steps -/

section Steps

variable (width : Nat) (draft : Draft) (rest : List Draft) (closed : List File) (text : String)

theorem Writer.step?_line : Writer.step? ⟨width, draft :: rest, closed⟩ (.line text) =
    if tooWide width draft.depth text then .error .tooWide
    else .ok ⟨width, draft.push width text :: rest, closed⟩ := by
  simp only [step?, Writer.step]
  split_ifs <;> rfl

theorem Writer.step?_indent : Writer.step? ⟨width, draft :: rest, closed⟩ (.indent text) =
    if tooWide width draft.depth text then .error .tooWide
    else .ok ⟨width, (draft.push width text).deepen :: rest, closed⟩ := by
  simp only [step?, Writer.step]
  split_ifs <;> rfl

theorem Writer.step?_unindent :
    Writer.step? ⟨width, draft.deepen :: rest, closed⟩ (.unindent text) =
      if tooWide width draft.depth text then .error .tooWide
      else .ok ⟨width, draft.push width text :: rest, closed⟩ := by
  simp only [step?, Writer.step, Draft.deepen]
  split_ifs <;> rfl

end Steps

/-- **Balanced steps only add lines.** The innermost file keeps its path and depth; the other files
stay as they are. Nothing but a line that is too wide stops them. -/
theorem Balanced.run {levels : Nat} {steps : List Step} (h : Balanced levels steps) (width : Nat)
    (rest : List Draft) (closed : List File) : ∀ draft : Draft,
      Writer.run ⟨width, draft :: rest, closed⟩ steps =
        if LinesFit width draft.depth steps then
          .ok ⟨width,
            { draft with lines := draft.lines ++ written width draft.depth steps } :: rest, closed⟩
        else .error .tooWide := by
  induction h with
  | nil =>
    intro draft
    simp [Writer.run, LinesFit, leveled, written, pure, Except.pure]
  | line text =>
    intro draft
    rw [Writer.run_cons, Writer.step?_line]
    by_cases hwide : tooWide width draft.depth text
    · simp [LinesFit, leveled, hwide, bind, Except.bind]
    · simp only [Bool.not_eq_true] at hwide
      simp [LinesFit, leveled, hwide, bind, Except.bind, Writer.run, Draft.push, written, pure,
        Except.pure]
  | @append _ first _ hfirst _ ih₁ ih₂ =>
    intro draft
    rw [Writer.run_append, ih₁, hfirst.written_append, ← List.append_assoc]
    simp only [hfirst.linesFit_append]
    by_cases hfit : LinesFit width draft.depth first
    · simp only [hfit, if_true, true_and]
      exact ih₂ _
    · simp only [hfit, if_false, false_and]
      rfl
  | @block _ header footer body hbody ih =>
    intro draft
    rw [Writer.run_cons, Writer.step?_indent, hbody.written_block]
    simp only [hbody.linesFit_block]
    by_cases hheader : tooWide width draft.depth header
    · simp [hheader, bind, Except.bind]
    rw [if_neg hheader]
    change Writer.run ⟨width, (draft.push width header).deepen :: rest, closed⟩ _ = _
    -- behind the lines of the block the file has them all, and is still one level deeper
    let inside : Draft := { draft.push width header with
      lines := (draft.push width header).lines ++ written width (draft.depth + 1) body }
    rw [Writer.run_append, ih]
    by_cases hfit : LinesFit width (draft.depth + 1) body
    · rw [if_pos (by exact hfit)]
      change (Writer.step? ⟨width, inside.deepen :: rest, closed⟩ (.unindent footer) >>= pure) = _
      rw [Writer.step?_unindent]
      by_cases hfooter : tooWide width draft.depth footer
      · rw [if_pos (by exact hfooter)]
        simp [hfooter, bind, Except.bind]
      · rw [if_neg (by exact hfooter)]
        simp [hheader, hfit, hfooter, inside, Draft.push]
    · rw [if_neg (by exact hfit)]
      simp [hfit, bind, Except.bind]

/-- A file with balanced contents is opened, written and closed. -/
theorem run_fileSteps {levels : Nat} {body : List Step} (h : Balanced levels body)
    (path : FilePath) (width : Nat) (closed : List File) :
      Writer.run ⟨width, [], closed⟩ (Scaffold.fileSteps path body) =
        if LinesFit width 0 body then
          .ok ⟨width, [], closed ++ [⟨path, written width 0 body⟩]⟩
        else .error .tooWide := by
  rw [Scaffold.fileSteps, List.cons_append, Writer.run_cons]
  change Writer.run ⟨width, [⟨path, [], 0⟩], closed⟩ _ = _
  rw [Writer.run_append, h.run]
  by_cases hfit : LinesFit width 0 body
  · simp only [hfit, if_true]
    change Writer.run ⟨width, [⟨path, written width 0 body, 0⟩], closed⟩ [.closeFile path] = _
    have hpath : path.same path = true := decide_eq_true rfl
    simp [Writer.run, Writer.step?, Writer.step, hpath]
  · simp only [hfit, if_false]
    rfl

/-- The lines of a file stand in front of what is written behind the file. -/
theorem leveled_fileSteps_append {levels : Nat} {body : List Step} (h : Balanced levels body)
    (path : FilePath) (depth : Nat) (rest : List Step) :
    leveled depth (Scaffold.fileSteps path body ++ rest) =
      leveled depth body ++ leveled depth rest := by
  rw [Scaffold.fileSteps, List.cons_append, List.cons_append, List.append_assoc, leveled,
    h.leveled_append]
  rfl

section Files

variable {levels : Nat} {files : List (FilePath × List Step)}

/-- **Files with balanced contents** are written one after the other. -/
theorem run_files (width : Nat) (h : ∀ file ∈ files, Balanced levels file.2) (closed : List File) :
    Writer.run ⟨width, [], closed⟩ (files.flatMap fun file => Scaffold.fileSteps file.1 file.2) =
      if ∀ file ∈ files, LinesFit width 0 file.2 then
        .ok ⟨width, [], closed ++ files.map fun file => ⟨file.1, written width 0 file.2⟩⟩
      else .error .tooWide := by
  induction files generalizing closed with
  | nil => simp [Writer.run, pure, Except.pure]
  | cons file files ih =>
    obtain ⟨hfile, hfiles⟩ := List.forall_mem_cons.1 h
    simp only [List.forall_mem_cons]
    rw [List.flatMap_cons, Writer.run_append, run_fileSteps hfile]
    by_cases hfirst : LinesFit width 0 file.2
    · simp only [hfirst, if_true, true_and]
      change Writer.run ⟨width, [], closed ++ [⟨file.1, written width 0 file.2⟩]⟩ _ = _
      rw [ih hfiles, List.map_cons, List.append_assoc, List.singleton_append]
    · simp only [hfirst, if_false, false_and]
      rfl

/-- The lines of files are those of the one and the other. -/
theorem linesFit_files (width : Nat) (h : ∀ file ∈ files, Balanced levels file.2) :
    LinesFit width 0 (files.flatMap fun file => Scaffold.fileSteps file.1 file.2) ↔
      ∀ file ∈ files, LinesFit width 0 file.2 := by
  induction files with
  | nil => simp [LinesFit, leveled]
  | cons file files ih =>
    obtain ⟨hfile, hfiles⟩ := List.forall_mem_cons.1 h
    rw [List.flatMap_cons, LinesFit, leveled_fileSteps_append hfile, List.forall_mem_append,
      List.forall_mem_cons, ← ih hfiles, LinesFit, LinesFit]

end Files

/-! ## Expressions -/

theorem inlineItems_eq (items : List Expr) : inlineItems items = items.map Expr.inline := by
  induction items with
  | nil => rfl
  | cons item rest ih => exact congrArg (item.inline :: ·) ih

theorem inlineEntries_eq (entries : List (String × Expr)) : inlineEntries entries =
    entries.map fun entry => objectKey entry.1 ++ ": " ++ entry.2.inline := by
  induction entries with
  | nil => rfl
  | cons entry rest ih => exact congrArg (_ :: ·) ih

mutual

/-- How deep an expression is nested: the number of levels that its lines need. -/
def Expr.height : Expr → Nat
  | .array items => itemsHeight items + 1
  | .object entries => entriesHeight entries + 1
  | .raw _ | .string _ | .parameter _ _ | .read _ _ | .deferred _ _ | .call _ _ | .asText _
  | .template _ => 0

/-- How deep the deepest item of an array is nested. -/
def itemsHeight : List Expr → Nat
  | [] => 0
  | item :: rest => max item.height (itemsHeight rest)

/-- How deep the deepest value of an object is nested. -/
def entriesHeight : List (String × Expr) → Nat
  | [] => 0
  | (_, value) :: rest => max value.height (entriesHeight rest)

end

mutual

/-- An expression is written by balanced steps, on as many levels as it is nested. -/
theorem Expr.steps_balanced (before after : String) :
    ∀ e : Expr, Balanced e.height (e.steps before after)
  | .array [] => .line _
  | .array (item :: rest) => .block _ _ (itemSteps_balanced (item :: rest))
  | .object [] => .line _
  | .object (entry :: rest) => .block _ _ (entrySteps_balanced (entry :: rest))
  | .raw _ | .string _ | .parameter _ _ | .read _ _ | .deferred _ _ | .call _ _ | .asText _
  | .template _ => .line _

/-- The items of an array are written by balanced steps. -/
theorem itemSteps_balanced : ∀ items : List Expr, Balanced (itemsHeight items) (itemSteps items)
  | [] => .nil
  | item :: rest => .append ((item.steps_balanced "" ",").mono (Nat.le_max_left ..))
      ((itemSteps_balanced rest).mono (Nat.le_max_right ..))

/-- The entries of an object are written by balanced steps. -/
theorem entrySteps_balanced : ∀ entries : List (String × Expr),
    Balanced (entriesHeight entries) (entrySteps entries)
  | [] => .nil
  | (_, value) :: rest => .append ((value.steps_balanced _ _).mono (Nat.le_max_left ..))
      ((entrySteps_balanced rest).mono (Nat.le_max_right ..))

end

end CdkStacks.TypeScript

namespace CdkStacks.Construct

open CdkStacks.TypeScript

/-- How deep the expression of a statement is nested. -/
def Statement.height (statement : Statement) : Nat :=
  (statement.props?.map Expr.height).getD 0

/-- A statement is written by balanced steps. -/
theorem Statement.steps_balanced (statement : Statement) :
    Balanced statement.height statement.steps := by
  cases statement with
  | parameter name construct props => exact props.steps_balanced _ _
  | resource name identifier construct props => exact props.steps_balanced _ _
  | placeholder name type => exact .line _
  | dependency identifier other => exact .line _
  | output name props => exact props.steps_balanced _ _

/-- How deep the deepest of some statements is nested. -/
def groupHeight (group : List Statement) : Nat :=
  (group.map Statement.height).foldr max 0

theorem height_le_groupHeight {group : List Statement} {statement : Statement}
    (h : statement ∈ group) : statement.height ≤ groupHeight group := by
  induction group with
  | nil => cases h
  | cons first rest ih =>
    rcases List.mem_cons.1 h with rfl | h
    · exact Nat.le_max_left ..
    · exact Nat.le_trans (ih h) (Nat.le_max_right ..)

theorem group_balanced (group : List Statement) :
    Balanced (groupHeight group) (group.flatMap Statement.steps) :=
  .flatMap fun statement h => statement.steps_balanced.mono (height_le_groupHeight h)

/-- How deep the code of a stack is nested. -/
def StackCode.height (code : StackCode) : Nat :=
  max (max (groupHeight code.parameters) (groupHeight code.resources))
    (max (groupHeight code.dependencies) (groupHeight code.outputs))

end CdkStacks.Construct

namespace CdkStacks.Scaffold

open CdkStacks.Construct CdkStacks.TypeScript

/-! ## Generated files -/

theorem headerSteps_balanced (levels : Nat) (comment : List String) :
    Balanced levels (headerSteps comment) := by
  unfold headerSteps
  split_ifs
  · exact .nil
  · exact .append (.lines comment) (.line "")

theorem appSteps_balanced (app : String) (names : List String) (imports : Imports)
    (comment : List String) : Balanced 0 (appSteps app names imports comment) := by
  refine .append (.append (.append (headerSteps_balanced 0 comment) (.lines _)) (.line _)) ?_
  rw [List.map_eq_flatMap]
  exact .flatMap fun _ _ => .line _

theorem parameterSteps_balanced (parameters : List Statement) :
    Balanced (groupHeight parameters + 1) (parameterSteps parameters) := by
  unfold parameterSteps
  split_ifs
  · exact .nil
  · have hblock := Balanced.append (.line "")
      ((group_balanced parameters).openBlock "const parameters =" "\x7d;")
    simpa [Step.blank] using hblock

theorem groupSteps_balanced (group : List Statement) :
    Balanced (groupHeight group) (groupSteps group) := by
  unfold groupSteps
  split_ifs
  · exact .nil
  · exact .append (.line "") (group_balanced group)

/-- The steps of a stack open the class, its constructor and the object of its parameters around the
code. -/
theorem stackSteps_balanced (stack : String) (code : StackCode) (comment : List String) :
    Balanced (code.height + 3) (stackSteps stack code comment) := by
  have hparameters : groupHeight code.parameters + 1 ≤ code.height + 1 := by
    simp only [StackCode.height]
    omega
  have hothers : groupHeight code.resources ≤ code.height + 1 ∧
      groupHeight code.dependencies ≤ code.height + 1 ∧
        groupHeight code.outputs ≤ code.height + 1 := by
    simp only [StackCode.height]
    omega
  have hconstructor : Balanced (code.height + 1) (.line "super(scope, id, props);" ::
      (parameterSteps code.parameters ++ groupSteps code.resources ++
        groupSteps code.dependencies ++ groupSteps code.outputs)) :=
    .append (.line _) (.append (.append (.append
      ((parameterSteps_balanced _).mono hparameters)
      ((groupSteps_balanced _).mono hothers.1))
      ((groupSteps_balanced _).mono hothers.2.1))
      ((groupSteps_balanced _).mono hothers.2.2))
  have hclass := (hconstructor.openBlock "constructor(scope: App, id: string, props: GuStackProps)"
    "\x7d").openBlock ("export class " ++ stack ++ " extends GuStack") "\x7d"
  have hfile := ((headerSteps_balanced _ comment).append (.lines code.imports.lines)).append hclass
  simpa [stackSteps, Imports.steps, Step.closeBlock] using hfile

theorem testSteps_balanced (stack app : String) (imports : Imports) (comment : List String) :
    Balanced 2 (testSteps stack app imports comment) := by
  have hblock (header test first second third : String) :=
    ((Balanced.lines [first, second, third] : Balanced 0 _).openBlock test "\x7d);").openBlock
      header "\x7d);"
  exact ((headerSteps_balanced 2 comment).append (.lines imports.lines)).append
    (hblock _ _ _ _ _)

/-- What the app of a scaffold imports. -/
def importsOfApp (scaffold : Scaffold) (libraries : Libraries) : Imports :=
  appImports libraries scaffold.stackName
    (stackModule scaffold.appName scaffold.stackName scaffold.multiApp)

/-- What the test of a scaffold imports. -/
def importsOfTest (scaffold : Scaffold) (libraries : Libraries) : Imports :=
  testImports libraries scaffold.stackName (testModule scaffold.stackName)

/-- The three files of a scaffold, each with the steps that write its lines. -/
def bodies (scaffold : Scaffold) (libraries : Libraries) (code : StackCode) :
    List (Files.FilePath × List Step) :=
  [(scaffold.paths.app, appSteps scaffold.appName [scaffold.stackName]
      (scaffold.importsOfApp libraries) (scaffold.provenance.appComment scaffold.paths)),
    (scaffold.paths.stack, stackSteps scaffold.stackName code scaffold.provenance.comment),
    (scaffold.paths.test, testSteps scaffold.stackName scaffold.appName
      (scaffold.importsOfTest libraries) scaffold.provenance.comment)]

theorem steps_eq_bodies (scaffold : Scaffold) (libraries : Libraries) (code : StackCode) :
    scaffold.steps libraries code =
      (scaffold.bodies libraries code).flatMap fun file => fileSteps file.1 file.2 := by
  simp [steps, bodies, importsOfApp, importsOfTest]

theorem bodies_balanced (scaffold : Scaffold) (libraries : Libraries) (code : StackCode) :
    ∀ file ∈ scaffold.bodies libraries code, Balanced (code.height + 3) file.2 := by
  simp only [bodies, List.forall_mem_cons]
  exact ⟨(appSteps_balanced ..).mono (Nat.zero_le _), stackSteps_balanced ..,
    (testSteps_balanced ..).mono (Nat.le_add_left_of_le (by decide)), List.forall_mem_nil _⟩

/-- The lines of a scaffold have room, unless its code is very deep or its indentation very wide. -/
theorem linesFit_steps (scaffold : Scaffold) (libraries : Libraries) (code : StackCode)
    {width : Nat} (hroom : (code.height + 3) * width ≤ maxBytes) :
    LinesFit width 0 (scaffold.steps libraries code) := by
  have hbalanced := scaffold.bodies_balanced libraries code
  rw [steps_eq_bodies, linesFit_files width hbalanced]
  intro file hfile
  exact (hbalanced file hfile).linesFit (by rwa [Nat.zero_add])

/-- The files of a scaffold as they are laid out. -/
def laidOut (scaffold : Scaffold) (settings : Settings) (code : StackCode) : List File :=
  (scaffold.bodies settings.libraries code).map fun file =>
    ⟨file.1, written settings.indent 0 file.2⟩

theorem laidOut_paths (scaffold : Scaffold) (settings : Settings) (code : StackCode) :
    (scaffold.laidOut settings code).map File.path = scaffold.paths.all := by
  rw [Paths.all]
  simp only [laidOut, bodies, List.map_cons, List.map_nil]

/-- **The steps of a scaffold** write the app, the stack and the test, in this order, and leave no
file open, unless a line is too wide. -/
theorem run_steps (scaffold : Scaffold) (settings : Settings) (code : StackCode) :
    (Writer.new settings.indent).run (scaffold.steps settings.libraries code) =
      if LinesFit settings.indent 0 (scaffold.steps settings.libraries code) then
        .ok ⟨settings.indent, [], scaffold.laidOut settings code⟩
      else .error .tooWide := by
  have hbalanced := scaffold.bodies_balanced settings.libraries code
  simp only [steps_eq_bodies, linesFit_files _ hbalanced]
  rw [Writer.new, run_files _ hbalanced]
  rfl

/-- What is generated from the code of a stack. -/
theorem generate_eq {scaffold : Scaffold} {settings : Settings} {code : StackCode}
    (hcode : StackCode.ofTemplate scaffold.template (stackImports settings.libraries)
      settings.libraries = .ok code) :
    scaffold.generate settings =
      if LinesFit settings.indent 0 (scaffold.steps settings.libraries code) then
        .ok { files := scaffold.laidOut settings code, warnings := code.warnings }
      else .error (.layout .tooWide) := by
  rw [generate, hcode]
  simp only [layOut, run_steps, bind, Except.bind]
  split_ifs <;> rfl

/-- What is generated are the app, the stack and the test. -/
theorem generate_files {scaffold : Scaffold} {settings : Settings} {generated : Generated}
    (h : scaffold.generate settings = .ok generated) :
    generated.files.map File.path = scaffold.paths.all := by
  obtain ⟨code, hcode, -⟩ := exists_of_bind_eq_ok h
  rw [generate_eq hcode] at h
  by_cases hfit : LinesFit settings.indent 0 (scaffold.steps settings.libraries code)
  · rw [if_pos hfit, Except.ok.injEq] at h
    rw [← h]
    exact laidOut_paths scaffold settings code
  · rw [if_neg hfit] at h
    cases h

end CdkStacks.Scaffold
