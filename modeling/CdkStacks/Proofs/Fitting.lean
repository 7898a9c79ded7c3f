import CdkStacks.Proofs.Circular

/-!
# Steps that fit

A step of writing succeeds exactly when it finds what it needs and has room for its line, and then
touches at most the innermost file. The steps of a scaffold always find what they need.

* `Draft.write?` is what a step inside a file makes of the file;
* `Writer.Does` is a step that succeeds: it opens a file, closes the innermost one or writes to it;
* `Writer.Fits` says what a step needs, `Writer.Room` that its line is not too wide;
  `Writer.step?_eq_ok_iff`: nothing else is needed;
* `Scaffold.LaidOut`: along the steps of a scaffold every step fits, no file is left open, and the
  three files are generated, up to a line that is too wide;
* `generate_meets_no_other_misuse`: so it is for every scaffold whose template can be mapped.
-/

namespace CdkStacks.TypeScript

open CdkStacks.Files (FilePath)

/-! ## Steps that succeed -/

/-- What a step inside a file makes of the file. There is nothing when no block is open to be
closed, when the line is too wide, and when the step is not one inside a file. -/
def Draft.write? (draft : Draft) (width : Nat) : Step → Option Draft
  | .line text => if tooWide width draft.depth text then none else some (draft.push width text)
  | .indent text =>
    if tooWide width draft.depth text then none else some (draft.push width text).deepen
  | .unindent text =>
    match draft.depth with
    | 0 => none
    | depth + 1 =>
      if tooWide width depth text then none else some (Draft.push { draft with depth } width text)
  | .openFile _ | .closeFile _ => none

/-- The depth that a step writes its line at. -/
def Draft.level (draft : Draft) : Step → Nat
  | .unindent _ => draft.depth - 1
  | .line _ | .indent _ | .openFile _ | .closeFile _ => draft.depth

/-- Whether a step opens a block. -/
def Step.opensBlock : Step → Bool
  | .indent _ => true
  | .line _ | .unindent _ | .openFile _ | .closeFile _ => false

/-- Whether a step closes a block. -/
def Step.closesBlock : Step → Bool
  | .unindent _ => true
  | .line _ | .indent _ | .openFile _ | .closeFile _ => false

/-- **What a step inside a file does:** it writes its line at its level, if there is room, and
counts the block that it opens or closes. -/
theorem Draft.write?_eq_some {draft written : Draft} {width : Nat} {step : Step}
    (h : draft.write? width step = some written) :
    tooWide width (draft.level step) step.text = false ∧ written.path = draft.path ∧
      written.lines = draft.lines ++ [indented width (draft.level step) step.text] ∧
      draft.level step + step.closesBlock.toNat = draft.depth ∧
      written.depth + step.closesBlock.toNat = draft.depth + step.opensBlock.toNat := by
  cases step with
  | openFile | closeFile => cases h
  | line text =>
    simp only [Draft.write?] at h
    split_ifs at h with hwide
    cases h
    exact ⟨eq_false_of_ne_true hwide, rfl, rfl, rfl, rfl⟩
  | indent text =>
    simp only [Draft.write?] at h
    split_ifs at h with hwide
    cases h
    exact ⟨eq_false_of_ne_true hwide, rfl, rfl, rfl, rfl⟩
  | unindent text =>
    obtain ⟨path, lines, _ | depth⟩ := draft
    · cases h
    · simp only [Draft.write?] at h
      split_ifs at h with hwide
      cases h
      exact ⟨eq_false_of_ne_true hwide, rfl, rfl, rfl, rfl⟩

namespace Writer

/-- A step that succeeds, and the writer behind it. -/
inductive Does (writer : Writer) : Step → Writer → Prop
  | opens (path : FilePath) :
      Does writer (.openFile path) { writer with opened := ⟨path, [], 0⟩ :: writer.opened }
  | closes {path : FilePath} {draft : Draft} {rest : List Draft} :
      writer.opened = draft :: rest → draft.path.same path = true → draft.depth = 0 →
      Does writer (.closeFile path)
        ⟨writer.width, rest, writer.closed ++ [⟨draft.path, draft.lines⟩]⟩
  | writes {step : Step} {draft written : Draft} {rest : List Draft} :
      writer.opened = draft :: rest → draft.write? writer.width step = some written →
      Does writer step ⟨writer.width, written :: rest, writer.closed⟩

theorem Does.step?_eq {writer next : Writer} {step : Step} (h : writer.Does step next) :
    writer.step? step = .ok next := by
  cases h with
  | opens path => rfl
  | closes hopened hpath hdepth => simp [step?, Writer.step, hopened, hpath, hdepth]
  | @writes _ draft written rest hopened hwritten =>
    obtain ⟨width, opened, closed⟩ := writer
    cases hopened
    cases step with
    | openFile | closeFile => cases hwritten
    | line text =>
      rw [step?_line]
      simp only [Draft.write?] at hwritten
      split_ifs at hwritten ⊢
      cases hwritten
      rfl
    | indent text =>
      rw [step?_indent]
      simp only [Draft.write?] at hwritten
      split_ifs at hwritten ⊢
      cases hwritten
      rfl
    | unindent text =>
      obtain ⟨path, lines, depth⟩ := draft
      cases depth with
      | zero => cases hwritten
      | succ depth =>
        change step? ⟨width, Draft.deepen ⟨path, lines, depth⟩ :: rest, closed⟩ _ = _
        rw [step?_unindent]
        simp only [Draft.write?] at hwritten
        split_ifs at hwritten ⊢
        cases hwritten
        rfl

/-- What a step needs: an open file to write to, an open block to close, and the innermost file to
close, with no block left open in it. -/
def Fits (writer : Writer) : Step → Prop
  | .openFile _ => True
  | .closeFile path => ∃ draft rest, writer.opened = draft :: rest ∧
      draft.path.same path = true ∧ draft.depth = 0
  | .line _ | .indent _ => writer.opened ≠ []
  | .unindent _ => ∃ draft rest, writer.opened = draft :: rest ∧ 0 < draft.depth

/-- The line of a step is not too wide for the innermost file. -/
def Room (writer : Writer) (step : Step) : Prop :=
  ∀ draft ∈ writer.opened.head?, tooWide writer.width (draft.level step) step.text = false

theorem Does.fits {writer next : Writer} {step : Step} (h : writer.Does step next) :
    writer.Fits step := by
  cases h with
  | opens path => trivial
  | closes hopened hpath hdepth => exact ⟨_, _, hopened, hpath, hdepth⟩
  | @writes _ draft written rest hopened hwritten =>
    cases step with
    | openFile | closeFile => cases hwritten
    | line | indent => simp [Fits, hopened]
    | unindent text =>
      refine ⟨draft, rest, hopened, Nat.pos_of_ne_zero fun hzero => ?_⟩
      simp [Draft.write?, hzero] at hwritten

/-- A step that finds what it needs succeeds when there is room for its line. -/
theorem Fits.exists_does {writer : Writer} {step : Step} (h : writer.Fits step)
    (hroom : writer.Room step) : ∃ next, writer.Does step next := by
  cases step with
  | openFile path => exact ⟨_, .opens path⟩
  | closeFile path =>
    obtain ⟨draft, rest, hopened, hpath, hdepth⟩ := h
    exact ⟨_, .closes hopened hpath hdepth⟩
  | line text =>
    obtain ⟨draft, rest, hopened⟩ := List.exists_cons_of_ne_nil h
    have hline : tooWide writer.width draft.depth text = false := hroom draft (by simp [hopened])
    exact ⟨_, .writes hopened (by simp only [Draft.write?, hline]; rfl)⟩
  | indent text =>
    obtain ⟨draft, rest, hopened⟩ := List.exists_cons_of_ne_nil h
    have hline : tooWide writer.width draft.depth text = false := hroom draft (by simp [hopened])
    exact ⟨_, .writes hopened (by simp only [Draft.write?, hline]; rfl)⟩
  | unindent text =>
    obtain ⟨⟨path, lines, _ | depth⟩, rest, hopened, hpos⟩ := h
    · cases hpos
    · have hline : tooWide writer.width depth text = false :=
        hroom ⟨path, lines, depth + 1⟩ (by simp [hopened])
      exact ⟨_, .writes hopened (by simp only [Draft.write?, hline]; rfl)⟩

/-- A step that finds what it needs, and has no room for its line, fails for that. -/
theorem Fits.step?_eq_error {writer : Writer} {step : Step} (h : writer.Fits step)
    (hroom : ¬ writer.Room step) : writer.step? step = .error .tooWide := by
  obtain ⟨width, opened, closed⟩ := writer
  cases opened with
  | nil => exact absurd (fun draft hdraft => by cases hdraft) hroom
  | cons draft rest =>
    have hwide : tooWide width (draft.level step) step.text = true := by
      by_contra hnot
      refine hroom fun other hother => ?_
      cases hother
      exact eq_false_of_ne_true hnot
    cases step with
    | openFile | closeFile => simp [tooWide, Step.text] at hwide
    | line text => rw [step?_line]; exact if_pos hwide
    | indent text => rw [step?_indent]; exact if_pos hwide
    | unindent text =>
      obtain ⟨_, _, hopened, hpos⟩ := h
      cases hopened
      obtain ⟨path, lines, _ | depth⟩ := draft
      · cases hpos
      · change step? ⟨width, Draft.deepen ⟨path, lines, depth⟩ :: rest, closed⟩ _ = _
        rw [step?_unindent]
        exact if_pos hwide

/-- A step that does not find what it needs is another misuse. -/
theorem exists_misuse {writer : Writer} {step : Step} (h : ¬ writer.Fits step) :
    ∃ misuse ≠ .tooWide, writer.step? step = .error misuse := by
  cases step with
  | openFile path => exact absurd trivial h
  | closeFile path =>
    cases hopened : writer.opened with
    | nil => exact ⟨.nothingToClose path, by simp, by simp [step?, Writer.step, hopened]⟩
    | cons draft rest =>
      by_cases hpath : draft.path.same path = true
      · have hdepth : draft.depth ≠ 0 := fun hdepth => h ⟨draft, rest, hopened, hpath, hdepth⟩
        exact ⟨.blocksOpen draft.path draft.depth, by simp,
          by simp [step?, Writer.step, hopened, hpath, hdepth]⟩
      · exact ⟨.notInnermost path draft.path, by simp, by simp [step?, Writer.step, hopened, hpath]⟩
  | line | indent =>
    have hopened : writer.opened = [] := by simpa [Fits] using h
    exact ⟨.noFile, by simp, by simp [step?, Writer.step, hopened]⟩
  | unindent text =>
    cases hopened : writer.opened with
    | nil => exact ⟨.noFile, by simp, by simp [step?, Writer.step, hopened]⟩
    | cons draft rest =>
      have hdepth : draft.depth = 0 := by
        by_contra hdepth
        exact h ⟨draft, rest, hopened, Nat.pos_of_ne_zero hdepth⟩
      exact ⟨.noBlock draft.path, by simp, by simp [step?, Writer.step, hopened, hdepth]⟩

/-- **A step succeeds exactly as described.** -/
theorem step?_eq_ok_iff {writer next : Writer} {step : Step} :
    writer.step? step = .ok next ↔ writer.Does step next := by
  refine ⟨fun h => ?_, Does.step?_eq⟩
  by_cases hfits : writer.Fits step
  · by_cases hroom : writer.Room step
    · obtain ⟨next', hdoes⟩ := hfits.exists_does hroom
      rw [hdoes.step?_eq, Except.ok.injEq] at h
      exact h ▸ hdoes
    · rw [hfits.step?_eq_error hroom] at h
      cases h
  · obtain ⟨misuse, -, hmisuse⟩ := exists_misuse hfits
    rw [hmisuse] at h
    cases h

/-- In a run without misuse every step fits the writer in front of it. -/
theorem fits_of_run {writer last : Writer} {before after : List Step} {step : Step}
    (h : writer.run (before ++ step :: after) = .ok last) :
    ∃ reached, writer.run before = .ok reached ∧ reached.Fits step := by
  rw [run_append] at h
  obtain ⟨reached, hbefore, h⟩ := exists_of_bind_eq_ok h
  rw [run_cons] at h
  obtain ⟨next, hstep, -⟩ := exists_of_bind_eq_ok h
  exact ⟨reached, hbefore, (step?_eq_ok_iff.1 hstep).fits⟩

/-- In a run that stops at a line which is too wide, every step up to there fits. -/
theorem fits_of_run_tooWide {writer : Writer} {before after : List Step} {step : Step}
    (h : writer.run (before ++ step :: after) = .error .tooWide) :
    (∃ reached, writer.run before = .ok reached ∧ reached.Fits step) ∨
      writer.run before = .error .tooWide := by
  rw [run_append] at h
  cases hbefore : writer.run before with
  | error misuse =>
    rw [hbefore] at h
    exact .inr h
  | ok reached =>
    refine .inl ⟨reached, rfl, ?_⟩
    by_contra hfits
    obtain ⟨misuse, hne, hmisuse⟩ := exists_misuse hfits
    rw [hbefore] at h
    change reached.run (step :: after) = _ at h
    rw [run_cons, hmisuse] at h
    exact hne (Except.error.inj h)

end Writer

end CdkStacks.TypeScript

namespace CdkStacks.Scaffold

open CdkStacks.Construct CdkStacks.Template CdkStacks.TypeScript

/-! ## Steps of a scaffold -/

/-- The files of a scaffold are laid out step by step. The only misuse is a line that is too
wide. -/
structure LaidOut (scaffold : Scaffold) (settings : Settings) (code : StackCode) : Prop where
  /-- Every step finds what it needs in the writer that the steps before it lead to. These lead
  nowhere only if one of their lines is too wide. -/
  fits : ∀ before step after, scaffold.steps settings.libraries code = before ++ step :: after →
    (∃ writer, (Writer.new settings.indent).run before = .ok writer ∧ writer.Fits step) ∨
      (Writer.new settings.indent).run before = .error .tooWide
  /-- When there is room for all lines, no file is left open behind the last step. -/
  finished : LinesFit settings.indent 0 (scaffold.steps settings.libraries code) → ∃ writer,
    (Writer.new settings.indent).run (scaffold.steps settings.libraries code) = .ok writer ∧
      writer.opened = []
  /-- What is generated then are the app, the stack and the test, in this order. -/
  files : LinesFit settings.indent 0 (scaffold.steps settings.libraries code) →
    ∃ app stack test, scaffold.generate settings = .ok
      { files := [⟨scaffold.paths.app, app⟩, ⟨scaffold.paths.stack, stack⟩,
          ⟨scaffold.paths.test, test⟩]
        warnings := code.warnings }
  /-- When there is no room for a line, nothing is generated. -/
  stopped : ¬ LinesFit settings.indent 0 (scaffold.steps settings.libraries code) →
    scaffold.generate settings = .error (.layout .tooWide)
  /-- There is room for all lines when there is for the blanks at the deepest place, which is three
  levels below the nesting of the code. -/
  room : (code.height + 3) * settings.indent ≤ maxBytes →
    LinesFit settings.indent 0 (scaffold.steps settings.libraries code)

/-- **Generating meets no misuse but a line that is too wide,** whatever the template, the names,
the indentation and the modules, as long as the template can be mapped. -/
theorem generate_meets_no_other_misuse {scaffold : Scaffold} {settings : Settings}
    {code : StackCode}
    (hcode : StackCode.ofTemplate scaffold.template (stackImports settings.libraries)
      settings.libraries = .ok code) : LaidOut scaffold settings code where
  fits before step after hsteps := by
    have hrun := run_steps scaffold settings code
    rw [hsteps] at hrun
    split_ifs at hrun
    · exact .inl (Writer.fits_of_run hrun)
    · exact Writer.fits_of_run_tooWide hrun
  finished hfit := ⟨_, (run_steps scaffold settings code).trans (if_pos hfit), rfl⟩
  files hfit := by
    rw [generate_eq hcode, if_pos hfit]
    simp only [laidOut, bodies, List.map_cons, List.map_nil]
    exact ⟨_, _, _, rfl⟩
  stopped hfit := (generate_eq hcode).trans (if_neg hfit)
  room := linesFit_steps scaffold settings.libraries code

/-- A stack with nested and with empty lists and objects, for an app without a name. -/
def nestedScaffold : Scaffold where
  stackName := "Queues"
  appName := ""
  template :=
    { parameters :=
        [{ Parameter.plain "Stage" "String" with allowed := some [.string "CODE", .list []] }]
      resources :=
        [⟨"Queue", "AWS::SQS::Queue",
            [("Tags", .list [.map [("Key", .string "Stage"), ("Value", .ref "Stage")], .map []]),
              ("RedrivePolicy", .map [("Fn::If", .list [.list [], .null])])], ["Role"], none⟩,
          ⟨"Role", "AWS::ECS::Cluster", [], [], none⟩]
      outputs := [⟨"Url", .sub [.text "q ", .name "Queue"] [], none, none, none⟩]
      conditions := [] }
  provenance := .new
  multiApp := true

theorem generate_meets_no_other_misuse_nested : ∃ code,
    StackCode.ofTemplate nestedScaffold.template (stackImports .standard) .standard = .ok code ∧
      LaidOut nestedScaffold ⟨8, .standard⟩ code ∧
        ∃ generated, nestedScaffold.generate ⟨8, .standard⟩ = .ok generated := by
  have hcheck : nestedScaffold.template.checkCycles = .ok () := rfl
  have hcode := ofTemplate_of_ok hcheck (stackImports .standard) .standard
  have hlaidOut : LaidOut nestedScaffold ⟨8, .standard⟩ _ := generate_meets_no_other_misuse hcode
  obtain ⟨app, stack, test, hgenerate⟩ := hlaidOut.files (hlaidOut.room (by decide +kernel))
  exact ⟨_, hcode, hlaidOut, _, hgenerate⟩

/-- **Some indentations are too wide:** with half the numbers of a machine word for each level,
nothing is generated for a template that is mapped. -/
theorem nestedScaffold_too_wide : ∃ code,
    StackCode.ofTemplate nestedScaffold.template (stackImports .standard) .standard = .ok code ∧
      nestedScaffold.generate ⟨9223372036854775808, .standard⟩ = .error (.layout .tooWide) := by
  have hcheck : nestedScaffold.template.checkCycles = .ok () := rfl
  have hcode := ofTemplate_of_ok hcheck (stackImports .standard) .standard
  have hgenerate : nestedScaffold.generate ⟨9223372036854775808, .standard⟩ = _ :=
    generate_eq hcode
  rw [if_neg (by decide +kernel)] at hgenerate
  exact ⟨_, hcode, hgenerate⟩

end CdkStacks.Scaffold
