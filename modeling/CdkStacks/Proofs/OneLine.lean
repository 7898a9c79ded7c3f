import CdkStacks.Proofs.Layout

/-!
# Expressions over several lines

An expression that is written over several lines is the expression on one line, with line ends in
it and a comma behind the last entry of each block.

* `joined` puts the texts of steps on one line. The last text of a block loses its comma, the braces
  of an object are set off by blanks, and so are the entries of a block from each other;
* `joined_append`: steps that end in an entry can be joined up to there;
* `joined_entries`, `joined_block`: the entries of a block are joined by commas;
* `lines_join_inline`: joining what writes an expression gives its form on one line. Writing it adds
  lines to the innermost file and changes nothing else.
-/

namespace CdkStacks.TypeScript

/-! ## Joining steps -/

/-- A text without the comma at its end. -/
def withoutComma (text : String) : String :=
  if text.toList.getLast? = some ',' then String.ofList text.toList.dropLast else text

/-- The text of a step in front of the next one. At the end of a block it loses its comma. -/
def Step.textBefore (step next : Step) : String :=
  match next with
  | .unindent _ => withoutComma step.text
  | _ => step.text

/-- What separates two steps: a blank inside the braces of an object and between two entries, and
nothing inside the brackets of an array. -/
def separation : Step → Step → String
  | .indent header, _ => if header.toList.getLast? = some '{' then " " else ""
  | _, .unindent footer => if footer.toList.head? = some '}' then " " else ""
  | _, _ => " "

/-- The texts of steps on one line. -/
def joined : List Step → String
  | [] => ""
  | [step] => step.text
  | step :: next :: rest => step.textBefore next ++ separation step next ++ joined (next :: rest)

theorem withoutComma_append (text : String) : withoutComma (text ++ ",") = text := by
  simp [withoutComma]

/-- A step with which an entry may end. -/
def Step.Ends (step : Step) : Prop :=
  ∀ header, step ≠ .indent header

/-- A step with which an entry may start. -/
def Step.Starts (step : Step) : Prop :=
  ∀ footer, step ≠ .unindent footer

theorem Step.Starts.textBefore {next : Step} (h : next.Starts) (step : Step) :
    step.textBefore next = step.text := by
  cases next with
  | unindent footer => exact absurd rfl (h footer)
  | openFile | closeFile | line | indent => rfl

theorem separation_entries {step next : Step} (hends : step.Ends) (hstarts : next.Starts) :
    separation step next = " " := by
  cases step with
  | indent header => exact absurd rfl (hends header)
  | openFile | closeFile | line | unindent =>
    cases next with
    | unindent footer => exact absurd rfl (hstarts footer)
    | openFile | closeFile | line | indent => rfl

theorem separation_unindent {step : Step} (hends : step.Ends) (footer : String) :
    separation step (.unindent footer) = if footer.toList.head? = some '}' then " " else "" := by
  cases step with
  | indent header => exact absurd rfl (hends header)
  | openFile | closeFile | line | unindent => rfl

/-- **Joining in two parts.** What follows a step only matters to the text of the step. -/
theorem joined_append (front : List Step) (last : Step) : ∃ text,
    joined (front ++ [last]) = text ++ last.text ∧
      ∀ next rest, joined (front ++ last :: next :: rest) =
        text ++ last.textBefore next ++ separation last next ++ joined (next :: rest) := by
  induction front with
  | nil => exact ⟨"", by simp [joined], by simp [joined]⟩
  | cons step front ih =>
    obtain ⟨text, hlast, hnext⟩ := ih
    cases front with
    | nil =>
      refine ⟨step.textBefore last ++ separation step last ++ text, ?_, fun next rest => ?_⟩
      · simpa [joined, String.append_assoc] using hlast
      · simpa [joined, String.append_assoc] using hnext next rest
    | cons other front =>
      refine ⟨step.textBefore other ++ separation step other ++ text, ?_, fun next rest => ?_⟩
      · simpa [joined, String.append_assoc] using hlast
      · simpa [joined, String.append_assoc] using hnext next rest

/-! ## Entries of a block -/

/-- The steps of an expression start like an entry. -/
theorem Expr.steps_starts (before after : String) (e : Expr) :
    ∃ first rest, e.steps before after = first :: rest ∧ first.Starts := by
  unfold Expr.steps
  split <;> exact ⟨_, _, rfl, by simp [Step.Starts]⟩

/-- The steps of an expression end like an entry, with the text that follows the expression. -/
theorem Expr.steps_ends (before after : String) (e : Expr) : ∃ front last text,
    e.steps before after = front ++ [last] ∧ last.Ends ∧ last.text = text ++ after := by
  unfold Expr.steps
  split
  · exact ⟨[], _, before ++ "[]", rfl, by simp [Step.Ends], rfl⟩
  · exact ⟨_, _, "]", (List.cons_append ..).symm, by simp [Step.Ends], rfl⟩
  · exact ⟨[], _, before ++ "{}", rfl, by simp [Step.Ends], rfl⟩
  · exact ⟨_, _, "\x7d", (List.cons_append ..).symm, by simp [Step.Ends], rfl⟩
  · exact ⟨[], _, before ++ e.inline, rfl, by simp [Step.Ends], rfl⟩

/-- An expression is joined to its form on one line, whatever stands around it. -/
def Expr.Joins (e : Expr) : Prop :=
  ∀ before after, joined (e.steps before after) = before ++ e.inline ++ after

/-- In front of another step, an entry keeps its comma, and loses it at the end of a block. -/
theorem Expr.Joins.append {e : Expr} (h : e.Joins) (before : String) (rest : List Step) :
    (∀ next : Step, next.Starts → joined (e.steps before "," ++ next :: rest) =
      before ++ e.inline ++ ", " ++ joined (next :: rest)) ∧
    ∀ footer : String, joined (e.steps before "," ++ .unindent footer :: rest) =
      before ++ e.inline ++ (if footer.toList.head? = some '}' then " " else "") ++
        joined (.unindent footer :: rest) := by
  obtain ⟨front, last, text, hsteps, hends, htext⟩ := e.steps_ends before ","
  obtain ⟨lead, hlast, hnext⟩ := joined_append front last
  have hwhole : lead ++ (text ++ ",") = before ++ e.inline ++ "," := by
    rw [← htext, ← hlast, ← hsteps, h]
  constructor
  · intro next hstarts
    rw [hsteps, List.append_assoc, List.singleton_append, hnext, hstarts.textBefore, htext, hwhole,
      separation_entries hends hstarts]
    simp [String.append_assoc]
  · intro footer
    have hfront : lead ++ text = before ++ e.inline := by
      rw [← String.append_assoc] at hwhole
      exact (String.append_left_inj ",").1 hwhole
    rw [hsteps, List.append_assoc, List.singleton_append, hnext, separation_unindent hends,
      Step.textBefore, htext, withoutComma_append, hfront]

/-- **The entries of a block,** each behind a text of its own, are joined by commas. -/
theorem joined_entries (footer : String) {entries : List (String × Expr)} (hne : entries ≠ [])
    (h : ∀ entry ∈ entries, entry.2.Joins) :
    joined (entries.flatMap (fun entry => entry.2.steps entry.1 ",") ++ [.unindent footer]) =
      commas (entries.map fun entry => entry.1 ++ entry.2.inline) ++
        (if footer.toList.head? = some '}' then " " else "") ++ footer := by
  induction entries with
  | nil => exact absurd rfl hne
  | cons entry rest ih =>
    have hentry := (h entry (by simp)).append entry.1
    cases rest with
    | nil => simp [(hentry []).2, joined, Step.text, commas]
    | cons second rest =>
      have hrest := ih (by simp) fun other hother => h other (by simp [hother])
      -- the step behind the entry is the first one of the second entry
      obtain ⟨first, tail, hsteps, hstarts⟩ := second.2.steps_starts second.1 ","
      rw [List.flatMap_cons, hsteps, List.cons_append, List.cons_append] at hrest
      rw [List.flatMap_cons, List.flatMap_cons, hsteps, List.append_assoc, List.cons_append,
        List.cons_append, (hentry _).1 first hstarts, hrest]
      simp [commas, String.append_assoc]

/-- A block is joined to its header, its entries and its footer. -/
theorem joined_block (header footer : String) {entries : List (String × Expr)}
    (hne : entries ≠ []) (h : ∀ entry ∈ entries, entry.2.Joins) :
    joined (.indent header ::
        (entries.flatMap (fun entry => entry.2.steps entry.1 ",") ++ [.unindent footer])) =
      header ++ (if header.toList.getLast? = some '{' then " " else "") ++
        commas (entries.map fun entry => entry.1 ++ entry.2.inline) ++
          (if footer.toList.head? = some '}' then " " else "") ++ footer := by
  have hentries := joined_entries footer hne h
  obtain ⟨entry, rest, rfl⟩ := List.exists_cons_of_ne_nil hne
  obtain ⟨first, tail, hsteps, hstarts⟩ := entry.2.steps_starts entry.1 ","
  rw [List.flatMap_cons, hsteps, List.cons_append, List.cons_append] at hentries ⊢
  rw [joined, hstarts.textBefore, hentries]
  simp [separation, Step.text, String.append_assoc]

/-! ## Expressions -/

theorem itemSteps_eq (items : List Expr) :
    itemSteps items = (items.map fun item => ("", item)).flatMap fun entry =>
      entry.2.steps entry.1 "," := by
  induction items with
  | nil => rfl
  | cons item rest ih => simp [itemSteps, ih]

theorem entrySteps_eq (entries : List (String × Expr)) :
    entrySteps entries = (entries.map fun entry => (objectKey entry.1 ++ ": ", entry.2)).flatMap
      fun entry => entry.2.steps entry.1 "," := by
  induction entries with
  | nil => rfl
  | cons entry rest ih => simp [entrySteps, ih]

/-- An array is joined to its form on one line when its items are. -/
theorem Expr.joins_array {items : List Expr} (h : ∀ item ∈ items, item.Joins) :
    (Expr.array items).Joins := by
  intro before after
  cases items with
  | nil =>
    change before ++ "[]" ++ after = before ++ ("[" ++ commas [] ++ "]") ++ after
    rw [show "[" ++ commas [] ++ "]" = "[]" by decide]
  | cons item rest =>
    change _ = before ++ ("[" ++ commas (inlineItems (item :: rest)) ++ "]") ++ after
    rw [Expr.steps, itemSteps_eq, joined_block _ _ (by simp) (by simpa using h), inlineItems_eq,
      List.map_map]
    simp [String.append_assoc, Function.comp_def]

/-- An object is joined to its form on one line when its values are. -/
theorem Expr.joins_object {entries : List (String × Expr)} (h : ∀ entry ∈ entries, entry.2.Joins) :
    (Expr.object entries).Joins := by
  intro before after
  cases entries with
  | nil => rfl
  | cons entry rest =>
    have hvalues : ∀ keyed ∈ (entry :: rest).map fun entry => (objectKey entry.1 ++ ": ", entry.2),
        keyed.2.Joins := List.forall_mem_map.2 h
    change _ = before ++ ("\x7b " ++ commas (inlineEntries (entry :: rest)) ++ " \x7d") ++ after
    rw [Expr.steps, entrySteps_eq, joined_block _ _ (by simp) hvalues, inlineEntries_eq,
      List.map_map, show "\x7b " = "\x7b" ++ " " by decide, show " \x7d" = " " ++ "\x7d" by decide]
    simp only [String.append_assoc, Function.comp_def]
    simp

mutual

/-- Every expression is joined to its form on one line. -/
theorem Expr.joins : ∀ e : Expr, e.Joins
  | .array items => Expr.joins_array (joins_items items)
  | .object entries => Expr.joins_object (joins_entries entries)
  | .raw _ | .string _ | .parameter _ _ | .read _ _ | .deferred _ _ | .call _ _ | .asText _
  | .template _ => fun _ _ => rfl

theorem joins_items : ∀ items : List Expr, ∀ item ∈ items, item.Joins
  | [] => List.forall_mem_nil _
  | item :: rest => List.forall_mem_cons.2 ⟨item.joins, joins_items rest⟩

theorem joins_entries : ∀ entries : List (String × Expr), ∀ entry ∈ entries, entry.2.Joins
  | [] => List.forall_mem_nil _
  | (_, value) :: rest => List.forall_mem_cons.2 ⟨value.joins, joins_entries rest⟩

end

/-- **The two forms of an expression agree.** The texts that write it over several lines, joined on
one line, are the expression on one line between the texts around it. Writing it adds lines to the
innermost file, which keeps its path and depth; the other files stay as they are. It fails only at a
line that is too wide. -/
theorem lines_join_inline (e : Expr) (before after : String) :
    joined (e.steps before after) = before ++ e.inline ++ after ∧
      ∀ (width : Nat) (draft : Draft) (rest : List Draft) (closed : List File),
        Writer.run ⟨width, draft :: rest, closed⟩ (e.steps before after) =
          if LinesFit width draft.depth (e.steps before after) then
            .ok ⟨width, { draft with
              lines := draft.lines ++ written width draft.depth (e.steps before after) } :: rest,
              closed⟩
          else .error .tooWide :=
  ⟨e.joins before after, fun width draft rest closed =>
    (e.steps_balanced before after).run width rest closed draft⟩

example :
    joined ((Expr.object [("tags", .array [.string "a", .object []]), ("on", .raw "true")]).steps
      "f(" ");") = "f(\x7b tags: [\"a\", {}], on: true \x7d);" := by
  decide +kernel

end CdkStacks.TypeScript
