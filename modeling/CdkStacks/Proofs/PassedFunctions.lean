import CdkStacks.Proofs.Inventory
import CdkStacks.Proofs.Resolved
import CdkStacks.Proofs.Spelling
import CdkStacks.Proofs.Undeclared

/-!
# Functions that are passed through

A map with a single key that starts with `Fn::` stands for a function without counterpart. It is
written as an object, and there is a warning of it. The warnings are exact.

* `Value.walk` are the values met in a value, each before those below it, and `Value.passed` the
  functions among them;
* `Expr.walk` and `Expr.passed` are the same for the code: the functions that objects stand for;
* `Value.emissions_passed`: the functions met are those that are emitted, so there is a warning of
  each;
* `Passes` relates the entries of an object to the values that they are written from;
* `View.resolve_passed`, `View.property_passed`: the functions met in a value are those in the
  expression for it;
* `PassedReported` says what the warnings of a template are, by its values and by its code;
* `passed_functions_reported`: so they are, for every template that can be mapped.
-/

namespace CdkStacks.Template

/-! ## Functions in a template -/

/-- The value of the variable that a piece names; the first of two bindings counts. -/
def Piece.value? (bindings : List (String × Value)) : Piece → Option Value
  | .bound key => (bindings.find? fun binding => binding.1 = key).map Prod.snd
  | .text _ | .name _ | .getAtt _ _ | .pseudo _ => none

/-- The values directly below a value that are written with it, in order. A variable of a
substitution is written wherever the text names it. -/
def Value.inner : Value → List Value
  | .null | .bool _ | .number _ | .string _ | .ref _ | .pseudo _ | .getAtt _ _ => []
  | .list items => items
  | .map entries => entries.map Prod.snd
  | .sub pieces bindings => pieces.filterMap (Piece.value? bindings)
  | .select index choices => [index, choices]
  | .join _ inner | .split _ inner | .importValue inner | .base64 inner | .zones inner => [inner]

theorem Value.sizeOf_lt_of_mem_inner {value other : Value} (h : other ∈ value.inner) :
    sizeOf other < sizeOf value := by
  refine Value.sizeOf_lt ?_
  cases value with
  | null | bool | number | string | ref | pseudo | getAtt => simp [Value.inner] at h
  | list | map | select | join | split | importValue | base64 | zones =>
    simpa [Value.inner, Value.parts] using h
  | sub pieces bindings =>
    obtain ⟨piece, -, hpiece⟩ := List.mem_filterMap.1 h
    cases piece with
    | text | name | getAtt | pseudo => cases hpiece
    | bound key =>
      obtain ⟨binding, hfind, rfl⟩ := Option.map_eq_some_iff.1 hpiece
      have hbinding := List.mem_of_find?_eq_some hfind
      exact List.mem_append_left _ (List.mem_map_of_mem hbinding)

/-- Induction over what is written below a value. -/
theorem Value.inner_induction {P : Value → Prop}
    (h : ∀ value, (∀ inner ∈ value.inner, P inner) → P value) (value : Value) : P value :=
  h value fun inner hinner =>
    have := Value.sizeOf_lt_of_mem_inner hinner
    Value.inner_induction h inner
termination_by sizeOf value

/-- The values met in a value, each before those below it. -/
def Value.walk (value : Value) : List Value :=
  value :: value.inner.attach.flatMap fun inner => inner.1.walk
termination_by sizeOf value
decreasing_by exact Value.sizeOf_lt_of_mem_inner inner.2

theorem Value.walk_eq (value : Value) : value.walk = value :: value.inner.flatMap Value.walk := by
  rw [Value.walk, List.flatMap_subtype fun _ _ => rfl, List.unattach_attach]

/-- The function that a value passes through. -/
def Value.function? : Value → Option String
  | .map entries => passedFunction? entries
  | _ => none

/-- The functions that are passed through by what is met in a value. -/
def Value.passed (value : Value) : List String :=
  value.walk.filterMap Value.function?

theorem Value.passed_eq (value : Value) :
    value.passed = value.function?.toList ++ value.inner.flatMap Value.passed := by
  unfold Value.passed
  rw [Value.walk_eq, List.filterMap_cons]
  cases value.function? <;> simp [List.filterMap_flatMap]

theorem Value.passed_of_inner {value : Value} (h : value.inner = [])
    (hfunction : value.function? = none) : value.passed = [] := by
  rw [Value.passed_eq, h, hfunction]
  rfl

/-- The function of an emission. -/
def Emission.function? : Emission → Option String
  | .passed function => some function
  | .access _ | .call _ => none

theorem itemEmissions_eq (items : List Value) :
    itemEmissions items = items.map Value.emissions := by
  induction items with
  | nil => rfl
  | cons item rest ih => rw [itemEmissions, ih, List.map_cons]

theorem entryEmissions_eq (entries : List (String × Value)) :
    entryEmissions entries = entries.map fun entry => (entry.1, entry.2.emissions) := by
  induction entries with
  | nil => rfl
  | cons entry rest ih => rw [entryEmissions, ih, List.map_cons]

theorem Piece.emissions_functions (bindings : List (String × Value)) (piece : Piece) :
    (piece.emissions (entryEmissions bindings)).filterMap Emission.function? =
      (piece.value? bindings).toList.flatMap fun value =>
        value.emissions.filterMap Emission.function? := by
  cases piece with
  | text | pseudo | name | getAtt => rfl
  | bound key =>
    rw [entryEmissions_eq]
    simp only [Piece.emissions, Piece.value?, List.find?_map, Function.comp_def]
    cases bindings.find? fun binding => binding.1 = key <;> simp [Emission.function?]

/-- The functions among the emissions of a value, one level down. -/
theorem Value.emissions_functions (value : Value) :
    value.emissions.filterMap Emission.function? = value.function?.toList ++
      value.inner.flatMap fun inner => inner.emissions.filterMap Emission.function? := by
  cases value with
  | null | bool | number | string | ref | pseudo | getAtt => rfl
  | list items =>
    simp [Value.emissions, itemEmissions_eq, Value.function?, Value.inner, ← List.flatMap_def,
      List.filterMap_flatMap]
  | map entries =>
    rw [Value.emissions, passedEmission, entryEmissions_eq, List.filterMap_append,
      List.filterMap_flatMap, List.flatMap_map]
    simp only [Value.function?, Value.inner, List.flatMap_map]
    cases passedFunction? entries <;> rfl
  | sub pieces bindings =>
    rw [Value.emissions, List.filterMap_flatMap]
    simp only [Piece.emissions_functions]
    simp [Value.function?, Value.inner, List.filterMap_eq_flatMap_toList, List.flatMap_assoc]
  | select | join | split | importValue | base64 | zones =>
    simp [Value.emissions, Value.function?, Value.inner, List.filterMap_cons, Emission.function?]

/-- **The functions met in a value** are those that it emits. -/
theorem Value.emissions_passed (value : Value) :
    value.emissions.filterMap Emission.function? = value.passed := by
  induction value using Value.inner_induction with
  | h value ih =>
    rw [Value.emissions_functions, Value.passed_eq, List.flatMap_congr ih]

theorem optionalEmissions_eq (value? : Option Value) :
    optionalEmissions value? = value?.toList.flatMap Value.emissions := by
  cases value? <;> simp [optionalEmissions]

/-- A parameter emits what its values emit. -/
theorem Parameter.emissions_eq (parameter : Parameter) :
    parameter.emissions = parameter.values.flatMap Value.emissions := by
  simp only [Parameter.emissions, Parameter.values, optionalEmissions_eq, itemEmissions_eq,
    entryEmissions_eq, List.flatMap_append, List.flatMap_map, ← List.flatMap_def]

theorem Resource.emissions_eq (resource : Resource) :
    resource.emissions = resource.values.flatMap Value.emissions := by
  simp only [Resource.emissions, Resource.values, entryEmissions_eq, List.flatMap_map]

theorem Output.emissions_eq (output : Output) :
    output.emissions = output.values.flatMap Value.emissions := by
  simp only [Output.emissions, Output.values, optionalEmissions_eq, List.flatMap_cons]

end CdkStacks.Template

namespace CdkStacks.TypeScript

/-! ## Functions in the code -/

theorem Expr.sizeOf_lt_of_mem_inner {e other : Expr} (h : other ∈ e.inner) :
    sizeOf other < sizeOf e := by
  cases e with
  | raw | string | parameter | read | deferred => simp [Expr.inner] at h
  | array items | call function items =>
    have := List.sizeOf_lt_of_mem (show other ∈ items from h)
    simp only [Expr.array.sizeOf_spec, Expr.call.sizeOf_spec]
    omega
  | object entries =>
    obtain ⟨entry, hentry, rfl⟩ := List.mem_map.1 h
    have := List.sizeOf_lt_of_mem hentry
    cases entry
    simp only [Expr.object.sizeOf_spec, Prod.mk.sizeOf_spec] at this ⊢
    omega
  | asText value =>
    obtain rfl : other = value := by simpa [Expr.inner] using h
    simp
  | template chunks =>
    obtain ⟨chunk, hchunk, hvalue⟩ := List.mem_filterMap.1 h
    have := List.sizeOf_lt_of_mem hchunk
    cases chunk with
    | text => cases hvalue
    | hole value =>
      cases hvalue
      simp only [Expr.template.sizeOf_spec, Chunk.hole.sizeOf_spec] at this ⊢
      omega

/-- The expressions met in an expression, each before those inside it. -/
def Expr.walk (e : Expr) : List Expr :=
  e :: e.inner.attach.flatMap fun other => other.1.walk
termination_by sizeOf e
decreasing_by exact Expr.sizeOf_lt_of_mem_inner other.2

theorem Expr.walk_eq (e : Expr) : e.walk = e :: e.inner.flatMap Expr.walk := by
  rw [Expr.walk, List.flatMap_subtype fun _ _ => rfl, List.unattach_attach]

/-- Whether a key is the name of a function. -/
def namesFunction (key : String) : Bool :=
  "Fn::".toList.isPrefixOf key.toList

/-- The function that an object stands for. -/
def Expr.function? : Expr → Option String
  | .object [(key, _)] => if namesFunction key then some key else none
  | _ => none

/-- The functions that the objects in an expression stand for. -/
def Expr.passed (e : Expr) : List String :=
  e.walk.filterMap Expr.function?

theorem Expr.passed_eq (e : Expr) :
    e.passed = e.function?.toList ++ e.inner.flatMap Expr.passed := by
  unfold Expr.passed
  rw [Expr.walk_eq, List.filterMap_cons]
  cases e.function? <;> simp [List.filterMap_flatMap]

@[simp]
theorem Expr.passed_array (items : List Expr) :
    (Expr.array items).passed = items.flatMap Expr.passed :=
  Expr.passed_eq _

@[simp]
theorem Expr.passed_call (function : String) (arguments : List Expr) :
    (Expr.call function arguments).passed = arguments.flatMap Expr.passed :=
  Expr.passed_eq _

theorem Expr.passed_template (chunks : List Chunk) :
    (Expr.template chunks).passed = (chunks.filterMap Chunk.hole?).flatMap Expr.passed :=
  Expr.passed_eq _

theorem Expr.passed_object (entries : List (String × Expr)) : (Expr.object entries).passed =
    (Expr.object entries).function?.toList ++ entries.flatMap fun entry => entry.2.passed := by
  rw [Expr.passed_eq, Expr.inner, List.flatMap_map]

/-- An expression with nothing inside has no functions, unless it is an object. -/
theorem Expr.passed_of_inner {e : Expr} (h : e.inner = []) (hobject : e.function? = none) :
    e.passed = [] := by
  rw [Expr.passed_eq, h, hobject]
  rfl

@[simp]
theorem Expr.passed_raw (source : String) : (Expr.raw source).passed = [] :=
  Expr.passed_of_inner rfl rfl

@[simp]
theorem Expr.passed_string (text : String) : (Expr.string text).passed = [] :=
  Expr.passed_of_inner rfl rfl

@[simp]
theorem Expr.passed_asText (value : Expr) : (Expr.asText value).passed = value.passed := by
  rw [Expr.passed_eq]
  simp [Expr.function?, Expr.inner]

/-- An object stands for no function when none of its keys names one. -/
theorem Expr.function?_object {entries : List (String × Expr)}
    (h : ∀ entry ∈ entries, namesFunction entry.1 = false) :
    (Expr.object entries).function? = none := by
  rcases entries with _ | ⟨entry, _ | ⟨_, _⟩⟩
  · rfl
  · simp [Expr.function?, h entry]
  · rfl

theorem namesFunction_propertyName (key : String) : namesFunction (propertyName key) = false := by
  rw [Bool.eq_false_iff]
  intro h
  have hcolon : ':' ∈ (propertyName key).toList :=
    (List.isPrefixOf_iff_prefix.1 h).subset (by decide)
  exact absurd (Text.lowerCamel_isAlphanum key ':' hcolon) (by decide)

end CdkStacks.TypeScript

namespace CdkStacks.Construct

open CdkStacks.Template CdkStacks.TypeScript

/-! ## Resolving -/

/-- With the keys of the template, a map is written as an object that stands for its function. -/
theorem function?_verbatim (entries : List (String × Value)) (f : String × Value → Expr) :
    (Expr.object (entries.map fun entry => (entry.1, f entry))).function? =
      passedFunction? entries := by
  rcases entries with _ | ⟨entry, _ | ⟨_, _⟩⟩ <;> rfl

/-- Entries of an object whose keys name no functions, and with the functions met in some values. -/
structure Passes (entries : List (String × Expr)) (values : List Value) : Prop where
  keys : ∀ entry ∈ entries, namesFunction entry.1 = false
  passed : (entries.flatMap fun entry => entry.2.passed) = values.flatMap Value.passed

theorem Passes.object {entries : List (String × Expr)} {values : List Value}
    (h : Passes entries values) : (Expr.object entries).passed = values.flatMap Value.passed := by
  rw [Expr.passed_object, Expr.function?_object h.keys, h.passed]
  rfl

theorem Passes.append {first second : List (String × Expr)} {values others : List Value}
    (h : Passes first values) (h' : Passes second others) :
    Passes (first ++ second) (values ++ others) where
  keys := List.forall_mem_append.2 ⟨h.keys, h'.keys⟩
  passed := by rw [List.flatMap_append, List.flatMap_append, h.passed, h'.passed]

theorem Passes.nil : Passes [] [] :=
  ⟨List.forall_mem_nil _, rfl⟩

theorem Passes.entry {key : String} {e : Expr} {values : List Value}
    (hkey : namesFunction key = false) (h : e.passed = values.flatMap Value.passed) :
    Passes [(key, e)] values :=
  ⟨List.forall_mem_singleton.2 hkey, (List.flatMap_singleton ..).trans h⟩

/-- Property names are no names of functions. -/
theorem Passes.renamed {entries : List (String × Value)} {f : String × Value → Expr}
    (h : ∀ entry ∈ entries, (f entry).passed = entry.2.passed) :
    Passes (entries.map fun entry => (propertyName entry.1, f entry)) (entries.map Prod.snd) where
  keys := List.forall_mem_map.2 fun entry _ => namesFunction_propertyName entry.1
  passed := by
    rw [List.flatMap_map, List.flatMap_map]
    exact List.flatMap_congr h

namespace View

theorem member_passed (view : View) (place : Nat) (identifier name : String) :
    (view.member place identifier name).passed = [] := by
  unfold member
  split_ifs <;> exact Expr.passed_of_inner rfl rfl

theorem reference_passed (view : View) (target : String) : (view.reference target).passed = [] := by
  unfold reference
  rcases view.scope.parameter? target with _ | accessor
  · rcases view.scope.resource? target with _ | ⟨_, _ | identifier, place⟩
    · simp
    · simp
    · exact view.member_passed ..
  · exact Expr.passed_of_inner rfl rfl

theorem getAtt_passed (view : View) (target name : String) :
    (view.getAtt target name).passed = [] := by
  unfold getAtt
  rcases view.scope.resource? target with _ | ⟨_, _ | identifier, place⟩
  · simp
  · simp
  · exact view.member_passed ..

theorem pseudoExpr_passed (parameter : Pseudo) : (pseudoExpr parameter).passed = [] := by
  cases parameter <;> exact Expr.passed_raw _

/-- The chunk of a piece has the functions of the variable that the piece names. -/
theorem chunk_passed {view : View} {bindings : List (String × Value)} {piece : Piece}
    (h : ∀ value, piece.value? bindings = some value →
      (view.resolve .property value).value.passed = value.passed) :
    ((view.chunk (view.resolveEntries .property bindings) piece).value.hole?.toList.flatMap
      Expr.passed) = (piece.value? bindings).toList.flatMap Value.passed := by
  have hhole : ∀ e : Expr, (Chunk.hole e).hole?.toList.flatMap Expr.passed = e.passed := by
    simp [Chunk.hole?]
  cases piece with
  | text text => rfl
  | name target => exact (hhole _).trans (view.reference_passed target)
  | getAtt target name => exact (hhole _).trans (view.getAtt_passed target name)
  | pseudo parameter => exact (hhole _).trans (pseudoExpr_passed parameter)
  | bound key =>
    rw [resolveEntries_eq, chunk, List.find?_map]
    simp only [Function.comp_def, Piece.value?] at h ⊢
    cases hfind : bindings.find? fun binding => binding.1 = key with
    | none => exact (hhole _).trans (view.reference_passed key)
    | some binding =>
      have hbinding := h binding.2 (by rw [hfind]; rfl)
      exact (hhole _).trans (by simpa using hbinding)

/-- A substitution has the functions of the variables that its pieces name. -/
theorem substitution_passed {view : View} {pieces : List Piece} {bindings : List (String × Value)}
    (h : ∀ value ∈ pieces.filterMap (Piece.value? bindings),
      (view.resolve .property value).value.passed = value.passed) :
    (view.substitution pieces (view.resolveEntries .property bindings)).value.passed =
      (pieces.filterMap (Piece.value? bindings)).flatMap Value.passed := by
  rw [List.filterMap_eq_flatMap_toList, List.flatMap_assoc]
  by_cases htext : pieces.all Piece.isText
  · -- a text names no variable
    have hnone : ∀ piece ∈ pieces, (piece.value? bindings).toList.flatMap Value.passed = [] := by
      intro piece hpiece
      have := List.all_eq_true.1 htext piece hpiece
      cases piece <;> first | rfl | cases this
    rw [substitution_value_text htext, Expr.passed_string, List.flatMap_eq_nil_iff.2 hnone]
  · rw [substitution_value htext, Expr.passed_template, List.filterMap_map,
      List.filterMap_eq_flatMap_toList, List.flatMap_assoc]
    refine List.flatMap_congr fun piece hpiece => chunk_passed fun value hvalue => ?_
    exact h value (List.mem_filterMap.2 ⟨piece, hpiece, hvalue⟩)

/-- **A resolved value has the functions that are met in the value,** in the same order. -/
theorem resolve_passed (view : View) (value : Value) :
    ∀ keys : KeyStyle, (view.resolve keys value).value.passed = value.passed := by
  induction value using Value.inner_induction with
  | h value ih =>
    intro keys
    rw [Value.passed_eq]
    cases value with
    | null | bool | number | string => exact Expr.passed_of_inner rfl rfl
    | ref target => exact view.reference_passed target
    | pseudo parameter => exact pseudoExpr_passed parameter
    | getAtt target name => exact view.getAtt_passed target name
    | list items =>
      rw [resolve_list_value, Expr.passed_array, List.flatMap_map]
      exact List.flatMap_congr fun item hitem => ih item hitem keys
    | map entries =>
      have hentries : ∀ style, ∀ entry ∈ entries,
          (view.resolve style entry.2).value.passed = entry.2.passed :=
        fun style entry hentry => ih entry.2 (List.mem_map_of_mem hentry) style
      have hverbatim : (Expr.object (entries.map fun entry =>
          (entry.1, (view.resolve .verbatim entry.2).value))).passed =
            (passedFunction? entries).toList ++
              (entries.map Prod.snd).flatMap Value.passed := by
        rw [Expr.passed_object, function?_verbatim, List.flatMap_map, List.flatMap_map]
        exact congrArg _ (List.flatMap_congr (hentries .verbatim))
      rw [resolve_map_value, Value.function?, Value.inner]
      cases hfunction : passedFunction? entries with
      | some function => exact hverbatim.trans (by rw [hfunction])
      | none =>
        cases keys with
        | verbatim => exact hverbatim.trans (by rw [hfunction])
        | property => exact (Passes.renamed (hentries .property)).object
    | sub pieces bindings => exact substitution_passed fun value hvalue => ih value hvalue .property
    | select index choices =>
      have hindex := ih index (by simp [Value.inner]) .property
      have hchoices := ih choices (by simp [Value.inner]) .property
      refine (Expr.passed_call _ [_, _]).trans ?_
      simp [hindex, hchoices, Value.function?, Value.inner]
    | join delimiter inner | split delimiter inner =>
      have hinner := ih inner (by simp [Value.inner]) .property
      refine (Expr.passed_call _ [.string delimiter, _]).trans ?_
      simp [hinner, Value.function?, Value.inner]
    | importValue inner | base64 inner =>
      have hinner := ih inner (by simp [Value.inner]) .property
      refine (Expr.passed_call _ [_]).trans ?_
      simp [hinner, Value.function?, Value.inner]
    | zones region =>
      have hregion := ih region (by simp [Value.inner]) .property
      unfold resolve
      split_ifs with hown
      · -- the region of the stack itself is not written, and has no functions
        have hnone : region.passed = [] := by
          cases region <;> first | exact Value.passed_of_inner rfl rfl | cases hown
        refine (Expr.passed_call _ []).trans ?_
        simp [hnone, Value.function?, Value.inner]
      · refine (Expr.passed_call _ [_]).trans ?_
        simp [hregion, Value.function?, Value.inner]

/-- **So has a property,** at any path. -/
theorem property_passed (view : View) (verbatim : List String) (value : Value) :
    ∀ path : List String, (view.property verbatim path value).value.passed = value.passed := by
  induction value using Value.inner_induction with
  | h value ih =>
    intro path
    by_cases hpath : ".".intercalate path ∈ verbatim
    · rw [property_of_mem view value hpath, resolve_passed]
    cases value with
    | list items =>
      rw [property_list_value view items hpath, Expr.passed_array, List.flatMap_map,
        Value.passed_eq]
      exact List.flatMap_congr fun item hitem => ih item hitem path
    | map entries =>
      cases hfunction : passedFunction? entries with
      | some function =>
        rw [property_of_passed view hpath (by rw [hfunction]; rfl), resolve_passed]
      | none =>
        rw [property_map_value view hpath hfunction, Value.passed_eq, Value.function?, hfunction]
        exact (Passes.renamed fun entry hentry =>
          ih entry.2 (List.mem_map_of_mem hentry) (path ++ [entry.1])).object
    | null | bool | number | string | ref | pseudo | getAtt | sub | select | join | split
    | importValue | base64 | zones =>
      exact property_of_resolve (P := fun e => e.passed = _) (by simp) (by simp)
        (view.resolve_passed _) verbatim path

theorem properties_passed (view : View) (verbatim : List String) (resource : Resource) :
    (view.properties verbatim resource.properties).value.passed =
      resource.values.flatMap Value.passed := by
  rw [properties_value]
  exact (Passes.renamed fun entry _ => view.property_passed verbatim entry.2 [entry.1]).object

end View

/-! ## Statements -/

/-- The warnings of the functions met in values. -/
def passedWarnings (owner : String) (values : List Value) : List Warning :=
  (values.flatMap Value.passed).map (.unsupportedFunction owner)

/-- The warnings of the functions that the objects in a statement stand for. -/
def Statement.passed : Statement → List Warning
  | .parameter name _ props | .resource name _ _ props | .output name props =>
    props.passed.map (.unsupportedFunction name)
  | .placeholder _ _ | .dependency _ _ => []

theorem textEntry_passes (key : String) (hkey : namesFunction key = false)
    (text? : Option String) : Passes (textEntry key text?) [] := by
  cases text? with
  | none => exact .nil
  | some text => exact .entry hkey (Expr.passed_string text)

theorem valueEntry_passes (view : View) (key : String) (hkey : namesFunction key = false)
    (value? : Option Value) : Passes (valueEntry view key value?).value value?.toList := by
  cases value? with
  | none => exact .nil
  | some value =>
    refine .entry hkey ?_
    rw [Option.toList_some, List.flatMap_singleton]
    exact view.resolve_passed value .property

theorem allowedEntry_passes (view : View) (allowed? : Option (List Value)) :
    Passes (allowedEntry view allowed?).value (allowed?.getD []) := by
  cases allowed? with
  | none => exact .nil
  | some values =>
    refine .entry (by decide) ?_
    change (view.resolve .property (.list values)).value.passed = _
    rw [view.resolve_passed, Value.passed_eq]
    rfl

theorem parameterStatement_passed (scope : Scope) (parameter : Parameter) :
    (parameterStatement scope parameter).value.passed =
      passedWarnings parameter.name parameter.values := by
  let view : View := ⟨scope, parameter.name, 0⟩
  have htype := textEntry_passes "type" (by decide)
    (if holdsText parameter then none else some parameter.type)
  have hdescription := textEntry_passes "description" (by decide) parameter.description
  have hdefault := valueEntry_passes view "default" (by decide) parameter.default
  have hallowed := allowedEntry_passes view parameter.allowed
  have hconstraints : Passes ((Noted.gatherEntries
      (view.resolveEntries .property parameter.constraints)).value.map fun entry =>
        (propertyName entry.1, entry.2)) (parameter.constraints.map Prod.snd) := by
    rw [Noted.gatherEntries_value, View.resolveEntries_eq, List.map_map, List.map_map]
    exact .renamed fun entry _ => view.resolve_passed entry.2 .property
  exact congrArg (List.map _)
    ((((htype.append hdescription).append hdefault).append hallowed).append hconstraints).object

theorem outputStatement_passed (scope : Scope) (count : Nat) (output : Output) :
    (outputStatement scope count output).value.passed =
      passedWarnings output.name output.values := by
  let view : View := ⟨scope, output.name, count⟩
  have hvalue : Passes [("value", (view.resolve .property output.value).value)] [output.value] :=
    .entry (by decide) ((view.resolve_passed output.value .property).trans
      (List.flatMap_singleton ..).symm)
  have hdescription := textEntry_passes "description" (by decide) output.description
  have hexport := valueEntry_passes view "exportName" (by decide) output.exportName
  exact congrArg (List.map _) ((hvalue.append hdescription).append hexport).object

/-- A resource that becomes a construct has the functions met in its properties. -/
theorem resourceStatement_passed (scope : Scope) (place : Nat) (resource : Resource) :
    (resourceStatement scope place resource).value.passed =
      if (resourceStatement scope place resource).value.identifier?.isSome then
        passedWarnings resource.name resource.values
      else [] := by
  cases hs : supported? scope resource with
  | none =>
    rw [resourceStatement_of_unsupported hs]
    rfl
  | some pair =>
    rw [resourceStatement_of_supported hs]
    exact congrArg (List.map _) (View.properties_passed _ _ resource)

theorem warningOf?_eq (owner : String) (emission : Emission) :
    warningOf? owner emission = emission.function?.map (.unsupportedFunction owner) := by
  cases emission <;> rfl

/-- What values emit is warned of as the functions met in them. -/
theorem about_function (owner : String) (values : List Value) :
    about .function ((values.flatMap Value.emissions).filterMap (warningOf? owner)) =
      passedWarnings owner values := by
  have hpassed : (values.flatMap Value.emissions).filterMap Emission.function? =
      values.flatMap Value.passed := by
    rw [List.filterMap_flatMap]
    exact List.flatMap_congr fun value _ => value.emissions_passed
  simp only [warningOf?_eq]
  rw [← List.map_filterMap, hpassed]
  exact List.filter_eq_self.2 (List.forall_mem_map.2 fun function _ => rfl)

theorem resourceStatement_about_function (scope : Scope) (place : Nat) (resource : Resource) :
    about .function (resourceStatement scope place resource).warnings =
      (resourceStatement scope place resource).value.passed := by
  rw [resourceStatement_warnings, about_append, about_condition, resourceStatement_passed,
    Resource.emissions_eq]
  cases hs : supported? scope resource with
  | none =>
    rw [resourceStatement_of_unsupported hs]
    rfl
  | some pair =>
    rw [resourceStatement_of_supported hs]
    exact about_function ..

/-! ## The warnings of a template -/

/-- The values that are written, each with the declaration it belongs to. Those of a resource are
written when its statement is a construct. -/
def writtenValues (template : Template) (code : StackCode) : List (String × List Value) :=
  (template.parameters.map fun p => (p.name, p.values)) ++
    ((template.resources.zip code.resources).filterMap fun entry =>
      entry.2.identifier?.map fun _ => (entry.1.name, entry.1.values)) ++
    template.outputs.map fun o => (o.name, o.values)

/-- The warnings of functions are exact. -/
structure PassedReported (template : Template) (code : StackCode) : Prop where
  /-- They are the functions met in the values that are written. -/
  values : about .function code.warnings =
    (writtenValues template code).flatMap fun entry => passedWarnings entry.1 entry.2
  /-- They are the functions that the objects in the code stand for. -/
  objects : about .function code.warnings =
    (code.parameters ++ code.resources ++ code.outputs).flatMap Statement.passed
  /-- A map that stands for a function has its warning wherever it is met. -/
  each : ∀ owner values, (owner, values) ∈ writtenValues template code → ∀ value ∈ values,
    ∀ function argument, .map [(function, argument)] ∈ value.walk → namesFunction function →
      .unsupportedFunction owner function ∈ code.warnings

section Code

variable {template : Template} {imports : Imports} {libraries : Libraries} {code : StackCode}
  (hcode : StackCode.ofTemplate template imports libraries = .ok code)

include hcode

theorem about_function_warnings : about .function code.warnings =
    (code.parameters ++ code.resources ++ code.outputs).flatMap Statement.passed := by
  rw [warnings_eq hcode, parameters_eq hcode, resources_eq hcode, outputs_eq hcode]
  simp only [about_append, about_flatMap, about_condition, dependencyStatement_about,
    resourceStatement_about_function, Parameter.emissions_eq, Output.emissions_eq, about_function,
    reduceCtorEq, if_false, flatMap_nil_fun, List.append_nil, List.nil_append,
    List.flatMap_append, List.flatMap_map, parameterStatement_passed, outputStatement_passed]

/-- The functions of the code are those met in the values that are written. -/
theorem passed_eq_writtenValues :
    (code.parameters ++ code.resources ++ code.outputs).flatMap Statement.passed =
      (writtenValues template code).flatMap fun entry => passedWarnings entry.1 entry.2 := by
  have hzip : template.resources.zip code.resources =
      template.resources.zipIdx.map fun entry =>
        (entry.1, (resourceStatement (Scope.ofTemplate template) entry.2 entry.1).value) := by
    rw [resources_eq hcode]
    nth_rewrite 1 [← List.zipIdx_map_fst 0 template.resources]
    exact List.zip_map' ..
  unfold writtenValues
  rw [hzip, parameters_eq hcode, resources_eq hcode, outputs_eq hcode]
  simp only [List.flatMap_append, List.flatMap_map, parameterStatement_passed,
    outputStatement_passed, List.filterMap_eq_flatMap_toList, List.flatMap_assoc]
  congr 2
  refine List.flatMap_congr fun entry _ => ?_
  rw [resourceStatement_passed]
  cases (resourceStatement (Scope.ofTemplate template) entry.2 entry.1).value.identifier? <;> simp

/-- **The warnings of functions are exact.** In order, they are the functions met in the values that
are written, and these are the functions that the objects in the code stand for: none is passed
through without a warning, wherever it is nested. -/
theorem passed_functions_reported : PassedReported template code where
  values := (about_function_warnings hcode).trans (passed_eq_writtenValues hcode)
  objects := about_function_warnings hcode
  each := by
    intro owner values howner value hvalue function argument hwalk hfunction
    have hpassed : function ∈ values.flatMap Value.passed :=
      List.mem_flatMap.2 ⟨value, hvalue, List.mem_filterMap.2 ⟨_, hwalk, if_pos hfunction⟩⟩
    have hmem : .unsupportedFunction owner function ∈ about .function code.warnings := by
      rw [about_function_warnings hcode, passed_eq_writtenValues hcode]
      exact List.mem_flatMap.2 ⟨_, howner, List.mem_map_of_mem hpassed⟩
    exact List.mem_of_mem_filter hmem

end Code

/-- Functions in a parameter, in another function below a free-form path, in a variable that is
named twice, in one that is not named, in a resource without construct, and in an argument. -/
def passingTemplate : Template where
  parameters := [{ Parameter.plain "Stage" "String" with
    default := some (.map [("Fn::FindInMap", .list [.string "Stages", .string "Main"])]) }]
  resources :=
    [⟨"Role", "AWS::IAM::Role",
        [("AssumeRolePolicyDocument", .map [("Statement",
            .map [("Fn::If", .list [.string "IsProd", .map [("Fn::Length", .list [])]])])]),
          ("RoleName", .sub [.bound "Name", .text "-", .bound "Name"]
            [("Name", .map [("Fn::If", .string "IsProd")]),
              ("Other", .map [("Fn::Cidr", .null)])])], [], none⟩,
      ⟨"Cluster", "AWS::ECS::Cluster", [("Name", .map [("Fn::Cidr", .null)])], [], none⟩]
  outputs := [⟨"Zones", .join "," (.map [("Fn::Transform", .null)]), none,
    some (.map [("Fn::Cidr", .null)]), none⟩]
  conditions := []

theorem passed_functions_reported_nested :
    ∃ code, StackCode.ofTemplate passingTemplate .empty .standard = .ok code ∧
      PassedReported passingTemplate code ∧
      about .function code.warnings =
        [.unsupportedFunction "Stage" "Fn::FindInMap", .unsupportedFunction "Role" "Fn::If",
          .unsupportedFunction "Role" "Fn::Length", .unsupportedFunction "Role" "Fn::If",
          .unsupportedFunction "Role" "Fn::If", .unsupportedFunction "Zones" "Fn::Transform",
          .unsupportedFunction "Zones" "Fn::Cidr"] := by
  have hcheck : passingTemplate.checkCycles = .ok () := rfl
  have hcode := ofTemplate_of_ok hcheck .empty .standard
  exact ⟨_, hcode, passed_functions_reported hcode, by decide +kernel⟩

end CdkStacks.Construct
