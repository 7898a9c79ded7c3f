import CdkStacks.Construct.Resolve
import CdkStacks.Proofs.Declared
import CdkStacks.Proofs.Decoded

/-!
# What resolved values consist of

One induction for all properties of the expressions in a stack.

* `Expr.inner` are the expressions that an expression is put together from;
* `View.Closed` holds of a property of expressions that goes through whatever resolving puts
  together;
* `View.Closed.resolve`, `View.Closed.properties`: such a property holds of the expressions for the
  values that were read, at any nesting;
* `decoded_of_ofText`: the values of a template that was read are such values;
* `props_of_closed`: so the property holds of whatever the statements of the code pass to their
  constructs.
-/

namespace CdkStacks.TypeScript

/-- What is interpolated. -/
def Chunk.hole? : Chunk → Option Expr
  | .text _ => none
  | .hole value => some value

/-- The expressions that an expression is put together from. -/
def Expr.inner : Expr → List Expr
  | .array items => items
  | .object entries => entries.map Prod.snd
  | .call _ arguments => arguments
  | .asText value => [value]
  | .template chunks => chunks.filterMap Chunk.hole?
  | .raw _ | .string _ | .parameter _ _ | .read _ _ | .deferred _ _ => []

end CdkStacks.TypeScript

namespace CdkStacks.Construct

open CdkStacks.Template CdkStacks.TypeScript
open CdkStacks.Document (Node Number)

/-! ## Values of results -/

theorem objectOf_value (keys : KeyStyle) (entries : List (String × Noted Expr)) :
    (objectOf keys entries).value =
      .object (entries.map fun entry => (keys.apply entry.1, entry.2.value)) := by
  change Expr.object ((Noted.gatherEntries entries).value.map _) = _
  rw [Noted.gatherEntries, Noted.gather_value, List.map_map, List.map_map]
  rfl

namespace View

theorem resolveItems_eq (view : View) (keys : KeyStyle) (items : List Value) :
    view.resolveItems keys items = items.map (view.resolve keys) := by
  induction items with
  | nil => rfl
  | cons item rest ih => exact congrArg (view.resolve keys item :: ·) ih

theorem resolveEntries_eq (view : View) (keys : KeyStyle) (entries : List (String × Value)) :
    view.resolveEntries keys entries =
      entries.map fun entry => (entry.1, view.resolve keys entry.2) := by
  induction entries with
  | nil => rfl
  | cons entry rest ih => exact congrArg ((entry.1, view.resolve keys entry.2) :: ·) ih

theorem propertyItems_eq (view : View) (verbatim path : List String) (items : List Value) :
    view.propertyItems verbatim path items = items.map (view.property verbatim path) := by
  induction items with
  | nil => rfl
  | cons item rest ih => exact congrArg (view.property verbatim path item :: ·) ih

theorem propertyEntries_eq (view : View) (verbatim path : List String)
    (entries : List (String × Value)) : view.propertyEntries verbatim path entries =
      entries.map fun entry => (entry.1, view.property verbatim (path ++ [entry.1]) entry.2) := by
  induction entries with
  | nil => rfl
  | cons entry rest ih =>
    exact congrArg ((entry.1, view.property verbatim (path ++ [entry.1]) entry.2) :: ·) ih

theorem resolve_list_value (view : View) (keys : KeyStyle) (items : List Value) :
    (view.resolve keys (.list items)).value =
      .array (items.map fun item => (view.resolve keys item).value) := by
  change Expr.array (Noted.gather (view.resolveItems keys items)).value = _
  rw [Noted.gather_value, resolveItems_eq, List.map_map]
  rfl

/-- A map is written as an object; one that stands for a function keeps its keys, and so does
whatever is in it. -/
theorem resolve_map_value (view : View) (keys : KeyStyle) (entries : List (String × Value)) :
    (view.resolve keys (.map entries)).value =
      let style := if (passedFunction? entries).isSome then .verbatim else keys
      .object (entries.map fun entry =>
        (style.apply entry.1, (view.resolve style entry.2).value)) := by
  have hobject (style : KeyStyle) : (objectOf style (view.resolveEntries style entries)).value =
      .object (entries.map fun entry =>
        (style.apply entry.1, (view.resolve style entry.2).value)) := by
    rw [objectOf_value, resolveEntries_eq, List.map_map]
    rfl
  rw [resolve]
  cases passedFunction? entries with
  | some function => exact hobject .verbatim
  | none => exact hobject keys

/-- Below a free-form path, a property is resolved like any value. -/
theorem property_of_mem {verbatim path : List String} (view : View) (value : Value)
    (h : ".".intercalate path ∈ verbatim) :
    view.property verbatim path value = view.resolve .verbatim value := by
  unfold property
  rw [if_pos (by simpa using h)]

theorem property_list_value {verbatim path : List String} (view : View) (items : List Value)
    (h : ".".intercalate path ∉ verbatim) : (view.property verbatim path (.list items)).value =
      .array (items.map fun item => (view.property verbatim path item).value) := by
  rw [property, if_neg (by simpa using h)]
  change Expr.array (Noted.gather (view.propertyItems verbatim path items)).value = _
  rw [Noted.gather_value, propertyItems_eq, List.map_map]
  rfl

/-- A map that stands for a function is resolved like any value. -/
theorem property_of_passed {verbatim path : List String} {entries : List (String × Value)}
    (view : View) (h : ".".intercalate path ∉ verbatim)
    (hfunction : (passedFunction? entries).isSome) :
    view.property verbatim path (.map entries) = view.resolve .property (.map entries) := by
  obtain ⟨function, hfunction⟩ := Option.isSome_iff_exists.1 hfunction
  rw [property, if_neg (by simpa using h), hfunction]

theorem property_map_value {verbatim path : List String} {entries : List (String × Value)}
    (view : View) (h : ".".intercalate path ∉ verbatim)
    (hfunction : passedFunction? entries = none) :
    (view.property verbatim path (.map entries)).value = .object (entries.map fun entry =>
      (propertyName entry.1, (view.property verbatim (path ++ [entry.1]) entry.2).value)) := by
  rw [property, if_neg (by simpa using h), hfunction, objectOf_value, propertyEntries_eq,
    List.map_map]
  rfl

theorem properties_value (view : View) (verbatim : List String) (entries : List (String × Value)) :
    (view.properties verbatim entries).value = .object (entries.map fun entry =>
      (propertyName entry.1, (view.property verbatim [entry.1] entry.2).value)) := by
  unfold properties
  rw [objectOf_value, propertyEntries_eq, List.map_map]
  rfl

/-- Only maps and lists are resolved in another way when they are properties. -/
theorem property_of_resolve {view : View} {P : Expr → Prop} {value : Value}
    (hmap : ∀ entries, value ≠ .map entries) (hlist : ∀ items, value ≠ .list items)
    (h : ∀ keys, P (view.resolve keys value).value) (verbatim path : List String) :
    P (view.property verbatim path value).value := by
  unfold property
  split_ifs
  · exact h .verbatim
  · split
    · exact absurd rfl (hmap _)
    · exact absurd rfl (hlist _)
    · exact h .property

end View

theorem pieceText?_isSome : (fun piece => (pieceText? piece).isSome) = Piece.isText := by
  funext piece
  cases piece <;> rfl

/-- Without placeholders, a substitution is a string literal. -/
theorem substitution_value_text {view : View} {pieces : List Piece}
    {bindings : List (String × Noted Expr)} (h : pieces.all Piece.isText) :
    (view.substitution pieces bindings).value =
      .string (String.join (pieces.filterMap pieceText?)) := by
  rw [View.substitution, pieceText?_isSome, if_pos h]
  rfl

/-- With a placeholder, a substitution is a template literal. -/
theorem substitution_value {view : View} {pieces : List Piece}
    {bindings : List (String × Noted Expr)} (h : ¬ pieces.all Piece.isText) :
    (view.substitution pieces bindings).value =
      .template (pieces.map fun piece => (view.chunk bindings piece).value) := by
  rw [View.substitution, pieceText?_isSome, if_neg h]
  change Expr.template (Noted.gather _).value = _
  rw [Noted.gather_value, List.map_map]
  rfl

/-! ## Closed properties -/

/-- The names of the functions that resolving calls. -/
def functionNames : List String :=
  ["join", "select", "split", "importValue", "base64", "getAzs"]

namespace View

/-- A property that whatever stands for a name has. -/
structure OfNames (view : View) (P : Expr → Prop) : Prop where
  pseudo : ∀ parameter, P (pseudoExpr parameter)
  reference : ∀ target, P (view.reference target)
  getAtt : ∀ target name, P (view.getAtt target name)

/-- A property that goes through whatever resolving puts together. -/
structure Closed (view : View) (P : Expr → Prop) : Prop extends view.OfNames P where
  word : ∀ source ∈ ["undefined", "true", "false"], P (.raw source)
  number : ∀ number : Number, number.isFinite → P (.raw number.text)
  string : ∀ text, P (.string text)
  array : ∀ items, (∀ item ∈ items, P item) → P (.array items)
  object : ∀ entries, (∀ entry ∈ entries, P entry.2) → P (.object entries)
  call : ∀ function ∈ functionNames, ∀ arguments, (∀ argument ∈ arguments, P argument) →
    P (.call function arguments)
  template : ∀ (pieces : List Piece) (bindings : List (String × Noted Expr)), CutPieces pieces →
    (∀ value, .hole value ∈ pieces.map (fun piece => (view.chunk bindings piece).value) →
      P value) → P (.template (pieces.map fun piece => (view.chunk bindings piece).value))

variable {view : View} {P : Expr → Prop}

/-- What is interpolated stands for a name or is the value of a variable. -/
theorem OfNames.hole (h : view.OfNames P) {bindings : List (String × Noted Expr)}
    (hbindings : ∀ entry ∈ bindings, P entry.2.value) {pieces : List Piece} {value : Expr}
    (hmem : .hole value ∈ pieces.map fun piece => (view.chunk bindings piece).value) :
    P value := by
  obtain ⟨piece, -, hchunk⟩ := List.mem_map.1 hmem
  cases piece with
  | text text => cases hchunk
  | name target =>
    cases hchunk
    exact h.reference target
  | getAtt target member =>
    cases hchunk
    exact h.getAtt target member
  | pseudo parameter =>
    cases hchunk
    exact h.pseudo parameter
  | bound name =>
    unfold View.chunk at hchunk
    dsimp only at hchunk
    split at hchunk
    · rename_i hfind
      cases hchunk
      exact hbindings _ (List.mem_of_find?_eq_some hfind)
    · cases hchunk
      exact h.reference name

/-- **What is resolved from a value that was read** has every closed property. -/
theorem Closed.resolve (h : view.Closed P) {value : Value} (hvalue : value.Decoded) :
    ∀ keys : KeyStyle, P (view.resolve keys value).value := by
  induction hvalue with
  | null => exact fun _ => h.word _ (by decide)
  | bool value => cases value <;> exact fun _ => h.word _ (by decide)
  | number hfinite => exact fun _ => h.number _ hfinite
  | string text => exact fun _ => h.string text
  | @list items _ ih =>
    intro keys
    rw [resolve_list_value]
    exact h.array _ (List.forall_mem_map.2 fun item hitem => ih item hitem keys)
  | @map entries _ ih =>
    intro keys
    rw [resolve_map_value]
    exact h.object _ (List.forall_mem_map.2 fun entry hentry => ih entry hentry _)
  | ref target => exact fun _ => h.reference target
  | pseudo parameter => exact fun _ => h.pseudo parameter
  | getAtt target member => exact fun _ => h.getAtt target member
  | join delimiter _ ih =>
    exact fun _ => h.call _ (by decide) _ (by simpa using ⟨h.string delimiter, ih .property⟩)
  | @sub text bindings _ ih =>
    intro keys
    have hbindings : ∀ entry ∈ view.resolveEntries .property bindings, P entry.2.value := by
      rw [View.resolveEntries_eq]
      exact List.forall_mem_map.2 fun entry hentry => ih entry hentry .property
    rw [View.resolve]
    by_cases htext : (cut text (bindings.map Prod.fst)).all Piece.isText
    · rw [substitution_value_text htext]
      exact h.string _
    · rw [substitution_value htext]
      exact h.template _ _ (cutPieces_cut _ _) fun _ => h.hole hbindings
  | select _ _ ihindex ihlist =>
    exact fun _ => h.call _ (by decide) _ (by simpa using ⟨ihindex .property, ihlist .property⟩)
  | split delimiter _ ih =>
    exact fun _ => h.call _ (by decide) _ (by simpa using ⟨h.string delimiter, ih .property⟩)
  | importValue _ ih => exact fun _ => h.call _ (by decide) _ (by simpa using ih .property)
  | base64 _ ih => exact fun _ => h.call _ (by decide) _ (by simpa using ih .property)
  | zones _ ih =>
    intro keys
    unfold View.resolve
    split_ifs
    · exact h.call _ (by decide) _ (by simp)
    · exact h.call _ (by decide) _ (by simpa using ih .property)

theorem Closed.property (h : view.Closed P) (verbatim : List String) {value : Value}
    (hvalue : value.Decoded) : ∀ path, P (view.property verbatim path value).value := by
  have hresolve := h.resolve hvalue
  induction hvalue with
  | @map entries hentries ih =>
    intro path
    by_cases hpath : ".".intercalate path ∈ verbatim
    · rw [property_of_mem view _ hpath]
      exact hresolve .verbatim
    · cases hfunction : passedFunction? entries with
      | some function =>
        rw [property_of_passed view hpath (by simp [hfunction])]
        exact hresolve .property
      | none =>
        rw [property_map_value view hpath hfunction]
        refine h.object _ (List.forall_mem_map.2 fun entry hentry => ?_)
        exact ih entry hentry (h.resolve (hentries entry hentry)) _
  | @list items hitems ih =>
    intro path
    by_cases hpath : ".".intercalate path ∈ verbatim
    · rw [property_of_mem view _ hpath]
      exact hresolve .verbatim
    · rw [property_list_value view items hpath]
      refine h.array _ (List.forall_mem_map.2 fun item hitem => ?_)
      exact ih item hitem (h.resolve (hitems item hitem)) path
  | _ => exact fun path => property_of_resolve (by simp) (by simp) hresolve verbatim path

theorem Closed.properties (h : view.Closed P) (verbatim : List String)
    {entries : List (String × Value)} (hentries : ∀ entry ∈ entries, entry.2.Decoded) :
    P (view.properties verbatim entries).value := by
  rw [properties_value]
  exact h.object _ (List.forall_mem_map.2 fun entry hentry =>
    h.property verbatim (hentries entry hentry) _)

end View

end CdkStacks.Construct

namespace CdkStacks.Template

open CdkStacks.Document (Node)

/-! ## Values of templates -/

/-- The values of a parameter. -/
def Parameter.values (parameter : Parameter) : List Value :=
  parameter.default.toList ++ parameter.allowed.getD [] ++ parameter.constraints.map Prod.snd

/-- The values of the properties of a resource. -/
def Resource.values (resource : Resource) : List Value :=
  resource.properties.map Prod.snd

/-- The values of an output. -/
def Output.values (output : Output) : List Value :=
  output.value :: output.exportName.toList

/-- The values that the code of a template is resolved from. -/
def values (template : Template) : List Value :=
  template.parameters.flatMap Parameter.values ++ template.resources.flatMap Resource.values ++
    template.outputs.flatMap Output.values

theorem decode_of_allowedField? {fields : Fields} {allowed? : Option (List Value)}
    (h : allowedField? fields = .ok allowed?) :
    ∀ value ∈ allowed?.getD [], ∃ node, decode node = .ok value := by
  unfold allowedField? at h
  split at h
  · cases h
    exact List.forall_mem_nil _
  · obtain ⟨values, hvalues, h⟩ := exists_of_bind_eq_ok h
    cases h
    intro value hvalue
    obtain ⟨item, -, hitem⟩ := exists_of_mem_mapM hvalues value hvalue
    exact ⟨item, hitem⟩
  · cases h

theorem decode_of_constraintFields : ∀ {fields : Fields} {constraints : List (String × Value)},
    constraintFields fields = .ok constraints →
      ∀ entry ∈ constraints, ∃ node, decode node = .ok entry.2 := by
  intro fields
  induction fields with
  | nil =>
    intro constraints h
    cases h
    exact List.forall_mem_nil _
  | cons field rest ih =>
    intro constraints h
    unfold constraintFields at h
    obtain ⟨name, -, h⟩ := exists_of_bind_eq_ok h
    split_ifs at h
    · obtain ⟨value, hvalue, h⟩ := exists_of_bind_eq_ok h
      obtain ⟨others, hothers, h⟩ := exists_of_bind_eq_ok h
      cases h
      exact List.forall_mem_cons.2 ⟨⟨_, hvalue⟩, ih hothers⟩
    · exact ih h

/-- The values of a parameter have been read from nodes. -/
theorem decode_of_readParameter {name : String} {body : Node} {parameter : Parameter}
    (h : readParameter name body = .ok parameter) :
    ∀ value ∈ parameter.values, ∃ node, decode node = .ok value := by
  obtain ⟨fields, -, h⟩ := exists_of_bind_eq_ok h
  obtain ⟨type, -, h⟩ := exists_of_bind_eq_ok h
  obtain ⟨description, -, h⟩ := exists_of_bind_eq_ok h
  obtain ⟨default, hdefault, h⟩ := exists_of_bind_eq_ok h
  obtain ⟨allowed, hallowed, h⟩ := exists_of_bind_eq_ok h
  obtain ⟨constraints, hconstraints, h⟩ := exists_of_bind_eq_ok h
  cases h
  simp only [Parameter.values, List.forall_mem_append, List.forall_mem_map]
  refine ⟨⟨fun value hvalue => ?_, decode_of_allowedField? hallowed⟩,
    decode_of_constraintFields hconstraints⟩
  rw [Option.mem_toList] at hvalue
  cases hvalue
  exact decode_of_valueField? hdefault

theorem decode_of_ofNode {document : Node} {template : Template}
    (h : ofNode document = .ok template) :
    ∀ value ∈ template.values, ∃ node, decode node = .ok value := by
  obtain ⟨root, -, hroot⟩ := readFrom_of_ofNode h
  simp only [values, List.forall_mem_append, List.forall_mem_flatMap]
  refine ⟨⟨fun parameter hparameter => ?_, fun resource hresource => ?_⟩,
    fun output houtput => ?_⟩
  · obtain ⟨name, body, hbody⟩ := exists_of_readSection hroot.parameters parameter hparameter
    exact decode_of_readParameter hbody
  · obtain ⟨name, body, hbody⟩ := exists_of_readSection hroot.resources resource hresource
    exact List.forall_mem_map.2 (decode_of_readResource hbody)
  · obtain ⟨name, body, hbody⟩ := exists_of_readSection hroot.outputs output houtput
    obtain ⟨hvalue, hexport⟩ := decode_of_readOutput hbody
    exact List.forall_mem_cons.2
      ⟨hvalue, fun value hmem => hexport value (Option.mem_toList.1 hmem)⟩

/-- **The values of a template that was read** are values as they are read. -/
theorem decoded_of_ofText {format : Format} {text : String} {template : Template}
    (h : ofText format text = .ok template) : ∀ value ∈ template.values, value.Decoded := by
  intro value hvalue
  unfold ofText at h
  split at h
  · obtain ⟨node, hnode⟩ := decode_of_ofNode h value hvalue
    exact decoded_of_decodeWithin hnode
  · cases h

end CdkStacks.Template

namespace CdkStacks.Construct

open CdkStacks.Template CdkStacks.TypeScript

/-! ## Statements -/

section Entries

variable {view : View} {P : Expr → Prop} (h : view.Closed P)

include h

theorem textEntry_of_closed (key : String) (text? : Option String) :
    ∀ entry ∈ textEntry key text?, P entry.2 := by
  cases text? with
  | none => exact List.forall_mem_nil _
  | some text => exact List.forall_mem_singleton.2 (h.string text)

theorem valueEntry_of_closed (key : String) {value? : Option Value}
    (hvalue : ∀ value ∈ value?.toList, value.Decoded) :
    ∀ entry ∈ (valueEntry view key value?).value, P entry.2 := by
  cases value? with
  | none => exact List.forall_mem_nil _
  | some value =>
    have hdecoded : value.Decoded := hvalue value (by simp)
    exact List.forall_mem_singleton.2 (h.resolve hdecoded .property)

theorem allowedEntry_of_closed {allowed? : Option (List Value)}
    (hvalues : ∀ value ∈ allowed?.getD [], value.Decoded) :
    ∀ entry ∈ (allowedEntry view allowed?).value, P entry.2 := by
  cases allowed? with
  | none => exact List.forall_mem_nil _
  | some values =>
    refine List.forall_mem_singleton.2 ?_
    change P (.array (Noted.gather (view.resolveItems .property values)).value)
    rw [Noted.gather_value, View.resolveItems_eq, List.map_map]
    exact h.array _ (List.forall_mem_map.2 fun value hvalue =>
      h.resolve (hvalues value hvalue) .property)

end Entries

section Statements

variable {scope : Scope} {P : Expr → Prop}
  (hclosed : ∀ view : View, view.scope = scope → view.Closed P)

include hclosed

theorem parameterStatement_of_closed {parameter : Parameter}
    (hvalues : ∀ value ∈ parameter.values, value.Decoded) :
    ∀ props ∈ (parameterStatement scope parameter).value.props?, P props := by
  let view : View := ⟨scope, parameter.name, 0⟩
  have h : view.Closed P := hclosed view rfl
  simp only [Parameter.values, List.forall_mem_append, List.forall_mem_map] at hvalues
  obtain ⟨⟨hdefault, hallowed⟩, hconstraints⟩ := hvalues
  rintro _ ⟨⟩
  refine h.object _ ?_
  change ∀ entry ∈ textEntry "type" _ ++ textEntry "description" _ ++
    (valueEntry view "default" parameter.default).value ++
    (allowedEntry view parameter.allowed).value ++
    (Noted.gatherEntries (view.resolveEntries .property parameter.constraints)).value.map _, _
  rw [Noted.gatherEntries_value, View.resolveEntries_eq, List.map_map, List.map_map]
  simp only [List.forall_mem_append, List.forall_mem_map]
  exact ⟨⟨⟨⟨textEntry_of_closed h _ _, textEntry_of_closed h _ _⟩,
    valueEntry_of_closed h _ hdefault⟩, allowedEntry_of_closed h hallowed⟩,
    fun entry hentry => h.resolve (hconstraints entry hentry) .property⟩

theorem resourceStatement_of_closed {resource : Resource}
    (hvalues : ∀ value ∈ resource.values, value.Decoded) (place : Nat) :
    ∀ props ∈ (resourceStatement scope place resource).value.props?, P props := by
  cases hs : supported? scope resource with
  | none =>
    rw [resourceStatement_of_unsupported hs]
    rintro _ ⟨⟩
  | some found =>
    rw [resourceStatement_of_supported hs]
    rintro _ ⟨⟩
    exact (hclosed ⟨scope, resource.name, place⟩ rfl).properties _ (List.forall_mem_map.1 hvalues)

theorem outputStatement_of_closed {output : Output}
    (hvalues : ∀ value ∈ output.values, value.Decoded) (count : Nat) :
    ∀ props ∈ (outputStatement scope count output).value.props?, P props := by
  let view : View := ⟨scope, output.name, count⟩
  have h : view.Closed P := hclosed view rfl
  obtain ⟨hvalue, hexport⟩ := List.forall_mem_cons.1 hvalues
  rintro _ ⟨⟩
  refine h.object _ ?_
  change ∀ entry ∈ [("value", (view.resolve .property output.value).value)] ++
    textEntry "description" _ ++ (valueEntry view "exportName" output.exportName).value, _
  simp only [List.forall_mem_append, List.forall_mem_singleton]
  exact ⟨⟨h.resolve hvalue .property, textEntry_of_closed h _ _⟩, valueEntry_of_closed h _ hexport⟩

end Statements

/-- **What the statements of a template pass to their constructs** has every closed property, when
the values of the template are as they are read. -/
theorem props_of_closed {template : Template} {imports : Imports} {libraries : Libraries}
    {code : StackCode} (hcode : StackCode.ofTemplate template imports libraries = .ok code)
    (hvalues : ∀ value ∈ template.values, value.Decoded) {P : Expr → Prop}
    (hclosed : ∀ view : View, view.scope = Scope.ofTemplate template → view.Closed P) :
    ∀ statement ∈ code.parameters ++ code.resources ++ code.outputs,
      ∀ props ∈ statement.props?, P props := by
  simp only [Template.values, List.forall_mem_append, List.forall_mem_flatMap] at hvalues
  obtain ⟨⟨hparameters, hresources⟩, houtputs⟩ := hvalues
  rw [parameters_eq hcode, resources_eq hcode, outputs_eq hcode]
  simp only [List.forall_mem_append, List.forall_mem_map]
  refine ⟨⟨fun parameter hparameter => ?_, fun entry hentry => ?_⟩, fun output houtput => ?_⟩
  · exact parameterStatement_of_closed hclosed (hparameters parameter hparameter)
  · exact resourceStatement_of_closed hclosed (hresources _ (List.fst_mem_of_mem_zipIdx hentry)) _
  · exact outputStatement_of_closed hclosed (houtputs output houtput) _

end CdkStacks.Construct
