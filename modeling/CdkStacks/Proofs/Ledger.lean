import CdkStacks.Proofs.Merging
import CdkStacks.Proofs.Plain

/-!
# What mapping does with its ledger

Every step of mapping passes the ledger along. None of them looks into it.

* `SameImports`: two lists of names that import the same. Names without an alias may be imported in
  any order (`SameImports.swap`), and calls and deferred values of several expressions at once
  (`helperUses_append`);
* `Noted.adding` is a result as a step of mapping that imports names; `adding_bind` does two steps;
* `resolve_eq`, `property_eq`: a resolver writes what a view says, and imports what the expression
  needs;
* `mapParameter_eq`, `mapResource_eq`, `mapOutput_eq`: so for declarations, which import their class
  as well;
* `mapTemplate_eq`: mapping a template on top of a ledger is building its code, apart from it;
* `ofTemplate_merges_imports`: mapping a template merges its own imports into the given ones.
-/

namespace CdkStacks.TypeScript

/-! ## Importing in another order -/

theorem Names.add_comm (names : Names) (first second : String) :
    (names.add [first]).add [second] = (names.add [second]).add [first] := by
  refine Table.ext_get? fun key => ?_
  simp only [Names.add, List.foldl_cons, List.foldl_nil, Table.get?_insert]
  split_ifs <;> rfl

theorem Names.add_self (names : Names) (name : String) :
    (names.add [name]).add [name] = names.add [name] := by
  refine Table.ext_get? fun key => ?_
  simp only [Names.add, List.foldl_cons, List.foldl_nil, Table.get?_insert]
  split_ifs <;> rfl

namespace Imports

/-- Changes that do not get into each other's way may be made in any order. -/
theorem update_comm {first second : ModuleImports → ModuleImports}
    (h : ∀ m, second (first m) = first (second m)) (imports : Imports) (module other : String) :
    (imports.update module first).update other second =
      (imports.update other second).update module first := by
  refine congrArg Imports.mk (Table.ext_get? fun key => ?_)
  simp only [update, Table.get?_alter]
  by_cases hsame : module = other
  · subst hsame
    simp only [↓reduceIte, Option.getD_some]
    split_ifs
    · exact congrArg some (h _)
    · rfl
  · rw [if_neg hsame, if_neg (Ne.symm hsame)]
    split_ifs with hother hmodule
    · exact absurd (hmodule.symm.trans hother) hsame
    all_goals rfl

theorem update_self {change : ModuleImports → ModuleImports}
    (h : ∀ m, change (change m) = change m) (imports : Imports) (module : String) :
    (imports.update module change).update module change = imports.update module change := by
  refine congrArg Imports.mk (Table.ext_get? fun key => ?_)
  simp only [update, Table.get?_alter]
  split_ifs
  · exact congrArg some (h _)
  · rfl

end Imports

end CdkStacks.TypeScript

namespace CdkStacks.Construct

open CdkStacks.Template CdkStacks.TypeScript

/-- A name without an alias can be imported before or after any other. -/
theorem addTo_comm {use : Use} (h : use.localName? = none) (other : Use) (imports : Imports) :
    use.addTo (other.addTo imports) = other.addTo (use.addTo imports) := by
  have huse : ∀ imports, use.addTo imports = imports.add use.module [use.name] := by
    intro imports
    rw [Use.addTo, h]
  rw [huse, huse]
  unfold Use.addTo
  cases other.localName? with
  | none =>
    refine Imports.update_comm (fun m => ?_) imports other.module use.module
    rw [Names.add_comm]
  | some localName =>
    refine Imports.update_comm (fun m => ?_) imports other.module use.module
    rfl

theorem addTo_self {use : Use} (h : use.localName? = none) (imports : Imports) :
    use.addTo (use.addTo imports) = use.addTo imports := by
  simp only [Use.addTo, h]
  refine Imports.update_self (fun m => ?_) imports use.module
  rw [Names.add_self]

/-- A name without an alias goes past any others. -/
theorem foldl_addTo_past {use : Use} (h : use.localName? = none) (others : List Use)
    (imports : Imports) :
    others.foldl Use.addTo (use.addTo imports) = use.addTo (others.foldl Use.addTo imports) := by
  induction others generalizing imports with
  | nil => rfl
  | cons other others ih => rw [List.foldl_cons, List.foldl_cons, ← addTo_comm h, ih]

/-- Two lists of names import the same, whatever is imported before. -/
def SameImports (first second : List Use) : Prop :=
  ∀ imports, first.foldl Use.addTo imports = second.foldl Use.addTo imports

namespace SameImports

theorem refl (uses : List Use) : SameImports uses uses := fun _ => rfl

theorem trans {first second third : List Use} (h : SameImports first second)
    (h' : SameImports second third) : SameImports first third :=
  fun imports => (h imports).trans (h' imports)

theorem append {first second first' second' : List Use} (h : SameImports first second)
    (h' : SameImports first' second') : SameImports (first ++ first') (second ++ second') := by
  intro imports
  rw [List.foldl_append, List.foldl_append, h, h']

/-- Names without aliases can be imported before or after any others. -/
theorem swap {uses : List Use} (h : ∀ use ∈ uses, use.localName? = none) (others : List Use) :
    SameImports (uses ++ others) (others ++ uses) := by
  intro imports
  induction uses generalizing imports with
  | nil => rw [List.nil_append, List.append_nil]
  | cons use uses ih =>
    obtain ⟨huse, huses⟩ := List.forall_mem_cons.1 h
    rw [List.cons_append, List.foldl_cons, ih huses, List.foldl_append, List.foldl_append,
      List.foldl_cons, foldl_addTo_past huse]

end SameImports

theorem helperUses_plain (libraries : Libraries) (calls defers : Bool) :
    ∀ use ∈ helperUses libraries calls defers, use.localName? = none := by
  cases calls <;> cases defers <;> simp [helperUses, functionUse, lazyUse]

/-- What two expressions need, one after the other, is what both need. -/
theorem helperUses_append (libraries : Libraries) (calls defers calls' defers' : Bool) :
    SameImports (helperUses libraries calls defers ++ helperUses libraries calls' defers')
      (helperUses libraries (calls || calls') (defers || defers')) := by
  intro imports
  have hself := fun use huse => addTo_self (helperUses_plain libraries true true use huse)
  have hcomm := addTo_comm (show (functionUse libraries).localName? = none from rfl)
    (lazyUse libraries)
  simp only [helperUses, functionUse, lazyUse, ↓reduceIte, List.cons_append, List.nil_append,
    List.forall_mem_cons, List.not_mem_nil, IsEmpty.forall_iff, implies_true, and_true]
    at hself hcomm
  cases calls <;> cases defers <;> cases calls' <;> cases defers' <;>
    simp [helperUses, functionUse, lazyUse, hself, hcomm]

/-! ## Results as steps of mapping -/

namespace Noted

variable {α β : Type}

/-- A result as a step of mapping: it adds its warnings, and imports names. -/
def adding (result : Noted α) (uses : List Use) : Mapping α := fun ledger =>
  (result.value,
    { imports := uses.foldl Use.addTo ledger.imports
      warnings := ledger.warnings ++ result.warnings })

theorem run_adding (result : Noted α) (uses : List Use) (ledger : Ledger) :
    (result.adding uses).run ledger = pure (result.value,
      { imports := uses.foldl Use.addTo ledger.imports
        warnings := ledger.warnings ++ result.warnings }) := rfl

theorem adding_congr {uses uses' : List Use} (h : SameImports uses uses') (result : Noted α) :
    result.adding uses = result.adding uses' := by
  funext ledger
  simp only [adding, h ledger.imports]

/-- Two steps import the names of both. -/
theorem adding_bind (result : Noted α) (uses : List Use) (next : α → Noted β)
    (uses' : α → List Use) :
    (result.adding uses >>= fun value => (next value).adding (uses' value)) =
      (result >>= next).adding (uses ++ uses' result.value) := by
  funext ledger
  simp only [adding, bind, StateT.bind, List.foldl_append, List.append_assoc]

theorem pure_eq (value : α) : (pure value : Mapping α) = (pure value : Noted α).adding [] := by
  funext ledger
  change (value, ledger) = (value, { ledger with warnings := ledger.warnings ++ [] })
  rw [List.append_nil]

theorem need_eq (use : Use) : Mapping.need use = (pure () : Noted Unit).adding [use] := by
  funext ledger
  simp [Mapping.need, adding, pure, modify, modifyGet, MonadStateOf.modifyGet, StateT.modifyGet]

theorem warn_eq (warning : Warning) : Mapping.warn warning = (warn warning).adding [] :=
  rfl

/-- Changing a result imports nothing. -/
theorem adding_map (result : Noted α) (uses : List Use) (change : α → β) :
    (do return change (← result.adding uses) : Mapping β) =
      (do return change (← result) : Noted β).adding uses := by
  simp only [pure_eq, adding_bind, List.append_nil]

theorem map_eq (result : Noted α) (change : α → β) :
    (do return change (← result) : Noted β) = ⟨change result.value, result.warnings⟩ := by
  simp [bind, pure]

theorem gather_value (items : List (Noted α)) : (gather items).value = items.map value := by
  induction items with
  | nil => rfl
  | cons item rest ih => simp [gather, ih]

theorem gather_warnings (items : List (Noted α)) :
    (gather items).warnings = items.flatMap warnings := by
  induction items with
  | nil => rfl
  | cons item rest ih => rw [gather, ih, List.flatMap_cons]

theorem gather_cons (first : Noted α) (rest : List (Noted α)) :
    gather (first :: rest) = do
      let value ← first
      return value :: (← gather rest) := by
  simp [gather, bind, pure]

/-- A list of results imports the names of all. -/
theorem adding_cons (first : Noted α) (uses : List Use) (rest : List (Noted α))
    (uses' : List Use) :
    (do
      let value ← first.adding uses
      return value :: (← (gather rest).adding uses')) =
      (gather (first :: rest)).adding (uses ++ uses') := by
  simp only [adding_map, adding_bind, gather_cons]

/-- The results of a list import the names of all. -/
theorem mapM_adding (items : List α) (result : α → Noted β) (uses : α → List Use) :
    items.mapM (fun item => (result item).adding (uses item)) =
      (gather (items.map result)).adding (items.flatMap uses) := by
  induction items with
  | nil => exact pure_eq []
  | cons item items ih =>
    rw [List.mapM_cons, ih]
    exact adding_cons ..

theorem mapM_adding_nil (items : List α) (result : α → Noted β) :
    items.mapM (fun item => (result item).adding []) =
      (gather (items.map result)).adding [] := by
  rw [mapM_adding, List.flatMap_eq_nil_iff.2 fun _ _ => rfl]

/-- The step that writes an expression: it imports what the expression needs. -/
def written (libraries : Libraries) (result : Noted Expr) : Mapping Expr :=
  result.adding (helperUses libraries result.value.calls result.value.defers)

/-- The step that writes entries: it imports what all of them need. -/
def writtenEntries (libraries : Libraries) (result : Noted (List (String × Expr))) :
    Mapping (List (String × Expr)) :=
  result.adding
    (helperUses libraries (entriesCall result.value) (entriesDefer result.value))

/-- The step that writes items: it imports what all of them need. -/
def writtenItems (libraries : Libraries) (result : Noted (List Expr)) : Mapping (List Expr) :=
  result.adding (helperUses libraries (itemsCall result.value) (itemsDefer result.value))

/-- The step that writes the chunks of a template literal: it imports what all of them need. -/
def writtenChunks (libraries : Libraries) (result : Noted (List Chunk)) : Mapping (List Chunk) :=
  result.adding (helperUses libraries (chunksCall result.value) (chunksDefer result.value))

/-- Items are written one after the other. -/
theorem writtenItems_cons (libraries : Libraries) (first : Noted Expr) (rest : List (Noted Expr)) :
    (do
      let value ← first.written libraries
      return value :: (← (gather rest).writtenItems libraries)) =
      (gather (first :: rest)).writtenItems libraries := by
  rw [written, writtenItems, adding_cons, adding_congr (helperUses_append libraries _ _ _ _)]
  rfl

end Noted

/-! ## Values -/

open Noted (adding_bind adding_cons adding_congr adding_map mapM_adding need_eq pure_eq warn_eq)

/-- What stands under each key is written in order, and imports what all of it needs. -/
theorem doEntries_written (libraries : Libraries) (entries : List (String × Noted Expr)) :
    doEntries (entries.map fun entry => (entry.1, entry.2.written libraries)) =
      (Noted.gatherEntries entries).writtenEntries libraries := by
  induction entries with
  | nil => exact pure_eq []
  | cons entry entries ih =>
    obtain ⟨key, value⟩ := entry
    simp only [doEntries, List.map_cons, List.mapM_cons] at ih ⊢
    rw [ih, Noted.written, adding_map, Noted.map_eq, Noted.writtenEntries, Noted.gatherEntries,
      adding_cons, adding_congr (helperUses_append libraries _ _ _ _)]
    rfl

theorem doObject_written (libraries : Libraries) (keys : KeyStyle)
    (entries : List (String × Noted Expr)) :
    doObject keys (entries.map fun entry => (entry.1, entry.2.written libraries)) =
      (objectOf keys entries).written libraries := by
  obtain ⟨hcalls, hdefers⟩ := entries_rename keys.apply (Noted.gatherEntries entries).value
  rw [doObject, doEntries_written, Noted.writtenEntries, adding_map, ← hcalls, ← hdefers]
  rfl

namespace Resolver

variable (resolver : Resolver)

theorem call_eq (function : String) (arguments : List Expr) :
    resolver.call function arguments =
      (pure (.call function arguments) : Noted Expr).adding
        (helperUses resolver.libraries true false) := by
  rw [call, need_eq]
  exact adding_map ..

theorem member_eq (place : Nat) (identifier name : String) :
    resolver.member place identifier name =
      (pure (resolver.toView.member place identifier name) : Noted Expr).written
        resolver.libraries := by
  unfold member View.member
  split
  · exact pure_eq _
  · rw [need_eq]
    exact adding_map ..

theorem reference_eq (target : String) :
    resolver.reference target =
      (pure (resolver.toView.reference target) : Noted Expr).written resolver.libraries := by
  unfold reference View.reference
  cases resolver.scope.parameter? target with
  | some accessor => exact pure_eq _
  | none =>
    rcases resolver.scope.resource? target with _ | ⟨_, _ | identifier, place⟩
    · exact resolver.call_eq ..
    · exact resolver.call_eq ..
    · exact resolver.member_eq ..

theorem getAtt_eq (target name : String) :
    resolver.getAtt target name =
      (pure (resolver.toView.getAtt target name) : Noted Expr).written resolver.libraries := by
  have hcall : (do return .asText (← resolver.call "getAtt" [.string target, .string name])) =
      (pure (.asText (.call "getAtt" [.string target, .string name])) : Noted Expr).written
        resolver.libraries := by
    rw [call_eq]
    exact adding_map ..
  unfold getAtt View.getAtt
  rcases resolver.scope.resource? target with _ | ⟨_, _ | identifier, place⟩
  · exact hcall
  · exact hcall
  · exact resolver.member_eq ..

/-- A call imports what its last argument needs, and the functions. -/
theorem bind_call (result : Noted Expr) (function : String) (arguments : Expr → List Expr) :
    (result.written resolver.libraries >>= fun e => resolver.call function (arguments e)) =
      (result >>= fun e => pure (.call function (arguments e))).adding
        (helperUses resolver.libraries true result.value.defers) := by
  simp only [call_eq, Noted.written, adding_bind]
  rw [adding_congr (helperUses_append resolver.libraries _ _ _ _), Bool.or_true, Bool.or_false]

/-- A call with one argument that may need something imports what the call needs. -/
theorem bind_call_written (result : Noted Expr) (function : String)
    {arguments : Expr → List Expr} (h : ∀ e, itemsDefer (arguments e) = e.defers) :
    (result.written resolver.libraries >>= fun e => resolver.call function (arguments e)) =
      (result >>= fun e => pure (.call function (arguments e)) : Noted Expr).written
        resolver.libraries := by
  rw [bind_call, ← h]
  rfl

/-- A piece of a substitution text imports what its chunk needs. -/
theorem chunk_eq (bindings : List (String × Noted Expr)) (piece : Piece) :
    resolver.chunk (bindings.map fun v => (v.1, v.2.written resolver.libraries)) piece =
      (resolver.toView.chunk bindings piece).adding (helperUses resolver.libraries
        (chunksCall [(resolver.toView.chunk bindings piece).value])
        (chunksDefer [(resolver.toView.chunk bindings piece).value])) := by
  have hhole : ∀ result : Noted Expr, (do return .hole (← result.written resolver.libraries)) =
      (do return .hole (← result) : Noted Chunk).adding (helperUses resolver.libraries
        (chunksCall [.hole result.value]) (chunksDefer [.hole result.value])) := by
    intro result
    rw [Noted.written, adding_map, chunksCall, chunksCall, chunksDefer, chunksDefer, Bool.or_false,
      Bool.or_false]
  cases piece with
  | text text => exact pure_eq _
  | pseudo parameter =>
    refine (pure_eq _).trans ?_
    cases parameter <;> rfl
  | name target =>
    rw [chunk, reference_eq]
    exact hhole _
  | getAtt target name =>
    rw [chunk, getAtt_eq]
    exact hhole _
  | bound name =>
    rw [chunk, View.chunk, List.find?_map]
    simp only [Function.comp_def]
    cases bindings.find? fun v => v.1 = name with
    | some found => exact hhole _
    | none =>
      simp only [Option.map_none, reference_eq]
      exact hhole _

theorem mapM_chunk (bindings : List (String × Noted Expr)) (pieces : List Piece) :
    pieces.mapM (resolver.chunk (bindings.map fun v => (v.1, v.2.written resolver.libraries))) =
      (Noted.gather (pieces.map (resolver.toView.chunk bindings))).writtenChunks
        resolver.libraries := by
  induction pieces with
  | nil => exact pure_eq []
  | cons piece pieces ih =>
    rw [List.mapM_cons, ih, chunk_eq, Noted.writtenChunks, adding_cons,
      adding_congr (helperUses_append resolver.libraries _ _ _ _), ← chunksCall_cons,
      ← chunksDefer_cons]
    rfl

theorem substitution_eq (pieces : List Piece) (bindings : List (String × Noted Expr)) :
    resolver.substitution pieces
        (bindings.map fun v => (v.1, v.2.written resolver.libraries)) =
      (resolver.toView.substitution pieces bindings).written resolver.libraries := by
  unfold substitution View.substitution
  split
  · exact pure_eq _
  · rw [mapM_chunk, Noted.writtenChunks, adding_map]
    rfl

mutual

/-- **A resolver writes what its view says,** and imports what the expression needs, whatever the
ledger holds. -/
theorem resolve_eq (keys : KeyStyle) : ∀ value : Value, resolver.resolve keys value =
    (resolver.toView.resolve keys value).written resolver.libraries
  | .null | .bool _ | .number _ | .string _ => pure_eq _
  | .list items => by
    rw [resolve, resolveItems_eq keys items, Noted.writtenItems, adding_map]
    rfl
  | .map entries => by
    rw [resolve, View.resolve]
    cases passedFunction? entries with
    | none =>
      rw [resolveEntries_eq keys entries]
      exact doObject_written ..
    | some function =>
      simp only [resolveEntries_eq .verbatim entries, doObject_written, warn_eq]
      exact adding_bind ..
  | .ref target => resolver.reference_eq target
  | .pseudo parameter => by
    refine (pure_eq _).trans ?_
    cases parameter <;> rfl
  | .getAtt target name => resolver.getAtt_eq target name
  | .join delimiter parts => by
    rw [resolve, resolve_eq .property parts]
    exact resolver.bind_call_written _ _ (by simp [itemsDefer, Expr.defers])
  | .sub pieces bindings => by
    rw [resolve, resolveEntries_eq .property bindings]
    exact resolver.substitution_eq ..
  | .select index list => by
    rw [resolve, resolve_eq .property index]
    simp only [resolve_eq .property list, bind_call]
    rw [Noted.written, adding_bind, adding_congr (helperUses_append resolver.libraries _ _ _ _),
      Bool.or_true, ← Bool.or_false (View.resolve _ _ list).value.defers]
    rfl
  | .split delimiter source => by
    rw [resolve, resolve_eq .property source]
    exact resolver.bind_call_written _ _ (by simp [itemsDefer, Expr.defers])
  | .importValue source | .base64 source => by
    rw [resolve, resolve_eq .property source]
    exact resolver.bind_call_written _ _ (by simp [itemsDefer])
  | .zones region => by
    rw [resolve, View.resolve]
    split
    · exact resolver.call_eq ..
    · rw [resolve_eq .property region]
      exact resolver.bind_call_written _ _ (by simp [itemsDefer])

theorem resolveItems_eq (keys : KeyStyle) : ∀ items : List Value,
    resolver.resolveItems keys items =
      (Noted.gather (resolver.toView.resolveItems keys items)).writtenItems resolver.libraries
  | [] => pure_eq []
  | item :: rest => by
    rw [resolveItems, resolve_eq keys item, resolveItems_eq keys rest]
    exact Noted.writtenItems_cons ..

theorem resolveEntries_eq (keys : KeyStyle) : ∀ entries : List (String × Value),
    resolver.resolveEntries keys entries =
      (resolver.toView.resolveEntries keys entries).map
        fun entry => (entry.1, entry.2.written resolver.libraries)
  | [] => rfl
  | (key, value) :: rest => by
    rw [resolveEntries, resolve_eq keys value, resolveEntries_eq keys rest]
    rfl

end

mutual

/-- The property at a path is written as the view says, with the imports that it needs. -/
theorem property_eq (verbatim path : List String) : ∀ value : Value,
    resolver.property verbatim path value =
      (resolver.toView.property verbatim path value).written resolver.libraries
  | .map entries => by
    rw [property, View.property]
    split
    · exact resolver.resolve_eq ..
    · cases passedFunction? entries with
      | none =>
        rw [propertyEntries_eq verbatim path entries]
        exact doObject_written ..
      | some function => exact resolver.resolve_eq ..
  | .list items => by
    rw [property, View.property]
    split
    · exact resolver.resolve_eq ..
    · rw [propertyItems_eq verbatim path items, Noted.writtenItems, adding_map]
      rfl
  | .null | .bool _ | .number _ | .string _ | .ref _ | .pseudo _ | .getAtt _ _ | .join _ _
  | .sub _ _ | .select _ _ | .split _ _ | .importValue _ | .base64 _ | .zones _ => by
    rw [property.eq_def, View.property.eq_def]
    split
    all_goals exact resolver.resolve_eq ..

theorem propertyItems_eq (verbatim path : List String) : ∀ items : List Value,
    resolver.propertyItems verbatim path items =
      (Noted.gather (resolver.toView.propertyItems verbatim path items)).writtenItems
        resolver.libraries
  | [] => pure_eq []
  | item :: rest => by
    rw [propertyItems, property_eq verbatim path item, propertyItems_eq verbatim path rest]
    exact Noted.writtenItems_cons ..

theorem propertyEntries_eq (verbatim path : List String) : ∀ entries : List (String × Value),
    resolver.propertyEntries verbatim path entries =
      (resolver.toView.propertyEntries verbatim path entries).map
        fun entry => (entry.1, entry.2.written resolver.libraries)
  | [] => rfl
  | (name, value) :: rest => by
    rw [propertyEntries, property_eq verbatim (path ++ [name]) value,
      propertyEntries_eq verbatim path rest]
    rfl

end

theorem properties_eq (verbatim : List String) (entries : List (String × Value)) :
    resolver.properties verbatim entries =
      (resolver.toView.properties verbatim entries).written resolver.libraries := by
  rw [properties, propertyEntries_eq]
  exact doObject_written ..

variable (ledger : Ledger)

theorem resolve_run (keys : KeyStyle) (value : Value) :
    ((resolver.resolve keys value).run ledger).1 =
      (resolver.toView.resolve keys value).value := by
  rw [resolve_eq]
  rfl

theorem properties_run (verbatim : List String) (entries : List (String × Value)) :
    ((resolver.properties verbatim entries).run ledger).1 =
      (resolver.toView.properties verbatim entries).value := by
  rw [properties_eq]
  rfl

end Resolver

/-! ## Declarations -/

theorem textEntry_needs (key : String) (text? : Option String) :
    entriesCall (textEntry key text?) = false ∧ entriesDefer (textEntry key text?) = false := by
  cases text? <;> exact ⟨rfl, rfl⟩

theorem mapEntry_eq (resolver : Resolver) (key : String) (value? : Option Value) :
    mapEntry resolver key value? =
      (valueEntry resolver.toView key value?).writtenEntries resolver.libraries := by
  cases value? with
  | none => exact pure_eq []
  | some value =>
    rw [mapEntry, resolver.resolve_eq, Noted.written, adding_map, Noted.writtenEntries]
    simp [valueEntry, entries_any, bind, pure]

theorem mapAllowed_eq (resolver : Resolver) (allowed? : Option (List Value)) :
    mapAllowed resolver allowed? =
      (allowedEntry resolver.toView allowed?).writtenEntries resolver.libraries := by
  cases allowed? with
  | none => exact pure_eq []
  | some values =>
    rw [mapAllowed, resolver.resolveItems_eq, Noted.writtenItems, adding_map,
      Noted.writtenEntries]
    simp [allowedEntry, entries_any, bind, pure, Expr.calls, Expr.defers]

/-- **A parameter** imports its class and what its expression needs. -/
theorem mapParameter_eq (libraries : Libraries) (scope : Scope) (parameter : Parameter) :
    mapParameter libraries scope parameter =
      (parameterStatement scope parameter).adding (parameterUse libraries parameter ::
        expressionUses libraries (parameterStatement scope parameter).value) := by
  simp only [mapParameter, need_eq, mapEntry_eq, mapAllowed_eq, Resolver.resolveEntries_eq,
    doEntries_written, Noted.writtenEntries, adding_map, adding_bind]
  let view : View := ⟨scope, parameter.name, 0⟩
  let default := (valueEntry view "default" parameter.default).value
  let allowed := (allowedEntry view parameter.allowed).value
  let constraints :=
    (Noted.gatherEntries (view.resolveEntries .property parameter.constraints)).value
  have hneeds : expressionUses libraries (parameterStatement scope parameter).value =
      helperUses libraries (entriesCall default || (entriesCall allowed || entriesCall constraints))
        (entriesDefer default || (entriesDefer allowed || entriesDefer constraints)) := by
    change helperUses libraries
      (entriesCall (textEntry _ _ ++ textEntry _ _ ++ default ++ allowed ++
        constraints.map fun entry => (propertyName entry.1, entry.2)))
      (entriesDefer (textEntry _ _ ++ textEntry _ _ ++ default ++ allowed ++
        constraints.map fun entry => (propertyName entry.1, entry.2))) = _
    simp only [entriesCall_append, entriesDefer_append, textEntry_needs, entries_rename,
      Bool.false_or, Bool.or_assoc]
  rw [hneeds]
  refine adding_congr (SameImports.append (.refl [_]) ?_) (parameterStatement scope parameter)
  exact ((SameImports.refl _).append (helperUses_append libraries _ _ _ _)).trans
    (helperUses_append libraries _ _ _ _)

theorem mapCondition_eq (owner : String) (condition? : Option String) :
    mapCondition owner condition? = (warnCondition owner condition?).adding [] := by
  cases condition? with
  | none => exact pure_eq ()
  | some condition => exact warn_eq _

/-- **A resource** imports its class and what its expression needs. -/
theorem mapResource_eq (libraries : Libraries) (scope : Scope) (place : Nat) (resource : Resource) :
    mapResource libraries scope place resource =
      (resourceStatement scope place resource).adding
        ((resourceUse? libraries scope resource).toList ++
          expressionUses libraries (resourceStatement scope place resource).value) := by
  unfold mapResource resourceStatement resourceUse?
  rw [mapCondition_eq]
  cases supported? scope resource with
  | none =>
    simp only [warn_eq, adding_map, adding_bind]
    rfl
  | some pair =>
    simp only [need_eq, Resolver.properties_eq, Noted.written, adding_map, adding_bind]
    rfl

/-- **An output** imports what its expression needs. -/
theorem mapOutput_eq (libraries : Libraries) (scope : Scope) (count : Nat) (output : Output) :
    mapOutput libraries scope count output =
      (outputStatement scope count output).adding
        (expressionUses libraries (outputStatement scope count output).value) := by
  simp only [mapOutput, mapCondition_eq, mapEntry_eq, Resolver.resolve_eq, Noted.written,
    Noted.writtenEntries, adding_map, adding_bind]
  let view : View := ⟨scope, output.name, count⟩
  let value := (view.resolve .property output.value).value
  let exportName := (valueEntry view "exportName" output.exportName).value
  have hneeds : expressionUses libraries (outputStatement scope count output).value =
      helperUses libraries (value.calls || entriesCall exportName)
        (value.defers || entriesDefer exportName) := by
    change helperUses libraries (entriesCall ([("value", value)] ++ textEntry _ _ ++ exportName))
      (entriesDefer ([("value", value)] ++ textEntry _ _ ++ exportName)) = _
    simp only [entriesCall_append, entriesDefer_append, textEntry_needs, entriesCall, entriesDefer,
      Bool.or_false]
  rw [hneeds, List.nil_append, adding_congr (helperUses_append libraries _ _ _ _)]
  rfl

theorem expressionUses_plain (libraries : Libraries) (statement : Statement) :
    ∀ use ∈ expressionUses libraries statement, use.localName? = none := by
  unfold expressionUses
  cases statement.props? with
  | none => exact List.forall_mem_nil _
  | some props => exact helperUses_plain libraries props.calls props.defers

/-- The statements of a list import their classes, and then what their expressions need. -/
theorem statements_cons (libraries : Libraries) (first : Noted Statement) (uses : List Use)
    (rest : List (Noted Statement)) (uses' : List Use) :
    (do
      let statement ← first.adding (uses ++ expressionUses libraries first.value)
      return statement :: (← (Noted.gather rest).adding
        (uses' ++ (Noted.gather rest).value.flatMap (expressionUses libraries)))) =
      (Noted.gather (first :: rest)).adding ((uses ++ uses') ++
        (Noted.gather (first :: rest)).value.flatMap (expressionUses libraries)) := by
  rw [adding_cons]
  refine adding_congr ?_ _
  have hneeds : (Noted.gather (first :: rest)).value.flatMap (expressionUses libraries) =
      expressionUses libraries first.value ++
        (Noted.gather rest).value.flatMap (expressionUses libraries) := List.flatMap_cons
  have hswap := SameImports.swap (expressionUses_plain libraries first.value) uses'
  rw [hneeds]
  simpa only [List.append_assoc] using (SameImports.refl uses).append (hswap.append (.refl _))

theorem mapParameters_eq (libraries : Libraries) (scope : Scope) (parameters : List Parameter) :
    parameters.mapM (mapParameter libraries scope) =
      (Noted.gather (parameters.map (parameterStatement scope))).adding
        (parameters.map (parameterUse libraries) ++
          (Noted.gather (parameters.map (parameterStatement scope))).value.flatMap
            (expressionUses libraries)) := by
  induction parameters with
  | nil => exact pure_eq []
  | cons parameter parameters ih =>
    rw [List.mapM_cons, ih, mapParameter_eq]
    exact statements_cons libraries _ [_] _ _

theorem mapResources_eq (libraries : Libraries) (scope : Scope) (place : Nat)
    (resources : List Resource) :
    mapResources libraries scope place resources =
      (Noted.gather (resourceStatements scope place resources)).adding
        (resources.filterMap (resourceUse? libraries scope) ++
          (Noted.gather (resourceStatements scope place resources)).value.flatMap
            (expressionUses libraries)) := by
  induction resources generalizing place with
  | nil => exact pure_eq []
  | cons resource resources ih =>
    have huses : (resource :: resources).filterMap (resourceUse? libraries scope) =
        (resourceUse? libraries scope resource).toList ++
          resources.filterMap (resourceUse? libraries scope) := by
      rw [List.filterMap_cons]
      cases resourceUse? libraries scope resource <;> rfl
    rw [mapResources, ih, mapResource_eq, huses]
    exact statements_cons ..

theorem mapOutputs_eq (libraries : Libraries) (scope : Scope) (count : Nat)
    (outputs : List Output) :
    mapOutputs libraries scope count outputs =
      (Noted.gather (outputs.map (outputStatement scope count))).adding
        ((if outputs.isEmpty then [] else [outputUse libraries]) ++
          (Noted.gather (outputs.map (outputStatement scope count))).value.flatMap
            (expressionUses libraries)) := by
  have houtputs : outputs.mapM (mapOutput libraries scope count) =
      (Noted.gather (outputs.map (outputStatement scope count))).adding
        ((Noted.gather (outputs.map (outputStatement scope count))).value.flatMap
          (expressionUses libraries)) := by
    induction outputs with
    | nil => exact pure_eq []
    | cons output outputs ih =>
      rw [List.mapM_cons, ih, mapOutput_eq]
      exact statements_cons libraries _ [] _ []
  rw [mapOutputs, houtputs]
  cases outputs.isEmpty with
  | true => rfl
  | false =>
    rw [need_eq]
    exact adding_bind ..

theorem mapDependency_eq (scope : Scope) (resource dependency : String) :
    mapDependency scope resource dependency =
      (dependencyStatement scope resource dependency).adding [] := by
  unfold mapDependency dependencyStatement
  cases scope.identifier? resource with
  | none =>
    rw [warn_eq]
    exact adding_map ..
  | some identifier =>
    cases scope.identifier? dependency with
    | none =>
      rw [warn_eq]
      exact adding_map ..
    | some other => exact pure_eq _

/-- Dependencies import nothing. -/
theorem mapDependencies_eq (scope : Scope) (resources : List Resource) :
    mapDependencies scope resources =
      (do return (← Noted.gather (resources.flatMap (dependencyStatements scope))).filterMap id :
        Noted (List Statement)).adding [] := by
  have heach : ∀ resource : Resource, resource.dependsOn.mapM (mapDependency scope resource.name) =
      (Noted.gather (dependencyStatements scope resource)).adding [] := by
    intro resource
    rw [funext (mapDependency_eq scope resource.name)]
    exact Noted.mapM_adding_nil ..
  simp only [mapDependencies, heach, Noted.mapM_adding_nil, adding_map, Noted.map_eq,
    Noted.gather_value, Noted.gather_warnings, List.map_map, Function.comp_def, List.flatMap_map,
    List.flatMap_assoc, List.map_flatMap]
  rfl

/-! ## Templates -/

/-- All that a template needs: the classes first, and then what its expressions need. -/
theorem uses_sorted (template : Template) (libraries : Libraries) (scope : Scope)
    (parameters resources outputs : List Statement) :
    SameImports
      (template.parameters.map (parameterUse libraries) ++
          parameters.flatMap (expressionUses libraries) ++
        (template.resources.filterMap (resourceUse? libraries scope) ++
          resources.flatMap (expressionUses libraries)) ++
        ((if template.outputs.isEmpty then [] else [outputUse libraries]) ++
          outputs.flatMap (expressionUses libraries)))
      (StackCode.uses template libraries scope (parameters ++ resources ++ outputs)) := by
  have hplain : ∀ statements : List Statement,
      ∀ use ∈ statements.flatMap (expressionUses libraries), use.localName? = none := by
    intro statements use huse
    obtain ⟨statement, -, hmem⟩ := List.mem_flatMap.1 huse
    exact expressionUses_plain libraries statement use hmem
  have hpast : ∀ (statements : List Statement) (others : List Use) (imports : Imports),
      others.foldl Use.addTo
          ((statements.flatMap (expressionUses libraries)).foldl Use.addTo imports) =
        (statements.flatMap (expressionUses libraries)).foldl Use.addTo
          (others.foldl Use.addTo imports) := by
    intro statements others imports
    simpa only [List.foldl_append] using SameImports.swap (hplain statements) others imports
  intro imports
  -- what the parameters need goes past the classes of the resources, and then what both need past
  -- the class of the outputs
  simp only [StackCode.uses, List.flatMap_append, List.foldl_append]
  rw [hpast parameters, hpast resources, hpast parameters]

/-- **Mapping a template** on top of a ledger is building its code, and adding its warnings to
those of the ledger. -/
theorem mapTemplate_eq (libraries : Libraries) (template : Template) (ledger : Ledger) :
    let code := StackCode.build template ledger.imports libraries
    ((mapTemplate libraries template).run ledger).1 =
      { code with warnings := ledger.warnings ++ code.warnings } := by
  intro code
  have himports := uses_sorted template libraries (Scope.ofTemplate template)
    (Noted.gather (template.parameters.map (parameterStatement (.ofTemplate template)))).value
    (Noted.gather (resourceStatements (.ofTemplate template) 0 template.resources)).value
    (Noted.gather (template.outputs.map (outputStatement (.ofTemplate template)
      template.resources.length))).value ledger.imports
  simp only [List.foldl_append] at himports
  simp only [mapTemplate, mapParameters_eq, mapResources_eq, mapDependencies_eq, mapOutputs_eq]
  simp only [code, StackCode.build, ← himports, ← List.append_assoc]
  simp only [StateT.run_bind, Noted.run_adding, Noted.map_eq, pure_bind, StateT.run_get,
    List.foldl_append]
  rfl

/-- A template that has no circle is mapped to its code. -/
theorem ofTemplate_of_ok {template : Template} (h : template.checkCycles = .ok ())
    (imports : Imports) (libraries : Libraries) :
    StackCode.ofTemplate template imports libraries = .ok (.build template imports libraries) := by
  rw [StackCode.ofTemplate, h]
  exact congrArg Except.ok (mapTemplate_eq libraries template ⟨imports, []⟩)

theorem ofTemplate_of_error {template : Template} {failure : Failure}
    (h : template.checkCycles = .error failure) (imports : Imports) (libraries : Libraries) :
    StackCode.ofTemplate template imports libraries = .error failure := by
  rw [StackCode.ofTemplate, h]
  rfl

theorem build_eq_merge (template : Template) (imports : Imports) (libraries : Libraries) :
    StackCode.build template imports libraries =
      { StackCode.build template .empty libraries with
        imports := imports.merge (StackCode.build template .empty libraries).imports } := by
  simp only [StackCode.build]
  rw [foldl_addTo_eq_merge _ imports]

/-- **What is imported already does not influence mapping.** A template can be mapped on top of any
imports or of none, the code is the same, and its imports are merged into the given ones. -/
theorem ofTemplate_merges_imports (template : Template) (imports : Imports)
    (libraries : Libraries) : StackCode.ofTemplate template imports libraries =
      (StackCode.ofTemplate template .empty libraries).map fun code =>
        { code with imports := imports.merge code.imports } := by
  cases hcheck : template.checkCycles with
  | error failure =>
    rw [ofTemplate_of_error hcheck, ofTemplate_of_error hcheck]
    rfl
  | ok =>
    rw [ofTemplate_of_ok hcheck, ofTemplate_of_ok hcheck, build_eq_merge]
    rfl

end CdkStacks.Construct
