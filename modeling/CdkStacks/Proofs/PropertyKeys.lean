import CdkStacks.Proofs.Resolved
import Mathlib.Data.List.Infix

/-!
# Keys of properties

The properties of a resource are written as an object of the same shape. Their names become property
names, except in free-form maps and in functions that are passed through.

* `Expr.at?` is the part of an expression at an address;
* `Reached` relates the values below properties to the ways on which they are reached: the address,
  the names on the way and the maps on the way;
* `Kept` says where keys are kept: a path on the way is free-form, or the map is in a function;
* `View.Written.item`, `View.Written.entry`: what one step down does; `Reached.written`: so what is
  written at the address of a value is its expression;
* `properties_mirrored`: maps are written as objects, lists as arrays and all else as one text, in
  the same places, with the keys that `Kept` asks for.
-/

namespace CdkStacks.TypeScript

/-! ## Parts of expressions -/

/-- The items of an array, or the values of an object. -/
def Expr.children : Expr → List Expr
  | .array items => items
  | .object entries => entries.map Prod.snd
  | _ => []

/-- The part of an expression at an address, which lists the positions on the way to it. -/
def Expr.at? (e : Expr) : List Nat → Option Expr
  | [] => some e
  | i :: rest => e.children[i]?.bind fun part => part.at? rest

/-- Whether an expression is one text, neither an array nor an object. -/
def Expr.isRaw : Expr → Bool
  | .array _ | .object _ => false
  | _ => true

theorem Expr.at?_concat {e whole part : Expr} {address : List Nat} {i : Nat}
    (h : e.at? address = some whole) (hpart : whole.children[i]? = some part) :
    e.at? (address ++ [i]) = some part := by
  induction address generalizing e with
  | nil =>
    obtain rfl : e = whole := by simpa [at?] using h
    simp [at?, hpart]
  | cons j rest ih =>
    obtain ⟨next, hnext, hrest⟩ := Option.bind_eq_some_iff.1 h
    simp [at?, hnext, ih hrest]

end CdkStacks.TypeScript

namespace CdkStacks.Construct

open CdkStacks.Template CdkStacks.TypeScript

/-! ## Ways -/

/-- The way to a value below the properties of a resource. -/
structure Way where
  /-- The positions on the way. -/
  address : List Nat
  /-- The names on the way, from the name of the property on. -/
  names : List String
  /-- The maps on the way, innermost first. The properties themselves are none of them. -/
  maps : List (List (String × Value))

/-- The values below properties, with the ways to them. Arguments of functions are not below a
property, and items have the names of their list. -/
inductive Reached (properties : List (String × Value)) : Way → Value → Prop
  | property {i : Nat} {name : String} {value : Value} : properties[i]? = some (name, value) →
      Reached properties ⟨[i], [name], []⟩ value
  | item {way : Way} {items : List Value} {i : Nat} {item : Value} :
      Reached properties way (.list items) → items[i]? = some item →
      Reached properties ⟨way.address ++ [i], way.names, way.maps⟩ item
  | entry {way : Way} {entries : List (String × Value)} {i : Nat} {key : String} {value : Value} :
      Reached properties way (.map entries) → entries[i]? = some (key, value) →
      Reached properties ⟨way.address ++ [i], way.names ++ [key], entries :: way.maps⟩ value

theorem Reached.names_ne_nil {properties : List (String × Value)} {way : Way} {value : Value}
    (h : Reached properties way value) : way.names ≠ [] := by
  induction h with
  | property _ => simp
  | item _ _ ih => exact ih
  | entry _ _ ih => simp

/-! ## Where keys are kept -/

/-- A map that stands for a function: it has a single key, which starts with `Fn::`. -/
def IsApplication (entries : List (String × Value)) : Prop :=
  ∃ key value, entries = [(key, value)] ∧ "Fn::".toList <+: key.toList

/-- Keys are kept where a path on the way is free-form or one of the maps stands for a function. -/
def Kept (verbatim names : List String) (maps : List (List (String × Value))) : Prop :=
  (∃ front, front ≠ [] ∧ front <+: names ∧ ".".intercalate front ∈ verbatim) ∨
    ∃ entries ∈ maps, IsApplication entries

theorem passedFunction?_isSome_iff {entries : List (String × Value)} :
    (passedFunction? entries).isSome ↔ IsApplication entries := by
  unfold IsApplication
  match entries with
  | [] => simp [passedFunction?]
  | [(key, value)] => simp [passedFunction?, List.isPrefixOf_iff_prefix]
  | _ :: _ :: _ => simp [passedFunction?]

theorem passedFunction?_eq_none_iff {entries : List (String × Value)} :
    passedFunction? entries = none ↔ ¬ IsApplication entries := by
  rw [← passedFunction?_isSome_iff, Bool.not_eq_true, Option.isSome_eq_false_iff,
    Option.isNone_iff_eq_none]

section Kept

variable {verbatim names : List String} {maps : List (List (String × Value))}

theorem Kept.of_path (hne : names ≠ []) (h : ".".intercalate names ∈ verbatim) :
    Kept verbatim names maps :=
  Or.inl ⟨names, hne, List.prefix_rfl, h⟩

theorem kept_cons_iff {entries : List (String × Value)} :
    Kept verbatim names (entries :: maps) ↔ Kept verbatim names maps ∨ IsApplication entries := by
  simp only [Kept, List.exists_mem_cons_iff, or_assoc]
  rw [or_comm (a := IsApplication entries)]

theorem kept_concat_iff {key : String} : Kept verbatim (names ++ [key]) maps ↔
    Kept verbatim names maps ∨ ".".intercalate (names ++ [key]) ∈ verbatim := by
  constructor
  · rintro (⟨front, hne, hfront, hmem⟩ | happlication)
    · rcases List.prefix_concat_iff.1 hfront with rfl | hfront
      · exact Or.inr hmem
      · exact Or.inl (Or.inl ⟨front, hne, hfront, hmem⟩)
    · exact Or.inl (Or.inr happlication)
  · rintro ((⟨front, hne, hfront, hmem⟩ | happlication) | hmem)
    · exact Or.inl ⟨front, hne, hfront.trans (List.prefix_append ..), hmem⟩
    · exact Or.inr happlication
    · exact .of_path (by simp) hmem

/-- One step down, keys are kept for one of three reasons. -/
theorem kept_entry_iff {entries : List (String × Value)} {key : String} :
    Kept verbatim (names ++ [key]) (entries :: maps) ↔
      Kept verbatim names maps ∨ IsApplication entries ∨
        ".".intercalate (names ++ [key]) ∈ verbatim := by
  rw [kept_concat_iff, kept_cons_iff, or_assoc]

end Kept

/-! ## What is written at an address -/

section Written

variable {view : View} {verbatim : List String} {way : Way} {e : Expr} {i : Nat}

/-- The expression for a value at the end of a way: all its keys are kept where keys are to be kept,
and elsewhere it is resolved as a property. -/
def View.Written (view : View) (verbatim : List String) (way : Way) (value : Value) (e : Expr) :
    Prop :=
  (Kept verbatim way.names way.maps → e = (view.resolve .verbatim value).value) ∧
    (¬ Kept verbatim way.names way.maps → e = (view.property verbatim way.names value).value)

theorem written_property (view : View) (verbatim : List String) (name : String) (value : Value)
    (i : Nat) : view.Written verbatim ⟨[i], [name], []⟩ value
      (view.property verbatim [name] value).value := by
  refine ⟨fun hkept => ?_, fun _ => rfl⟩
  have hkept : Kept verbatim ([] ++ [name]) [] := hkept
  rcases kept_concat_iff.1 hkept with hkept | hmem
  · -- nothing is kept before the first name
    simp [Kept] at hkept
  · exact congrArg Noted.value (View.property_of_mem view value hmem)

/-- The items of a list are written as the items of an array. -/
theorem View.Written.item {items : List Value} {item : Value}
    (h : view.Written verbatim way (.list items) e) (hnames : way.names ≠ [])
    (hitem : items[i]? = some item) : ∃ part, e.children[i]? = some part ∧
      view.Written verbatim ⟨way.address ++ [i], way.names, way.maps⟩ item part := by
  by_cases hkept : Kept verbatim way.names way.maps
  · refine ⟨(view.resolve .verbatim item).value, ?_, fun _ => rfl, fun hfree => absurd hkept hfree⟩
    rw [h.1 hkept, View.resolve_list_value]
    simp [Expr.children, hitem]
  · have hpath : ".".intercalate way.names ∉ verbatim := fun hmem => hkept (.of_path hnames hmem)
    refine ⟨(view.property verbatim way.names item).value, ?_, fun hkeep => absurd hkeep hkept,
      fun _ => rfl⟩
    rw [h.2 hkept, View.property_list_value view items hpath]
    simp [Expr.children, hitem]

/-- The values of a map are written as the values of an object. -/
theorem View.Written.entry {entries : List (String × Value)} {key : String} {value : Value}
    (h : view.Written verbatim way (.map entries) e) (hnames : way.names ≠ [])
    (hentry : entries[i]? = some (key, value)) : ∃ part, e.children[i]? = some part ∧
      view.Written verbatim ⟨way.address ++ [i], way.names ++ [key], entries :: way.maps⟩ value
        part := by
  by_cases hkept : Kept verbatim way.names way.maps
  · refine ⟨(view.resolve .verbatim value).value, ?_, fun _ => rfl, fun hfree => ?_⟩
    · rw [h.1 hkept, View.resolve_map_value]
      simp [Expr.children, hentry]
    · exact absurd (kept_entry_iff.2 (Or.inl hkept)) hfree
  · have hpath : ".".intercalate way.names ∉ verbatim := fun hmem => hkept (.of_path hnames hmem)
    rw [h.2 hkept]
    by_cases happlication : IsApplication entries
    · -- from here on all keys are kept
      refine ⟨(view.resolve .verbatim value).value, ?_, fun _ => rfl, fun hfree => ?_⟩
      · have hpassed := passedFunction?_isSome_iff.2 happlication
        rw [View.property_of_passed view hpath hpassed, View.resolve_map_value]
        simp [Expr.children, hentry, hpassed]
      · exact absurd (kept_entry_iff.2 (Or.inr (Or.inl happlication))) hfree
    · refine ⟨(view.property verbatim (way.names ++ [key]) value).value, ?_, fun hkeep => ?_,
        fun _ => rfl⟩
      · rw [View.property_map_value view hpath (passedFunction?_eq_none_iff.2 happlication)]
        simp [Expr.children, hentry]
      · -- the path is free-form from this key on
        rcases kept_entry_iff.1 hkeep with hkeep | hkeep | hmem
        · exact absurd hkeep hkept
        · exact absurd hkeep happlication
        · rw [View.property_of_mem view value hmem]

/-- **What is written at the address of a value** is its expression. -/
theorem Reached.written {properties : List (String × Value)} {value : Value}
    (h : Reached properties way value) (view : View) (verbatim : List String) :
    ∃ e, (view.properties verbatim properties).value.at? way.address = some e ∧
      view.Written verbatim way value e := by
  induction h with
  | @property i name value hproperty =>
    refine ⟨_, ?_, written_property view verbatim name value i⟩
    rw [View.properties_value]
    simp [Expr.at?, Expr.children, hproperty]
  | item hlist hitem ih =>
    obtain ⟨whole, hwhole, hwritten⟩ := ih
    obtain ⟨part, hpart, hwritten⟩ := hwritten.item hlist.names_ne_nil hitem
    exact ⟨part, Expr.at?_concat hwhole hpart, hwritten⟩
  | entry hmap hentry ih =>
    obtain ⟨whole, hwhole, hwritten⟩ := ih
    obtain ⟨part, hpart, hwritten⟩ := hwritten.entry hmap.names_ne_nil hentry
    exact ⟨part, Expr.at?_concat hwhole hpart, hwritten⟩

end Written

/-! ## Shapes -/

/-- What a value at the end of a way looks like in the code. -/
inductive Mirrors (verbatim : List String) (way : Way) : Value → Expr → Prop
  | map {entries : List (String × Value)} {written : List (String × Expr)} :
      (Kept verbatim way.names (entries :: way.maps) →
        written.map Prod.fst = entries.map Prod.fst) →
      (¬ Kept verbatim way.names (entries :: way.maps) →
        written.map Prod.fst = entries.map fun entry => propertyName entry.1) →
      Mirrors verbatim way (.map entries) (.object written)
  | list {items : List Value} {written : List Expr} : written.length = items.length →
      Mirrors verbatim way (.list items) (.array written)
  | raw {value : Value} {e : Expr} : (∀ entries, value ≠ .map entries) →
      (∀ items, value ≠ .list items) → e.isRaw → Mirrors verbatim way value e

section Raw

theorem reference_isRaw (view : View) (target : String) : (view.reference target).isRaw := by
  unfold View.reference View.member
  split
  · rfl
  · split
    · split_ifs <;> rfl
    · rfl

theorem getAtt_isRaw (view : View) (target name : String) : (view.getAtt target name).isRaw := by
  unfold View.getAtt View.member
  split
  · split_ifs <;> rfl
  · rfl

/-- Whatever is neither a map nor a list is written as one text. -/
theorem resolve_isRaw (view : View) {value : Value} (hmap : ∀ entries, value ≠ .map entries)
    (hlist : ∀ items, value ≠ .list items) (keys : KeyStyle) :
    (view.resolve keys value).value.isRaw := by
  cases value with
  | map entries => exact absurd rfl (hmap entries)
  | list items => exact absurd rfl (hlist items)
  | ref target => exact reference_isRaw view target
  | getAtt target name => exact getAtt_isRaw view target name
  | pseudo parameter => cases parameter <;> rfl
  | sub pieces bindings =>
    rw [View.resolve]
    by_cases htext : pieces.all Piece.isText
    · rw [substitution_value_text htext]
      rfl
    · rw [substitution_value htext]
      rfl
  | zones region =>
    rw [View.resolve]
    split_ifs <;> rfl
  | null | bool | number | string | join | select | split | importValue | base64 => rfl

end Raw

/-- The expression for a value has the shape of the value. -/
theorem View.Written.mirrors {view : View} {verbatim : List String} {way : Way} {value : Value}
    {e : Expr} (h : view.Written verbatim way value e) (hnames : way.names ≠ []) :
    Mirrors verbatim way value e := by
  by_cases hkept : Kept verbatim way.names way.maps
  · rw [h.1 hkept]
    cases value with
    | map entries =>
      rw [View.resolve_map_value]
      refine .map (fun _ => ?_) fun hfree => absurd (kept_cons_iff.2 (Or.inl hkept)) hfree
      simp [KeyStyle.apply]
    | list items =>
      rw [View.resolve_list_value]
      exact .list (by simp)
    | _ => exact .raw (by simp) (by simp) (resolve_isRaw view (by simp) (by simp) _)
  · have hpath : ".".intercalate way.names ∉ verbatim := fun hmem => hkept (.of_path hnames hmem)
    rw [h.2 hkept]
    cases value with
    | map entries =>
      by_cases happlication : IsApplication entries
      · have hpassed := passedFunction?_isSome_iff.2 happlication
        rw [View.property_of_passed view hpath hpassed, View.resolve_map_value]
        refine .map (fun _ => ?_) fun hfree => absurd (kept_cons_iff.2 (Or.inr happlication)) hfree
        simp [hpassed, KeyStyle.apply]
      · rw [View.property_map_value view hpath (passedFunction?_eq_none_iff.2 happlication)]
        refine .map (fun hkeep => ?_) fun _ => by simp
        exact absurd (kept_cons_iff.1 hkeep) (not_or.2 ⟨hkept, happlication⟩)
    | list items =>
      rw [View.property_list_value view items hpath]
      exact .list (by simp)
    | _ =>
      refine .raw (by simp) (by simp) ?_
      exact View.property_of_resolve (P := fun e => e.isRaw) (by simp) (by simp)
        (resolve_isRaw view (by simp) (by simp)) verbatim _

/-- **The properties of a resource are written in their shape.** They become an object with an entry
for each of them, under its property name. Whatever is reached below them is written at the same
address: a map as an object with as many entries in the same order, a list as an array of the same
length, and all else as one text. The keys of a map are kept when a path on the way to it is
free-form, or when it is, or is in, a map that stands for a function; otherwise they become property
names. -/
theorem properties_mirrored (resolver : Resolver) (ledger : Ledger) (verbatim : List String)
    (properties : List (String × Value)) :
    let props := ((resolver.properties verbatim properties).run ledger).1
    (∃ written, props = .object written ∧
      written.map Prod.fst = properties.map fun property => propertyName property.1) ∧
    ∀ way value, Reached properties way value →
      ∃ e, props.at? way.address = some e ∧ Mirrors verbatim way value e := by
  intro props
  have hprops : props = (resolver.toView.properties verbatim properties).value :=
    resolver.properties_run ledger verbatim properties
  rw [hprops]
  constructor
  · exact ⟨_, View.properties_value resolver.toView verbatim properties, by simp⟩
  · intro way value h
    obtain ⟨e, he, hwritten⟩ := h.written resolver.toView verbatim
    exact ⟨e, he, hwritten.mirrors h.names_ne_nil⟩

/-- A target of a rule, with a free-form map of paths. -/
def ruleTarget : List (String × Value) :=
  [("Id", .ref "Target"), ("InputTransformer", .map [("InputPathsMap", .map [("Some_Id", .null)])])]

/-- The properties of a rule. -/
def ruleProperties : List (String × Value) :=
  [("EventBusName", .null), ("Targets", .list [.map ruleTarget])]

theorem properties_mirrored_rule :
    let resolver : Resolver := ⟨⟨⟨[], []⟩, "Rule", 0⟩, .standard⟩
    let verbatim := ["EventPattern", "Targets.InputTransformer.InputPathsMap"]
    let props := ((resolver.properties verbatim ruleProperties).run ⟨.empty, []⟩).1
    (∃ written, props.at? [1, 0] = some (.object written) ∧
      written.map Prod.fst = [propertyName "Id", propertyName "InputTransformer"]) ∧
    ∃ written, props.at? [1, 0, 1, 0] = some (.object written) ∧
      written.map Prod.fst = ["Some_Id"] := by
  intro resolver verbatim props
  have hmirrored := (properties_mirrored resolver ⟨.empty, []⟩ verbatim ruleProperties).2
  have htargets : Reached ruleProperties ⟨[1], ["Targets"], []⟩ (.list [.map ruleTarget]) :=
    .property rfl
  have htarget : Reached ruleProperties ⟨[1, 0], ["Targets"], []⟩ (.map ruleTarget) :=
    .item htargets (i := 0) rfl
  have hpaths : Reached ruleProperties
      ⟨[1, 0, 1, 0], ["Targets", "InputTransformer", "InputPathsMap"],
        [[("InputPathsMap", .map [("Some_Id", .null)])], ruleTarget]⟩
      (.map [("Some_Id", .null)]) :=
    .entry (.entry htarget (i := 1) rfl) (i := 0) rfl
  constructor
  · obtain ⟨e, he, hmirrors⟩ := hmirrored _ _ htarget
    cases hmirrors with
    | raw hmap _ _ => exact absurd rfl (hmap _)
    | map _ hrename =>
      refine ⟨_, he, hrename ?_⟩
      change ¬ Kept verbatim ([] ++ ["Targets"]) [ruleTarget]
      rw [kept_concat_iff]
      simp [Kept, IsApplication, ruleTarget, verbatim]
  · obtain ⟨e, he, hmirrors⟩ := hmirrored _ _ hpaths
    cases hmirrors with
    | raw hmap _ _ => exact absurd rfl (hmap _)
    | map hkeep _ => exact ⟨_, he, hkeep (.of_path (by simp) (by simp [verbatim]))⟩

end CdkStacks.Construct
