import CdkStacks.Proofs.ByteOrder
import CdkStacks.Proofs.ImportFacts
import CdkStacks.Proofs.Spelling

/-!
# Import declarations

The lines of imports are sorted, and what is imported can be read off them.

* `Declaration` is one import declaration, `Declaration.text` is how it is written;
* `Declaration.read?` reads one from a line: the module stands between the quotes, the items stand
  between the braces, with commas between them; `declarationsOf` reads all lines;
* `Declaration.read?_text`: a declaration is read from its text, as long as its names are
  identifiers and its module has no quote;
* `Imports.declarationsOf_lines`: so the declarations of imports are read off their lines, and
  `Imports.has_iff_declared`: what is imported stands in them;
* `lines_tell_imports`: the declarations are in the order of the bytes of their modules and items,
  they tell which names are bound, and imports with the same lines are equal.
-/

namespace CdkStacks.TypeScript

/-! ## Declarations -/

/-- What a declaration imports: a module for its effect, types or values. -/
inductive ImportKind where
  | effect
  | types
  | values
  deriving DecidableEq, Repr

/-- The place of a kind among the declarations for one module. -/
def ImportKind.rank : ImportKind → Nat
  | effect => 0
  | types => 1
  | values => 2

/-- The kind of declaration that an item belongs to. -/
def Item.kind : Item → ImportKind
  | effect => .effect
  | type _ => .types
  | value _ | renamed _ _ => .values

/-- An item as it stands between the braces. -/
def Item.text : Item → String
  | effect => ""
  | type name | value name => name
  | renamed localName name => name ++ " as " ++ localName

/-- An import declaration. -/
structure Declaration where
  kind : ImportKind
  module : String
  items : List Item
  deriving DecidableEq, Repr

/-- The declaration for the effect of a module. -/
def Declaration.ofEffect (module : String) : Declaration :=
  ⟨.effect, module, [.effect]⟩

/-- A declaration as it is written. -/
def Declaration.text (declaration : Declaration) : String :=
  let source := "\"" ++ declaration.module ++ "\";"
  let braces := "\x7b " ++ ", ".intercalate (declaration.items.map Item.text) ++ " \x7d from " ++
    source
  match declaration.kind with
  | .effect => "import " ++ source
  | .types => "import type " ++ braces
  | .values => "import " ++ braces

/-! ## Reading declarations -/

/-- The words of a text, between blanks. -/
def wordsOf (text : List Char) : List String :=
  ((text.splitOn ' ').filter fun word => !word.isEmpty).map String.ofList

/-- The item that words stand for. -/
def Item.ofWords? : ImportKind → List String → Option Item
  | .types, [name] => some (.type name)
  | .values, [name] => some (.value name)
  | .values, [name, "as", localName] => some (.renamed localName name)
  | _, _ => none

/-- The items in a list with commas. -/
def itemsOf? (kind : ImportKind) (list : List Char) : Option (List Item) :=
  (list.splitOn ',').mapM fun text => Item.ofWords? kind (wordsOf text)

/-- The kind of a declaration with braces, by the words in front of them. -/
def ImportKind.ofWords? : List String → Option ImportKind
  | ["import"] => some .values
  | ["import", "type"] => some .types
  | _ => none

/-- The declaration with a given text in front of the module. -/
def Declaration.ofHead? (module : String) (head : List Char) : Option Declaration :=
  match head.splitOn '{' with
  | [keyword] => if wordsOf keyword = ["import"] then some (.ofEffect module) else none
  | [keyword, rest] =>
    match rest.splitOn '}' with
    | [list, link] => do
      let kind ← ImportKind.ofWords? (wordsOf keyword)
      let items ← itemsOf? kind list
      if wordsOf link = ["from"] then some ⟨kind, module, items⟩ else none
    | _ => none
  | _ => none

/-- The declaration on a line. -/
def Declaration.read? (line : String) : Option Declaration :=
  match line.toList.splitOn '"' with
  | [head, module, [';']] => Declaration.ofHead? (String.ofList module) head
  | _ => none

/-- The declarations on lines. -/
def declarationsOf (lines : List String) : List Declaration :=
  lines.filterMap Declaration.read?

/-! ## Words -/

theorem wordsOf_append (first second : List Char) :
    wordsOf (first ++ ' ' :: second) = wordsOf first ++ wordsOf second := by
  simp [wordsOf, List.splitOn_append_cons_self]

theorem wordsOf_of_notMem {text : String} (hne : text ≠ "") (h : ' ' ∉ text.toList) :
    wordsOf text.toList = [text] := by
  have hempty : text.toList.isEmpty = false := by simpa using hne
  simp [wordsOf, List.splitOn_eq_singleton h, hempty]

/-! ## Items that can be read -/

/-- Whether the names of an item are identifiers. -/
def Item.hasIdentifiers : Item → Bool
  | effect => true
  | type name | value name => isIdentifier name
  | renamed localName name => isIdentifier localName && isIdentifier name

theorem notMem_of_isIdentifier {name : String} {c : Char} (h : isIdentifier name)
    (hc : continuesIdentifier c = false) : c ∉ name.toList := by
  intro hmem
  rw [continues_of_isIdentifier h c hmem] at hc
  cases hc

theorem wordsOf_isIdentifier {name : String} (h : isIdentifier name) :
    wordsOf name.toList = [name] := by
  refine wordsOf_of_notMem ?_ (notMem_of_isIdentifier h (by decide))
  rintro rfl
  exact absurd h (by decide)

theorem Item.toList_renamed (localName name : String) : (renamed localName name).text.toList =
    name.toList ++ ' ' :: ("as".toList ++ ' ' :: localName.toList) := by
  simp [text]

/-- An item is read from its words. -/
theorem Item.ofWords?_text {item : Item} (h : item.hasIdentifiers) (hkind : item.kind ≠ .effect) :
    ofWords? item.kind (wordsOf item.text.toList) = some item := by
  cases item with
  | effect => exact absurd rfl hkind
  | type name | value name =>
    have hwords : wordsOf name.toList = [name] := wordsOf_isIdentifier h
    simp only [text, kind, hwords, ofWords?]
  | renamed localName name =>
    obtain ⟨hlocal, hname⟩ := Bool.and_eq_true_iff.1 h
    have hwords : wordsOf (renamed localName name).text.toList = [name, "as", localName] := by
      rw [toList_renamed, wordsOf_append, wordsOf_append, wordsOf_isIdentifier hname,
        wordsOf_isIdentifier hlocal, wordsOf_isIdentifier (by decide : isIdentifier "as")]
      rfl
    rw [hwords]
    rfl

/-- There is no mark in an item but blanks. -/
theorem Item.notMem_text {item : Item} (h : item.hasIdentifiers) {c : Char}
    (hc : continuesIdentifier c = false) (hblank : c ≠ ' ') : c ∉ item.text.toList := by
  cases item with
  | effect => simp [text]
  | type name | value name =>
    have hname : isIdentifier name := h
    exact notMem_of_isIdentifier hname hc
  | renamed localName name =>
    obtain ⟨hlocal, hname⟩ := Bool.and_eq_true_iff.1 h
    rw [toList_renamed]
    have has := notMem_of_isIdentifier (by decide : isIdentifier "as") hc
    simp only [List.mem_append, List.mem_cons, not_or]
    exact ⟨notMem_of_isIdentifier hname hc, hblank, has, hblank, notMem_of_isIdentifier hlocal hc⟩

/-! ## Lists of items -/

/-- What stands between the braces. -/
def listing (items : List Item) : List Char :=
  ' ' :: (", ".intercalate (items.map Item.text)).toList ++ [' ']

theorem listing_singleton (item : Item) : listing [item] = ' ' :: item.text.toList ++ [' '] := by
  simp [listing]

theorem listing_cons (item other : Item) (rest : List Item) : listing (item :: other :: rest) =
    (' ' :: item.text.toList) ++ ',' :: listing (other :: rest) := by
  simp [listing, String.intercalate_cons_cons]

theorem notMem_listing {items : List Item} (h : ∀ item ∈ items, item.hasIdentifiers) {c : Char}
    (hc : continuesIdentifier c = false) (hblank : c ≠ ' ') (hcomma : c ≠ ',') :
    c ∉ listing items := by
  induction items with
  | nil => simp [listing, hblank]
  | cons item rest ih =>
    obtain ⟨hitem, hrest⟩ := List.forall_mem_cons.1 h
    have htext := Item.notMem_text hitem hc hblank
    cases rest with
    | nil => simp [listing_singleton, hblank, htext]
    | cons other rest => simp [listing_cons, hblank, hcomma, htext, ih hrest]

/-- **Items are read from a list.** -/
theorem itemsOf?_listing {kind : ImportKind} (hkind : kind ≠ .effect) {items : List Item}
    (hne : items ≠ []) (h : ∀ item ∈ items, item.hasIdentifiers ∧ item.kind = kind) :
    itemsOf? kind (listing items) = some items := by
  have hread : ∀ item ∈ items, Item.ofWords? kind (wordsOf item.text.toList) = some item := by
    intro item hitem
    obtain ⟨hplain, rfl⟩ := h item hitem
    exact Item.ofWords?_text hplain hkind
  induction items with
  | nil => exact absurd rfl hne
  | cons item rest ih =>
    obtain ⟨⟨hplain, -⟩, hrest⟩ := List.forall_mem_cons.1 h
    obtain ⟨hitem, hread⟩ := List.forall_mem_cons.1 hread
    have hcomma : ',' ∉ item.text.toList := Item.notMem_text hplain (by decide) (by decide)
    have hfront : wordsOf (' ' :: item.text.toList) = wordsOf item.text.toList :=
      wordsOf_append [] item.text.toList
    unfold itemsOf?
    cases rest with
    | nil =>
      have hback : wordsOf (' ' :: item.text.toList ++ [' ']) = wordsOf item.text.toList := by
        rw [wordsOf_append, hfront]
        exact List.append_nil _
      rw [listing_singleton, List.splitOn_eq_singleton (by simpa using hcomma)]
      simp only [List.mapM_cons, List.mapM_nil, hback, hitem]
      rfl
    | cons other rest =>
      have hothers := ih (by simp) hrest hread
      unfold itemsOf? at hothers
      rw [listing_cons, List.splitOn_append_cons_self_of_not_mem (by simpa using hcomma)]
      simp only [List.mapM_cons, hfront, hitem, hothers]
      rfl

/-! ## Declarations that can be read -/

/-- Whether a declaration is one that can be read: it has items of its kind, whose names are
identifiers, and its module has no quote. -/
structure Declaration.Plain (declaration : Declaration) : Prop where
  module : '"' ∉ declaration.module.toList
  items : ∀ item ∈ declaration.items, item.hasIdentifiers ∧ item.kind = declaration.kind
  effect : declaration.kind = .effect → declaration.items = [.effect]
  ne_nil : declaration.items ≠ []

/-- A line with a quoted module behind its head. -/
theorem read?_quoted {module : String} (head : String) (hhead : '"' ∉ head.toList)
    (hmodule : '"' ∉ module.toList) :
    Declaration.read? (head ++ ("\"" ++ module ++ "\";")) =
      Declaration.ofHead? module head.toList := by
  have hline : (head ++ ("\"" ++ module ++ "\";")).toList =
      head.toList ++ '"' :: (module.toList ++ '"' :: [';']) := by
    simp
  have hend : [';'].splitOn '"' = [[';']] := rfl
  rw [Declaration.read?, hline, List.splitOn_append_cons_self_of_not_mem hhead,
    List.splitOn_append_cons_self_of_not_mem hmodule, hend]
  simp

section Braces

variable {module keyword : String} {kind : ImportKind} {items : List Item}

/-- A head with a list between braces. -/
theorem ofHead?_braces (hkeyword : '{' ∉ keyword.toList)
    (hkind : ImportKind.ofWords? (wordsOf keyword.toList) = some kind) (heffect : kind ≠ .effect)
    (hne : items ≠ []) (h : ∀ item ∈ items, item.hasIdentifiers ∧ item.kind = kind) :
    Declaration.ofHead? module
      (keyword.toList ++ '{' :: (listing items ++ '}' :: " from ".toList)) =
        some ⟨kind, module, items⟩ := by
  have hplain : ∀ item ∈ items, item.hasIdentifiers := fun item hitem => (h item hitem).1
  have hopen : '{' ∉ listing items ++ '}' :: " from ".toList := by
    have hlist : '{' ∉ listing items := notMem_listing hplain (by decide) (by decide) (by decide)
    simp [hlist]
  have hclose : '}' ∉ listing items :=
    notMem_listing hplain (by decide) (by decide) (by decide)
  have hlink : " from ".toList.splitOn '}' = [" from ".toList] := by decide
  have hwords : wordsOf " from ".toList = ["from"] := by decide
  rw [Declaration.ofHead?, List.splitOn_append_cons_self_of_not_mem hkeyword,
    List.splitOn_eq_singleton hopen]
  dsimp only
  rw [List.splitOn_append_cons_self_of_not_mem hclose, hlink]
  simp only [hkind, Option.bind_eq_bind, Option.bind_some, itemsOf?_listing heffect hne h, hwords,
    ↓reduceIte]

/-- A line with a list between braces. -/
theorem read?_braces (hmodule : '"' ∉ module.toList)
    (hkeyword : '"' ∉ keyword.toList ∧ '{' ∉ keyword.toList)
    (hkind : ImportKind.ofWords? (wordsOf keyword.toList) = some kind) (heffect : kind ≠ .effect)
    (hne : items ≠ []) (h : ∀ item ∈ items, item.hasIdentifiers ∧ item.kind = kind) :
    Declaration.read? (keyword ++ ("\x7b " ++ ", ".intercalate (items.map Item.text) ++
      " \x7d from " ++ ("\"" ++ module ++ "\";"))) = some ⟨kind, module, items⟩ := by
  have hhead : (keyword ++ "\x7b " ++ ", ".intercalate (items.map Item.text) ++
      " \x7d from ").toList =
      keyword.toList ++ '{' :: (listing items ++ '}' :: " from ".toList) := by
    simp [listing]
  have hquote : '"' ∉ keyword.toList ++ '{' :: (listing items ++ '}' :: " from ".toList) := by
    have hlist : '"' ∉ listing items :=
      notMem_listing (fun item hitem => (h item hitem).1) (by decide) (by decide) (by decide)
    simp [hkeyword.1, hlist]
  have hline : keyword ++ ("\x7b " ++ ", ".intercalate (items.map Item.text) ++ " \x7d from " ++
      ("\"" ++ module ++ "\";")) = keyword ++ "\x7b " ++ ", ".intercalate (items.map Item.text) ++
      " \x7d from " ++ ("\"" ++ module ++ "\";") := by
    simp only [String.append_assoc]
  rw [hline, read?_quoted _ (hhead ▸ hquote) hmodule, hhead]
  exact ofHead?_braces hkeyword.2 hkind heffect hne h

end Braces

/-- **A declaration is read from its text.** -/
theorem Declaration.read?_text {declaration : Declaration} (h : declaration.Plain) :
    read? declaration.text = some declaration := by
  obtain ⟨kind, module, items⟩ := declaration
  cases kind with
  | effect =>
    have hitems : items = [.effect] := h.effect rfl
    subst hitems
    exact read?_quoted "import " (by decide) h.module
  | types => exact read?_braces h.module (by decide) rfl (by decide) h.ne_nil h.items
  | values => exact read?_braces h.module (by decide) rfl (by decide) h.ne_nil h.items

/-! ## Declarations of imports -/

namespace ModuleImports

/-- The items whose specifiers stand between the braces for values, in that order. -/
def valueItems (imports : ModuleImports) : List Item :=
  imports.specifiers.filterMap fun text => Item.ofWords? .values (wordsOf text.toList)

/-- The declarations for one module. -/
def declarations (module : String) (imports : ModuleImports) : List Declaration :=
  (if imports.effect then [.ofEffect module] else []) ++
    (if imports.types.isEmpty then [] else [⟨.types, module, imports.types.keys.map .type⟩]) ++
    (if imports.specifiers.isEmpty then [] else [⟨.values, module, imports.valueItems⟩])

/-- The names of all items are identifiers. -/
def Plain (imports : ModuleImports) : Prop :=
  ∀ item ∈ imports.items, item.hasIdentifiers

variable {imports : ModuleImports}

theorem Plain.hasIdentifiers (h : imports.Plain) {item : Item} (hhas : imports.Has item) :
    item.hasIdentifiers := by
  cases item with
  | effect => rfl
  | type | value | renamed => exact h _ (mem_items.2 ⟨hhas, rfl⟩)

/-- What stands between the braces for values are the values and the aliases. -/
theorem mem_specifiers {text : String} : text ∈ imports.specifiers ↔
    ∃ item, imports.Has item ∧ item.kind = .values ∧ item.text = text := by
  unfold specifiers
  rw [Table.mem_keys, Names.contains_add, List.mem_map]
  constructor
  · rintro (⟨entry, hentry, rfl⟩ | hvalue)
    · exact ⟨.renamed entry.1 entry.2, Table.get?_eq_some_iff.2 hentry, rfl, rfl⟩
    · exact ⟨.value text, hvalue, rfl, rfl⟩
  · rintro ⟨item, hhas, hkind, rfl⟩
    cases item with
    | effect | type => cases hkind
    | value name => exact Or.inr hhas
    | renamed localName name =>
      exact Or.inl ⟨(localName, name), Table.get?_eq_some_iff.1 hhas, rfl⟩

theorem ofWords?_of_mem (h : imports.Plain) {text : String} (htext : text ∈ imports.specifiers) :
    ∃ item, imports.Has item ∧ item.kind = .values ∧ item.text = text ∧
      Item.ofWords? .values (wordsOf text.toList) = some item := by
  obtain ⟨item, hhas, hkind, rfl⟩ := mem_specifiers.1 htext
  have hread := Item.ofWords?_text (h.hasIdentifiers hhas) (by simp [hkind])
  rw [hkind] at hread
  exact ⟨item, hhas, hkind, rfl, hread⟩

theorem mem_valueItems (h : imports.Plain) {item : Item} :
    item ∈ imports.valueItems ↔ imports.Has item ∧ item.kind = .values := by
  unfold valueItems
  rw [List.mem_filterMap]
  constructor
  · rintro ⟨text, htext, hread⟩
    obtain ⟨found, hhas, hkind, -, hfound⟩ := ofWords?_of_mem h htext
    obtain rfl : found = item := by simpa [hfound] using hread
    exact ⟨hhas, hkind⟩
  · rintro ⟨hhas, hkind⟩
    have hread := Item.ofWords?_text (h.hasIdentifiers hhas) (by simp [hkind])
    rw [hkind] at hread
    exact ⟨item.text, mem_specifiers.2 ⟨item, hhas, hkind, rfl⟩, hread⟩

/-- The items for values have the specifiers as their texts. -/
theorem valueItems_text (h : imports.Plain) :
    imports.valueItems.map Item.text = imports.specifiers := by
  unfold valueItems
  rw [List.map_filterMap]
  refine (List.filterMap_congr fun text htext => ?_).trans List.filterMap_some
  obtain ⟨item, -, -, htext, hread⟩ := ofWords?_of_mem h htext
  rw [hread, Option.map_some, htext]

theorem typeItems_text : (imports.types.keys.map Item.type).map Item.text = imports.types.keys := by
  simp [Function.comp_def, Item.text]

/-- **The lines of a module are its declarations.** -/
theorem declarations_text (h : imports.Plain) (module : String) :
    (imports.declarations module).map Declaration.text = imports.lines module := by
  unfold declarations lines
  simp only [List.map_append, apply_ite (List.map Declaration.text), List.map_nil, List.map_cons,
    Declaration.text, Declaration.ofEffect, valueItems_text h, typeItems_text]

theorem mem_declarations {module : String} {declaration : Declaration} :
    declaration ∈ imports.declarations module ↔
      imports.effect = true ∧ declaration = .ofEffect module ∨
      imports.types.keys ≠ [] ∧ declaration = ⟨.types, module, imports.types.keys.map .type⟩ ∨
      imports.specifiers ≠ [] ∧ declaration = ⟨.values, module, imports.valueItems⟩ := by
  have htypes : imports.types.isEmpty = true ↔ imports.types.keys = [] := by
    simp [Table.isEmpty, Table.keys, keysOf]
  unfold declarations
  simp only [List.mem_append, List.mem_ite_nil_left, List.mem_ite_nil_right, List.mem_singleton,
    htypes, List.isEmpty_iff, or_assoc, ne_eq]

/-- The declarations of a module can be read. -/
theorem declarations_plain (h : imports.Plain) {module : String} (hmodule : '"' ∉ module.toList)
    {declaration : Declaration} (hmem : declaration ∈ imports.declarations module) :
    declaration.Plain := by
  rcases mem_declarations.1 hmem with ⟨-, rfl⟩ | ⟨hne, rfl⟩ | ⟨hne, rfl⟩
  · exact ⟨hmodule, by simp [Declaration.ofEffect, Item.hasIdentifiers, Item.kind], fun _ => rfl,
      by simp [Declaration.ofEffect]⟩
  · refine ⟨hmodule, fun item hitem => ?_, (by intro hkind; cases hkind), by simpa using hne⟩
    obtain ⟨name, hname, rfl⟩ := List.mem_map.1 hitem
    have hhas : imports.Has (.type name) := Table.mem_keys.1 hname
    exact ⟨h.hasIdentifiers hhas, rfl⟩
  · refine ⟨hmodule, fun item hitem => ?_, (by intro hkind; cases hkind), ?_⟩
    · obtain ⟨hhas, hkind⟩ := (mem_valueItems h).1 hitem
      exact ⟨h.hasIdentifiers hhas, hkind⟩
    · rw [← valueItems_text h] at hne
      exact fun hnil => hne (congrArg (List.map Item.text) hnil)

/-- **What is imported from a module stands in its declarations.** -/
theorem has_iff_declared (h : imports.Plain) (module : String) (item : Item) :
    imports.Has item ↔ ∃ declaration ∈ imports.declarations module, item ∈ declaration.items := by
  constructor
  · intro hhas
    cases hkind : item.kind with
    | effect =>
      cases item with
      | effect => exact ⟨.ofEffect module, mem_declarations.2 (Or.inl ⟨hhas, rfl⟩),
          List.mem_singleton_self _⟩
      | type | value | renamed => cases hkind
    | types =>
      cases item with
      | type name =>
        have hname : name ∈ imports.types.keys := Table.mem_keys.2 hhas
        exact ⟨_, mem_declarations.2 (Or.inr (Or.inl ⟨List.ne_nil_of_mem hname, rfl⟩)),
          List.mem_map_of_mem hname⟩
      | effect | value | renamed => cases hkind
    | values =>
      have htext := mem_specifiers.2 ⟨item, hhas, hkind, rfl⟩
      exact ⟨_, mem_declarations.2 (Or.inr (Or.inr ⟨List.ne_nil_of_mem htext, rfl⟩)),
        (mem_valueItems h).2 ⟨hhas, hkind⟩⟩
  · rintro ⟨declaration, hmem, hitem⟩
    rcases mem_declarations.1 hmem with ⟨heffect, rfl⟩ | ⟨-, rfl⟩ | ⟨-, rfl⟩
    · rw [List.mem_singleton.1 hitem]
      exact heffect
    · obtain ⟨name, hname, rfl⟩ := List.mem_map.1 hitem
      exact Table.mem_keys.1 hname
    · exact ((mem_valueItems h).1 hitem).1

end ModuleImports

/-! ## Order of declarations -/

/-- A declaration comes before another one: its module is less, byte by byte, or the module is the
same and it is for the effect and the other is not, or for types and the other is for values. -/
def Declaration.Before (first second : Declaration) : Prop :=
  Text.bytes first.module < Text.bytes second.module ∨
    first.module = second.module ∧ first.kind.rank < second.kind.rank

theorem ModuleImports.declarations_pairwise (imports : ModuleImports) (module : String) :
    (imports.declarations module).Pairwise Declaration.Before := by
  unfold declarations
  split_ifs <;> simp [Declaration.Before, Declaration.ofEffect, ImportKind.rank]

theorem ModuleImports.module_of_mem {imports : ModuleImports} {module : String}
    {declaration : Declaration} (h : declaration ∈ imports.declarations module) :
    declaration.module = module := by
  rcases mem_declarations.1 h with ⟨-, rfl⟩ | ⟨-, rfl⟩ | ⟨-, rfl⟩ <;> rfl

/-- The texts of the items of a declaration are sorted. -/
theorem ModuleImports.items_sorted {imports : ModuleImports} (h : imports.Plain) {module : String}
    {declaration : Declaration} (hmem : declaration ∈ imports.declarations module) :
    (declaration.items.map fun item => Text.bytes item.text).Pairwise (· < ·) := by
  have hsorted : (declaration.items.map Item.text).Pairwise (· < ·) := by
    rcases mem_declarations.1 hmem with ⟨-, rfl⟩ | ⟨-, rfl⟩ | ⟨-, rfl⟩
    · exact List.pairwise_singleton _ _
    · rw [typeItems_text]
      exact imports.types.sorted
    · rw [valueItems_text h]
      exact Table.sorted _
  rw [List.pairwise_map] at hsorted ⊢
  exact hsorted.imp Text.bytes_lt_bytes

/-! ## Imports and their lines -/

theorem ModuleImports.exists_has {imports : ModuleImports} (h : imports ≠ .none) :
    ∃ item, imports.Has item := by
  by_contra hnone
  push Not at hnone
  refine h (ext_has fun item => ⟨fun hhas => absurd hhas (hnone item), fun hhas => ?_⟩)
  exact absurd hhas (Imports.not_has_empty "" item)

namespace Imports

/-- Imports that can be read off their lines: something is imported from each module, all names are
identifiers, and no module has a quote. -/
def Plain (imports : Imports) : Prop :=
  ∀ entry ∈ imports.modules.entries,
    '"' ∉ entry.1.toList ∧ entry.2 ≠ .none ∧ entry.2.Plain

instance (imports : Imports) : Decidable imports.Plain :=
  inferInstanceAs (Decidable (∀ entry ∈ imports.modules.entries,
    '"' ∉ entry.1.toList ∧ entry.2 ≠ .none ∧ ∀ item ∈ entry.2.items, item.hasIdentifiers = true))

/-- The declarations, module by module. -/
def declarations (imports : Imports) : List Declaration :=
  imports.modules.entries.flatMap fun entry => entry.2.declarations entry.1

variable {imports : Imports}

theorem declarations_text (h : imports.Plain) : imports.lines =
    imports.declarations.map Declaration.text ++ if imports.isEmpty then [] else [""] := by
  have htexts : imports.declarations.map Declaration.text =
      imports.modules.entries.flatMap fun entry => entry.2.lines entry.1 := by
    unfold declarations
    rw [List.map_flatMap]
    exact List.flatMap_congr fun entry hentry =>
      ModuleImports.declarations_text (h entry hentry).2.2 entry.1
  unfold lines
  rw [htexts]
  split_ifs with hempty
  · have hnil : imports.modules.entries = [] := by simpa [isEmpty, Table.isEmpty] using hempty
    simp [hnil]
  · rfl

/-- **The declarations are read off the lines.** -/
theorem declarationsOf_lines (h : imports.Plain) :
    declarationsOf imports.lines = imports.declarations := by
  have hread : ∀ declaration ∈ imports.declarations,
      Declaration.read? declaration.text = some declaration := by
    intro declaration hmem
    obtain ⟨entry, hentry, hmem⟩ := List.mem_flatMap.1 hmem
    obtain ⟨hmodule, -, hplain⟩ := h entry hentry
    exact Declaration.read?_text (ModuleImports.declarations_plain hplain hmodule hmem)
  have hblank : (if imports.isEmpty then [] else [""]).filterMap Declaration.read? = [] := by
    split_ifs <;> rfl
  rw [declarations_text h, declarationsOf, List.filterMap_append, hblank, List.append_nil,
    List.filterMap_map]
  exact (List.filterMap_congr hread).trans List.filterMap_some

/-- What is imported stands in the declarations. -/
theorem has_iff_declared (h : imports.Plain) (module : String) (item : Item) :
    imports.Has module item ↔ ∃ declaration ∈ imports.declarations,
      declaration.module = module ∧ item ∈ declaration.items := by
  unfold Has ofModule
  constructor
  · intro hhas
    cases hget : imports.modules.get? module with
    | none =>
      rw [hget] at hhas
      exact absurd hhas (not_has_empty module item)
    | some found =>
      rw [hget] at hhas
      have hentry := Table.get?_eq_some_iff.1 hget
      obtain ⟨declaration, hmem, hitem⟩ :=
        (ModuleImports.has_iff_declared (h _ hentry).2.2 module item).1 hhas
      exact ⟨declaration, List.mem_flatMap.2 ⟨_, hentry, hmem⟩,
        ModuleImports.module_of_mem hmem, hitem⟩
  · rintro ⟨declaration, hmem, rfl, hitem⟩
    obtain ⟨entry, hentry, hmem⟩ := List.mem_flatMap.1 hmem
    have hmodule := ModuleImports.module_of_mem hmem
    have hget : imports.modules.get? declaration.module = some entry.2 :=
      Table.get?_eq_some_iff.2 (hmodule ▸ hentry)
    rw [hget]
    exact (ModuleImports.has_iff_declared (h entry hentry).2.2 entry.1 item).2
      ⟨declaration, hmem, hitem⟩

/-- A module is imported when something is imported from it. -/
theorem contains_iff_has (h : imports.Plain) (module : String) :
    imports.modules.contains module = true ↔ ∃ item, imports.Has module item := by
  rw [Table.contains_eq, Option.isSome_iff_exists]
  unfold Has ofModule
  constructor
  · rintro ⟨found, hget⟩
    rw [hget]
    exact ModuleImports.exists_has (h _ (Table.get?_eq_some_iff.1 hget)).2.1
  · rintro ⟨item, hhas⟩
    cases hget : imports.modules.get? module with
    | none =>
      rw [hget] at hhas
      exact absurd hhas (not_has_empty module item)
    | some found => exact ⟨found, rfl⟩

/-- **Imports with the same lines are equal.** -/
theorem eq_of_lines_eq {other : Imports} (h : imports.Plain) (h' : other.Plain)
    (hlines : imports.lines = other.lines) : imports = other := by
  have hsame : imports.declarations = other.declarations := by
    rw [← declarationsOf_lines h, ← declarationsOf_lines h', hlines]
  have hhas : ∀ module item, imports.Has module item ↔ other.Has module item := by
    intro module item
    rw [has_iff_declared h, has_iff_declared h', hsame]
  refine ext_holds fun fact => ?_
  cases fact with
  | module name => simp only [Holds, contains_iff_has h, contains_iff_has h', hhas]
  | item module item => exact hhas module item

theorem binds_iff_localName (imports : Imports) (module name : String) :
    imports.binds module name = true ↔
      ∃ item, imports.Has module item ∧ item.localName? = some name := by
  rw [binds_eq, ModuleImports.binds_iff]
  constructor
  · rintro (hvalue | htype | ⟨exported, halias⟩)
    · exact ⟨.value name, hvalue, rfl⟩
    · exact ⟨.type name, htype, rfl⟩
    · exact ⟨.renamed name exported, halias, rfl⟩
  · rintro ⟨item, hhas, hname⟩
    cases item <;> cases hname
    · exact Or.inr (Or.inl hhas)
    · exact Or.inl hhas
    · exact Or.inr (Or.inr ⟨_, hhas⟩)

theorem declarations_pairwise (imports : Imports) :
    imports.declarations.Pairwise Declaration.Before := by
  refine List.pairwise_flatMap.2 ⟨fun entry _ => entry.2.declarations_pairwise entry.1, ?_⟩
  refine (List.pairwise_map.1 imports.modules.sorted).imp ?_
  intro first second hlt declaration hmem other hother
  rw [Declaration.Before, ModuleImports.module_of_mem hmem, ModuleImports.module_of_mem hother]
  exact Or.inl (Text.bytes_lt_bytes hlt)

end Imports

/-- **Import declarations are sorted and lose nothing.** Every line but the empty one at the end is
a declaration. The declarations are grouped by module in the order of bytes, for each module the one
for its effect, the one for types and the one for values, and each has its items in the order of
bytes. A module binds exactly the local names of the items in its declarations. Imports with the
same lines are equal. -/
theorem lines_tell_imports {imports : Imports} (h : imports.Plain) :
    imports.lines = (declarationsOf imports.lines).map Declaration.text ++
        (if imports.isEmpty then [] else [""]) ∧
      (declarationsOf imports.lines).Pairwise Declaration.Before ∧
      (∀ declaration ∈ declarationsOf imports.lines,
        (declaration.items.map fun item => Text.bytes item.text).Pairwise (· < ·)) ∧
      (∀ module name, imports.binds module name = true ↔
        ∃ declaration ∈ declarationsOf imports.lines, declaration.module = module ∧
          ∃ item ∈ declaration.items, item.localName? = some name) ∧
      ∀ other : Imports, other.Plain → other.lines = imports.lines → other = imports := by
  rw [Imports.declarationsOf_lines h]
  refine ⟨Imports.declarations_text h, imports.declarations_pairwise, ?_, ?_, ?_⟩
  · intro declaration hmem
    obtain ⟨entry, hentry, hmem⟩ := List.mem_flatMap.1 hmem
    exact ModuleImports.items_sorted (h entry hentry).2.2 hmem
  · intro module name
    rw [Imports.binds_iff_localName]
    simp only [Imports.has_iff_declared h]
    constructor
    · rintro ⟨item, ⟨declaration, hmem, hmodule, hitem⟩, hname⟩
      exact ⟨declaration, hmem, hmodule, item, hitem, hname⟩
    · rintro ⟨declaration, hmem, hmodule, item, hitem, hname⟩
      exact ⟨item, ⟨declaration, hmem, hmodule, hitem⟩, hname⟩
  · intro other hother hlines
    exact Imports.eq_of_lines_eq hother h hlines

/-- Imports of all kinds from two modules, one of which is not ASCII. -/
def mixedImports : Imports :=
  ((((Imports.empty.add "é" ["X", "Table"]).addAlias "é" "Table" "Rows").addTypes "a b" ["T"]).add
    "a b" ["$t"]).addEffect "a b"

theorem lines_tell_imports_mixed : mixedImports.Plain ∧
    mixedImports.lines =
      ["import \"a b\";", "import type { T } from \"a b\";",
        "import { $t } from \"a b\";",
        "import { Table, Table as Rows, X } from \"é\";", ""] ∧
    (∀ name, mixedImports.binds "é" name = true ↔
      ∃ declaration ∈ declarationsOf mixedImports.lines, declaration.module = "é" ∧
        ∃ item ∈ declaration.items, item.localName? = some name) ∧
    ∀ other : Imports, other.Plain → other.lines = mixedImports.lines → other = mixedImports := by
  have hplain : mixedImports.Plain := by decide
  obtain ⟨-, -, -, hbinds, hlossless⟩ := lines_tell_imports hplain
  exact ⟨hplain, by decide +kernel, hbinds "é", hlossless⟩

end CdkStacks.TypeScript
