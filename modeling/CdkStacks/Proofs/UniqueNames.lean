import CdkStacks.Proofs.Declared
import CdkStacks.Proofs.Keys

/-!
# Names of a section

When the names that a template declares in a section are pairwise different. A name is the text of
a key, and the keys of a mapping are pairwise different as nodes; but a number or a truth value has
a text too, and a string may spell it.

* `Section` and `Template.names` are the sections and the names in them;
* `eq_of_keyText?`: two keys that are not strings have different texts, since a text without quotes
  stands for one node only;
* `Ambiguous` holds of keys among which a string spells a number or a truth value;
* `names_unique`: the names of a section are pairwise different unless its keys are ambiguous, and
  no name is both a parameter and a resource.
-/

namespace CdkStacks.Template

open CdkStacks.Document (Node lookup?)

/-! ## Keys -/

theorem same_self_of_keyText? {key : Node} {text : String} (h : key.keyText? = some text) :
    key.same key = true := by
  cases key with
  | bool | string => simp [Node.same]
  | number n =>
    cases n with
    | integer => simp [Node.same, Document.Number.same]
    | float x => cases x <;> simp [Node.same, Document.Number.same, Decimal.Binary64.same]
  | null | sequence | mapping | tagged => cases h

/-- A key that is no string is what its text stands for. -/
theorem plainNode?_keyText {key : Node} {text : String} (hvalid : key.ValidKey)
    (htext : key.keyText? = some text) (hstring : key ≠ .string text) :
    Document.Yaml.plainNode? text = some key := by
  cases key with
  | string => cases htext; exact absurd rfl hstring
  | number n => cases htext; exact Document.Number.plainNode?_text (hvalid n rfl)
  | bool b => cases htext; cases b <;> rfl
  | null | sequence | mapping | tagged => cases htext

/-- A key is not a string, and has the same text as a key that is one. -/
def Ambiguous (keys : List Node) : Prop :=
  ∃ key ∈ keys, ∃ text, .string text ∈ keys ∧ key ≠ .string text ∧ key.keyText? = some text

/-- Different keys with one text: one of them is a string. -/
theorem ambiguous_of_keyText?_eq {keys : List Node} {key key' : Node} {text : String}
    (hvalid : ∀ key ∈ keys, key.ValidKey) (hkey : key ∈ keys) (hkey' : key' ∈ keys)
    (htext : key.keyText? = some text) (htext' : key'.keyText? = some text) (hne : key ≠ key') :
    Ambiguous keys := by
  by_cases hstring : key = .string text
  · exact ⟨key', hkey', text, hstring ▸ hkey, fun h => hne (hstring.trans h.symm), htext'⟩
  · by_cases hstring' : key' = .string text
    · exact ⟨key, hkey, text, hstring' ▸ hkey', hstring, htext⟩
    · have hplain := plainNode?_keyText (hvalid key hkey) htext hstring
      have hplain' := plainNode?_keyText (hvalid key' hkey') htext' hstring'
      exact absurd (Option.some.inj (hplain.symm.trans hplain')) hne

/-- **Texts of keys** that are different as nodes differ, unless the keys are ambiguous. -/
theorem nodup_keyTexts_iff {keys : List Node} {texts : List String}
    (hdistinct : keys.Pairwise fun key key' => key.same key' = false)
    (hvalid : ∀ key ∈ keys, key.ValidKey) (htexts : texts.map some = keys.map Node.keyText?) :
    texts.Nodup ↔ ¬ Ambiguous keys := by
  rw [← List.nodup_map_iff (Option.some_injective String), htexts]
  constructor
  · rintro hnodup ⟨key, hkey, text, hstring, hne, htext⟩
    exact hne (List.inj_on_of_nodup_map hnodup hkey hstring htext)
  · intro hambiguous
    refine List.pairwise_map.2 (hdistinct.imp_of_mem fun {key key'} hkey hkey' hsame heq => ?_)
    obtain ⟨text, -, htext⟩ : ∃ text ∈ texts, some text = key.keyText? :=
      List.mem_map.1 (htexts ▸ List.mem_map_of_mem hkey)
    refine hambiguous (ambiguous_of_keyText?_eq hvalid hkey hkey' htext.symm
      (heq.symm.trans htext.symm) ?_)
    rintro rfl
    rw [same_self_of_keyText? htext.symm] at hsame
    cases hsame

/-! ## Sections -/

/-- The sections of a template. -/
inductive Section where
  | parameters
  | resources
  | outputs
  | conditions

/-- The key of a section in a document. -/
def Section.title : Section → String
  | parameters => "Parameters"
  | resources => "Resources"
  | outputs => "Outputs"
  | conditions => "Conditions"

/-- The names that a template declares in a section, in source order. -/
def names (template : Template) : Section → List String
  | .parameters => template.parameters.map Parameter.name
  | .resources => template.resources.map Resource.name
  | .outputs => template.outputs.map Output.name
  | .conditions => template.conditions.map Prod.fst

/-- The keys of a section of a document, which may be missing or null. -/
def sectionKeys (root : Fields) (part : Section) : List Node :=
  match lookup? root part.title with
  | some (.mapping entries) => entries.map Prod.fst
  | _ => []

theorem mem_of_lookup? {entries : Fields} {name : String} {value : Node}
    (h : lookup? entries name = some value) : ∃ key, (key, value) ∈ entries := by
  fun_induction lookup? entries name with
  | case1 => cases h
  | case2 =>
    cases h
    exact ⟨_, List.mem_cons_self⟩
  | case3 _ _ _ _ ih | case4 _ _ _ ih =>
    obtain ⟨key, hkey⟩ := ih h
    exact ⟨key, List.mem_cons_of_mem _ hkey⟩

/-- The keys of a section are the keys of a mapping of the document. -/
theorem keyed_sectionKeys {IsKey : Node → Prop} {root : Fields}
    (h : Node.Keyed IsKey (.mapping root)) (part : Section) :
    (sectionKeys root part).Pairwise (fun key key' => key.same key' = false) ∧
      ∀ key ∈ sectionKeys root part, IsKey key := by
  unfold sectionKeys
  split
  · rename_i entries hentries
    cases h with
    | mapping _ _ hvalues =>
      obtain ⟨key, hmem⟩ := mem_of_lookup? hentries
      cases hvalues _ hmem with
      | mapping hdistinct hkeys _ =>
        exact ⟨List.pairwise_map.2 hdistinct, List.forall_mem_map.2 hkeys⟩
  · exact ⟨.nil, List.forall_mem_nil _⟩

/-- The names of the declarations of a section are the texts of its keys. -/
theorem names_of_readSection {α : Type} {read : String → Node → Except Malformed α}
    {nameOf : α → String} (hname : ∀ {name body result}, read name body = .ok result →
      nameOf result = name) {root : Fields} (part : Section) {results : List α}
    (h : readSection read root part.title = .ok results) :
    (results.map nameOf).map some = (sectionKeys root part).map Node.keyText? := by
  obtain ⟨entries, hentries, hread⟩ := exists_of_bind_eq_ok h
  have hkeys : sectionKeys root part = entries.map Prod.fst := by
    unfold sectionEntries at hentries
    unfold sectionKeys
    split at hentries <;> cases hentries <;> simp_all
  have hall : List.Forall₂ (fun entry result => some (nameOf result) = entry.1.keyText?)
      entries results := by
    refine (forall₂_of_mapM hread).imp fun entry result hentry => ?_
    obtain ⟨name, hkey, hresult⟩ := exists_of_bind_eq_ok hentry
    rw [hname (inContext_eq_ok.1 hresult), keyText?_of_keyText (inContext_eq_ok.1 hkey)]
  rw [hkeys]
  clear hentries hkeys hread h
  induction hall with
  | nil => rfl
  | cons hentry _ ih => simp only [List.map_cons, hentry, ih]

theorem name_of_readParameter {name : String} {body : Node} {parameter : Parameter}
    (h : readParameter name body = .ok parameter) : parameter.name = name := by
  obtain ⟨_, -, h⟩ := exists_of_bind_eq_ok h
  obtain ⟨_, -, h⟩ := exists_of_bind_eq_ok h
  obtain ⟨_, -, h⟩ := exists_of_bind_eq_ok h
  obtain ⟨_, -, h⟩ := exists_of_bind_eq_ok h
  obtain ⟨_, -, h⟩ := exists_of_bind_eq_ok h
  obtain ⟨_, -, h⟩ := exists_of_bind_eq_ok h
  cases h
  rfl

theorem name_of_readResource {name : String} {body : Node} {resource : Resource}
    (h : readResource name body = .ok resource) : resource.name = name := by
  obtain ⟨_, -, h⟩ := exists_of_bind_eq_ok h
  obtain ⟨_, -, h⟩ := exists_of_bind_eq_ok h
  obtain ⟨_, -, h⟩ := exists_of_bind_eq_ok h
  obtain ⟨_, -, h⟩ := exists_of_bind_eq_ok h
  obtain ⟨_, -, h⟩ := exists_of_bind_eq_ok h
  cases h
  rfl

theorem name_of_readOutput {name : String} {body : Node} {output : Output}
    (h : readOutput name body = .ok output) : output.name = name := by
  obtain ⟨_, -, h⟩ := exists_of_bind_eq_ok h
  obtain ⟨value, -, h⟩ := exists_of_bind_eq_ok h
  cases value with
  | none => cases h
  | some value =>
    obtain ⟨_, -, h⟩ := exists_of_bind_eq_ok h
    obtain ⟨_, -, h⟩ := exists_of_bind_eq_ok h
    obtain ⟨_, -, h⟩ := exists_of_bind_eq_ok h
    cases h
    rfl

theorem name_of_readCondition {name : String} {body : Node} {condition : String × Value}
    (h : readCondition name body = .ok condition) : condition.1 = name := by
  obtain ⟨_, -, h⟩ := exists_of_bind_eq_ok h
  cases h
  rfl

/-- What a check for names that are declared twice finds. -/
theorem ne_of_checkDeclaredOnce {template : Template} (h : template.checkDeclaredOnce = .ok ()) :
    ∀ parameter ∈ template.parameters, ∀ resource ∈ template.resources,
      parameter.name ≠ resource.name := by
  intro parameter hparameter resource hresource hname
  unfold checkDeclaredOnce at h
  split at h
  · cases h
  · rename_i hnone
    have hfind := List.find?_eq_none.1 hnone resource hresource
    rw [parameter?, List.find?_isSome] at hfind
    exact hfind ⟨parameter, hparameter, decide_eq_true hname⟩

/-- What a document that has been read says about the names of a template. -/
theorem names_of_ofNode {document : Node} {template : Template}
    (h : ofNode document = .ok template) :
    template.checkDeclaredOnce = .ok () ∧ ∃ root, document = .mapping root ∧
      ∀ part, (template.names part).map some = (sectionKeys root part).map Node.keyText? := by
  obtain ⟨root, rfl, hroot⟩ := readFrom_of_ofNode h
  refine ⟨hroot.once, root, rfl, fun part => ?_⟩
  cases part with
  | parameters => exact names_of_readSection name_of_readParameter .parameters hroot.parameters
  | resources => exact names_of_readSection name_of_readResource .resources hroot.resources
  | outputs => exact names_of_readSection name_of_readOutput .outputs hroot.outputs
  | conditions => exact names_of_readSection name_of_readCondition .conditions hroot.conditions

/-! ## Documents -/

theorem exists_node_of_ofText {format : Format} {text : String} {template : Template}
    (h : ofText format text = .ok template) :
    ∃ document, format.readNode? text = some document ∧ ofNode document = .ok template := by
  unfold ofText at h
  split at h
  · rename_i document hread
    exact ⟨document, hread, h⟩
  · cases h

/-- The keys that a format allows in a section. -/
def Format.IsKey : Format → Node → Prop
  | json => Node.IsString
  | yaml => Node.ValidKey

theorem Format.keyed_of_readNode? {format : Format} {text : String} {document : Node}
    (h : format.readNode? text = some document) : document.Keyed format.IsKey := by
  cases format with
  | json => exact Document.Json.keyed_of_read? h
  | yaml => exact Document.Yaml.keyed_of_read? h

theorem Format.IsKey.validKey {format : Format} {key : Node} (h : format.IsKey key) :
    key.ValidKey := by
  cases format with
  | json =>
    obtain ⟨text, rfl⟩ := h
    exact (Node.lawful_string text).1
  | yaml => exact h

/-- Strings are not ambiguous. -/
theorem not_ambiguous_of_isString {keys : List Node} (h : ∀ key ∈ keys, key.IsString) :
    ¬ Ambiguous keys := by
  rintro ⟨key, hkey, text, -, hne, htext⟩
  obtain ⟨other, rfl⟩ := h key hkey
  cases htext
  exact hne rfl

/-- The names that a template declares in a section of its document. -/
structure SectionNames (template : Template) (root : Fields) (part : Section) : Prop where
  /-- They are the texts of the keys, in order. -/
  texts : (template.names part).map some = (sectionKeys root part).map Node.keyText?
  /-- The keys are pairwise different. -/
  distinct : (sectionKeys root part).Pairwise fun key key' => key.same key' = false
  /-- The names are, too, unless a string spells another key. -/
  nodup_iff : (template.names part).Nodup ↔ ¬ Ambiguous (sectionKeys root part)

/-- **Names are unique,** unless a string spells a number or a truth value that is a key beside it;
in JSON all keys are strings. No name is both a parameter and a resource. -/
theorem names_unique {format : Format} {text : String} {template : Template}
    (h : ofText format text = .ok template) :
    (∀ parameter ∈ template.parameters, ∀ resource ∈ template.resources,
      parameter.name ≠ resource.name) ∧
    ∃ root, format.readNode? text = some (.mapping root) ∧ ∀ part,
      SectionNames template root part ∧ (format = .json → (template.names part).Nodup) := by
  obtain ⟨document, hread, hdocument⟩ := exists_node_of_ofText h
  obtain ⟨honce, root, rfl, htexts⟩ := names_of_ofNode hdocument
  refine ⟨ne_of_checkDeclaredOnce honce, root, hread, fun part => ?_⟩
  obtain ⟨hdistinct, hkeys⟩ := keyed_sectionKeys (Format.keyed_of_readNode? hread) part
  have hiff :=
    nodup_keyTexts_iff hdistinct (fun key hkey => (hkeys key hkey).validKey) (htexts part)
  refine ⟨⟨htexts part, hdistinct, hiff⟩, ?_⟩
  rintro rfl
  exact hiff.2 (not_ambiguous_of_isString hkeys)

/-- A document with a resource for each key. -/
def resourcesText (keys : List String) : String :=
  "Resources:\n" ++
    String.join (keys.map fun key => "  " ++ key ++ ":\n    Type: AWS::SNS::Topic\n")

/-- Keys of all kinds. -/
def mixedKeys : List String :=
  ["1", "-0.5", "true", "'yes'"]

theorem exists_of_resourceNames {format : Format} {text : String} {expected : List String}
    (h : (ofText format text).toOption.map (fun template => template.names .resources) =
      some expected) :
    ∃ template, ofText format text = .ok template ∧ template.names .resources = expected := by
  cases hread : ofText format text with
  | error failure =>
    rw [hread] at h
    cases h
  | ok template =>
    rw [hread] at h
    exact ⟨template, rfl, Option.some.inj h⟩

theorem names_unique_mixed : ∃ template,
    ofText .yaml (resourcesText mixedKeys) = .ok template ∧
      template.names .resources = ["1", "-0.5", "true", "yes"] ∧
      (∀ parameter ∈ template.parameters, ∀ resource ∈ template.resources,
        parameter.name ≠ resource.name) ∧
      ∃ root, Format.yaml.readNode? (resourcesText mixedKeys) = some (.mapping root) ∧ ∀ part,
        SectionNames template root part ∧ (Format.yaml = .json → (template.names part).Nodup) := by
  have hnames : (ofText .yaml (resourcesText mixedKeys)).toOption.map
      (fun template => template.names .resources) =
        some ["1", "-0.5", "true", "yes"] := by
    decide +kernel
  obtain ⟨template, hread, hnames⟩ := exists_of_resourceNames hnames
  exact ⟨template, hread, hnames, names_unique hread⟩

/-- **A name may be declared twice:** the number `1` and the string `'1'` are different keys. -/
theorem quoted_number_declared_twice : ∃ template,
    ofText .yaml (resourcesText ["1", "'1'"]) = .ok template ∧
      template.names .resources = ["1", "1"] ∧ ¬ (template.names .resources).Nodup := by
  have hnames : (ofText .yaml (resourcesText ["1", "'1'"])).toOption.map
      (fun template => template.names .resources) = some ["1", "1"] := by
    decide +kernel
  obtain ⟨template, hread, hnames⟩ := exists_of_resourceNames hnames
  exact ⟨template, hread, hnames, by rw [hnames]; decide⟩

end CdkStacks.Template
