import CdkStacks.Proofs.PropertyKeys
import CdkStacks.Proofs.Statements

/-!
# Policy documents of roles

A role holds policy documents in two places: the document that says who may assume it, and one
document in each of its policies. The catalogue lists the paths `AssumeRolePolicyDocument` and
`PolicyDocument` as free-form. The documents in the policies are at another path, so that their keys
become property names.

* `KeepsKeys` says that a map is written with its keys;
* `keepsKeys_iff`: when the keys of a map below the properties of a resource are kept in the code;
* `role_keeps_keys`: the keys of the first document are always kept, and those in the policies only
  in functions that are passed through or when they are spelled like property names already.
-/

namespace CdkStacks.Construct

open CdkStacks.Template CdkStacks.TypeScript

/-! ## Kept keys -/

/-- The map at the end of a way is written with its keys, in order. -/
def KeepsKeys (props : Expr) (way : Way) (entries : List (String × Value)) : Prop :=
  ∃ written, props.at? way.address = some (.object written) ∧
    written.map Prod.fst = entries.map Prod.fst

/-- **Keys are kept** where they are to be kept, and where they are property names already. -/
theorem keepsKeys_iff (view : View) (verbatim : List String) {properties : List (String × Value)}
    {way : Way} {entries : List (String × Value)} (h : Reached properties way (.map entries)) :
    KeepsKeys (view.properties verbatim properties).value way entries ↔
      Kept verbatim way.names (entries :: way.maps) ∨
        ∀ entry ∈ entries, propertyName entry.1 = entry.1 := by
  obtain ⟨e, he, hwritten⟩ := h.written view verbatim
  cases hwritten.mirrors h.names_ne_nil with
  | raw hmap _ _ => exact absurd rfl (hmap entries)
  | @map _ written hkeep hrename =>
    by_cases hkept : Kept verbatim way.names (entries :: way.maps)
    · exact ⟨fun _ => Or.inl hkept, fun _ => ⟨written, he, hkeep hkept⟩⟩
    · rw [or_iff_right hkept, ← List.map_inj_left, ← hrename hkept]
      constructor
      · rintro ⟨other, hother, hkeys⟩
        rw [he] at hother
        cases hother
        exact hkeys
      · exact fun hkeys => ⟨written, he, hkeys⟩

/-- What a resource with a construct passes to it are its properties, with the free-form paths of
its kind. -/
theorem exists_kind_of_resource {template : Template} {imports : Imports} {libraries : Libraries}
    {code : StackCode} (hcode : StackCode.ofTemplate template imports libraries = .ok code)
    {place : Nat} {resource : Resource} {name identifier construct : String} {props : Expr}
    (hresource : template.resources[place]? = some resource)
    (hstatement : code.resources[place]? = some (.resource name identifier construct props)) :
    ∃ kind, lookup resource.type = some kind ∧
      props = ((View.mk (Scope.ofTemplate template) resource.name place).properties kind.verbatim
        resource.properties).value := by
  rw [resources_getElem? hcode, hresource, Option.map_some, Option.some_inj] at hstatement
  cases hs : supported? (Scope.ofTemplate template) resource with
  | none =>
    rw [resourceStatement_of_unsupported hs] at hstatement
    cases hstatement
  | some found =>
    rw [resourceStatement_of_supported hs] at hstatement
    cases hstatement
    exact ⟨found.1, (supported?_eq_some.1 hs).1, rfl⟩

/-! ## Roles -/

/-- The free-form paths of a role. -/
def rolePaths : List String :=
  ["AssumeRolePolicyDocument", "PolicyDocument"]

theorem verbatim_of_role {kind : Kind} (h : lookup "AWS::IAM::Role" = some kind) :
    kind.verbatim = rolePaths := by
  cases h
  rfl

theorem prefix_intercalate (first : String) (rest : List String) :
    first.toList <+: (".".intercalate (first :: rest)).toList := by
  cases rest with
  | nil => simp
  | cons second rest =>
    rw [String.intercalate_cons_cons, String.append_assoc, String.toList_append]
    exact List.prefix_append ..

/-- No path into the policies of a role is free-form. -/
theorem kept_policies_iff {names : List String} {maps : List (List (String × Value))}
    (h : ["Policies"] <+: names) :
    Kept rolePaths names maps ↔ ∃ entries ∈ maps, IsApplication entries := by
  refine or_iff_right ?_
  rintro ⟨front, hne, hfront, hmem⟩
  obtain ⟨below, rfl⟩ := h
  obtain ⟨first, rest, rfl⟩ := List.exists_cons_of_ne_nil hne
  obtain ⟨rfl, -⟩ := List.cons_prefix_cons.1 hfront
  have hprefix := prefix_intercalate "Policies" rest
  rcases List.mem_cons.1 hmem with heq | hmem
  · rw [heq] at hprefix
    revert hprefix
    decide
  · rw [List.mem_singleton.1 hmem] at hprefix
    revert hprefix
    decide

section Role

variable {template : Template} {imports : Imports} {libraries : Libraries} {code : StackCode}
  {place : Nat} {resource : Resource} {name identifier construct : String} {props : Expr}

/-- **The policy documents of a role keep their keys in one of two places.** Every map in the
document that says who may assume the role is written with its keys. A map in the document of a
policy is so exactly when it is, or is in, a map that stands for a function, or when all its keys
are property names already. -/
theorem role_keeps_keys (hcode : StackCode.ofTemplate template imports libraries = .ok code)
    (hresource : template.resources[place]? = some resource)
    (htype : resource.type = "AWS::IAM::Role")
    (hstatement : code.resources[place]? = some (.resource name identifier construct props))
    {way : Way} {entries : List (String × Value)}
    (hway : Reached resource.properties way (.map entries)) :
    (["AssumeRolePolicyDocument"] <+: way.names → KeepsKeys props way entries) ∧
      (["Policies", "PolicyDocument"] <+: way.names →
        (KeepsKeys props way entries ↔ (∃ map ∈ entries :: way.maps, IsApplication map) ∨
          ∀ entry ∈ entries, propertyName entry.1 = entry.1)) := by
  obtain ⟨kind, hkind, rfl⟩ := exists_kind_of_resource hcode hresource hstatement
  rw [htype] at hkind
  rw [verbatim_of_role hkind, keepsKeys_iff _ _ hway]
  constructor
  · intro hassume
    exact Or.inl (Or.inl ⟨_, by simp, hassume, by simp [rolePaths]⟩)
  · intro hpolicy
    have hpolicies : ["Policies"] <+: way.names := .trans ⟨["PolicyDocument"], rfl⟩ hpolicy
    rw [kept_policies_iff hpolicies]

end Role

/-! ## A role -/

/-- A document with a role that has a policy. -/
def deployRole : String :=
  "\x7b\"Resources\":\x7b\"R\":\x7b\"Type\":\"AWS::IAM::Role\",\"Properties\":\x7b" ++
    "\"AssumeRolePolicyDocument\":\x7b\"Statement\":[\x7b\"Effect\":\"Allow\"\x7d]\x7d," ++
    "\"Policies\":[\x7b\"PolicyDocument\":\x7b\"Version\":\"2012-10-17\"\x7d\x7d]\x7d\x7d\x7d\x7d"

/-- The document that says who may assume the role. -/
def assumeDocument : List (String × Value) :=
  [("Statement", .list [.map [("Effect", .string "Allow")]])]

/-- The policy of the role. -/
def deployPolicy : List (String × Value) :=
  [("PolicyDocument", .map [("Version", .string "2012-10-17")])]

/-- The properties of the role. -/
def roleProperties : List (String × Value) :=
  [("AssumeRolePolicyDocument", .map assumeDocument), ("Policies", .list [.map deployPolicy])]

/-- The template of the document. -/
def roleTemplate : Template where
  parameters := []
  resources := [⟨"R", "AWS::IAM::Role", roleProperties, [], none⟩]
  outputs := []
  conditions := []

set_option maxRecDepth 2000 in
theorem ofText_deployRole : ofText .json deployRole = .ok roleTemplate := by
  with_unfolding_all rfl

theorem ofTemplate_roleTemplate : StackCode.ofTemplate roleTemplate .empty .standard =
    .ok (.build roleTemplate .empty .standard) :=
  ofTemplate_of_ok rfl .empty .standard

theorem reached_statement : Reached roleProperties
    ⟨[0, 0, 0], ["AssumeRolePolicyDocument", "Statement"], [assumeDocument]⟩
    (.map [("Effect", .string "Allow")]) := by
  have hdocument : Reached roleProperties ⟨[0], ["AssumeRolePolicyDocument"], []⟩
      (.map assumeDocument) := .property rfl
  exact .item (.entry hdocument (i := 0) rfl) (i := 0) rfl

theorem reached_version : Reached roleProperties
    ⟨[1, 0, 0], ["Policies", "PolicyDocument"], [deployPolicy]⟩
    (.map [("Version", .string "2012-10-17")]) := by
  have hpolicies : Reached roleProperties ⟨[1], ["Policies"], []⟩ (.list [.map deployPolicy]) :=
    .property rfl
  exact .entry (.item hpolicies (i := 0) rfl) (i := 0) rfl

theorem role_keeps_keys_deploy : ofText .json deployRole = .ok roleTemplate ∧
    ∃ code identifier props, StackCode.ofTemplate roleTemplate .empty .standard = .ok code ∧
      code.resources[0]? = some (.resource "R" identifier "CfnRole" props) ∧
      KeepsKeys props
        ⟨[0, 0, 0], ["AssumeRolePolicyDocument", "Statement"], [assumeDocument]⟩
        [("Effect", .string "Allow")] := by
  have hstatement := resources_getElem? ofTemplate_roleTemplate 0
  exact ⟨ofText_deployRole, _, _, _, ofTemplate_roleTemplate, hstatement,
    (role_keeps_keys ofTemplate_roleTemplate rfl rfl hstatement reached_statement).1
      ⟨["Statement"], rfl⟩⟩

/-- **The keys of a policy are not kept:** the version of this one is written as `version`. -/
theorem deployRole_renames_version : ofText .json deployRole = .ok roleTemplate ∧
    ∃ code identifier props, StackCode.ofTemplate roleTemplate .empty .standard = .ok code ∧
      code.resources[0]? = some (.resource "R" identifier "CfnRole" props) ∧
      Reached roleProperties ⟨[1, 0, 0], ["Policies", "PolicyDocument"], [deployPolicy]⟩
        (.map [("Version", .string "2012-10-17")]) ∧
      props.at? [1, 0, 0] = some (.object [("version", .string "2012-10-17")]) ∧
      ¬ KeepsKeys props ⟨[1, 0, 0], ["Policies", "PolicyDocument"], [deployPolicy]⟩
        [("Version", .string "2012-10-17")] := by
  have hstatement := resources_getElem? ofTemplate_roleTemplate 0
  have hwritten : ((View.mk (Scope.ofTemplate roleTemplate) "R" 0).properties rolePaths
      roleProperties).value.at? [1, 0, 0] =
        some (.object [("version", .string "2012-10-17")]) := by
    with_unfolding_all rfl
  refine ⟨ofText_deployRole, _, _, _, ofTemplate_roleTemplate, hstatement, reached_version,
    hwritten, ?_⟩
  rintro ⟨written, hat, hkeys⟩
  cases hwritten.symm.trans hat
  simp at hkeys

end CdkStacks.Construct
