import CdkStacks.Template.References
import Mathlib.Data.List.Induction

/-!
# The first undeclared name

The check of a template fails exactly when a name is read that is not declared, and names the first
place where that happens.

* `Value.parts` are the values inside a value and the names that it reads itself, in source order;
  `Value.SiteAt` reads a name at an address, the positions of the parts on the way to it;
* `Template.ReadsAt` reads a name at an address in a template. `Before` is the order of addresses:
  resources come before outputs, properties before dependencies, and values before exports;
* `Lists` says that a list holds what is at the addresses, in their order. `Lists.numbered` goes one
  level up, and `Lists.find?_eq_some` finds what comes first;
* `Value.lists_sites`, `lists_reads`: the sites of a value and the reads of a template are such
  lists;
* `first_undeclared_reported`: so the check reports what is read first.
-/

namespace CdkStacks.Template

/-! ## Addresses -/

/-- One address comes before another: it takes the earlier part where they separate. -/
def Before : List Nat → List Nat → Prop :=
  List.Lex (· < ·)

theorem Before.irrefl (address : List Nat) : ¬ Before address address :=
  List.lex_irrefl Nat.lt_irrefl address

theorem Before.asymm {first second : List Nat} (h : Before first second) :
    ¬ Before second first :=
  List.lex_asymm Nat.lt_asymm h

/-- The items are what is at the addresses, each once, in the order of the addresses. -/
def Lists {α : Type} (At : List Nat → α → Prop) (items : List α) : Prop :=
  ∃ located : List (List Nat × α), located.map Prod.snd = items ∧
    (located.Pairwise fun first second => Before first.1 second.1) ∧
      ∀ address item, (address, item) ∈ located ↔ At address item

namespace Lists

variable {α β : Type} {At : List Nat → α → Prop} {items : List α}

theorem of_iff {At' : List Nat → α → Prop} (h : Lists At items)
    (hiff : ∀ address item, At' address item ↔ At address item) : Lists At' items := by
  obtain ⟨located, hitems, hsorted, hmem⟩ := h
  exact ⟨located, hitems, hsorted, fun address item => (hmem ..).trans (hiff ..).symm⟩

theorem leaf (item : α) : Lists (fun address found => address = [] ∧ found = item) [item] :=
  ⟨[([], item)], rfl, List.pairwise_singleton .., by simp⟩

theorem map (h : Lists At items) (f : α → β) :
    Lists (fun address found => ∃ item, At address item ∧ found = f item) (items.map f) := by
  obtain ⟨located, rfl, hsorted, hmem⟩ := h
  refine ⟨located.map fun entry => (entry.1, f entry.2), by simp, ?_, fun address found => ?_⟩
  · exact List.pairwise_map.2 hsorted
  · simp only [← hmem, List.mem_map, Prod.mk.injEq, Prod.exists]
    constructor
    · rintro ⟨_, item, hentry, rfl, rfl⟩
      exact ⟨item, hentry, rfl⟩
    · rintro ⟨item, hentry, rfl⟩
      exact ⟨address, item, hentry, rfl, rfl⟩

/-- **One level up.** When each part has its items at addresses, the parts together have them at
those addresses behind the position of the part. -/
theorem numbered (parts : List β) (At : β → List Nat → α → Prop) (itemsOf : β → List α)
    (h : ∀ part ∈ parts, Lists (At part) (itemsOf part)) :
    Lists (fun address item => ∃ i part rest, address = i :: rest ∧ parts[i]? = some part ∧
      At part rest item) (parts.flatMap itemsOf) := by
  induction parts using List.reverseRecOn with
  | nil => exact ⟨[], rfl, .nil, by simp⟩
  | append_singleton parts last ih =>
    obtain ⟨located, hitems, hsorted, hmem⟩ := ih fun part hpart => h part (by simp [hpart])
    obtain ⟨inLast, hlast, hlastSorted, hlastMem⟩ := h last (by simp)
    refine ⟨located ++ inLast.map fun entry => (parts.length :: entry.1, entry.2), ?_, ?_, ?_⟩
    · simp [hitems, ← hlast, Function.comp_def]
    · refine List.pairwise_append.2 ⟨hsorted, ?_, ?_⟩
      · exact List.pairwise_map.2 (hlastSorted.imp fun hbefore => .cons hbefore)
      · -- the last part has the greatest position
        intro entry hentry entry' hentry'
        obtain ⟨i, part, rest, haddress, hpart, -⟩ := (hmem entry.1 entry.2).1 hentry
        obtain ⟨inner, -, rfl⟩ := List.mem_map.1 hentry'
        have hlt : i < parts.length := (List.getElem?_eq_some_iff.1 hpart).1
        rw [haddress]
        exact .rel hlt
    · intro address item
      rw [List.mem_append, hmem, List.mem_map]
      constructor
      · rintro (⟨i, part, rest, rfl, hpart, hat⟩ | ⟨⟨rest, item⟩, hentry, ⟨⟩⟩)
        · have hlt : i < parts.length := (List.getElem?_eq_some_iff.1 hpart).1
          exact ⟨i, part, rest, rfl, by rw [List.getElem?_append_left hlt, hpart], hat⟩
        · exact ⟨parts.length, last, rest, rfl, by simp, (hlastMem rest item).1 hentry⟩
      · rintro ⟨i, part, rest, rfl, hpart, hat⟩
        by_cases hlt : i < parts.length
        · rw [List.getElem?_append_left hlt] at hpart
          exact Or.inl ⟨i, part, rest, rfl, hpart, hat⟩
        · have hi : i = parts.length := by
            have := (List.getElem?_eq_some_iff.1 hpart).1
            simp only [List.length_append, List.length_singleton] at this
            omega
          subst hi
          obtain rfl : last = part := by simpa using hpart
          exact Or.inr ⟨(rest, item), (hlastMem rest item).2 hat, rfl⟩

/-- Two parts of different kinds, one behind the other. -/
theorem pair {second : List α} {At' : List Nat → α → Prop} (h : Lists At items)
    (h' : Lists At' second) :
    Lists (fun address item => (∃ rest, address = 0 :: rest ∧ At rest item) ∨
      ∃ rest, address = 1 :: rest ∧ At' rest item) (items ++ second) := by
  have hboth := numbered [(At, items), (At', second)] Prod.fst Prod.snd (by simpa using ⟨h, h'⟩)
  simp only [List.flatMap_cons, List.flatMap_nil, List.append_nil] at hboth
  refine hboth.of_iff fun address item => ?_
  constructor
  · rintro (⟨rest, rfl, hat⟩ | ⟨rest, rfl, hat⟩)
    · exact ⟨0, (At, items), rest, rfl, rfl, hat⟩
    · exact ⟨1, (At', second), rest, rfl, rfl, hat⟩
  · rintro ⟨_ | _ | i, part, rest, rfl, hpart, hat⟩
    · cases hpart
      exact Or.inl ⟨rest, rfl, hat⟩
    · cases hpart
      exact Or.inr ⟨rest, rfl, hat⟩
    · simp at hpart

theorem find?_eq_none (h : Lists At items) {p : α → Bool} :
    items.find? p = none ↔ ∀ address item, At address item → p item = false := by
  obtain ⟨located, rfl, -, hmem⟩ := h
  simp [← hmem]

/-- **What is found is at the first address** at which there is something of the kind. -/
theorem find?_eq_some (h : Lists At items) {p : α → Bool} {item : α} :
    items.find? p = some item ↔ ∃ address, At address item ∧ p item = true ∧
      ∀ earlier other, Before earlier address → At earlier other → p other = false := by
  obtain ⟨located, rfl, hsorted, hmem⟩ := h
  rw [List.find?_map, Option.map_eq_some_iff]
  constructor
  · rintro ⟨⟨address, item⟩, hfind, rfl⟩
    obtain ⟨hp, front, back, rfl, hfront⟩ := List.find?_eq_some_iff_append.1 hfind
    refine ⟨address, (hmem ..).1 (by simp), hp, fun earlier other hbefore hat => ?_⟩
    obtain ⟨-, hback, -⟩ := List.pairwise_append.1 hsorted
    rcases List.mem_append.1 ((hmem ..).2 hat) with hother | hother
    · simpa using hfront _ hother
    · rcases List.mem_cons.1 hother with heq | hother
      · cases heq
        exact absurd hbefore (Before.irrefl _)
      · exact absurd hbefore (Before.asymm ((List.pairwise_cons.1 hback).1 _ hother))
  · rintro ⟨address, hat, hp, hfirst⟩
    have hsome : (located.find? (p ∘ Prod.snd)).isSome :=
      List.find?_isSome.2 ⟨(address, item), (hmem ..).2 hat, hp⟩
    obtain ⟨found, hfind⟩ := Option.isSome_iff_exists.1 hsome
    refine ⟨found, hfind, ?_⟩
    obtain ⟨hfound, front, back, rfl, hfront⟩ := List.find?_eq_some_iff_append.1 hfind
    obtain ⟨-, hback, -⟩ := List.pairwise_append.1 hsorted
    rcases List.mem_append.1 ((hmem ..).2 hat) with hitem | hitem
    · simpa [hp] using hfront _ hitem
    · rcases List.mem_cons.1 hitem with heq | hitem
      · rw [← heq]
      · -- then what is found comes before the item, and is of the kind too
        have hbefore := (List.pairwise_cons.1 hback).1 _ hitem
        have hnot := hfirst found.1 found.2 hbefore ((hmem ..).1 (by simp))
        exact absurd hfound (by simp [hnot])

end Lists

/-! ## Names that a value reads -/

/-- The parts of a value in source order: the values inside it, and the names that it reads itself.
The variables of a substitution come before its text. -/
def Value.parts : Value → List (Value ⊕ Site)
  | .null | .bool _ | .number _ | .string _ | .pseudo _ => []
  | .list items => items.map .inl
  | .map entries => entries.map fun entry => .inl entry.2
  | .ref target => [.inr ⟨target, false⟩]
  | .getAtt target _ => [.inr ⟨target, true⟩]
  | .sub pieces bindings =>
    (bindings.map fun entry => .inl entry.2) ++ (pieces.filterMap Piece.site?).map .inr
  | .select index choices => [.inl index, .inl choices]
  | .join _ inner | .split _ inner | .importValue inner | .base64 inner | .zones inner =>
    [.inl inner]

/-- A value reads a name at an address. -/
inductive Value.SiteAt : Value → List Nat → Site → Prop
  | own {value : Value} {i : Nat} {site : Site} :
      value.parts[i]? = some (.inr site) → SiteAt value [i] site
  | inside {value inner : Value} {i : Nat} {address : List Nat} {site : Site} :
      value.parts[i]? = some (.inl inner) → SiteAt inner address site →
      SiteAt value (i :: address) site

theorem itemSites_eq (items : List Value) : itemSites items = items.flatMap Value.sites := by
  induction items with
  | nil => rfl
  | cons item rest ih => rw [itemSites, ih, List.flatMap_cons]

theorem entrySites_eq (entries : List (String × Value)) :
    entrySites entries = entries.flatMap fun entry => entry.2.sites := by
  induction entries with
  | nil => rfl
  | cons entry rest ih => rw [entrySites, ih, List.flatMap_cons]

/-- The sites of a value are those of its parts. -/
theorem Value.sites_eq (value : Value) :
    value.sites = value.parts.flatMap (Sum.elim Value.sites fun site => [site]) := by
  cases value <;>
    simp [Value.sites, Value.parts, itemSites_eq, entrySites_eq, List.flatMap_map]

theorem Value.sizeOf_lt {value inner : Value} (h : .inl inner ∈ value.parts) :
    sizeOf inner < sizeOf value := by
  have hentry : ∀ {entries : List (String × Value)} {key : String},
      (key, inner) ∈ entries → sizeOf inner < sizeOf entries := by
    intro entries key hmem
    have := List.sizeOf_lt_of_mem hmem
    simp only [Prod.mk.sizeOf_spec] at this
    omega
  cases value with
  | null | bool | number | string | pseudo | ref | getAtt => simp [Value.parts] at h
  | list items =>
    have hmem : inner ∈ items := by simpa [Value.parts] using h
    have := List.sizeOf_lt_of_mem hmem
    simp only [Value.list.sizeOf_spec]
    omega
  | map entries =>
    obtain ⟨key, hmem⟩ : ∃ key, (key, inner) ∈ entries := by simpa [Value.parts] using h
    have := hentry hmem
    simp only [Value.map.sizeOf_spec]
    omega
  | sub pieces bindings =>
    obtain ⟨key, hmem⟩ : ∃ key, (key, inner) ∈ bindings := by simpa [Value.parts] using h
    have := hentry hmem
    simp only [Value.sub.sizeOf_spec]
    omega
  | select index list =>
    have hmem : inner = index ∨ inner = list := by simpa [Value.parts] using h
    simp only [Value.select.sizeOf_spec]
    rcases hmem with rfl | rfl <;> omega
  | join delimiter only | split delimiter only =>
    obtain rfl : inner = only := by simpa [Value.parts] using h
    simp only [Value.join.sizeOf_spec, Value.split.sizeOf_spec]
    omega
  | importValue only | base64 only | zones only =>
    obtain rfl : inner = only := by simpa [Value.parts] using h
    simp

/-- **The sites of a value** are the names that it reads, in source order. -/
theorem Value.lists_sites (value : Value) : Lists value.SiteAt value.sites := by
  rw [Value.sites_eq]
  refine (Lists.numbered value.parts
    (Sum.elim Value.SiteAt fun site address found => address = [] ∧ found = site) _
    fun part hpart => ?_).of_iff fun address site => ?_
  · cases part with
    | inl inner =>
      have := Value.sizeOf_lt hpart
      exact inner.lists_sites
    | inr site => exact .leaf site
  · constructor
    · rintro (⟨hpart⟩ | ⟨hpart, hsite⟩)
      · exact ⟨_, _, [], rfl, hpart, rfl, rfl⟩
      · exact ⟨_, _, _, rfl, hpart, hsite⟩
    · rintro ⟨i, inner | found, rest, rfl, hpart, hat⟩
      · exact .inside hpart hat
      · obtain ⟨rfl, rfl⟩ := hat
        exact .own hpart
termination_by sizeOf value

/-! ## Names that a template reads -/

/-- A template reads a name at an address, for an owner: a resource in a property or by a
dependency, or an output in its value or its export. -/
inductive ReadsAt (template : Template) : List Nat → String → Site → Prop
  | property {i j : Nat} {resource : Resource} {key : String} {value : Value}
      {address : List Nat} {site : Site} : template.resources[i]? = some resource →
      resource.properties[j]? = some (key, value) → value.SiteAt address site →
      ReadsAt template (0 :: i :: 0 :: j :: address) resource.name site
  | dependency {i j : Nat} {resource : Resource} {name : String} :
      template.resources[i]? = some resource → resource.dependsOn[j]? = some name →
      ReadsAt template [0, i, 1, j] resource.name ⟨name, true⟩
  | value {i : Nat} {output : Output} {address : List Nat} {site : Site} :
      template.outputs[i]? = some output → output.value.SiteAt address site →
      ReadsAt template (1 :: i :: 0 :: address) output.name site
  | exportName {i : Nat} {output : Output} {value : Value} {address : List Nat} {site : Site} :
      template.outputs[i]? = some output → output.exportName = some value →
      value.SiteAt address site → ReadsAt template (1 :: i :: 1 :: address) output.name site

/-- A resource reads names in its properties, then by its dependencies. -/
theorem Resource.lists_reads (resource : Resource) :
    Lists (fun address site =>
      (∃ j key value rest, address = 0 :: j :: rest ∧
        resource.properties[j]? = some (key, value) ∧ value.SiteAt rest site) ∨
      ∃ j name, address = [1, j] ∧ resource.dependsOn[j]? = some name ∧ site = ⟨name, true⟩)
      resource.reads := by
  have hproperties := Lists.numbered resource.properties (fun entry => entry.2.SiteAt)
    (fun entry => entry.2.sites) fun entry _ => entry.2.lists_sites
  have hdependencies := Lists.numbered resource.dependsOn
    (fun name address site => address = [] ∧ site = Site.mk name true)
    (fun name => [Site.mk name true]) fun name _ => .leaf _
  rw [← entrySites_eq] at hproperties
  rw [← List.map_eq_flatMap] at hdependencies
  refine (hproperties.pair hdependencies).of_iff fun address site => ?_
  constructor
  · rintro (⟨j, key, value, rest, rfl, hget, hsite⟩ | ⟨j, name, rfl, hget, rfl⟩)
    · exact Or.inl ⟨_, rfl, j, (key, value), rest, rfl, hget, hsite⟩
    · exact Or.inr ⟨_, rfl, j, name, [], rfl, hget, rfl, rfl⟩
  · rintro (⟨_, rfl, j, ⟨key, value⟩, rest, rfl, hget, hsite⟩ |
      ⟨_, rfl, j, name, _, rfl, hget, rfl, rfl⟩)
    · exact Or.inl ⟨j, key, value, rest, rfl, hget, hsite⟩
    · exact Or.inr ⟨j, name, rfl, hget, rfl⟩

/-- An output reads names in its value, then in its export. -/
theorem Output.lists_sites (output : Output) :
    Lists (fun address site => (∃ rest, address = 0 :: rest ∧ output.value.SiteAt rest site) ∨
      ∃ rest, address = 1 :: rest ∧ ∃ value, output.exportName = some value ∧
        value.SiteAt rest site) output.sites := by
  refine output.value.lists_sites.pair ?_
  cases output.exportName with
  | none => exact ⟨[], rfl, .nil, by simp⟩
  | some value => exact value.lists_sites.of_iff fun address site => by simp

/-- **The reads of a template** are the names that it reads, in the order of their addresses. -/
theorem lists_reads (template : Template) :
    Lists (fun address read => template.ReadsAt address read.1 read.2) template.reads := by
  have hresources := Lists.numbered template.resources _ _ fun resource _ =>
    resource.lists_reads.map fun site => (resource.name, site)
  have houtputs := Lists.numbered template.outputs _ _ fun output _ =>
    output.lists_sites.map fun site => (output.name, site)
  refine (hresources.pair houtputs).of_iff fun address read => ?_
  obtain ⟨owner, site⟩ := read
  constructor
  · rintro (⟨hresource, hget, hsite⟩ | ⟨hresource, hget⟩ | ⟨houtput, hsite⟩ |
      ⟨houtput, hexport, hsite⟩)
    · exact Or.inl ⟨_, rfl, _, _, _, rfl, hresource, site,
        Or.inl ⟨_, _, _, _, rfl, hget, hsite⟩, rfl⟩
    · exact Or.inl ⟨_, rfl, _, _, _, rfl, hresource, _, Or.inr ⟨_, _, rfl, hget, rfl⟩, rfl⟩
    · exact Or.inr ⟨_, rfl, _, _, _, rfl, houtput, site, Or.inl ⟨_, rfl, hsite⟩, rfl⟩
    · exact Or.inr ⟨_, rfl, _, _, _, rfl, houtput, site,
        Or.inr ⟨_, rfl, _, hexport, hsite⟩, rfl⟩
  · rintro (⟨_, rfl, i, resource, _, rfl, hresource, site,
        ⟨j, key, value, rest, rfl, hget, hsite⟩ | ⟨j, name, rfl, hget, rfl⟩, ⟨⟩⟩ |
      ⟨_, rfl, i, output, _, rfl, houtput, site,
        ⟨rest, rfl, hsite⟩ | ⟨rest, rfl, value, hexport, hsite⟩, ⟨⟩⟩)
    · exact .property hresource hget hsite
    · exact .dependency hresource hget
    · exact .value houtput hsite
    · exact .exportName houtput hexport hsite

/-! ## The check -/

/-- The name of a site is declared: as a resource, or as a parameter where that suffices. -/
def Site.Declared (site : Site) (template : Template) : Prop :=
  (∃ resource ∈ template.resources, resource.name = site.target) ∨
    site.needsResource = false ∧ ∃ parameter ∈ template.parameters, parameter.name = site.target

theorem Site.declared_iff (site : Site) (template : Template) :
    site.Declared template ↔ template.resolves site = true := by
  obtain ⟨target, _ | _⟩ := site
  · simp [Site.Declared, resolves, declares, parameter?, resource?, or_comm]
  · simp [Site.Declared, resolves, resource?]

theorem checkReferences_eq_ok (template : Template) : template.checkReferences = .ok () ↔
    template.reads.find? (fun read => !template.resolves read.2) = none := by
  unfold checkReferences
  cases template.reads.find? fun read => !template.resolves read.2 <;> simp

theorem checkReferences_eq_error (template : Template) (failure : Failure) :
    template.checkReferences = .error failure ↔ ∃ owner site,
      template.reads.find? (fun read => !template.resolves read.2) = some (owner, site) ∧
        failure = .unresolved owner site.target := by
  unfold checkReferences
  cases template.reads.find? fun read => !template.resolves read.2 with
  | none => simp
  | some read =>
    obtain ⟨owner, site⟩ := read
    simp [eq_comm]

/-- **The check reports what is read first.** It passes when every name that is read is declared.
Otherwise the failure tells the owner and the name of an undeclared read, and at every address
before that one the names are declared. -/
theorem first_undeclared_reported (template : Template) :
    (template.checkReferences = .ok () ↔ ∀ address owner site,
      template.ReadsAt address owner site → site.Declared template) ∧
    ∀ failure, template.checkReferences = .error failure ↔ ∃ address owner site,
      template.ReadsAt address owner site ∧ ¬ site.Declared template ∧
      failure = .unresolved owner site.target ∧
      ∀ earlier other site', Before earlier address → template.ReadsAt earlier other site' →
        site'.Declared template := by
  have hlists := template.lists_reads
  constructor
  · rw [checkReferences_eq_ok, hlists.find?_eq_none]
    simp [Site.declared_iff]
  · intro failure
    rw [checkReferences_eq_error]
    simp only [hlists.find?_eq_some, Site.declared_iff]
    constructor
    · rintro ⟨owner, site, ⟨address, hread, hfails, hfirst⟩, hfailure⟩
      refine ⟨address, owner, site, hread, by simpa using hfails, hfailure, ?_⟩
      intro earlier other site' hbefore hread'
      simpa using hfirst earlier (other, site') hbefore hread'
    · rintro ⟨address, owner, site, hread, hfails, hfailure, hfirst⟩
      refine ⟨owner, site, ⟨address, hread, by simpa using hfails, ?_⟩, hfailure⟩
      rintro earlier ⟨other, site'⟩ hbefore hread'
      simpa using hfirst earlier other site' hbefore hread'

end CdkStacks.Template
