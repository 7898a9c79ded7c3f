import CdkStacks.Proofs.Layout
import CdkStacks.Proofs.Ledger
import CdkStacks.Proofs.Search

/-!
# Templates with circular references

Mapping a template fails exactly when resources read each other in a circle, and the failure names
such a circle.

* `Template.Points` is the reference graph of the resources, read off the template;
* `Template.Circular` says that a resource reaches itself;
* `Template.NamesCircle` is a failure whose text spells out a circle;
* `StopsTooWide`: without a circle, a line that is too wide keeps the files from being generated;
* `fails_iff_circular`: mapping and, this apart, generating fail exactly on circular templates, with
  the name of a circle.
-/

namespace CdkStacks.Template

open Relation (TransGen)

/-! ## The reference graph -/

/-- The resource at a place points to the one at another place: one of its properties reads that
resource, or it depends on it. -/
def Points (template : Template) (place target : Nat) : Prop :=
  ∃ resource, template.resources[place]? = some resource ∧
    ((∃ property ∈ resource.properties, ∃ site ∈ property.2.sites,
        template.resourceIndex? site.target = some target) ∨
      ∃ name ∈ resource.dependsOn, template.resourceIndex? name = some target)

/-- A resource reaches itself. -/
def Circular (template : Template) : Prop :=
  ∃ place, TransGen template.Points place place

/-- A failure that names the resources of a circle, and whose text joins these names. -/
def NamesCircle (template : Template) (failure : Failure) : Prop :=
  ∃ places names, IsCircle template.Points places ∧
    places.map (fun place => template.resources[place]?.map Resource.name) = names.map some ∧
    failure = .cycle names ∧
    failure.message = "Circular reference between resources: " ++ " -> ".intercalate names

theorem mem_entrySites {entries : List (String × Value)} {site : Site} :
    site ∈ entrySites entries ↔ ∃ entry ∈ entries, site ∈ entry.2.sites := by
  induction entries with
  | nil => simp [entrySites]
  | cons entry entries ih =>
    obtain ⟨name, value⟩ := entry
    simp [entrySites, ih]

/-- The edges that the search follows are those of the reference graph. -/
theorem leads_edges {template : Template} {place target : Nat} :
    Leads template.edges place target ↔ template.Points place target := by
  unfold Leads edges Points
  cases template.resources[place]? with
  | none => simp
  | some resource =>
    simp only [targets, List.mem_eraseDups, List.mem_filterMap, List.mem_append, List.mem_map,
      Resource.sites, mem_entrySites, Option.some.injEq, exists_eq_left']
    constructor
    · rintro ⟨name, ⟨site, ⟨property, hproperty, hsite⟩, rfl⟩ | hname, hindex⟩
      · exact Or.inl ⟨property, hproperty, site, hsite, hindex⟩
      · exact Or.inr ⟨name, hname, hindex⟩
    · rintro (⟨property, hproperty, site, hsite, hindex⟩ | ⟨name, hname, hindex⟩)
      · exact ⟨site.target, Or.inl ⟨site, ⟨property, hproperty, hsite⟩, rfl⟩, hindex⟩
      · exact ⟨name, Or.inr hname, hindex⟩

theorem leads_edges_eq (template : Template) : Leads template.edges = template.Points := by
  funext place target
  exact propext leads_edges

theorem lt_of_resourceIndex? {template : Template} {name : String} {place : Nat}
    (h : template.resourceIndex? name = some place) : place < template.resources.length :=
  (List.findIdx?_eq_some_iff_findIdx_eq.1 h).1

/-- Both ends of an edge are places of resources. -/
theorem Points.lt {template : Template} {place target : Nat} (h : template.Points place target) :
    place < template.resources.length ∧ target < template.resources.length := by
  obtain ⟨resource, hplace, htarget⟩ := h
  refine ⟨(List.getElem?_eq_some_iff.1 hplace).1, ?_⟩
  rcases htarget with ⟨_, _, site, _, hindex⟩ | ⟨name, _, hindex⟩
  · exact lt_of_resourceIndex? hindex
  · exact lt_of_resourceIndex? hindex

/-! ## Names of a circle -/

/-- Every place on a walk of at least one step is the place of a resource. -/
theorem lt_of_isChain {template : Template} : ∀ {first : Nat} {rest : List Nat},
    (first :: rest).IsChain template.Points → rest ≠ [] →
      ∀ place ∈ first :: rest, place < template.resources.length
  | first, [], _, hne, _, _ => absurd rfl hne
  | first, [last], h, _, place, hplace => by
    obtain ⟨hfirst, hlast⟩ := (List.isChain_cons_cons.1 h).1.lt
    rcases List.mem_cons.1 hplace with rfl | hplace
    · exact hfirst
    · rw [List.mem_singleton.1 hplace]
      exact hlast
  | first, next :: after :: rest, h, _, place, hplace => by
    obtain ⟨hstep, hchain⟩ := List.isChain_cons_cons.1 h
    rcases List.mem_cons.1 hplace with rfl | hplace
    · exact hstep.lt.1
    · exact lt_of_isChain hchain (by simp) place hplace

/-- The places of a circle have resources, whose names are those of the failure. -/
theorem IsCircle.names {template : Template} {places : List Nat}
    (h : IsCircle template.Points places) :
    places.map (fun place => template.resources[place]?.map Resource.name) =
      (places.map template.nameAt).map some := by
  obtain ⟨start, inner, rfl, -, hchain⟩ := h
  have hlt := lt_of_isChain hchain (by simp)
  rw [List.map_map]
  refine List.map_congr_left fun place hplace => ?_
  have hget := List.getElem?_eq_getElem (hlt place hplace)
  simp [nameAt, hget]

/-- The check fails exactly on circular templates. -/
theorem checkCycles_eq (template : Template) :
    (template.checkCycles = .ok () ∧ ¬ template.Circular) ∨
      ∃ failure, template.checkCycles = .error failure ∧ template.Circular ∧
        template.NamesCircle failure := by
  have hanswer : Answers template.edges [] _
      (searchAll template.edges template.resources.length) :=
    searchAll_answers fun place target h => (leads_edges.1 h).lt.2
  unfold checkCycles
  cases hr : searchAll template.edges template.resources.length with
  | ok done =>
    rw [hr] at hanswer
    obtain ⟨-, hall, hsafe⟩ := hanswer
    refine Or.inl ⟨rfl, ?_⟩
    rintro ⟨place, hcircle⟩
    obtain ⟨next, hnext, -⟩ := TransGen.head'_iff.1 hcircle
    have hsafe' := hsafe place (hall (List.mem_range.2 hnext.lt.1)) place .refl
    rw [leads_edges_eq] at hsafe'
    exact hsafe' hcircle
  | error places =>
    rw [hr] at hanswer
    have hcircle : IsCircle template.Points places := by
      rw [← leads_edges_eq]
      exact hanswer
    exact Or.inr ⟨_, rfl, hcircle.reaches_itself, places, _, hcircle, hcircle.names, rfl, rfl⟩

end CdkStacks.Template

namespace CdkStacks.Construct

open CdkStacks.Template CdkStacks.TypeScript

/-- A result that fails exactly on a circular template, and then names a circle of it. -/
def FailsOnCircles {α : Type} (template : Template) (result : Except Failure α) : Prop :=
  ((∃ failure, result = .error failure) ↔ template.Circular) ∧
    ∀ failure, result = .error failure → template.NamesCircle failure

section FailsOnCircles

variable {α : Type} {template : Template} {result : Except Failure α}

theorem failsOnCircles_of_ok (hnot : ¬ template.Circular) {value : α} (h : result = .ok value) :
    FailsOnCircles template result := by
  subst h
  exact ⟨⟨fun ⟨_, h⟩ => (by cases h), fun h => absurd h hnot⟩, fun _ h => (by cases h)⟩

theorem failsOnCircles_of_error {failure : Failure} (hcircular : template.Circular)
    (hnames : template.NamesCircle failure) (h : result = .error failure) :
    FailsOnCircles template result := by
  subst h
  refine ⟨⟨fun _ => hcircular, fun _ => ⟨failure, rfl⟩⟩, ?_⟩
  rintro _ ⟨⟩
  exact hnames

end FailsOnCircles

/-- The template has no circle, but a line of the files is too wide: nothing is generated. -/
def StopsTooWide (scaffold : Scaffold) (settings : Settings) : Prop :=
  ¬ scaffold.template.Circular ∧ scaffold.generate settings = .error (.layout .tooWide) ∧
    ∃ code, StackCode.ofTemplate scaffold.template (Scaffold.stackImports settings.libraries)
      settings.libraries = .ok code ∧
        ¬ LinesFit settings.indent 0 (scaffold.steps settings.libraries code)

/-- **Mapping fails exactly on circular references.** So does generating the files of a stack, and
both failures name the resources of a circle. Where there is none, the files are generated unless a
line of them is too wide. -/
theorem fails_iff_circular :
    (∀ template imports libraries,
      FailsOnCircles template (StackCode.ofTemplate template imports libraries)) ∧
    ∀ (scaffold : Scaffold) (settings : Settings),
      FailsOnCircles scaffold.template (scaffold.generate settings) ∨
        StopsTooWide scaffold settings := by
  refine ⟨fun template imports libraries => ?_, fun scaffold settings => ?_⟩
  · rcases template.checkCycles_eq with ⟨hcheck, hnot⟩ | ⟨failure, hcheck, hcircular, hnames⟩
    · exact failsOnCircles_of_ok hnot (ofTemplate_of_ok hcheck imports libraries)
    · exact failsOnCircles_of_error hcircular hnames (ofTemplate_of_error hcheck imports libraries)
  · rcases scaffold.template.checkCycles_eq with
      ⟨hcheck, hnot⟩ | ⟨failure, hcheck, hcircular, hnames⟩
    · have hcode := ofTemplate_of_ok hcheck (Scaffold.stackImports settings.libraries)
        settings.libraries
      have hgenerate := Scaffold.generate_eq hcode
      -- the layout meets no other misuse, so without a circle nothing else can fail
      by_cases hfit : LinesFit settings.indent 0 (scaffold.steps settings.libraries
          (.build scaffold.template (Scaffold.stackImports settings.libraries) settings.libraries))
      · rw [if_pos hfit] at hgenerate
        exact .inl (failsOnCircles_of_ok hnot hgenerate)
      · rw [if_neg hfit] at hgenerate
        exact .inr ⟨hnot, hgenerate, _, hcode, hfit⟩
    · refine .inl (failsOnCircles_of_error hcircular hnames ?_)
      rw [Scaffold.generate, ofTemplate_of_error hcheck]
      rfl

end CdkStacks.Construct
