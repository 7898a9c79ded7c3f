import CdkStacks.Proofs.Emissions
import CdkStacks.Proofs.LongForm
import CdkStacks.Proofs.Order
import CdkStacks.Proofs.Sites

/-!
# Declared names

A document is only read as a template when the names that its resources and outputs look up are
declared. The values of parameters are not checked.

* `Value.accesses_sites`: whatever a scoped value looks up is one of its sites;
* `scoped_of_decodeWithin`: the values that are read from nodes are scoped;
* `Access.Declared`: a name is declared for a use;
* `Dangling`: something in the code stands for a name which is not declared;
* `lookups_declared`: the code of a document looks up declared names, except for the values of
  parameters, and dangles exactly when one of these looks up a name that is not declared.
-/

namespace CdkStacks.Template

open CdkStacks.Document (Node lookup?)

/-! ## Accesses are sites -/

/-- The site at which a name is used. -/
def Access.site : Access → Site
  | reference target => ⟨target, false⟩
  | getAtt target _ => ⟨target, true⟩

theorem entryAccesses_keys (entries : List (String × Value)) :
    (entryAccesses entries).map Prod.fst = entries.map Prod.fst := by
  induction entries with
  | nil => rfl
  | cons entry rest ih => rw [entryAccesses, List.map_cons, ih, List.map_cons]

theorem Piece.accesses_sites {bindings : List (String × List Access)} {sites : List Site}
    (hbindings : ∀ entry ∈ bindings, ∀ access ∈ entry.2, access.site ∈ sites) {piece : Piece}
    (hbound : ∀ name, piece = .bound name → name ∈ bindings.map Prod.fst)
    (hsite : ∀ site, piece.site? = some site → site ∈ sites) :
    ∀ access ∈ piece.accesses bindings, access.site ∈ sites := by
  intro access haccess
  cases piece with
  | text | pseudo => cases haccess
  | name target =>
    rw [List.mem_singleton.1 haccess]
    exact hsite _ rfl
  | getAtt target name =>
    rw [List.mem_singleton.1 haccess]
    exact hsite _ rfl
  | bound name =>
    rw [Piece.accesses] at haccess
    cases hfind : bindings.find? fun v => v.1 = name with
    | none =>
      obtain ⟨entry, hentry, hname⟩ := List.mem_map.1 (hbound name rfl)
      exact absurd hname (by simpa using List.find?_eq_none.1 hfind entry hentry)
    | some entry =>
      rw [hfind] at haccess
      exact hbindings entry (List.mem_of_find?_eq_some hfind) access haccess

mutual

/-- **What a scoped value looks up is one of its sites.** -/
theorem Value.accesses_sites : ∀ value : Value, value.Scoped →
    ∀ access ∈ value.accesses, access.site ∈ value.sites
  | .null, _, _, h | .bool _, _, _, h | .number _, _, _, h | .string _, _, _, h
  | .pseudo _, _, _, h => by cases h
  | .ref _, _, _, h | .getAtt _ _, _, _, h => by
    rw [List.mem_singleton.1 h]
    exact .head _
  | .list items, hscoped, access, h => itemAccesses_sites items hscoped access h
  | .map entries, hscoped, access, h => by
    rw [Value.accesses] at h
    obtain ⟨entry, hentry, haccess⟩ := List.mem_flatMap.1 h
    exact entryAccesses_sites entries hscoped entry hentry access haccess
  | .sub pieces bindings, hscoped, access, h => by
    rw [Value.accesses] at h
    obtain ⟨piece, hpiece, haccess⟩ := List.mem_flatMap.1 h
    rw [Value.sites]
    refine Piece.accesses_sites (fun entry hentry access haccess => ?_) ?_ ?_ access haccess
    · exact List.mem_append_left _
        (entryAccesses_sites bindings hscoped.2 entry hentry access haccess)
    · rintro name rfl
      rw [entryAccesses_keys]
      exact hscoped.1 name hpiece
    · exact fun site hsite =>
        List.mem_append_right _ (List.mem_filterMap.2 ⟨piece, hpiece, hsite⟩)
  | .select index list, hscoped, access, h => by
    rw [Value.accesses] at h
    rw [Value.sites]
    rcases List.mem_append.1 h with h | h
    · exact List.mem_append_left _ (index.accesses_sites hscoped.1 access h)
    · exact List.mem_append_right _ (list.accesses_sites hscoped.2 access h)
  | .join _ inner, hscoped, access, h | .split _ inner, hscoped, access, h
  | .importValue inner, hscoped, access, h | .base64 inner, hscoped, access, h
  | .zones inner, hscoped, access, h => inner.accesses_sites hscoped access h

/-- What the items of a list look up are their sites. -/
theorem itemAccesses_sites : ∀ items : List Value, ScopedItems items →
    ∀ access ∈ itemAccesses items, access.site ∈ itemSites items
  | [], _, _, h => by cases h
  | item :: rest, hscoped, access, h => by
    rw [itemAccesses] at h
    rw [itemSites]
    rcases List.mem_append.1 h with h | h
    · exact List.mem_append_left _ (item.accesses_sites hscoped.1 access h)
    · exact List.mem_append_right _ (itemAccesses_sites rest hscoped.2 access h)

/-- What the values of entries look up are their sites. -/
theorem entryAccesses_sites : ∀ entries : List (String × Value), ScopedEntries entries →
    ∀ entry ∈ entryAccesses entries, ∀ access ∈ entry.2, access.site ∈ entrySites entries
  | [], _, _, h, _, _ => by cases h
  | (key, value) :: rest, hscoped, entry, h, access, haccess => by
    rw [entryAccesses] at h
    rw [entrySites]
    rcases List.mem_cons.1 h with rfl | h
    · exact List.mem_append_left _ (value.accesses_sites hscoped.1 access haccess)
    · exact List.mem_append_right _ (entryAccesses_sites rest hscoped.2 entry h access haccess)

end

/-! ## Values that are read are scoped -/

theorem scopedItems_iff {items : List Value} :
    ScopedItems items ↔ ∀ item ∈ items, item.Scoped := by
  induction items with
  | nil => simp [ScopedItems]
  | cons item rest ih => simp [ScopedItems, ih]

theorem scopedEntries_iff {entries : List (String × Value)} :
    ScopedEntries entries ↔ ∀ entry ∈ entries, entry.2.Scoped := by
  induction entries with
  | nil => simp [ScopedEntries]
  | cons entry rest ih => simp [ScopedEntries, ih]

theorem mem_of_placeholder {bound : List String} {inner name : String}
    (h : placeholder bound inner = .bound name) : name ∈ bound := by
  unfold placeholder at h
  split at h
  · rename_i hmem
    cases h
    simpa using hmem
  · split at h
    · cases h
    · split at h <;> cases h

theorem bound_notMem_textPiece (cs : List Char) (name : String) :
    Piece.bound name ∉ textPiece cs := by
  unfold textPiece
  split_ifs <;> simp

/-- The pieces of a substitution text name no variable but those that are bound. -/
theorem mem_of_mem_cutFrom {bound : List String} {name : String} : ∀ (text cs : List Char),
    Piece.bound name ∈ cutFrom bound text cs → name ∈ bound := by
  intro text cs
  induction text, cs using cutFrom.induct with
  | case1 text cs hnext =>
    intro h
    rw [cutFrom, hnext] at h
    exact absurd h (bound_notMem_textPiece _ _)
  | case2 text cs before literal after hlength hnext ih =>
    intro h
    rw [cutFrom, hnext] at h
    exact ih h
  | case3 text cs before inner after hlength hinner hnext ih =>
    intro h
    rw [cutFrom, hnext] at h
    split at h
    · next hnone => cases hnone
    · next hsome =>
      cases hsome
      exact absurd rfl (hinner _)
    · next hsome =>
      cases hsome
      rcases List.mem_append.1 h with h | h
      · exact absurd h (bound_notMem_textPiece _ _)
      · rcases List.mem_cons.1 h with h | h
        · exact mem_of_placeholder h.symm
        · exact ih h

section Reading

variable {read : Node → Except Malformed Value}
  (hread : ∀ node value, read node = .ok value → value.Scoped)

include hread

theorem scoped_of_decodeEntries {entries : List (Node × Node)} {results : List (String × Value)}
    (h : decodeEntries read entries = .ok results) : ScopedEntries results := by
  refine scopedEntries_iff.2 fun result hresult => ?_
  obtain ⟨node, hnode⟩ := exists_of_mem_decodeEntries h result hresult
  exact hread node result.2 hnode

theorem scoped_of_mapM {items : List Node} {results : List Value}
    (h : items.mapM read = .ok results) : ScopedItems results := by
  refine scopedItems_iff.2 fun result hresult => ?_
  obtain ⟨item, -, hitem⟩ := exists_of_mem_mapM h result hresult
  exact hread item result hitem

/-- A function is read as a scoped value when the values inside it are. -/
theorem scoped_of_apply {f : Function} {argument : Node} {result : Value}
    (h : f.apply read argument = .ok result) : result.Scoped := by
  cases f with
  | ref =>
    obtain ⟨target, -, h⟩ := exists_of_bind_eq_ok h
    split at h <;> cases h <;> trivial
  | getAtt =>
    unfold Function.apply at h
    dsimp only at h
    split at h
    · split at h
      · cases h
        trivial
      · cases h
    · obtain ⟨target, -, h⟩ := exists_of_bind_eq_ok h
      obtain ⟨member, -, h⟩ := exists_of_bind_eq_ok h
      cases h
      trivial
    · cases h
  | join | split =>
    obtain ⟨⟨first, second⟩, -, h⟩ := exists_of_bind_eq_ok h
    obtain ⟨delimiter, -, h⟩ := exists_of_bind_eq_ok h
    obtain ⟨inner, hinner, h⟩ := exists_of_bind_eq_ok h
    cases h
    exact hread _ inner hinner
  | sub =>
    unfold Function.apply at h
    dsimp only at h
    split at h
    · cases h
      exact ⟨fun name hname => mem_of_mem_cutFrom _ _ hname, trivial⟩
    · obtain ⟨text, -, h⟩ := exists_of_bind_eq_ok h
      split at h
      · obtain ⟨bound, hbound, h⟩ := exists_of_bind_eq_ok h
        cases h
        exact ⟨fun name hname => mem_of_mem_cutFrom _ _ hname,
          scoped_of_decodeEntries hread hbound⟩
      · cases h
    · cases h
  | select =>
    obtain ⟨⟨first, second⟩, -, h⟩ := exists_of_bind_eq_ok h
    obtain ⟨index, hindex, h⟩ := exists_of_bind_eq_ok h
    obtain ⟨list, hlist, h⟩ := exists_of_bind_eq_ok h
    cases h
    exact ⟨hread _ index hindex, hread _ list hlist⟩
  | importValue | base64 | getAZs =>
    obtain ⟨inner, hinner, h⟩ := exists_of_bind_eq_ok h
    cases h
    exact hread _ inner hinner

end Reading

/-- **Values that are read are scoped.** -/
theorem scoped_of_decodeWithin : ∀ {room : Nat} {node : Node} {value : Value},
    decodeWithin room node = .ok value → value.Scoped
  | 0, _, _, h => by cases h
  | room + 1, node, value, h => by
    have hread : ∀ node value, decodeWithin room node = .ok value → value.Scoped :=
      fun _ _ => scoped_of_decodeWithin
    cases hc : call? node with
    | some call =>
      obtain ⟨f, argument⟩ := call
      rw [decodeWithin_call hc] at h
      exact scoped_of_apply hread h
    | none =>
      cases node with
      | null | bool | string =>
        cases h
        trivial
      | number number =>
        rw [decodeWithin] at h
        split_ifs at h
        cases h
        trivial
      | sequence items =>
        rw [decodeWithin] at h
        obtain ⟨values, hvalues, h⟩ := exists_of_bind_eq_ok h
        cases h
        exact scoped_of_mapM hread hvalues
      | mapping entries =>
        rw [decodeWithin_mapping hc] at h
        obtain ⟨values, hvalues, h⟩ := exists_of_bind_eq_ok h
        cases h
        exact scoped_of_decodeEntries hread hvalues
      | tagged tag content =>
        rw [decodeWithin_tagged hc] at h
        obtain ⟨inner, hinner, h⟩ := exists_of_bind_eq_ok h
        cases h
        exact ⟨hread _ inner hinner, trivial⟩

/-! ## Templates that are read -/

/-- A name is declared for a use: a reference needs a parameter or a resource, an attribute needs a
resource. -/
def Access.Declared (template : Template) : Access → Prop
  | reference target =>
    (∃ parameter ∈ template.parameters, parameter.name = target) ∨
      ∃ resource ∈ template.resources, resource.name = target
  | getAtt target _ => ∃ resource ∈ template.resources, resource.name = target

theorem Access.declared_iff {template : Template} {access : Access} :
    access.Declared template ↔ template.resolves access.site = true := by
  cases access with
  | reference target =>
    change _ ↔ template.resolves ⟨target, false⟩ = true
    simp [Access.Declared, resolves, declares, parameter?, resource?]
  | getAtt target name =>
    change _ ↔ template.resolves ⟨target, true⟩ = true
    simp [Access.Declared, resolves, resource?]

/-- Every declaration of a section has been read from an entry. -/
theorem exists_of_readSection {α : Type} {read : String → Node → Except Malformed α}
    {root : Fields} {title : String} {results : List α}
    (h : readSection read root title = .ok results) :
    ∀ result ∈ results, ∃ name body, read name body = .ok result := by
  intro result hresult
  obtain ⟨entries, -, h⟩ := exists_of_bind_eq_ok h
  obtain ⟨⟨key, body⟩, -, hentry⟩ := exists_of_mem_mapM h result hresult
  obtain ⟨name, -, hentry⟩ := exists_of_bind_eq_ok hentry
  exact ⟨name, body, inContext_eq_ok.1 hentry⟩

/-- What is known of a template that has been read. -/
structure WasRead (template : Template) : Prop where
  resources : ∀ resource ∈ template.resources, ∃ name body, readResource name body = .ok resource
  outputs : ∀ output ∈ template.outputs, ∃ name body, readOutput name body = .ok output
  references : template.checkReferences = .ok ()

/-- The steps by which a template is read from a mapping. -/
structure ReadFrom (root : Fields) (template : Template) : Prop where
  parameters : readSection readParameter root "Parameters" = .ok template.parameters
  resources : readSection readResource root "Resources" = .ok template.resources
  outputs : readSection readOutput root "Outputs" = .ok template.outputs
  conditions : readSection readCondition root "Conditions" = .ok template.conditions
  once : template.checkDeclaredOnce = .ok ()
  references : template.checkReferences = .ok ()

/-- **A template is read section by section,** and then checked. -/
theorem readFrom_of_ofNode {document : Node} {template : Template}
    (h : ofNode document = .ok template) :
    ∃ root, document = .mapping root ∧ ReadFrom root template := by
  cases document with
  | mapping root =>
    obtain ⟨parameters, hparameters, h⟩ := exists_of_bind_eq_ok h
    obtain ⟨resources, hresources, h⟩ := exists_of_bind_eq_ok h
    obtain ⟨outputs, houtputs, h⟩ := exists_of_bind_eq_ok h
    obtain ⟨conditions, hconditions, h⟩ := exists_of_bind_eq_ok h
    obtain ⟨_, honce, h⟩ := exists_of_bind_eq_ok h
    obtain ⟨_, hreferences, h⟩ := exists_of_bind_eq_ok h
    cases h
    exact ⟨root, rfl, hparameters, hresources, houtputs, hconditions, honce, hreferences⟩
  | null | bool | number | string | sequence | tagged => cases h

theorem wasRead_of_ofNode {document : Node} {template : Template}
    (h : ofNode document = .ok template) : WasRead template := by
  obtain ⟨root, -, hroot⟩ := readFrom_of_ofNode h
  exact ⟨exists_of_readSection hroot.resources, exists_of_readSection hroot.outputs,
    hroot.references⟩

theorem wasRead_of_ofText {format : Format} {text : String} {template : Template}
    (h : ofText format text = .ok template) : WasRead template := by
  unfold ofText at h
  split at h
  · exact wasRead_of_ofNode h
  · cases h

theorem decode_of_valueField? {fields : Fields} {name : String} {value : Value}
    (h : valueField? fields name = .ok (some value)) : ∃ node, decode node = .ok value := by
  unfold valueField? at h
  split at h
  · cases h
  · obtain ⟨decoded, hdecoded, h⟩ := exists_of_bind_eq_ok h
    cases h
    exact ⟨_, hdecoded⟩

/-- The values of properties have been read from nodes. -/
theorem decode_of_readResource {name : String} {body : Node} {resource : Resource}
    (h : readResource name body = .ok resource) :
    ∀ entry ∈ resource.properties, ∃ node, decode node = .ok entry.2 := by
  obtain ⟨fields, -, h⟩ := exists_of_bind_eq_ok h
  obtain ⟨type, -, h⟩ := exists_of_bind_eq_ok h
  obtain ⟨properties, hproperties, h⟩ := exists_of_bind_eq_ok h
  obtain ⟨dependsOn, -, h⟩ := exists_of_bind_eq_ok h
  obtain ⟨condition, -, h⟩ := exists_of_bind_eq_ok h
  cases h
  unfold propertyFields at hproperties
  split at hproperties
  · cases hproperties
    exact List.forall_mem_nil _
  · cases hproperties
    exact List.forall_mem_nil _
  · exact exists_of_mem_decodeEntries hproperties
  · cases hproperties

/-- The values of an output have been read from nodes. -/
theorem decode_of_readOutput {name : String} {body : Node} {output : Output}
    (h : readOutput name body = .ok output) :
    (∃ node, decode node = .ok output.value) ∧
      ∀ value ∈ output.exportName, ∃ node, decode node = .ok value := by
  obtain ⟨fields, -, h⟩ := exists_of_bind_eq_ok h
  obtain ⟨value?, hvalue, h⟩ := exists_of_bind_eq_ok h
  cases value? with
  | none => cases h
  | some value =>
    obtain ⟨exportName, hexport, h⟩ := exists_of_bind_eq_ok h
    obtain ⟨description, -, h⟩ := exists_of_bind_eq_ok h
    obtain ⟨condition, -, h⟩ := exists_of_bind_eq_ok h
    cases h
    refine ⟨decode_of_valueField? hvalue, fun exported hexported => ?_⟩
    cases hexported
    unfold exportField? at hexport
    split at hexport
    · cases hexport
    · cases hexport
    · exact decode_of_valueField? hexport
    · cases hexport

section WasRead

variable {template : Template} (h : WasRead template)

include h

theorem WasRead.resolves : ∀ read ∈ template.reads, template.resolves read.2 = true := by
  intro read hread
  have hnone : template.reads.find? (fun read => !template.resolves read.2) = none := by
    have hok := h.references
    unfold checkReferences at hok
    split at hok
    · cases hok
    · rename_i hfind
      exact hfind
  simpa using List.find?_eq_none.1 hnone read hread

/-- The properties of resources look up declared names. -/
theorem WasRead.resource_declared {resource : Resource} (hresource : resource ∈ template.resources)
    {access : Access} (haccess : access ∈ resource.accesses) : access.Declared template := by
  obtain ⟨name, body, hread⟩ := h.resources resource hresource
  obtain ⟨entry, hentry, haccess⟩ := List.mem_flatMap.1 haccess
  have hscoped : ScopedEntries resource.properties := by
    refine scopedEntries_iff.2 fun entry hentry => ?_
    obtain ⟨node, hnode⟩ := decode_of_readResource hread entry hentry
    exact scoped_of_decodeWithin hnode
  have hsite := entryAccesses_sites _ hscoped entry hentry access haccess
  refine Access.declared_iff.2 (h.resolves (resource.name, access.site) ?_)
  refine List.mem_append_left _ (List.mem_flatMap.2 ⟨resource, hresource, ?_⟩)
  exact List.mem_map.2 ⟨access.site, List.mem_append_left _ hsite, rfl⟩

/-- Outputs look up declared names. -/
theorem WasRead.output_declared {output : Output} (houtput : output ∈ template.outputs)
    {access : Access} (haccess : access ∈ output.accesses) : access.Declared template := by
  obtain ⟨name, body, hread⟩ := h.outputs output houtput
  obtain ⟨⟨node, hvalue⟩, hexport⟩ := decode_of_readOutput hread
  have hsite : access.site ∈ output.sites := by
    rcases List.mem_append.1 haccess with haccess | haccess
    · exact List.mem_append_left _
        (output.value.accesses_sites (scoped_of_decodeWithin hvalue) access haccess)
    · unfold Output.sites
      cases hname : output.exportName with
      | none =>
        rw [hname] at haccess
        cases haccess
      | some exported =>
        rw [hname] at haccess
        obtain ⟨node, hexported⟩ := hexport exported hname
        exact List.mem_append_right _
          (exported.accesses_sites (scoped_of_decodeWithin hexported) access haccess)
  refine Access.declared_iff.2 (h.resolves (output.name, access.site) ?_)
  refine List.mem_append_right _ (List.mem_flatMap.2 ⟨output, houtput, ?_⟩)
  exact List.mem_map.2 ⟨access.site, hsite, rfl⟩

end WasRead

end CdkStacks.Template

namespace CdkStacks.TypeScript

/-- What stands for a name, when a part does. -/
def Part.name? : Part → Option Expr
  | .name atom => some atom
  | .call _ => none

end CdkStacks.TypeScript

namespace CdkStacks.Construct

open CdkStacks.Template CdkStacks.TypeScript

/-! ## Look-ups of the code -/

/-- What stands for names in a statement, in order. -/
def Statement.names (statement : Statement) : List Expr :=
  statement.parts.filterMap Part.name?

/-- Something in the code that stands for a name which is not declared. -/
def Dangling (template : Template) (atom : Expr) : Prop :=
  ∃ access : Access, atom = unresolved access ∧ ¬ access.Declared template

/-- The names of a statement are the look-ups of its accesses. -/
theorem names_of_parts {view : View} {emissions : List Emission} {statement : Statement}
    (h : statement.parts = emissions.filterMap view.part?) :
    statement.names = (emissions.filterMap Emission.access?).map view.lookup := by
  rw [Statement.names, h, List.filterMap_filterMap, List.map_filterMap]
  refine List.filterMap_congr fun emission _ => ?_
  cases emission <;> rfl

theorem unresolved_injective {first second : Access} (h : unresolved first = unresolved second) :
    first = second := by
  cases first <;> cases second <;> simp_all [unresolved]

section Scope

variable {template : Template} {view : View} (hscope : view.scope = Scope.ofTemplate template)

include hscope

theorem declared_of_parameter? {target : String} {accessor : Accessor}
    (h : view.scope.parameter? target = some accessor) :
    (Access.reference target).Declared template := by
  rw [hscope, Scope.parameter?, Option.map_eq_some_iff] at h
  obtain ⟨entry, hfind, -⟩ := h
  have hmem := List.mem_reverse.1 (List.mem_of_find?_eq_some hfind)
  obtain ⟨parameter, hparameter, rfl⟩ := List.mem_map.1 hmem
  exact Or.inl ⟨parameter, hparameter, by simpa using List.find?_some hfind⟩

/-- A name that is read from a construct is the name of a resource. -/
theorem declared_of_read? {access : Access} {read : Read} (h : view.read? access = some read) :
    access.Declared template := by
  have hresource : ∀ {target member}, view.memberOf? target member = some read →
      ∃ resource ∈ template.resources, resource.name = target := by
    intro target member h
    unfold View.memberOf? at h
    split at h
    · rename_i slot identifier place hfind
      rw [hscope, Scope.resource?] at hfind
      have hmem := List.mem_map_of_mem (f := Slot.name)
        (List.mem_reverse.1 (List.mem_of_find?_eq_some hfind))
      rw [show (Scope.ofTemplate template).resources = slots [] 0 template.resources from rfl,
        slots_names] at hmem
      obtain ⟨resource, hresource, hname⟩ := List.mem_map.1 hmem
      exact ⟨resource, hresource, hname.trans (by simpa using List.find?_some hfind)⟩
    · cases h
  cases access with
  | reference target =>
    simp only [View.read?, Option.ite_none_left_eq_some] at h
    exact Or.inr (hresource h.2)
  | getAtt target name => exact hresource h

/-- **What stands for a name dangles exactly when the name is not declared.** -/
theorem dangling_lookup {access : Access} :
    Dangling template (view.lookup access) ↔ ¬ access.Declared template := by
  rcases view.lookup_cases access with ⟨read, hread, h⟩ | ⟨target, accessor, rfl, hparameter, h⟩ |
    ⟨-, -, h⟩
  · refine iff_of_false ?_ (not_not_intro (declared_of_read? hscope hread))
    rintro ⟨other, heq, -⟩
    rw [h, Read.expr] at heq
    cases other <;> split_ifs at heq <;> cases heq
  · refine iff_of_false ?_ (not_not_intro (declared_of_parameter? hscope hparameter))
    rintro ⟨other, heq, -⟩
    rw [h] at heq
    cases other <;> cases heq
  · refine ⟨?_, fun hnot => ⟨access, h, hnot⟩⟩
    rintro ⟨other, heq, hnot⟩
    rw [unresolved_injective (h.symm.trans heq)]
    exact hnot

end Scope

/-- What the code of a template looks up. -/
structure LooksUp (template : Template) (code : StackCode) : Prop where
  /-- The names in the statement for a parameter are the accesses of its default, its allowed values
  and its constraints, looked up one by one. -/
  parameters : List.Forall₂ (fun (parameter : Parameter) statement =>
    statement.names = parameter.accesses.map
      (View.mk (Scope.ofTemplate template) parameter.name 0).lookup)
    template.parameters code.parameters
  /-- So are those of a resource, unless it is left out. -/
  resources : ∀ (place : Nat) (resource : Resource), template.resources[place]? = some resource →
    ∃ statement, code.resources[place]? = some statement ∧
      (statement = .placeholder resource.name resource.type ∨
        statement.names = resource.accesses.map
          (View.mk (Scope.ofTemplate template) resource.name place).lookup)
  outputs : List.Forall₂ (fun (output : Output) statement =>
    statement.names = output.accesses.map
      (View.mk (Scope.ofTemplate template) output.name template.resources.length).lookup)
    template.outputs code.outputs
  /-- The names that resources look up are declared. -/
  resource_declared : ∀ resource ∈ template.resources, ∀ access ∈ resource.accesses,
    access.Declared template
  /-- The names that outputs look up are declared. -/
  output_declared : ∀ output ∈ template.outputs, ∀ access ∈ output.accesses,
    access.Declared template
  /-- Nothing in the code dangles, exactly when the names that parameters look up are declared. -/
  complete : (∀ statement ∈ code.written, ∀ atom ∈ statement.names, ¬ Dangling template atom) ↔
    ∀ parameter ∈ template.parameters, ∀ access ∈ parameter.accesses, access.Declared template

theorem parameter_names (scope : Scope) (parameter : Parameter) :
    (parameterStatement scope parameter).value.names =
      parameter.accesses.map (View.mk scope parameter.name 0).lookup := by
  rw [parameter.accesses_eq]
  exact names_of_parts (parameterStatement_emits scope parameter).parts

theorem output_names (scope : Scope) (count : Nat) (output : Output) :
    (outputStatement scope count output).value.names =
      output.accesses.map (View.mk scope output.name count).lookup := by
  rw [output.accesses_eq]
  exact names_of_parts (outputStatement_emits scope count output).1

theorem resource_names (scope : Scope) (place : Nat) (resource : Resource) :
    (resourceStatement scope place resource).value = .placeholder resource.name resource.type ∨
      (resourceStatement scope place resource).value.names =
        resource.accesses.map (View.mk scope resource.name place).lookup := by
  have hparts := resourceStatement_parts scope place resource
  cases hs : supported? scope resource with
  | none => exact Or.inl (resourceStatement_of_unsupported hs place)
  | some pair =>
    rw [hs, Option.isSome_some, if_pos rfl] at hparts
    rw [resource.accesses_eq]
    exact Or.inr (names_of_parts hparts)

/-- Looking declared names up leaves nothing that dangles. -/
theorem not_dangling_of_declared {template : Template} {accesses : List Access} {owner : String}
    {place : Nat} (h : ∀ access ∈ accesses, access.Declared template) :
    ∀ atom ∈ accesses.map (View.mk (Scope.ofTemplate template) owner place).lookup,
      ¬ Dangling template atom := by
  intro atom hatom
  obtain ⟨access, haccess, rfl⟩ := List.mem_map.1 hatom
  rw [dangling_lookup rfl]
  exact not_not_intro (h access haccess)

section Code

variable {template : Template} {imports : Imports} {libraries : Libraries} {code : StackCode}
  (hcode : StackCode.ofTemplate template imports libraries = .ok code)

include hcode

theorem dependency_names {statement : Statement} (h : statement ∈ code.dependencies) :
    statement.names = [] := by
  obtain ⟨identifier, other, rfl⟩ := eq_dependency hcode h
  rfl

variable (hread : WasRead template)

include hread

theorem not_dangling_of_parameters
    (h : ∀ parameter ∈ template.parameters, ∀ access ∈ parameter.accesses,
      access.Declared template) :
    ∀ statement ∈ code.written, ∀ atom ∈ statement.names, ¬ Dangling template atom := by
  intro statement hstatement
  simp only [StackCode.written, List.mem_append] at hstatement
  rcases hstatement with ((hmem | hmem) | hmem) | hmem
  · rw [parameters_eq hcode] at hmem
    obtain ⟨parameter, hparameter, rfl⟩ := List.mem_map.1 hmem
    rw [parameter_names]
    exact not_dangling_of_declared (h parameter hparameter)
  · obtain ⟨place, hget⟩ := List.mem_iff_getElem?.1 hmem
    rw [resources_getElem? hcode] at hget
    obtain ⟨resource, hresource, rfl⟩ := Option.map_eq_some_iff.1 hget
    rcases resource_names (Scope.ofTemplate template) place resource with hvalue | hnames
    · rw [hvalue]
      exact fun atom hatom => by cases hatom
    · rw [hnames]
      exact not_dangling_of_declared fun access =>
        hread.resource_declared (List.mem_of_getElem? hresource)
  · rw [dependency_names hcode hmem]
    exact fun atom hatom => by cases hatom
  · rw [outputs_eq hcode] at hmem
    obtain ⟨output, houtput, rfl⟩ := List.mem_map.1 hmem
    rw [output_names]
    exact not_dangling_of_declared fun access => hread.output_declared houtput

end Code

/-- **Names that are looked up.** The code of a document that is read looks up declared names only,
as far as resources and outputs go. Something dangles in it exactly when a default, an allowed value
or a constraint of a parameter looks up a name that is not declared. -/
theorem lookups_declared {format : Format} {text : String} {template : Template}
    (hread : ofText format text = .ok template) {imports : Imports} {libraries : Libraries}
    {code : StackCode} (hcode : StackCode.ofTemplate template imports libraries = .ok code) :
    LooksUp template code where
  parameters := by
    rw [parameters_eq hcode, List.forall₂_map_right_iff, List.forall₂_same]
    exact fun parameter _ => parameter_names _ parameter
  resources place resource hget := by
    refine ⟨_, ?_, resource_names _ place resource⟩
    rw [resources_getElem? hcode, hget, Option.map_some]
  outputs := by
    rw [outputs_eq hcode, List.forall₂_map_right_iff, List.forall₂_same]
    exact fun output _ => output_names _ _ output
  resource_declared resource hresource access :=
    (wasRead_of_ofText hread).resource_declared hresource
  output_declared output houtput access := (wasRead_of_ofText hread).output_declared houtput
  complete := by
    refine ⟨fun h parameter hparameter access haccess => ?_,
      not_dangling_of_parameters hcode (wasRead_of_ofText hread)⟩
    have hmem :
        (parameterStatement (Scope.ofTemplate template) parameter).value ∈ code.written := by
      simp only [StackCode.written, List.mem_append, parameters_eq hcode]
      exact Or.inl (Or.inl (Or.inl (List.mem_map_of_mem hparameter)))
    by_contra hnot
    have hdangling : Dangling template
        ((View.mk (Scope.ofTemplate template) parameter.name 0).lookup access) :=
      (dangling_lookup rfl).2 hnot
    refine h _ hmem _ ?_ hdangling
    rw [parameter_names]
    exact List.mem_map_of_mem haccess

/-- A document in which a parameter and an output name the same topic. -/
def namedTopic : String :=
  "\x7b\"Parameters\":\x7b\"P\":\x7b\"Type\":\"String\"," ++
    "\"Default\":\x7b\"Ref\":\"T\"\x7d\x7d\x7d," ++
    "\"Resources\":\x7b\"T\":\x7b\"Type\":\"AWS::SNS::Topic\"\x7d\x7d," ++
    "\"Outputs\":\x7b\"O\":\x7b\"Value\":\x7b\"Ref\":\"T\"\x7d\x7d\x7d\x7d"

set_option maxRecDepth 2000 in
theorem lookups_declared_namedTopic : ∃ template code,
    ofText .json namedTopic = .ok template ∧
      StackCode.ofTemplate template .empty .standard = .ok code ∧ LooksUp template code ∧
        ∀ statement ∈ code.written, ∀ atom ∈ statement.names, ¬ Dangling template atom := by
  let template : Template :=
    { parameters := [{ Parameter.plain "P" "String" with default := some (.ref "T") }]
      resources := [⟨"T", "AWS::SNS::Topic", [], [], none⟩]
      outputs := [⟨"O", .ref "T", none, none, none⟩]
      conditions := [] }
  have hread : ofText .json namedTopic = .ok template := by with_unfolding_all rfl
  have hcheck : template.checkCycles = .ok () := rfl
  have hcode := ofTemplate_of_ok hcheck .empty .standard
  have hlooksUp := lookups_declared hread hcode
  refine ⟨template, _, hread, hcode, hlooksUp, hlooksUp.complete.2 fun parameter hparameter => ?_⟩
  rw [List.mem_singleton.1 hparameter]
  intro access haccess
  have htopic : access = .reference "T" := List.mem_singleton.1 haccess
  rw [htopic]
  exact Or.inr ⟨_, .head _, rfl⟩

/-- A document with a default that refers to nothing. -/
def missingDefault : String :=
  "\x7b\"Parameters\":\x7b\"Stage\":\x7b\"Type\":\"String\"," ++
    "\"Default\":\x7b\"Ref\":\"Missing\"\x7d\x7d\x7d\x7d"

/-- The default of a parameter is not checked: the document is read, and its code dangles. -/
theorem missingDefault_dangles : ∃ template code,
    ofText .json missingDefault = .ok template ∧
      StackCode.ofTemplate template .empty .standard = .ok code ∧
        code.parameters.map Statement.names = [[.call "ref" [.string "Missing"]]] ∧
          Dangling template (.call "ref" [.string "Missing"]) := by
  let template : Template :=
    { parameters := [{ Parameter.plain "Stage" "String" with default := some (.ref "Missing") }]
      resources := []
      outputs := []
      conditions := [] }
  have hread : ofText .json missingDefault = .ok template := by with_unfolding_all rfl
  have hcheck : template.checkCycles = .ok () := rfl
  refine ⟨template, _, hread, ofTemplate_of_ok hcheck .empty .standard, ?_,
    .reference "Missing", rfl, ?_⟩
  · with_unfolding_all rfl
  · simp [Access.Declared, template, Parameter.plain]

end CdkStacks.Construct
