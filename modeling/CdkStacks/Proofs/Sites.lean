import CdkStacks.Proofs.Reads

/-!
# Names that values read

The sites of a value are all the names that resolving it looks up, except for variables that no
substitution binds.

* `Value.Scoped` are the values whose substitution texts name no variable but those that the
  substitution binds; `Value.unbound` are the other variables, looked up like references;
* `Scope.AgreeOn`: two scopes mean the same by the names of some sites;
* `View.Alike`: two views mean the same by the sites and the unbound variables of a value;
* `View.resolve_congr`, `View.property_congr`: resolving depends on the view only by these names;
* `emission_depends_on_sites`: two scopes that agree on the sites of a value cannot be told apart by
  what the value becomes, imports and warnings included.
-/

namespace CdkStacks.Template

/-! ## Scoped values -/

mutual

/-- Every variable that a substitution text names is bound by the substitution itself, at any
depth. -/
def Value.Scoped : Value → Prop
  | .null | .bool _ | .number _ | .string _ | .ref _ | .pseudo _ | .getAtt _ _ => True
  | .list items => ScopedItems items
  | .map entries => ScopedEntries entries
  | .sub pieces bindings =>
    (∀ name, Piece.bound name ∈ pieces → name ∈ bindings.map Prod.fst) ∧ ScopedEntries bindings
  | .select index list => index.Scoped ∧ list.Scoped
  | .join _ inner | .split _ inner | .importValue inner | .base64 inner | .zones inner =>
    inner.Scoped

/-- All items of a list are scoped. -/
def ScopedItems : List Value → Prop
  | [] => True
  | item :: rest => item.Scoped ∧ ScopedItems rest

/-- All values of entries are scoped. -/
def ScopedEntries : List (String × Value) → Prop
  | [] => True
  | (_, value) :: rest => value.Scoped ∧ ScopedEntries rest

end

/-- The variable that a piece names, when it is not among those that are bound. -/
def Piece.unbound? (bound : List String) : Piece → Option String
  | .bound key => if key ∈ bound then none else some key
  | .text _ | .name _ | .getAtt _ _ | .pseudo _ => none

mutual

/-- The variables that the substitution texts of a value name and their substitutions do not
bind. -/
def Value.unbound : Value → List String
  | .null | .bool _ | .number _ | .string _ | .ref _ | .pseudo _ | .getAtt _ _ => []
  | .list items => itemUnbound items
  | .map entries => entryUnbound entries
  | .sub pieces bindings =>
    entryUnbound bindings ++ pieces.filterMap (Piece.unbound? (bindings.map Prod.fst))
  | .select index list => index.unbound ++ list.unbound
  | .join _ inner | .split _ inner | .importValue inner | .base64 inner | .zones inner =>
    inner.unbound

/-- The variables that the items of a list leave unbound. -/
def itemUnbound : List Value → List String
  | [] => []
  | item :: rest => item.unbound ++ itemUnbound rest

/-- The variables that the values of entries leave unbound. -/
def entryUnbound : List (String × Value) → List String
  | [] => []
  | (_, value) :: rest => value.unbound ++ entryUnbound rest

end

mutual

theorem Value.unbound_eq_nil : ∀ value : Value, value.Scoped → value.unbound = []
  | .null, _ | .bool _, _ | .number _, _ | .string _, _ | .ref _, _ | .pseudo _, _
  | .getAtt _ _, _ => rfl
  | .list items, h => itemUnbound_eq_nil items h
  | .map entries, h => entryUnbound_eq_nil entries h
  | .sub pieces bindings, h => by
    rw [Value.unbound, entryUnbound_eq_nil bindings h.2, List.nil_append,
      List.filterMap_eq_nil_iff]
    intro piece hpiece
    cases piece with
    | bound key => exact if_pos (h.1 key hpiece)
    | text | name | getAtt | pseudo => rfl
  | .select index list, h => by
    rw [Value.unbound, index.unbound_eq_nil h.1, list.unbound_eq_nil h.2]
    rfl
  | .join _ inner, h | .split _ inner, h | .importValue inner, h | .base64 inner, h
  | .zones inner, h => inner.unbound_eq_nil h

theorem itemUnbound_eq_nil : ∀ items : List Value, ScopedItems items → itemUnbound items = []
  | [], _ => rfl
  | item :: rest, h => by
    rw [itemUnbound, item.unbound_eq_nil h.1, itemUnbound_eq_nil rest h.2]
    rfl

theorem entryUnbound_eq_nil : ∀ entries : List (String × Value), ScopedEntries entries →
    entryUnbound entries = []
  | [], _ => rfl
  | (_, value) :: rest, h => by
    rw [entryUnbound, value.unbound_eq_nil h.1, entryUnbound_eq_nil rest h.2]
    rfl

end

end CdkStacks.Template

namespace CdkStacks.Construct

open CdkStacks.Template CdkStacks.TypeScript

/-! ## Scopes that agree -/

/-- Two scopes mean the same by a name: the same parameter or none, and the same resource or
none. -/
def Scope.AgreeAt (first second : Scope) (name : String) : Prop :=
  first.parameter? name = second.parameter? name ∧ first.resource? name = second.resource? name

/-- Two scopes mean the same by the names of some sites. -/
def Scope.AgreeOn (first second : Scope) (sites : List Site) : Prop :=
  ∀ site ∈ sites, first.AgreeAt second site.target

instance (first second : Scope) (name : String) : Decidable (first.AgreeAt second name) :=
  inferInstanceAs (Decidable (_ ∧ _))

instance (first second : Scope) (sites : List Site) : Decidable (first.AgreeOn second sites) :=
  inferInstanceAs (Decidable (∀ site ∈ sites, _))

theorem resolveEntries_keys (view : View) (keys : KeyStyle) (entries : List (String × Value)) :
    (view.resolveEntries keys entries).map Prod.fst = entries.map Prod.fst := by
  induction entries with
  | nil => rfl
  | cons entry rest ih =>
    obtain ⟨key, value⟩ := entry
    rw [View.resolveEntries, List.map_cons, ih, List.map_cons]

namespace View

/-! ## Views that agree -/

/-- Two views mean the same by a name: the same expression for a reference to it, and for each of
its attributes. -/
def AgreeAt (first second : View) (name : String) : Prop :=
  first.reference name = second.reference name ∧
    ∀ member, first.getAtt name member = second.getAtt name member

theorem agreeAt_of_scope {first second : Scope} {name : String} (h : first.AgreeAt second name)
    (owner : String) (place : Nat) :
    (View.mk first owner place).AgreeAt (View.mk second owner place) name := by
  constructor
  · simp only [reference]
    rw [h.1, h.2]
    rfl
  · intro member
    simp only [getAtt]
    rw [h.2]
    rfl

/-- Two views of one declaration mean the same by some sites and variables. -/
structure Alike (first second : View) (sites : List Site) (unbound : List String) : Prop where
  owner : first.owner = second.owner
  sites : ∀ site ∈ sites, first.AgreeAt second site.target
  unbound : ∀ name ∈ unbound, first.AgreeAt second name

variable {first second : View}

theorem Alike.left {sites sites' : List Site} {unbound unbound' : List String}
    (h : first.Alike second (sites ++ sites') (unbound ++ unbound')) :
    first.Alike second sites unbound :=
  ⟨h.owner, (List.forall_mem_append.1 h.sites).1, (List.forall_mem_append.1 h.unbound).1⟩

theorem Alike.right {sites sites' : List Site} {unbound unbound' : List String}
    (h : first.Alike second (sites ++ sites') (unbound ++ unbound')) :
    first.Alike second sites' unbound' :=
  ⟨h.owner, (List.forall_mem_append.1 h.sites).2, (List.forall_mem_append.1 h.unbound).2⟩

/-- A piece looks up the name of its site or its variable, and nothing else. -/
theorem chunk_congr {bindings : List (String × Noted Expr)} {piece : Piece}
    (hsite : ∀ site, piece.site? = some site → first.AgreeAt second site.target)
    (hunbound : ∀ name, piece.unbound? (bindings.map Prod.fst) = some name →
      first.AgreeAt second name) :
    first.chunk bindings piece = second.chunk bindings piece := by
  cases piece with
  | text text => rfl
  | pseudo parameter => rfl
  | name target => rw [chunk, chunk, (hsite _ rfl).1]
  | getAtt target name => rw [chunk, chunk, (hsite _ rfl).2]
  | bound name =>
    cases hfind : bindings.find? fun v => v.1 = name with
    | some found => simp only [chunk, hfind]
    | none =>
      have hname : name ∉ bindings.map Prod.fst := by
        rintro hmem
        obtain ⟨entry, hentry, rfl⟩ := List.mem_map.1 hmem
        simpa using List.find?_eq_none.1 hfind entry hentry
      simp only [chunk, hfind]
      rw [(hunbound name (if_neg hname)).1]

theorem substitution_congr {bindings : List (String × Noted Expr)} {pieces : List Piece}
    (h : first.Alike second (pieces.filterMap Piece.site?)
      (pieces.filterMap (Piece.unbound? (bindings.map Prod.fst)))) :
    first.substitution pieces bindings = second.substitution pieces bindings := by
  have hchunks : pieces.map (first.chunk bindings) = pieces.map (second.chunk bindings) := by
    refine List.map_congr_left fun piece hpiece => chunk_congr (fun site hsite => ?_) ?_
    · exact h.sites site (List.mem_filterMap.2 ⟨piece, hpiece, hsite⟩)
    · exact fun name hname => h.unbound name (List.mem_filterMap.2 ⟨piece, hpiece, hname⟩)
  unfold substitution
  rw [hchunks]

mutual

/-- **Resolving looks up the sites and the unbound variables of a value only.** -/
theorem resolve_congr (keys : KeyStyle) : ∀ value : Value,
    first.Alike second value.sites value.unbound →
      first.resolve keys value = second.resolve keys value
  | .null, _ | .bool _, _ | .number _, _ | .string _, _ | .pseudo _, _ => rfl
  | .list items, h => by
    rw [resolve, resolve, resolveItems_congr keys items h]
  | .map entries, h => by
    have hentries := fun keys => resolveEntries_congr keys entries h
    rw [resolve, resolve, hentries .verbatim, hentries keys, h.owner]
  | .ref target, h => by
    rw [resolve, resolve, (h.sites ⟨target, false⟩ (.head _)).1]
  | .getAtt target name, h => by
    rw [resolve, resolve, (h.sites ⟨target, true⟩ (.head _)).2]
  | .join _ parts, h => by
    rw [resolve, resolve, resolve_congr .property parts h]
  | .sub pieces bindings, h => by
    rw [resolve, resolve, resolveEntries_congr .property bindings h.left]
    apply substitution_congr
    rw [resolveEntries_keys]
    exact h.right
  | .select index list, h => by
    rw [resolve, resolve, resolve_congr .property index h.left,
      resolve_congr .property list h.right]
  | .split _ inner, h | .importValue inner, h | .base64 inner, h | .zones inner, h => by
    rw [resolve, resolve, resolve_congr .property inner h]

/-- The items of a list look up their sites and unbound variables only. -/
theorem resolveItems_congr (keys : KeyStyle) : ∀ items : List Value,
    first.Alike second (itemSites items) (itemUnbound items) →
      first.resolveItems keys items = second.resolveItems keys items
  | [], _ => rfl
  | item :: rest, h => by
    rw [resolveItems, resolveItems, resolve_congr keys item h.left,
      resolveItems_congr keys rest h.right]

/-- The entries of a map look up their sites and unbound variables only. -/
theorem resolveEntries_congr (keys : KeyStyle) : ∀ entries : List (String × Value),
    first.Alike second (entrySites entries) (entryUnbound entries) →
      first.resolveEntries keys entries = second.resolveEntries keys entries
  | [], _ => rfl
  | (key, value) :: rest, h => by
    rw [resolveEntries, resolveEntries, resolve_congr keys value h.left,
      resolveEntries_congr keys rest h.right]

end

mutual

/-- The property at a path looks up the sites and the unbound variables of its value only. -/
theorem property_congr (verbatim path : List String) : ∀ value : Value,
    first.Alike second value.sites value.unbound →
      first.property verbatim path value = second.property verbatim path value
  | .map entries, h => by
    have hresolve := fun keys => resolve_congr keys (.map entries) h
    rw [property, property, hresolve .verbatim, hresolve .property,
      propertyEntries_congr verbatim path entries h]
  | .list items, h => by
    have hresolve := fun keys => resolve_congr keys (.list items) h
    rw [property, property, hresolve .verbatim, propertyItems_congr verbatim path items h]
  | .null, h | .bool _, h | .number _, h | .string _, h | .ref _, h | .pseudo _, h
  | .getAtt _ _, h | .join _ _, h | .sub _ _, h | .select _ _, h | .split _ _, h
  | .importValue _, h | .base64 _, h | .zones _, h => by
    have hresolve := fun keys => resolve_congr keys _ h
    rw [property, property, hresolve .verbatim, hresolve .property]
    all_goals nofun

/-- The items of a property look up their sites and unbound variables only. -/
theorem propertyItems_congr (verbatim path : List String) : ∀ items : List Value,
    first.Alike second (itemSites items) (itemUnbound items) →
      first.propertyItems verbatim path items = second.propertyItems verbatim path items
  | [], _ => rfl
  | item :: rest, h => by
    rw [propertyItems, propertyItems, property_congr verbatim path item h.left,
      propertyItems_congr verbatim path rest h.right]

/-- The properties below a path look up their sites and unbound variables only. -/
theorem propertyEntries_congr (verbatim path : List String) : ∀ entries : List (String × Value),
    first.Alike second (entrySites entries) (entryUnbound entries) →
      first.propertyEntries verbatim path entries = second.propertyEntries verbatim path entries
  | [], _ => rfl
  | (name, value) :: rest, h => by
    rw [propertyEntries, propertyEntries, property_congr verbatim (path ++ [name]) value h.left,
      propertyEntries_congr verbatim path rest h.right]

end

end View

/-- **The sites of a value are all that it depends on.** Two scopes that agree on them lead to the
same expression, the same imports and the same warnings, whatever was imported and warned of
before. -/
theorem emission_depends_on_sites {value : Value} (hscoped : value.Scoped) {first second : Scope}
    (hagree : first.AgreeOn second value.sites) (owner : String) (place : Nat)
    (libraries : Libraries) (ledger : Ledger) :
    let resolver (scope : Scope) : Resolver := ⟨⟨scope, owner, place⟩, libraries⟩
    (∀ keys, ((resolver first).resolve keys value).run ledger =
        ((resolver second).resolve keys value).run ledger) ∧
      ∀ verbatim path, ((resolver first).property verbatim path value).run ledger =
        ((resolver second).property verbatim path value).run ledger := by
  have halike : (View.mk first owner place).Alike (View.mk second owner place) value.sites
      value.unbound := by
    refine ⟨rfl, fun site hsite => View.agreeAt_of_scope (hagree site hsite) owner place, ?_⟩
    rw [value.unbound_eq_nil hscoped]
    exact List.forall_mem_nil _
  constructor
  · intro keys
    rw [Resolver.resolve_eq, Resolver.resolve_eq, View.resolve_congr keys value halike]
  · intro verbatim path
    rw [Resolver.property_eq, Resolver.property_eq,
      View.property_congr verbatim path value halike]

/-- A message that binds one name and reads two. -/
def alertText : Value :=
  .map [("Text", .sub [.bound "Topic", .text " in ", .name "Stage"]
    [("Topic", .getAtt "Alerts" "TopicName")])]

/-- A scope in which the alerts are declared first. -/
def alertScope : Scope :=
  ⟨[("Stage", .text)], [⟨"Alerts", some "alerts", 0⟩, ⟨"Bucket", some "bucket", 1⟩]⟩

/-- A scope with other names besides. -/
def widerAlertScope : Scope :=
  ⟨[("Topic", .list), ("Stage", .text)], [⟨"Alerts", some "alerts", 0⟩, ⟨"Topic", none, 1⟩]⟩

theorem emission_depends_on_sites_alert :
    alertText.Scoped ∧ alertScope.AgreeOn widerAlertScope alertText.sites ∧
      ((Resolver.mk ⟨alertScope, "Queue", 2⟩ .standard).resolve .property alertText).run
          ⟨.empty, []⟩ =
        ((Resolver.mk ⟨widerAlertScope, "Queue", 2⟩ .standard).resolve .property alertText).run
          ⟨.empty, []⟩ := by
  have hscoped : alertText.Scoped := by
    simp [alertText, Value.Scoped, ScopedEntries]
  have hagree : alertScope.AgreeOn widerAlertScope alertText.sites := by decide +kernel
  exact ⟨hscoped, hagree,
    (emission_depends_on_sites hscoped hagree "Queue" 2 .standard ⟨.empty, []⟩).1 .property⟩

end CdkStacks.Construct
