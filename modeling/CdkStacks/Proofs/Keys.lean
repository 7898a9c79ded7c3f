import CdkStacks.Document.Json
import CdkStacks.Document.Yaml.Read
import CdkStacks.Proofs.NumberText

/-!
# Keys of mappings

What the readers of documents promise about the keys of mappings.

* `Node.Keyed`: no mapping of a node repeats a key, and every key is such as a predicate says;
* `Json.keyed_of_read?`: the keys of a JSON document are strings;
* `Yaml.keyed_of_read?`: the keys of a YAML document may be numbers, and then they are valid ones.
-/

namespace CdkStacks.Document

/-- No mapping of a node repeats a key, and its keys are such as `IsKey` says. -/
inductive Node.Keyed (IsKey : Node → Prop) : Node → Prop
  | null : Keyed IsKey .null
  | bool (value : Bool) : Keyed IsKey (.bool value)
  | number (value : Number) : Keyed IsKey (.number value)
  | string (value : String) : Keyed IsKey (.string value)
  | sequence {items : List Node} (h : ∀ item ∈ items, Keyed IsKey item) :
    Keyed IsKey (.sequence items)
  | mapping {entries : List (Node × Node)}
    (distinct : entries.Pairwise fun e e' => e.1.same e'.1 = false)
    (keys : ∀ e ∈ entries, IsKey e.1) (values : ∀ e ∈ entries, Keyed IsKey e.2) :
    Keyed IsKey (.mapping entries)
  | tagged {tag : String} {content : Node} (h : Keyed IsKey content) :
    Keyed IsKey (.tagged tag content)

/-- The entries of a mapping so far, last first. -/
structure EntriesKeyed (IsKey : Node → Prop) (entries : List (Node × Node)) : Prop where
  distinct : entries.Pairwise fun e e' => e'.1.same e.1 = false
  keys : ∀ e ∈ entries, IsKey e.1
  values : ∀ e ∈ entries, e.2.Keyed IsKey

namespace EntriesKeyed

variable {IsKey : Node → Prop} {entries : List (Node × Node)} {key value : Node}

theorem nil : EntriesKeyed IsKey [] :=
  ⟨.nil, List.forall_mem_nil _, List.forall_mem_nil _⟩

/-- A key that does not occur may be added. -/
theorem cons (h : EntriesKeyed IsKey entries) (hnew : ¬ hasKey entries key = true)
    (hkey : IsKey key) (hvalue : value.Keyed IsKey) :
    EntriesKeyed IsKey ((key, value) :: entries) where
  distinct := by
    refine List.pairwise_cons.2 ⟨fun e he => ?_, h.distinct⟩
    rw [hasKey, List.any_eq_true, not_exists] at hnew
    simpa using fun hsame => hnew e ⟨he, hsame⟩
  keys := List.forall_mem_cons.2 ⟨hkey, h.keys⟩
  values := List.forall_mem_cons.2 ⟨hvalue, h.values⟩

theorem mapping (h : EntriesKeyed IsKey entries) : Node.Keyed IsKey (.mapping entries.reverse) :=
  .mapping (List.pairwise_reverse.2 h.distinct) (fun e he => h.keys e (List.mem_reverse.1 he))
    fun e he => h.values e (List.mem_reverse.1 he)

end EntriesKeyed

/-! ## JSON -/

/-- A string, as the keys of JSON objects are. -/
def Node.IsString (node : Node) : Prop :=
  ∃ text, node = .string text

namespace Json

/-- A reader of values whose objects are keyed by strings. -/
def Reads (value : List Char → Option (Node × List Char)) : Prop :=
  ∀ cs node rest, value cs = some (node, rest) → node.Keyed Node.IsString

variable {value : List Char → Option (Node × List Char)}

theorem items_keyed (hvalue : Reads value) {cs rest : List Char} {items : List Node}
    (h : items? value cs = some (items, rest)) : ∀ item ∈ items, item.Keyed Node.IsString := by
  fun_induction items? value cs generalizing items rest with
  | case2 cs item rest hitem =>
    cases h
    exact List.forall_mem_singleton.2 (hvalue _ _ _ hitem)
  | case3 cs item rest hitem after hafter hlength ih =>
    obtain ⟨⟨items, last⟩, hitems, ⟨⟩⟩ := Option.map_eq_some_iff.1 h
    exact List.forall_mem_cons.2 ⟨hvalue _ _ _ hitem, ih hitems⟩
  | case1 | case4 | case5 => cases h

theorem members_keyed (hvalue : Reads value) {entries es : List (Node × Node)} {cs rest : List Char}
    (hentries : EntriesKeyed Node.IsString entries)
    (h : members? value entries cs = some (es, rest)) : Node.Keyed Node.IsString (.mapping es) := by
  fun_induction members? value entries cs generalizing rest with
  | case4 entries cs _ _ key _ _ _ _ hnew item _ hitem =>
    cases h
    exact (hentries.cons hnew ⟨key, rfl⟩ (hvalue _ _ _ hitem)).mapping
  | case5 entries cs _ _ key _ _ _ _ hnew item _ hitem =>
    rename_i ih
    exact ih (hentries.cons hnew ⟨key, rfl⟩ (hvalue _ _ _ hitem)) h
  | case1 | case2 | case3 | case6 | case7 | case8 | case9 => cases h

theorem literal_eq {word : String} {node read : Node} {cs rest : List Char}
    (h : literal? word node cs = some (read, rest)) : read = node := by
  unfold literal? at h
  split_ifs at h
  cases h
  rfl

/-- One level of nesting: what is inside a container is read with less room. -/
theorem reads_value_of {room : Nat} (hinner : ∀ inner, room = inner + 1 → Reads (value? inner)) :
    Reads (value? room) := by
  intro cs node rest
  fun_cases value? room cs with
  | case1 | case2 | case3 =>
    intro h
    rw [literal_eq h]
    constructor
  | case4 | case11 | case12 =>
    intro h
    obtain ⟨⟨_, _⟩, -, ⟨⟩⟩ := Option.map_eq_some_iff.1 h
    constructor
  | case5 | case8 => rintro ⟨⟩
  | case6 =>
    rintro ⟨⟩
    exact .sequence (List.forall_mem_nil _)
  | case7 =>
    intro h
    obtain ⟨⟨items, _⟩, hitems, ⟨⟩⟩ := Option.map_eq_some_iff.1 h
    exact .sequence (items_keyed (hinner _ rfl) hitems)
  | case9 =>
    rintro ⟨⟩
    exact EntriesKeyed.nil.mapping
  | case10 =>
    intro h
    obtain ⟨⟨members, _⟩, hmembers, ⟨⟩⟩ := Option.map_eq_some_iff.1 h
    exact members_keyed (hinner _ rfl) EntriesKeyed.nil hmembers

theorem reads_value (room : Nat) : Reads (value? room) := by
  induction room with
  | zero => exact reads_value_of fun _ h => absurd h (by omega)
  | succ room ih => exact reads_value_of fun _ h => Nat.succ.inj h ▸ ih

theorem keyed_of_read? {text : String} {node : Node} (h : read? text = some node) :
    node.Keyed Node.IsString := by
  unfold read? at h
  split at h
  · rename_i read rest hread
    split_ifs at h
    cases h
    exact reads_value _ _ _ _ hread
  · cases h

end Json

/-! ## YAML -/

namespace Node

/-- If a node is a number, then a valid one. -/
def ValidKey (node : Node) : Prop :=
  ∀ n, node = .number n → n.Valid

/-- What a reader of YAML nodes promises: any node may become a key. -/
def Lawful (node : Node) : Prop :=
  node.ValidKey ∧ node.Keyed ValidKey

theorem lawful_null : Lawful .null :=
  ⟨fun _ h => (by cases h), .null⟩

theorem lawful_bool (value : Bool) : Lawful (.bool value) :=
  ⟨fun _ h => (by cases h), .bool value⟩

theorem lawful_string (value : String) : Lawful (.string value) :=
  ⟨fun _ h => (by cases h), .string value⟩

theorem lawful_number {value : Number} (h : value.Valid) : Lawful (.number value) :=
  ⟨fun _ heq => (by cases heq; exact h), .number value⟩

theorem Keyed.lawful_tagged {tag : String} {content : Node} (h : content.Keyed ValidKey) :
    Lawful (.tagged tag content) :=
  ⟨fun _ heq => (by cases heq), .tagged h⟩

theorem Keyed.lawful_sequence {items : List Node} (h : Keyed ValidKey (.sequence items)) :
    Lawful (.sequence items) :=
  ⟨fun _ heq => (by cases heq), h⟩

theorem Keyed.lawful_mapping {entries : List (Node × Node)}
    (h : Keyed ValidKey (.mapping entries)) : Lawful (.mapping entries) :=
  ⟨fun _ heq => (by cases heq), h⟩

end Node

namespace Yaml

open CdkStacks.Decimal

theorem valid_of_float? {s : String} {x : Binary64} (h : float? s = some x) :
    (Number.float x).Valid := by
  have hfinite {negative : Bool} {cs : List Char} (h : (do
      let scaled ← decimal? cs
      let x ← Magnitude.ofDecimal scaled.1 scaled.2
      some (Binary64.finite negative x)) = some x) : (Number.float x).Valid := by
    obtain ⟨scaled, -, h⟩ := Option.bind_eq_some_iff.1 h
    obtain ⟨y, hy, ⟨⟩⟩ := Option.bind_eq_some_iff.1 h
    exact Magnitude.canonical_of_ofDecimal hy
  unfold float? at h
  dsimp only at h
  split_ifs at h
  · cases h
    trivial
  · cases h
    trivial
  · cases h
    trivial
  · split at h
    · exact hfinite h
    · exact hfinite h
    · exact hfinite h

/-- A scalar that is neither null, nor a truth value, nor an integer. -/
theorem lawful_other (s : String) : Node.Lawful (if isZeroPadded s.toList then .string s
    else match float? s with
      | some x => .number (.float x)
      | none => .string s) := by
  split_ifs
  · exact Node.lawful_string s
  · split
    · rename_i x hx
      exact Node.lawful_number (valid_of_float? hx)
    · exact Node.lawful_string s

theorem lawful_of_plainNode? {s : String} {node : Node} :
    plainNode? s = some node → node.Lawful := by
  fun_cases plainNode? s with
  | case1 => rintro ⟨⟩; exact Node.lawful_null
  | case2 => rintro ⟨⟩; exact Node.lawful_bool _
  | case3 | case6 => exact fun h => Option.some.inj h ▸ lawful_other s
  | case4 _ _ i _ hsize => rintro ⟨⟩; exact Node.lawful_number hsize
  | case5 => rintro ⟨⟩

theorem lawful_of_typedNode? {tag s : String} {node : Node} (h : typedNode? tag s = some node) :
    node.Lawful := by
  unfold typedNode? at h
  split_ifs at h
  · obtain ⟨b, -, rfl⟩ := Option.map_eq_some_iff.1 h
    exact Node.lawful_bool b
  · split at h
    · split_ifs at h with hsize
      cases h
      exact Node.lawful_number hsize
    · cases h
  · obtain ⟨x, hx, rfl⟩ := Option.map_eq_some_iff.1 h
    exact Node.lawful_number (valid_of_float? hx)
  · cases h
    exact Node.lawful_null
  · cases h
    exact Node.lawful_string s

theorem lawful_of_scalarNode? {tagged plain : Bool} {tag : Option String} {text : String}
    {node : Node} (h : scalarNode? tagged tag text plain = some node) : node.Lawful := by
  unfold scalarNode? at h
  split at h
  · exact lawful_of_typedNode? h
  · split_ifs at h
    · exact lawful_of_plainNode? h
    · cases h
      exact Node.lawful_string text

/-- A reader of nodes that keeps the promise. -/
def Reads (node : ContentReader) : Prop :=
  ∀ tagged r n q, node tagged r = some (n, q) → n.Lawful

variable {node : ContentReader}

theorem items_keyed (hnode : Reads node) {r q : Rest} {items : List Node}
    (h : items? node r = some (items, q)) : ∀ item ∈ items, item.Keyed Node.ValidKey := by
  fun_induction items? node r generalizing items q with
  | case1 =>
    cases h
    exact List.forall_mem_nil _
  | case3 r item q hitem _ _ ih =>
    obtain ⟨⟨items, last⟩, hitems, ⟨⟩⟩ := Option.map_eq_some_iff.1 h
    exact List.forall_mem_cons.2 ⟨(hnode _ _ _ _ hitem).2, ih hitems⟩
  | case2 | case4 => cases h

theorem entries_keyed (hnode : Reads node) {tagged : Bool} {entries es : List (Node × Node)}
    {r q : Rest} (hentries : EntriesKeyed Node.ValidKey entries)
    (h : entries? node tagged entries r = some (es, q)) :
    Node.Keyed Node.ValidKey (.mapping es) := by
  fun_induction entries? node tagged entries r generalizing q with
  | case1 =>
    cases h
    exact hentries.mapping
  | case5 entries r key q hkey hnew value _ hvalue _ _ ih =>
    exact ih (hentries.cons hnew (hnode _ _ _ _ hkey).1 (hnode _ _ _ _ hvalue).2) h
  | case2 | case3 | case4 | case6 => cases h

theorem reads_follow {target : Nat → List (Event Nat)} {limit : Nat} (hnode : Reads node) :
    Reads (follow? target limit node) := by
  intro tagged r n q
  fun_cases follow? target limit node tagged r with
  | case1 => rintro ⟨⟩
  | case2 =>
    intro h
    obtain ⟨⟨copy, last⟩, hcopy, ⟨⟩⟩ := Option.map_eq_some_iff.1 h
    exact hnode _ _ _ _ hcopy
  | case3 => exact hnode _ _ _ _

/-- Read a node, and put it under its tag if that is a local one. -/
def readUnder (tag : Option String) (tagged : Bool) (read : Bool → Option (Node × Rest)) :
    Option (Node × Rest) :=
  match localTag? tag, tagged with
  | some name, false => (read true).map fun (node, r) => (.tagged name node, r)
  | _, _ => read tagged

theorem lawful_of_readUnder (tag : Option String) (tagged : Bool)
    (read : Bool → Option (Node × Rest)) {n : Node} {q : Rest}
    (hread : ∀ tagged n q, read tagged = some (n, q) → n.Lawful)
    (h : readUnder tag tagged read = some (n, q)) : n.Lawful := by
  unfold readUnder at h
  split at h
  · obtain ⟨⟨content, last⟩, hcontent, ⟨⟩⟩ := Option.map_eq_some_iff.1 h
    exact (hread _ _ _ hcontent).2.lawful_tagged
  · exact hread _ _ _ h

/-- One level of nesting: what is inside a collection is read with less room. -/
theorem reads_content_of {target : Nat → List (Event Nat)} {limit room : Nat}
    (hinner : ∀ inner, room = inner + 1 → Reads (content? target limit inner)) :
    Reads (content? target limit room) := by
  intro tagged r n q
  fun_cases content? target limit room tagged r with
  | case1 _ _ _ under =>
    have hunder : under = fun tag read => readUnder tag tagged read := rfl
    rw [hunder]
    refine lawful_of_readUnder _ tagged _ fun tagged n q h => ?_
    obtain ⟨node, hnode, ⟨⟩⟩ := Option.map_eq_some_iff.1 h
    exact lawful_of_scalarNode? hnode
  | case2 _ _ under =>
    have hunder : under = fun tag read => readUnder tag tagged read := rfl
    rw [hunder]
    refine lawful_of_readUnder _ tagged _ fun tagged n q h => ?_
    obtain ⟨⟨items, last⟩, hitems, ⟨⟩⟩ := Option.map_eq_some_iff.1 h
    exact Node.Keyed.lawful_sequence (.sequence (items_keyed (reads_follow (hinner _ rfl)) hitems))
  | case3 _ _ under =>
    have hunder : under = fun tag read => readUnder tag tagged read := rfl
    rw [hunder]
    refine lawful_of_readUnder _ tagged _ fun tagged n q h => ?_
    obtain ⟨⟨entries, last⟩, hentries, ⟨⟩⟩ := Option.map_eq_some_iff.1 h
    exact (entries_keyed (reads_follow (hinner _ rfl)) EntriesKeyed.nil hentries).lawful_mapping
  | case4 => rintro ⟨⟩

theorem reads_content (target : Nat → List (Event Nat)) (limit room : Nat) :
    Reads (content? target limit room) := by
  induction room with
  | zero => exact reads_content_of fun _ h => absurd h (by omega)
  | succ room ih => exact reads_content_of fun _ h => Nat.succ.inj h ▸ ih

theorem keyed_of_read? {text : String} {node : Node} (h : read? text = some node) :
    node.Keyed Node.ValidKey := by
  obtain ⟨tokens, -, h⟩ := Option.bind_eq_some_iff.1 h
  obtain ⟨events, -, h⟩ := Option.bind_eq_some_iff.1 h
  unfold Event.toNode? at h
  split at h
  · cases h
    exact .null
  · obtain ⟨⟨events, anchors⟩, -, h⟩ := Option.bind_eq_some_iff.1 h
    obtain ⟨⟨node, last⟩, hread, ⟨⟩⟩ := Option.bind_eq_some_iff.1 h
    exact (reads_follow (reads_content _ _ _) _ _ _ _ hread).2

end Yaml

end CdkStacks.Document
