import CdkStacks.Proofs.Results
import CdkStacks.Template.Read
import Mathlib.Tactic.SplitIfs

/-!
# Short and long forms

A function is written as a tag or as a map with a single key. Reading a node does not depend on the
choice, except where a text is read through its tag.

* `longForm` writes every tag as a map with a single key;
* `Bare` nodes have no tag on a string argument or on the names that a substitution binds;
* `decodeWithin_longForm`: a bare node is read as its long form is, failures included;
* `bare_of_decodeWithin`: a node that is read like its long form is bare;
* `longForm_agrees`: the two readings agree on bare nodes and, failures apart, on no others.
-/

namespace CdkStacks.Template

open CdkStacks.Document (Node)

/-! ## Long forms -/

/-- The name of a tag, without the exclamation marks in front. -/
def tagName (tag : String) : String :=
  String.ofList (tag.toList.dropWhile (· = '!'))

mutual

/-- The node with every tag `!Ref` written as the key `Ref`, and every other tag `!T` as `Fn::T`. -/
def longForm : Node → Node
  | .null => .null
  | .bool value => .bool value
  | .number value => .number value
  | .string text => .string text
  | .sequence items => .sequence (longItems items)
  | .mapping entries => .mapping (longEntries entries)
  | .tagged tag content =>
    if tagName tag = "Ref" then .mapping [(.string "Ref", longForm content)]
    else .mapping [(.string ("Fn::" ++ tagName tag), longForm content)]

/-- The long forms of the items of a sequence. -/
def longItems : List Node → List Node
  | [] => []
  | item :: rest => longForm item :: longItems rest

/-- The long forms of the entries of a mapping. -/
def longEntries : List (Node × Node) → List (Node × Node)
  | [] => []
  | (key, value) :: rest => (longForm key, longForm value) :: longEntries rest

end

theorem longForm_tagged (tag : String) (content : Node) :
    longForm (.tagged tag content) = .mapping [(.string (longName tag), longForm content)] := by
  rw [longForm, longName]
  change _ = Node.mapping [(.string (if tagName tag = "Ref" then tagName tag else _), _)]
  split_ifs with href
  · rw [href]
  · rfl

/-! ## Bare nodes -/

/-- A text under a tag. -/
def TaggedText : Node → Prop
  | .tagged _ content => content.text?.isSome
  | _ => False

/-- A node under a tag. -/
def Tagged : Node → Prop
  | .tagged _ _ => True
  | _ => False

namespace Function

/-- The string arguments of a function. -/
def texts : Function → Node → List Node
  | ref, argument => [argument]
  | getAtt, .sequence [target, member] => [target, member]
  | join, .sequence [delimiter, _] => [delimiter]
  | split, .sequence [delimiter, _] => [delimiter]
  | sub, .sequence [text, _] => [text]
  | _, _ => []

/-- The argument of a substitution that binds names. -/
def bindings? : Function → Node → Option Node
  | sub, .sequence [_, bindings] => some bindings
  | _, _ => none

/-- The nodes in the argument of a function that are read as values. -/
def values : Function → Node → List Node
  | join, .sequence [_, parts] => [parts]
  | split, .sequence [_, source] => [source]
  | select, .sequence [index, list] => [index, list]
  | sub, .sequence [_, .mapping entries] => entries.map Prod.snd
  | importValue, argument => [argument]
  | base64, argument => [argument]
  | getAZs, argument => [argument]
  | _, _ => []

end Function

/-- The function that a node applies, in either form, and its argument. -/
def call? : Node → Option (Function × Node)
  | .mapping entries => application? entries
  | .tagged tag content => (Function.ofName? (longName tag)).map fun f => (f, content)
  | _ => none

/-- The nodes right inside a node that are read as values. -/
def inside (node : Node) : List Node :=
  match call? node, node with
  | some (f, argument), _ => f.values argument
  | none, .sequence items => items
  | none, .mapping entries => entries.map Prod.snd
  | none, .tagged _ content => [content]
  | none, _ => []

/-- The arguments of a call that must not be tagged. -/
structure BareCall (f : Function) (argument : Node) : Prop where
  texts : ∀ text ∈ f.texts argument, ¬ TaggedText text
  bindings : ∀ bindings ∈ f.bindings? argument, ¬ Tagged bindings

/-- A node in which no string argument is a text under a tag, and no substitution binds names under
a tag. -/
inductive Bare : Node → Prop
  | intro {node : Node} : (∀ f argument, call? node = some (f, argument) → BareCall f argument) →
      (∀ child ∈ inside node, Bare child) → Bare node

/-! ## Parts of long forms -/

theorem longItems_eq (items : List Node) : longItems items = items.map longForm := by
  induction items with
  | nil => rfl
  | cons item rest ih => rw [longItems, ih, List.map_cons]

theorem text?_longForm {node : Node} (h : ¬ TaggedText node) :
    (longForm node).text? = node.text? := by
  cases node with
  | tagged tag content =>
    rw [longForm_tagged]
    have hnone : content.text? = none := by simpa [TaggedText] using h
    exact hnone.symm
  | null | bool | number | string | sequence | mapping => rfl

/-- The long form of a text under a tag is no text. -/
theorem text?_longForm_of_taggedText {node : Node} (h : TaggedText node) :
    (longForm node).text? = none := by
  cases node with
  | tagged tag content => rw [longForm_tagged]; rfl
  | null | bool | number | string | sequence | mapping => exact h.elim

theorem keyText_longForm (key : Node) : keyText (longForm key) = keyText key := by
  cases key with
  | tagged tag content => rw [longForm_tagged]; rfl
  | null | bool | number | string | sequence | mapping => rfl

theorem application?_longEntries (entries : List (Node × Node)) :
    application? (longEntries entries) =
      (application? entries).map fun (f, argument) => (f, longForm argument) := by
  match entries with
  | [] => rfl
  | [(.string key, argument)] =>
    simp [longEntries, longForm, application?, Function.comp_def]
  | [(.tagged tag content, argument)] =>
    rw [longEntries, longForm_tagged]
    rfl
  | [(.null, _)] | [(.bool _, _)] | [(.number _, _)] | [(.sequence _, _)] | [(.mapping _, _)] => rfl
  | _ :: _ :: _ => simp [longEntries, application?]

theorem call?_longForm (node : Node) :
    call? (longForm node) = (call? node).map fun (f, argument) => (f, longForm argument) := by
  cases node with
  | mapping entries => exact application?_longEntries entries
  | tagged tag content =>
    rw [longForm_tagged]
    simp [call?, application?, Function.comp_def]
  | null | bool | number | string | sequence => rfl

theorem call?_longForm_of_some {node argument : Node} {f : Function}
    (h : call? node = some (f, argument)) :
    call? (longForm node) = some (f, longForm argument) := by
  rw [call?_longForm, h]
  rfl

theorem call?_longForm_of_none {node : Node} (h : call? node = none) :
    call? (longForm node) = none := by
  rw [call?_longForm, h]
  rfl

theorem decodeWithin_call {node argument : Node} {f : Function}
    (h : call? node = some (f, argument)) (room : Nat) :
    decodeWithin (room + 1) node = f.apply (decodeWithin room) argument := by
  cases node with
  | mapping entries =>
    rw [call?] at h
    rw [decodeWithin, h]
  | tagged tag content =>
    rw [call?, Option.map_eq_some_iff] at h
    obtain ⟨g, hname, hpair⟩ := h
    cases hpair
    rw [decodeWithin, hname]
  | null | bool | number | string | sequence => cases h

theorem decodeEntries_singleton (read : Node → Except Malformed Value) (name : String)
    (node : Node) : decodeEntries read [(.string name, node)] =
      read node >>= fun value => pure [(name, value)] := by
  rw [decodeEntries, List.mapM_cons, List.mapM_nil]
  change ((read node >>= fun value => pure (name, value)) >>= fun entry => pure [entry]) = _
  rw [bind_assoc]
  rfl

theorem decodeWithin_mapping {entries : List (Node × Node)} (h : call? (.mapping entries) = none)
    (room : Nat) : decodeWithin (room + 1) (.mapping entries) =
      decodeEntries (decodeWithin room) entries >>= fun entries => pure (.map entries) := by
  rw [call?] at h
  rw [decodeWithin, h]

theorem decodeWithin_tagged {tag : String} {content : Node} (h : call? (.tagged tag content) = none)
    (room : Nat) : decodeWithin (room + 1) (.tagged tag content) =
      decodeWithin room content >>= fun value => pure (.map [(longName tag, value)]) := by
  rw [call?, Option.map_eq_none_iff] at h
  rw [decodeWithin, h]

theorem inside_of_call {node argument : Node} {f : Function}
    (h : call? node = some (f, argument)) : inside node = f.values argument := by
  simp only [inside, h]

theorem inside_mapping {entries : List (Node × Node)} (h : call? (.mapping entries) = none) :
    inside (.mapping entries) = entries.map Prod.snd := by
  simp only [inside, h]

theorem inside_tagged {tag : String} {content : Node} (h : call? (.tagged tag content) = none) :
    inside (.tagged tag content) = [content] := by
  simp only [inside, h]

/-! ## Pairs as arguments -/

/-- The functions whose argument is a pair or, for some, a string. -/
def Function.takesPair : Function → Bool
  | getAtt | join | sub | select | split => true
  | ref | importValue | base64 | getAZs => false

/-- A node that is not a sequence of two items. -/
def NotPair (node : Node) : Prop :=
  ∀ first second, node ≠ .sequence [first, second]

theorem pair_or_notPair (node : Node) :
    (∃ first second, node = .sequence [first, second]) ∨ NotPair node := by
  by_cases h : ∃ first second, node = .sequence [first, second]
  · exact .inl h
  · exact .inr fun first second heq => h ⟨first, second, heq⟩

theorem NotPair.longForm {node : Node} (h : NotPair node) : NotPair (longForm node) := by
  intro first second heq
  match node with
  | .sequence [a, b] => exact h a b rfl
  | .sequence [] | .sequence [_] | .sequence (_ :: _ :: _ :: _) =>
    simp [Template.longForm, longItems] at heq
  | .tagged tag content => rw [longForm_tagged] at heq; cases heq
  | .null | .bool _ | .number _ | .string _ | .mapping _ => cases heq

/-- Of an argument that should be a pair and is none, nothing is read. -/
theorem parts_of_notPair {f : Function} (hf : f.takesPair) {argument : Node}
    (h : NotPair argument) :
    f.texts argument = [] ∧ f.bindings? argument = none ∧ f.values argument = [] := by
  match argument with
  | .sequence [first, second] => exact absurd rfl (h first second)
  | .sequence [] | .sequence [_] | .sequence (_ :: _ :: _ :: _) | .tagged _ _ | .null | .bool _
  | .number _ | .string _ | .mapping _ =>
    cases f with
    | getAtt | join | sub | select | split =>
      exact ⟨by simp [Function.texts], by simp [Function.bindings?], by simp [Function.values]⟩
    | ref | importValue | base64 | getAZs => cases hf

/-! ## Agreement -/

theorem text_longForm {node : Node} (h : ¬ TaggedText node) (f : Function) :
    f.text (longForm node) = f.text node := by
  rw [Function.text, Function.text, text?_longForm h]

theorem decodeEntries_longEntries {read : Node → Except Malformed Value}
    {entries : List (Node × Node)}
    (h : ∀ entry ∈ entries, read (longForm entry.2) = read entry.2) :
    decodeEntries read (longEntries entries) = decodeEntries read entries := by
  unfold decodeEntries
  induction entries with
  | nil => rfl
  | cons entry rest ih =>
    have hvalue : read (longForm entry.2) = read entry.2 := h entry (by simp)
    have hrest := ih fun other hother => h other (by simp [hother])
    rw [longEntries, List.mapM_cons, List.mapM_cons, hrest]
    simp only [keyText_longForm, hvalue]

theorem apply_longForm_of_notPair (read : Node → Except Malformed Value) {f : Function}
    (hf : f.takesPair) {argument : Node} (h : NotPair argument) :
    f.apply read (longForm argument) = f.apply read argument := by
  match argument with
  | .sequence [first, second] => exact absurd rfl (h first second)
  | .tagged tag content =>
    rw [longForm_tagged]
    cases f with
    | getAtt | join | sub | select | split => rfl
    | ref | importValue | base64 | getAZs => cases hf
  | .sequence [] | .sequence [_] | .sequence (_ :: _ :: _ :: _) | .null | .bool _ | .number _
  | .string _ | .mapping _ =>
    cases f with
    | getAtt | join | sub | select | split => rfl
    | ref | importValue | base64 | getAZs => cases hf

theorem apply_longForm_pair {read : Node → Except Malformed Value} {f : Function}
    (hf : f.takesPair) {first second : Node} (hbare : BareCall f (.sequence [first, second]))
    (hread : ∀ child ∈ f.values (.sequence [first, second]), read (longForm child) = read child) :
    f.apply read (longForm (.sequence [first, second])) =
      f.apply read (.sequence [first, second]) := by
  cases f with
  | getAtt =>
    have htarget := text_longForm (hbare.texts first (by simp [Function.texts])) .getAtt
    have hmember := text_longForm (hbare.texts second (by simp [Function.texts])) .getAtt
    change (Function.text .getAtt (longForm first) >>= fun target =>
      Function.text .getAtt (longForm second) >>= _) = _
    rw [htarget, hmember]
    rfl
  | join | split =>
    have hdelimiter := text_longForm (hbare.texts first (by simp [Function.texts]))
    have hvalue := hread second (by simp [Function.values])
    change (Function.text _ (longForm first) >>= fun delimiter =>
      read (longForm second) >>= _) = _
    rw [hdelimiter, hvalue]
    rfl
  | select =>
    have hindex := hread first (by simp [Function.values])
    have hlist := hread second (by simp [Function.values])
    change (read (longForm first) >>= fun index => read (longForm second) >>= _) = _
    rw [hindex, hlist]
    rfl
  | sub =>
    have htext := text_longForm (hbare.texts first (by simp [Function.texts])) .sub
    have hbindings := hbare.bindings second rfl
    cases second with
    | mapping entries =>
      have hentries : decodeEntries read (longEntries entries) = decodeEntries read entries :=
        decodeEntries_longEntries fun entry hentry =>
          hread entry.2 (List.mem_map.2 ⟨entry, hentry, rfl⟩)
      change (Function.text .sub (longForm first) >>= fun text =>
        decodeEntries read (longEntries entries) >>= _) = _
      rw [htext, hentries]
      rfl
    | tagged tag content => exact absurd trivial hbindings
    | null | bool | number | string | sequence =>
      change (Function.text .sub (longForm first) >>= _) = (Function.text .sub first >>= _)
      rw [htext]
      rfl
  | ref | importValue | base64 | getAZs => cases hf

/-- **One call.** A bare call of a function is read alike in both forms if the values inside it
are. -/
theorem apply_longForm {read : Node → Except Malformed Value} {f : Function} {argument : Node}
    (hbare : BareCall f argument)
    (hread : ∀ child ∈ f.values argument, read (longForm child) = read child) :
    f.apply read (longForm argument) = f.apply read argument := by
  by_cases hf : f.takesPair
  · rcases pair_or_notPair argument with ⟨first, second, rfl⟩ | hpair
    · exact apply_longForm_pair hf hbare hread
    · exact apply_longForm_of_notPair read hf hpair
  · cases f with
    | ref =>
      have htext := text_longForm (hbare.texts argument (by simp [Function.texts])) .ref
      change (Function.text .ref (longForm argument) >>= _) = (Function.text .ref argument >>= _)
      rw [htext]
    | importValue | base64 | getAZs =>
      change (read (longForm argument) >>= _) = (read argument >>= _)
      rw [hread argument (by simp [Function.values])]
    | getAtt | join | sub | select | split => exact absurd rfl hf

theorem mapM_longItems {read : Node → Except Malformed Value} {items : List Node}
    (h : ∀ item ∈ items, read (longForm item) = read item) :
    (longItems items).mapM read = items.mapM read := by
  induction items with
  | nil => rfl
  | cons item rest ih =>
    rw [longItems, List.mapM_cons, List.mapM_cons, h item (by simp),
      ih fun other hother => h other (by simp [hother])]

/-- **A bare node is read as its long form.** -/
theorem decodeWithin_longForm : ∀ (room : Nat) {node : Node}, Bare node →
    decodeWithin room (longForm node) = decodeWithin room node
  | 0, _, _ => rfl
  | room + 1, node, ⟨hcall, hinside⟩ => by
    have hread : ∀ child ∈ inside node,
        decodeWithin room (longForm child) = decodeWithin room child :=
      fun child hchild => decodeWithin_longForm room (hinside child hchild)
    cases hc : call? node with
    | some call =>
      obtain ⟨f, argument⟩ := call
      rw [inside_of_call hc] at hread
      rw [decodeWithin_call (call?_longForm_of_some hc), decodeWithin_call hc]
      exact apply_longForm (hcall f argument hc) hread
    | none =>
      have hlong := call?_longForm_of_none hc
      cases node with
      | null | bool | number | string => rfl
      | sequence items =>
        have hitems : (longItems items).mapM (decodeWithin room) = items.mapM (decodeWithin room) :=
          mapM_longItems hread
        rw [longForm, decodeWithin, decodeWithin, hitems]
      | mapping entries =>
        rw [inside_mapping hc] at hread
        have hentries : decodeEntries (decodeWithin room) (longEntries entries) =
            decodeEntries (decodeWithin room) entries :=
          decodeEntries_longEntries fun entry hentry =>
            hread entry.2 (List.mem_map.2 ⟨entry, hentry, rfl⟩)
        rw [longForm] at hlong ⊢
        rw [decodeWithin_mapping hlong, decodeWithin_mapping hc, hentries]
      | tagged tag content =>
        rw [inside_tagged hc] at hread
        -- a tag that names no function is a map with one entry in both forms
        rw [longForm_tagged] at hlong ⊢
        rw [decodeWithin_mapping hlong, decodeWithin_tagged hc, decodeEntries_singleton,
          hread content (by simp), bind_assoc]
        rfl

/-! ## Disagreement -/

theorem exists_of_mem_decodeEntries {read : Node → Except Malformed Value}
    {entries : List (Node × Node)} {results : List (String × Value)}
    (h : decodeEntries read entries = .ok results) :
    ∀ result ∈ results, ∃ node, read node = .ok result.2 := by
  intro result hresult
  obtain ⟨entry, -, hentry⟩ := exists_of_mem_mapM h result hresult
  obtain ⟨name, -, hentry⟩ := exists_of_bind_eq_ok hentry
  obtain ⟨value, hvalue, hentry⟩ := exists_of_bind_eq_ok hentry
  cases hentry
  exact ⟨entry.2, hvalue⟩

theorem exists_of_decodeEntries_eq_ok {read : Node → Except Malformed Value}
    {entries : List (Node × Node)} {results : List (String × Value)}
    (h : decodeEntries read entries = .ok results) :
    ∀ child ∈ entries.map Prod.snd, ∃ value, read child = .ok value := by
  intro child hchild
  obtain ⟨entry, hentry, rfl⟩ := List.mem_map.1 hchild
  obtain ⟨result, hresult⟩ := exists_of_mapM_eq_ok h entry hentry
  obtain ⟨name, -, hread⟩ := exists_of_bind_eq_ok hresult
  obtain ⟨value, hvalue, -⟩ := exists_of_bind_eq_ok hread
  exact ⟨value, hvalue⟩

theorem keyText?_of_keyText {key : Node} {name : String} (h : keyText key = .ok name) :
    key.keyText? = some name := by
  unfold keyText at h
  split at h
  · rename_i text htext
    cases h
    exact htext
  · cases h

theorem text?_isSome_of_text {f : Function} {node : Node} {text : String}
    (h : f.text node = .ok text) : node.text?.isSome := by
  rw [Function.text] at h
  cases htext : node.text? with
  | none => rw [htext] at h; cases h
  | some text => rfl

/-- What a function must find to be read: its strings, names that are bound by a mapping, and the
values inside it. -/
structure Readable (read : Node → Except Malformed Value) (f : Function) (argument : Node) :
    Prop where
  texts : ∀ text ∈ f.texts argument, text.text?.isSome
  bindings : ∀ bindings ∈ f.bindings? argument, ∃ entries, bindings = .mapping entries
  values : ∀ child ∈ f.values argument, ∃ value, read child = .ok value

theorem readable_of_apply_pair {read : Node → Except Malformed Value} {f : Function}
    (hf : f.takesPair) {first second : Node} {result : Value}
    (h : f.apply read (.sequence [first, second]) = .ok result) :
    Readable read f (.sequence [first, second]) := by
  cases f with
  | getAtt =>
    obtain ⟨target, htarget, h⟩ := exists_of_bind_eq_ok h
    obtain ⟨member, hmember, -⟩ := exists_of_bind_eq_ok h
    exact ⟨by simpa [Function.texts] using
        ⟨text?_isSome_of_text htarget, text?_isSome_of_text hmember⟩,
      by simp [Function.bindings?], by simp [Function.values]⟩
  | join | split =>
    change (Function.text _ first >>= fun delimiter => read second >>= _) = _ at h
    obtain ⟨delimiter, hdelimiter, h⟩ := exists_of_bind_eq_ok h
    obtain ⟨value, hvalue, -⟩ := exists_of_bind_eq_ok h
    exact ⟨by simpa [Function.texts] using text?_isSome_of_text hdelimiter,
      by simp [Function.bindings?], by simpa [Function.values] using ⟨value, hvalue⟩⟩
  | select =>
    change (read first >>= fun index => read second >>= _) = _ at h
    obtain ⟨index, hindex, h⟩ := exists_of_bind_eq_ok h
    obtain ⟨list, hlist, -⟩ := exists_of_bind_eq_ok h
    exact ⟨by simp [Function.texts], by simp [Function.bindings?],
      by simpa [Function.values] using ⟨⟨index, hindex⟩, list, hlist⟩⟩
  | sub =>
    obtain ⟨text, htext, h⟩ := exists_of_bind_eq_ok h
    have hsome := text?_isSome_of_text htext
    cases second with
    | mapping entries =>
      obtain ⟨bound, hbound, -⟩ := exists_of_bind_eq_ok h
      exact ⟨by simpa [Function.texts] using hsome, by simp [Function.bindings?],
        exists_of_decodeEntries_eq_ok hbound⟩
    | null | bool | number | string | sequence | tagged => cases h
  | ref | importValue | base64 | getAZs => cases hf

/-- A function that is read finds what it needs. -/
theorem readable_of_apply {read : Node → Except Malformed Value} {f : Function} {argument : Node}
    {result : Value} (h : f.apply read argument = .ok result) : Readable read f argument := by
  by_cases hf : f.takesPair
  · rcases pair_or_notPair argument with ⟨first, second, rfl⟩ | hpair
    · exact readable_of_apply_pair hf h
    · obtain ⟨htexts, hbindings, hvalues⟩ := parts_of_notPair hf hpair
      exact ⟨by simp [htexts], by simp [hbindings], by simp [hvalues]⟩
  · cases f with
    | ref =>
      obtain ⟨target, htarget, -⟩ := exists_of_bind_eq_ok h
      exact ⟨by simpa [Function.texts] using text?_isSome_of_text htarget,
        by simp [Function.bindings?], by simp [Function.values]⟩
    | importValue | base64 | getAZs =>
      obtain ⟨value, hvalue, -⟩ := exists_of_bind_eq_ok h
      exact ⟨by simp [Function.texts], by simp [Function.bindings?],
        by simpa [Function.values] using ⟨value, hvalue⟩⟩
    | getAtt | join | sub | select | split => exact absurd rfl hf

theorem texts_longForm (f : Function) (argument : Node) :
    f.texts (longForm argument) = (f.texts argument).map longForm := by
  cases f with
  | ref | importValue | base64 | getAZs => simp [Function.texts]
  | getAtt | join | sub | select | split =>
    rcases pair_or_notPair argument with ⟨first, second, rfl⟩ | hpair
    · rfl
    · rw [(parts_of_notPair rfl hpair).1, (parts_of_notPair rfl hpair.longForm).1]
      rfl

theorem map_snd_longEntries (entries : List (Node × Node)) :
    (longEntries entries).map Prod.snd = (entries.map Prod.snd).map longForm := by
  induction entries with
  | nil => rfl
  | cons entry rest ih => rw [longEntries, List.map_cons, List.map_cons, List.map_cons, ih]

theorem values_longForm {f : Function} {argument : Node}
    (h : ∀ bindings ∈ f.bindings? argument, ¬ Tagged bindings) :
    f.values (longForm argument) = (f.values argument).map longForm := by
  by_cases hf : f.takesPair
  · rcases pair_or_notPair argument with ⟨first, second, rfl⟩ | hpair
    · cases f with
      | getAtt | join | select | split => rfl
      | sub =>
        cases second with
        | mapping entries => exact map_snd_longEntries entries
        -- in its long form this would be a mapping, with a value to read
        | tagged tag content => exact absurd trivial (h _ rfl)
        | null | bool | number | string | sequence => rfl
      | ref | importValue | base64 | getAZs => cases hf
    · rw [(parts_of_notPair hf hpair).2.2, (parts_of_notPair hf hpair.longForm).2.2]
      rfl
  · cases f with
    | ref | importValue | base64 | getAZs => simp [Function.values]
    | getAtt | join | sub | select | split => exact absurd rfl hf

/-- A call that can be read in both forms is bare. -/
theorem bareCall_of_readable {read : Node → Except Malformed Value} {f : Function}
    {argument : Node} (h : Readable read f argument) (hlong : Readable read f (longForm argument)) :
    BareCall f argument where
  texts := by
    intro text htext htagged
    -- the call has been read in the long form too, where the argument is no text any more
    have hsome := hlong.texts (longForm text) (by
      rw [texts_longForm]
      exact List.mem_map_of_mem htext)
    simp [text?_longForm_of_taggedText htagged] at hsome
  bindings := by
    intro bindings hbindings htagged
    obtain ⟨entries, rfl⟩ := h.bindings bindings hbindings
    exact htagged

theorem inside_longForm {node : Node}
    (h : ∀ f argument, call? node = some (f, argument) → BareCall f argument) :
    inside (longForm node) = (inside node).map longForm := by
  cases hc : call? node with
  | some call =>
    obtain ⟨f, argument⟩ := call
    rw [inside_of_call hc, inside_of_call (call?_longForm_of_some hc),
      values_longForm (h f argument hc).bindings]
  | none =>
    have hlong := call?_longForm_of_none hc
    cases node with
    | null | bool | number | string => rfl
    | sequence items => exact longItems_eq items
    | mapping entries =>
      rw [longForm] at hlong ⊢
      rw [inside_mapping hc, inside_mapping hlong, map_snd_longEntries]
    | tagged tag content =>
      rw [longForm_tagged] at hlong ⊢
      rw [inside_tagged hc, inside_mapping hlong]
      rfl

/-- Reading a node reads the values inside it. -/
theorem exists_of_decodeWithin_eq_ok {room : Nat} {node : Node} {result : Value}
    (h : decodeWithin (room + 1) node = .ok result) :
    ∀ child ∈ inside node, ∃ value, decodeWithin room child = .ok value := by
  cases hc : call? node with
  | some call =>
    obtain ⟨f, argument⟩ := call
    rw [decodeWithin_call hc] at h
    rw [inside_of_call hc]
    exact (readable_of_apply h).values
  | none =>
    cases node with
    | null | bool | number | string =>
      intro child hchild
      simp [inside, call?] at hchild
    | sequence items =>
      rw [decodeWithin] at h
      obtain ⟨values, hvalues, -⟩ := exists_of_bind_eq_ok h
      exact exists_of_mapM_eq_ok hvalues
    | mapping entries =>
      rw [decodeWithin_mapping hc] at h
      obtain ⟨values, hvalues, -⟩ := exists_of_bind_eq_ok h
      rw [inside_mapping hc]
      exact exists_of_decodeEntries_eq_ok hvalues
    | tagged tag content =>
      rw [decodeWithin_tagged hc] at h
      obtain ⟨value, hvalue, -⟩ := exists_of_bind_eq_ok h
      rw [inside_tagged hc]
      simpa using ⟨value, hvalue⟩

/-- **A node that can be read in both forms is bare.** -/
theorem bare_of_decodeWithin : ∀ {room : Nat} {node : Node} {short long : Value},
    decodeWithin room node = .ok short → decodeWithin room (longForm node) = .ok long → Bare node
  | 0, _, _, _, h, _ => by cases h
  | room + 1, node, short, long, hshort, hlong => by
    have hcall : ∀ f argument, call? node = some (f, argument) → BareCall f argument := by
      intro f argument hc
      rw [decodeWithin_call hc] at hshort
      rw [decodeWithin_call (call?_longForm_of_some hc)] at hlong
      exact bareCall_of_readable (readable_of_apply hshort) (readable_of_apply hlong)
    refine .intro hcall fun child hchild => ?_
    obtain ⟨first, hfirst⟩ := exists_of_decodeWithin_eq_ok hshort child hchild
    have hmem : longForm child ∈ inside (longForm node) := by
      rw [inside_longForm hcall]
      exact List.mem_map_of_mem hchild
    obtain ⟨second, hsecond⟩ := exists_of_decodeWithin_eq_ok hlong _ hmem
    exact bare_of_decodeWithin hfirst hsecond

/-! ## Both forms -/

theorem inContext_eq_ok {α : Type} {context : String} {result : Except Malformed α} {a : α} :
    inContext context result = .ok a ↔ result = .ok a := by
  cases result <;> simp [inContext]

theorem inContext_injective {α : Type} (context : String) {first second : Except Malformed α}
    (h : inContext context first = inContext context second) : first = second := by
  cases first <;> cases second <;> simp_all [inContext]

/-- **Short and long forms.** A bare node is read as its long form, also where reading fails. Where
one of the two can be read, they agree on bare nodes only. -/
theorem longForm_agrees (node : Node) (context : String) :
    (Bare node → inContext context (decode (longForm node)) = inContext context (decode node)) ∧
      ∀ value, decode node = .ok value ∨ decode (longForm node) = .ok value →
        (inContext context (decode (longForm node)) = inContext context (decode node) ↔
          Bare node) := by
  have hbare : Bare node →
      inContext context (decode (longForm node)) = inContext context (decode node) := by
    intro h
    rw [decode, decode, decodeWithin_longForm _ h]
  refine ⟨hbare, fun value hvalue => ⟨fun heq => ?_, hbare⟩⟩
  have hsame := inContext_injective context heq
  rcases hvalue with hshort | hlong
  · exact bare_of_decodeWithin hshort (hsame.trans hshort)
  · exact bare_of_decodeWithin (hsame.symm.trans hlong) hlong

/-- A substitution with tags where values are read. -/
def portScript : Node :=
  .tagged "Base64" (.tagged "Sub" (.sequence [.string "listen ${Port}",
    .mapping [(.string "Port", .tagged "Ref" (.string "Port"))]]))

theorem bare_portScript : Bare portScript := by
  have hshort : ∃ value, decode portScript = .ok value := ⟨_, rfl⟩
  have hlong : ∃ value, decode (longForm portScript) = .ok value := ⟨_, rfl⟩
  obtain ⟨short, hshort⟩ := hshort
  obtain ⟨long, hlong⟩ := hlong
  exact bare_of_decodeWithin hshort hlong

theorem longForm_agrees_portScript :
    Bare portScript ∧
      inContext "Web" (decode (longForm portScript)) = inContext "Web" (decode portScript) :=
  ⟨bare_portScript, (longForm_agrees portScript "Web").1 bare_portScript⟩

/-- A list that is joined by what looks like a reference. -/
def joinedByReference : Node :=
  .tagged "Join" (.sequence [.tagged "Ref" (.string "A"), .sequence [.string "x"]])

/-- A tag on a delimiter is looked through, but its long form is no text. -/
theorem longForm_disagrees_joinedByReference :
    decode joinedByReference = .ok (.join "A" (.list [.string "x"])) ∧
      decode (longForm joinedByReference) = .error (.argument .join) :=
  ⟨rfl, rfl⟩

-- the other way round: a tag on the names that a substitution binds can be read in long form only
example : ∃ value,
    decode (.tagged "Sub" (.sequence [.string "x", .tagged "T" .null])) = .error .subVariables ∧
      decode (longForm (.tagged "Sub" (.sequence [.string "x", .tagged "T" .null]))) = .ok value :=
  ⟨_, rfl, rfl⟩

end CdkStacks.Template
