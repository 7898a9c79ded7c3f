import CdkStacks.Proofs.LongForm
import CdkStacks.Proofs.Placeholders

/-!
# Levels of nesting

A node that nests too deep is refused, and no node is refused for its nesting otherwise.

* `AtLevel` counts how many levels a part stands below the whole;
* `Function.Takes` are the arguments that a function can be applied to;
* `Sound` nodes can be read as far as they are concerned themselves;
* `decodeWithin_inside`: a sound node is read as the nodes inside it are, failures included;
* `sound_of_atLevel`, `exists_node_of_atLevel`: the levels of a node that is read, and of its value;
* `read_or_tooDeep`: a node that is sound as far as there is room is read, or it nests too deep;
* `nesting_bound_exact`: 64 levels are read, no less and no more.
-/

namespace CdkStacks.Template

open CdkStacks.Document (Node)

/-! ## Levels -/

/-- A part stands at a level of a whole; `inside` lists what stands one level down. -/
inductive AtLevel {α : Type} (inside : α → List α) : Nat → α → α → Prop
  | whole (a : α) : AtLevel inside 0 a a
  | inside {level : Nat} {whole child part : α} : child ∈ inside whole →
      AtLevel inside level child part → AtLevel inside (level + 1) whole part

/-- The values right inside a value. -/
def Value.inside : Value → List Value
  | .null | .bool _ | .number _ | .string _ | .ref _ | .pseudo _ | .getAtt _ _ => []
  | .list items => items
  | .map entries | .sub _ entries => entries.map Prod.snd
  | .select index choices => [index, choices]
  | .join _ inner | .split _ inner | .importValue inner | .base64 inner | .zones inner => [inner]

/-! ## Sound nodes -/

/-- Keys that can be read. -/
def ScalarKeys (entries : List (Node × Node)) : Prop :=
  ∀ entry ∈ entries, entry.1.keyText?.isSome

/-- The arguments that a function can be applied to, whatever the values inside them are. -/
inductive Function.Takes : Function → Node → Prop
  | ref {target : Node} : target.text?.isSome → Takes ref target
  | dotted {name : String} : '.' ∈ name.toList → Takes getAtt (.string name)
  | getAtt {target member : Node} : target.text?.isSome → member.text?.isSome →
      Takes getAtt (.sequence [target, member])
  | join {delimiter : Node} (parts : Node) : delimiter.text?.isSome →
      Takes join (.sequence [delimiter, parts])
  | split {delimiter : Node} (source : Node) : delimiter.text?.isSome →
      Takes split (.sequence [delimiter, source])
  | select (index list : Node) : Takes select (.sequence [index, list])
  | text (text : String) : Takes sub (.string text)
  | bindings {text : Node} {entries : List (Node × Node)} : text.text?.isSome →
      ScalarKeys entries → Takes sub (.sequence [text, .mapping entries])
  | importValue (name : Node) : Takes importValue name
  | base64 (source : Node) : Takes base64 source
  | getAZs (region : Node) : Takes getAZs region

/-- A node that can be read as far as it is concerned itself: a number is finite, a function has an
argument that it takes, and any other mapping has scalar keys. -/
def Sound (node : Node) : Prop :=
  match call? node, node with
  | some (f, argument), _ => f.Takes argument
  | none, .number value => value.isFinite
  | none, .mapping entries => ScalarKeys entries
  | none, _ => True

theorem sound_of_call {node argument : Node} {f : Function} (h : call? node = some (f, argument)) :
    Sound node ↔ f.Takes argument := by
  simp only [Sound, h]

theorem sound_mapping {entries : List (Node × Node)} (h : call? (.mapping entries) = none) :
    Sound (.mapping entries) ↔ ScalarKeys entries := by
  simp only [Sound, h]

theorem sound_tagged {tag : String} {content : Node} (h : call? (.tagged tag content) = none) :
    Sound (.tagged tag content) := by
  simp only [Sound, h]

/-! ## Reading a sound node -/

theorem text_of_isSome {node : Node} (h : node.text?.isSome) (f : Function) :
    ∃ text, f.text node = .ok text := by
  obtain ⟨text, htext⟩ := Option.isSome_iff_exists.1 h
  exact ⟨text, by rw [Function.text, htext]⟩

theorem splitAt?_isSome_iff {mark : Char} {cs : List Char} :
    (splitAt? mark cs).isSome ↔ mark ∈ cs := by
  constructor
  · intro h
    by_contra hmark
    simp [splitAt?_eq_none hmark] at h
  · intro h
    obtain ⟨left, right, rfl, hleft⟩ := List.eq_append_cons_of_mem h
    simp [splitAt?_append right hleft]

section Reading

variable {read : Node → Except Malformed Value}

theorem decodeEntries_inside {entries : List (Node × Node)} (h : ScalarKeys entries) :
    List.map Prod.snd <$> decodeEntries read entries = (entries.map Prod.snd).mapM read := by
  unfold decodeEntries
  induction entries with
  | nil => rfl
  | cons entry rest ih =>
    obtain ⟨key, node⟩ := entry
    obtain ⟨hkey, hrest⟩ := List.forall_mem_cons.1 h
    obtain ⟨name, hname⟩ := Option.isSome_iff_exists.1 hkey
    have hentry : (do let name ← keyText key; return (name, ← read node)) =
        (name, ·) <$> read node := by
      rw [keyText, hname]
      rfl
    rw [List.map_cons, List.mapM_cons, List.mapM_cons, ← ih hrest]
    change List.map Prod.snd <$> ((do let name ← keyText key; return (name, ← read node)) >>= _) = _
    rw [hentry]
    simp [map_bind]

/-- A value around one that is read. -/
theorem inside_wrap {wrap : Value → Value} (h : ∀ value, (wrap value).inside = [value])
    (node : Node) :
    Value.inside <$> (read node >>= fun value => pure (wrap value)) = [node].mapM read := by
  simp [h]

/-- A value around entries that are read. -/
theorem inside_wrapEntries {wrap : List (String × Value) → Value}
    (h : ∀ entries, (wrap entries).inside = entries.map Prod.snd) {entries : List (Node × Node)}
    (hkeys : ScalarKeys entries) :
    Value.inside <$> (decodeEntries read entries >>= fun entries => pure (wrap entries)) =
      (entries.map Prod.snd).mapM read := by
  rw [← decodeEntries_inside hkeys]
  simp [h]

/-- A function that takes its argument is read as the values inside it are. -/
theorem apply_inside {f : Function} {argument : Node} (h : f.Takes argument) :
    Value.inside <$> f.apply read argument = (f.values argument).mapM read := by
  cases h with
  | ref htarget =>
    obtain ⟨target, htarget⟩ := text_of_isSome htarget .ref
    cases hpseudo : Pseudo.ofName? target <;>
      simp [Function.apply, Function.values, htarget, hpseudo, bind, Except.bind, Value.inside]
  | dotted hdot =>
    obtain ⟨⟨target, member⟩, hsplit⟩ := Option.isSome_iff_exists.1 (splitAt?_isSome_iff.2 hdot)
    simp only [Function.apply, splitOnce?, hsplit]
    rfl
  | getAtt htarget hmember =>
    obtain ⟨target, htarget⟩ := text_of_isSome htarget .getAtt
    obtain ⟨member, hmember⟩ := text_of_isSome hmember .getAtt
    simp only [Function.apply, htarget, hmember]
    rfl
  | @join first parts hfirst =>
    obtain ⟨delimiter, hdelimiter⟩ := text_of_isSome hfirst .join
    change Value.inside <$> (Function.text .join first >>= fun delimiter =>
      read parts >>= fun value => pure (.join delimiter value)) = [parts].mapM read
    rw [hdelimiter]
    exact inside_wrap (fun _ => rfl) parts
  | @split first source hfirst =>
    obtain ⟨delimiter, hdelimiter⟩ := text_of_isSome hfirst .split
    change Value.inside <$> (Function.text .split first >>= fun delimiter =>
      read source >>= fun value => pure (.split delimiter value)) = [source].mapM read
    rw [hdelimiter]
    exact inside_wrap (fun _ => rfl) source
  | select index list =>
    change Value.inside <$> (read index >>= fun index => read list >>= fun list =>
      pure (.select index list)) = [index, list].mapM read
    simp [map_bind, Value.inside]
  | text text => rfl
  | @bindings first entries hfirst hkeys =>
    obtain ⟨text, htext⟩ := text_of_isSome hfirst .sub
    change Value.inside <$> (Function.text .sub first >>= fun text =>
      decodeEntries read entries >>= fun bound =>
        pure (.sub (cut text (bound.map Prod.fst)) bound)) = (entries.map Prod.snd).mapM read
    rw [htext]
    exact inside_wrapEntries (fun _ => rfl) hkeys
  | importValue => exact inside_wrap (fun _ => rfl) argument
  | base64 => exact inside_wrap (fun _ => rfl) argument
  | getAZs => exact inside_wrap (fun _ => rfl) argument

theorem scalarKeys_of_decodeEntries {entries : List (Node × Node)}
    {results : List (String × Value)} (h : decodeEntries read entries = .ok results) :
    ScalarKeys entries := by
  intro entry hentry
  obtain ⟨result, hresult⟩ := exists_of_mapM_eq_ok h entry hentry
  obtain ⟨name, hname, -⟩ := exists_of_bind_eq_ok hresult
  rw [keyText?_of_keyText hname]
  rfl

theorem eq_of_pairOf {f : Function} {argument : Node} {pair : Node × Node}
    (h : f.pairOf argument = .ok pair) : argument = .sequence [pair.1, pair.2] := by
  unfold Function.pairOf at h
  split at h
  · cases h
    rfl
  · cases h

/-- A function that is read takes its argument. -/
theorem takes_of_apply {f : Function} {argument : Node} {result : Value}
    (h : f.apply read argument = .ok result) : f.Takes argument := by
  cases f with
  | ref =>
    obtain ⟨target, htarget, -⟩ := exists_of_bind_eq_ok h
    exact .ref (text?_isSome_of_text htarget)
  | getAtt =>
    unfold Function.apply at h
    dsimp only at h
    split at h
    · next name =>
      split at h
      · next hsplit =>
        rw [splitOnce?, Option.map_eq_some_iff] at hsplit
        obtain ⟨pair, hpair, -⟩ := hsplit
        exact .dotted (splitAt?_isSome_iff.1 (hpair ▸ rfl))
      · cases h
    · obtain ⟨target, htarget, h⟩ := exists_of_bind_eq_ok h
      obtain ⟨member, hmember, -⟩ := exists_of_bind_eq_ok h
      exact .getAtt (text?_isSome_of_text htarget) (text?_isSome_of_text hmember)
    · cases h
  | join =>
    obtain ⟨pair, hpair, h⟩ := exists_of_bind_eq_ok h
    obtain ⟨delimiter, hdelimiter, -⟩ := exists_of_bind_eq_ok h
    rw [eq_of_pairOf hpair]
    exact .join _ (text?_isSome_of_text hdelimiter)
  | split =>
    obtain ⟨pair, hpair, h⟩ := exists_of_bind_eq_ok h
    obtain ⟨delimiter, hdelimiter, -⟩ := exists_of_bind_eq_ok h
    rw [eq_of_pairOf hpair]
    exact .split _ (text?_isSome_of_text hdelimiter)
  | sub =>
    unfold Function.apply at h
    dsimp only at h
    split at h
    · exact .text _
    · obtain ⟨text, htext, h⟩ := exists_of_bind_eq_ok h
      split at h
      · obtain ⟨bound, hbound, -⟩ := exists_of_bind_eq_ok h
        exact .bindings (text?_isSome_of_text htext) (scalarKeys_of_decodeEntries hbound)
      · cases h
    · cases h
  | select =>
    obtain ⟨pair, hpair, -⟩ := exists_of_bind_eq_ok h
    rw [eq_of_pairOf hpair]
    exact .select _ _
  | importValue => exact .importValue argument
  | base64 => exact .base64 argument
  | getAZs => exact .getAZs argument

end Reading

/-- **One level.** A sound node is read as the nodes right inside it are, one after the other,
failures included. -/
theorem decodeWithin_inside {node : Node} (h : Sound node) (room : Nat) :
    Value.inside <$> decodeWithin (room + 1) node = (inside node).mapM (decodeWithin room) := by
  cases hc : call? node with
  | some call =>
    obtain ⟨f, argument⟩ := call
    rw [decodeWithin_call hc, inside_of_call hc]
    exact apply_inside ((sound_of_call hc).1 h)
  | none =>
    cases node with
    | null | bool | string => rfl
    | number value =>
      have hfinite : value.isFinite := h
      rw [decodeWithin, if_pos hfinite]
      rfl
    | sequence items =>
      have hinside : inside (.sequence items) = items := rfl
      rw [decodeWithin, hinside]
      simp [Value.inside]
    | mapping entries =>
      rw [decodeWithin_mapping hc, inside_mapping hc]
      exact inside_wrapEntries (fun _ => rfl) ((sound_mapping hc).1 h)
    | tagged tag content =>
      rw [decodeWithin_tagged hc, inside_tagged hc]
      exact inside_wrap (fun _ => rfl) content

/-- A node that is read is sound. -/
theorem sound_of_decodeWithin {room : Nat} {node : Node} {value : Value}
    (h : decodeWithin (room + 1) node = .ok value) : Sound node := by
  cases hc : call? node with
  | some call =>
    obtain ⟨f, argument⟩ := call
    rw [decodeWithin_call hc] at h
    exact (sound_of_call hc).2 (takes_of_apply h)
  | none =>
    cases node with
    | null | bool | string | sequence => trivial
    | number number =>
      rw [decodeWithin] at h
      split_ifs at h with hfinite
      exact hfinite
    | mapping entries =>
      rw [decodeWithin_mapping hc] at h
      obtain ⟨values, hvalues, -⟩ := exists_of_bind_eq_ok h
      exact (sound_mapping hc).2 (scalarKeys_of_decodeEntries hvalues)
    | tagged tag content => exact sound_tagged hc

/-! ## Reading level by level -/

/-- **The levels of a node that is read.** There is room for each of them, and what stands there is
sound. -/
theorem sound_of_atLevel {level : Nat} {root node : Node} (h : AtLevel inside level root node) :
    ∀ {room : Nat} {value : Value}, decodeWithin room root = .ok value →
      level < room ∧ Sound node := by
  induction h with
  | whole root =>
    intro room value hread
    cases room with
    | zero => cases hread
    | succ room => exact ⟨room.succ_pos, sound_of_decodeWithin hread⟩
  | inside hchild hpart ih =>
    intro room value hread
    cases room with
    | zero => cases hread
    | succ room =>
      obtain ⟨inner, hinner⟩ := exists_of_decodeWithin_eq_ok hread _ hchild
      obtain ⟨hlevel, hsound⟩ := ih hinner
      exact ⟨Nat.succ_lt_succ hlevel, hsound⟩

/-- **The levels of a value that is read.** What stands at a level of the value has been read from
what stands at the same level of the node. -/
theorem exists_node_of_atLevel {level : Nat} {value part : Value}
    (h : AtLevel Value.inside level value part) :
    ∀ {room : Nat} {root : Node}, decodeWithin room root = .ok value →
      ∃ node, AtLevel inside level root node ∧ decodeWithin (room - level) node = .ok part := by
  induction h with
  | whole value => exact fun {room root} hread => ⟨root, .whole root, hread⟩
  | @inside level value inner part hinner hpart ih =>
    intro room root hread
    cases room with
    | zero => cases hread
    | succ room =>
      have hinside := decodeWithin_inside (sound_of_decodeWithin hread) room
      rw [hread] at hinside
      obtain ⟨child, hchild, hread⟩ := exists_of_mem_mapM hinside.symm inner hinner
      obtain ⟨node, hnode, hread⟩ := ih hread
      exact ⟨node, .inside hchild hnode, by rwa [Nat.add_sub_add_right]⟩

/-- **A node that is sound as far as there is room is read, or it nests too deep.** -/
theorem read_or_tooDeep {room : Nat} {root : Node}
    (h : ∀ level node, AtLevel inside level root node → level < room → Sound node) :
    (∃ value, decodeWithin room root = .ok value) ∨
      decodeWithin room root = .error .tooDeep ∧ ∃ node, AtLevel inside room root node := by
  induction room generalizing root with
  | zero => exact .inr ⟨rfl, root, .whole root⟩
  | succ room ih =>
    have hinside := decodeWithin_inside (h 0 root (.whole root) room.succ_pos) room
    cases hroot : decodeWithin (room + 1) root with
    | ok value => exact .inl ⟨value, rfl⟩
    | error cause =>
      -- the node fails as one of those inside it does, and that one nests too deep
      rw [hroot] at hinside
      obtain ⟨child, hchild, hcause⟩ := exists_of_mapM_eq_error hinside.symm
      have hsound : ∀ level node, AtLevel inside level child node → level < room → Sound node :=
        fun level node hnode hlevel =>
          h (level + 1) node (.inside hchild hnode) (Nat.succ_lt_succ hlevel)
      rcases ih hsound with ⟨value, hread⟩ | ⟨hread, node, hnode⟩
      · cases hread.symm.trans hcause
      · cases hread.symm.trans hcause
        exact .inr ⟨rfl, node, .inside hchild hnode⟩

/-! ## The bound -/

/-- All nodes from the outermost one down to a level are sound. -/
def SoundTo (limit : Nat) (root : Node) : Prop :=
  ∀ level node, AtLevel inside level root node → level ≤ limit → Sound node

/-- **The bound on nesting is exact.** What stands in a value that is read has at most 64 levels
above it, and has been read from a node at the same level. A node is read exactly when it is sound
and nothing inside it stands deeper; if it is sound and something does, it is refused as too deep,
in its context. -/
theorem nesting_bound_exact (root : Node) (context : String) :
    (∀ value, inContext context (decode root) = .ok value →
      ∀ level part, AtLevel Value.inside level value part → level ≤ 64 ∧
        ∃ node, AtLevel inside level root node ∧ decodeWithin (65 - level) node = .ok part) ∧
    ((∃ value, inContext context (decode root) = .ok value) ↔
      SoundTo 64 root ∧ ∀ level node, AtLevel inside level root node → level ≤ 64) ∧
    (SoundTo 64 root → (∃ level node, AtLevel inside level root node ∧ 64 < level) →
      inContext context (decode root) = .error (.malformed context .tooDeep)) := by
  simp only [inContext_eq_ok]
  have hsound : SoundTo 64 root → (∃ value, decode root = .ok value) ∨
      decode root = .error .tooDeep ∧ ∃ node, AtLevel inside 65 root node :=
    fun h => read_or_tooDeep fun level node hnode hlevel =>
      h level node hnode (Nat.le_of_lt_succ hlevel)
  have hread : ∀ value, decode root = .ok value → ∀ level node, AtLevel inside level root node →
      level ≤ 64 ∧ Sound node := by
    intro value hvalue level node hnode
    obtain ⟨hlevel, hnode⟩ := sound_of_atLevel hnode hvalue
    exact ⟨Nat.le_of_lt_succ hlevel, hnode⟩
  refine ⟨?_, ⟨?_, ?_⟩, ?_⟩
  · intro value hvalue level part hpart
    obtain ⟨node, hnode, hnodePart⟩ := exists_node_of_atLevel hpart hvalue
    exact ⟨(hread value hvalue level node hnode).1, node, hnode, hnodePart⟩
  · rintro ⟨value, hvalue⟩
    exact ⟨fun level node hnode _ => (hread value hvalue level node hnode).2,
      fun level node hnode => (hread value hvalue level node hnode).1⟩
  · rintro ⟨h, hlevels⟩
    rcases hsound h with hvalue | ⟨-, node, hnode⟩
    · exact hvalue
    · exact absurd (hlevels 65 node hnode) (by decide)
  · rintro h ⟨level, node, hnode, hlevel⟩
    rcases hsound h with ⟨value, hvalue⟩ | ⟨hdeep, -⟩
    · have := (hread value hvalue level node hnode).1
      omega
    · exact congrArg (inContext context) hdeep

/-- Choices from joined lists, one in the other around a node. Each takes two levels. -/
def nestedChoices : Nat → Node → Node
  | 0, node => node
  | n + 1, node => .tagged "!Select" (.sequence [.number (.integer 0),
      .mapping [(.string "Fn::Join", .sequence [.string ",", nestedChoices n node])]])

/-- A substitution that binds a name. -/
def boundNull : Node :=
  .tagged "!Sub" (.sequence [.string "${A}", .mapping [(.string "A", .null)]])

theorem atLevel_nestedChoices (n : Nat) {level : Nat} {node part : Node}
    (h : AtLevel inside level node part) :
    AtLevel inside (level + 2 * n) (nestedChoices n node) part := by
  induction n with
  | zero => exact h
  | succ n ih =>
    have hjoin : AtLevel inside (level + 2 * n + 1) (.mapping [(.string "Fn::Join",
        .sequence [.string ",", nestedChoices n node])]) part := .inside (.head []) ih
    exact .inside (.tail _ (.head [])) hjoin

theorem decodeWithin_nestedChoices (n : Nat) {room : Nat} {node : Node}
    (h : ∃ value, decodeWithin room node = .ok value) :
    ∃ value, decodeWithin (room + 2 * n) (nestedChoices n node) = .ok value := by
  induction n with
  | zero => exact h
  | succ n ih =>
    obtain ⟨value, hvalue⟩ := ih
    refine ⟨.select (.number "0") (.join "," value), ?_⟩
    change (decodeWithin (room + 2 * n) (nestedChoices n node) >>= fun value => pure _) >>= _ = _
    rw [hvalue]
    rfl

theorem nesting_bound_exact_nestedChoices :
    (∃ value, decode (nestedChoices 32 .null) = .ok value) ∧
      SoundTo 64 (nestedChoices 32 boundNull) ∧
      inContext "Deep" (decode (nestedChoices 32 boundNull)) =
        .error (.malformed "Deep" .tooDeep) := by
  have hnull : ∃ value, decodeWithin 1 .null = .ok value := ⟨.null, rfl⟩
  have hbound : ∃ value, decodeWithin 2 boundNull = .ok value := ⟨_, rfl⟩
  -- with one level more it would be read, so it is sound
  obtain ⟨value, hvalue⟩ := decodeWithin_nestedChoices 32 hbound
  have hsound : SoundTo 64 (nestedChoices 32 boundNull) :=
    fun level node hnode _ => (sound_of_atLevel hnode hvalue).2
  have hinner : AtLevel inside 1 boundNull .null := .inside (.head []) (.whole _)
  have hdeep : AtLevel inside 65 (nestedChoices 32 boundNull) .null :=
    atLevel_nestedChoices 32 hinner
  exact ⟨decodeWithin_nestedChoices 32 hnull, hsound,
    (nesting_bound_exact _ "Deep").2.2 hsound ⟨65, .null, hdeep, by decide⟩⟩

end CdkStacks.Template
