import CdkStacks.Proofs.Placeholders
import CdkStacks.Template.Decode

/-!
# Writing values as nodes

Reading a node undoes writing a value, as long as the value does not nest too deep.

* `Value.encode` writes a value as a node, with every function in its long form;
* `Value.depth` counts the levels below the outermost one;
* `Value.Normal` are the values that reading can give;
* `decodeWithin_encode`: what reading makes of the node of a normal value, with any room;
* `decode_encode`: normal values of at most `maxDepth` levels are read back, deeper ones refused.
-/

namespace CdkStacks.Template

open CdkStacks.Document (Node Number)

/-! ## Writing -/

/-- The long form of a function and its argument. -/
def longCall (name : String) (argument : Node) : Node :=
  .mapping [(.string name, argument)]

/-- The argument of a substitution: its text alone, when it binds no names. -/
def subArgument (text : String) : List (Node × Node) → Node
  | [] => .string text
  | bindings => .sequence [.string text, .mapping bindings]

section Writing

variable (spell : String → Number)

mutual

/-- The node of a value; `spell` is the number that is written for a text. -/
def Value.encode : Value → Node
  | .null => .null
  | .bool value => .bool value
  | .number text => .number (spell text)
  | .string text => .string text
  | .list items => .sequence (encodeItems items)
  | .map entries => .mapping (encodeEntries entries)
  | .ref target => longCall "Ref" (.string target)
  | .pseudo parameter => longCall "Ref" (.string parameter.name)
  | .getAtt target member => longCall "Fn::GetAtt" (.sequence [.string target, .string member])
  | .join delimiter parts => longCall "Fn::Join" (.sequence [.string delimiter, parts.encode])
  | .sub pieces bindings =>
    longCall "Fn::Sub" (subArgument (printPieces pieces) (encodeEntries bindings))
  | .select index list => longCall "Fn::Select" (.sequence [index.encode, list.encode])
  | .split delimiter source => longCall "Fn::Split" (.sequence [.string delimiter, source.encode])
  | .importValue name => longCall "Fn::ImportValue" name.encode
  | .base64 source => longCall "Fn::Base64" source.encode
  | .zones region => longCall "Fn::GetAZs" region.encode

/-- The nodes of the items of a list. -/
def encodeItems : List Value → List Node
  | [] => []
  | item :: rest => item.encode :: encodeItems rest

/-- The nodes of the entries of a map. -/
def encodeEntries : List (String × Value) → List (Node × Node)
  | [] => []
  | (key, value) :: rest => (.string key, value.encode) :: encodeEntries rest

end

/-! ## Depth and normal form -/

mutual

/-- The number of levels below the outermost one. -/
def Value.depth : Value → Nat
  | .null | .bool _ | .number _ | .string _ | .ref _ | .pseudo _ | .getAtt _ _ => 0
  | .list items => itemsDepth items
  | .map entries => entriesDepth entries
  | .sub _ bindings => entriesDepth bindings
  | .select index list => max index.depth list.depth + 1
  | .join _ inner | .split _ inner | .importValue inner | .base64 inner | .zones inner =>
    inner.depth + 1

/-- The number of levels that the items of a list take. -/
def itemsDepth : List Value → Nat
  | [] => 0
  | item :: rest => max (item.depth + 1) (itemsDepth rest)

/-- The number of levels that the values of entries take. -/
def entriesDepth : List (String × Value) → Nat
  | [] => 0
  | (_, value) :: rest => max (value.depth + 1) (entriesDepth rest)

end

/-- The names that make a map with a single key the application of a function. -/
def functionNames : List String :=
  ["Ref", "Fn::GetAtt", "Fn::Join", "Fn::Sub", "Fn::Select", "Fn::Split", "Fn::ImportValue",
    "Fn::Base64", "Fn::GetAZs"]

mutual

/-- A value whose parts are not taken for something else: numbers are finite and spelled by their
text, a map with a single key is not named like a function, a reference not like a pseudo parameter,
and a substitution has the pieces that its text is cut into. -/
def Value.Normal : Value → Prop
  | .null | .bool _ | .string _ | .pseudo _ | .getAtt _ _ => True
  | .number text => (spell text).isFinite = true ∧ (spell text).text = text
  | .list items => NormalItems items
  | .map entries => (∀ key value, entries = [(key, value)] → key ∉ functionNames) ∧
    NormalEntries entries
  | .ref target => ∀ p : Pseudo, p.name ≠ target
  | .sub pieces bindings => NormalPieces (bindings.map Prod.fst) pieces ∧ NormalEntries bindings
  | .select index list => index.Normal ∧ list.Normal
  | .join _ inner | .split _ inner | .importValue inner | .base64 inner | .zones inner =>
    inner.Normal

/-- All items of a list are normal. -/
def NormalItems : List Value → Prop
  | [] => True
  | item :: rest => item.Normal ∧ NormalItems rest

/-- All values of entries are normal. -/
def NormalEntries : List (String × Value) → Prop
  | [] => True
  | (_, value) :: rest => value.Normal ∧ NormalEntries rest

end

end Writing

/-! ## Reading with little room -/

/-- A value of the given depth, if there is room for it. -/
def within {α : Type} (room depth : Nat) (value : α) : Except Malformed α :=
  if depth < room then .ok value else .error .tooDeep

section Within

variable {α β γ : Type} {room : Nat}

theorem within_pure (depth : Nat) (a : α) (f : α → β) :
    (within room depth a >>= fun a => pure (f a)) = within room depth (f a) := by
  unfold within
  split_ifs <;> rfl

/-- Two values need the room of the deeper one. -/
theorem within_pair (depth other : Nat) (a : α) (b : β) (f : α → β → γ) :
    (within room depth a >>= fun a => within room other b >>= fun b => pure (f a b)) =
      within room (max depth other) (f a b) := by
  simp only [within_pure]
  unfold within
  by_cases hdepth : depth < room
  · have hiff : max depth other < room ↔ other < room := by omega
    simp only [if_pos hdepth, hiff]
    rfl
  · have hmax : ¬ max depth other < room := by omega
    simp only [if_neg hdepth, if_neg hmax]
    rfl

theorem within_succ (depth : Nat) (a : α) :
    within (room + 1) (depth + 1) a = within room depth a := by
  simp [within]

end Within

/-! ## Reading back -/

theorem Function.ofName?_eq_none {name : String} (h : name ∉ functionNames) :
    Function.ofName? name = none := by
  refine List.find?_eq_none.2 fun f hf hname => h ?_
  rw [show functionNames = Function.all.map Function.name from rfl]
  exact List.mem_map.2 ⟨f, hf, by simpa using hname⟩

theorem decodeWithin_longCall {f : Function} {name : String} (h : Function.ofName? name = some f)
    (room : Nat) (argument : Node) :
    decodeWithin (room + 1) (longCall name argument) = f.apply (decodeWithin room) argument := by
  simp [decodeWithin, longCall, application?, h]

/-- A map that is no application is read entry by entry. -/
theorem application?_encodeEntries (spell : String → Number) {entries : List (String × Value)}
    (h : ∀ key value, entries = [(key, value)] → key ∉ functionNames) :
    application? (encodeEntries spell entries) = none := by
  match entries with
  | [] => rfl
  | [(key, value)] =>
    simp [encodeEntries, application?, Function.ofName?_eq_none (h key value rfl)]
  | _ :: _ :: _ => rfl

theorem apply_subArgument {read : Node → Except Malformed Value} (text : String)
    (bindings : List (Node × Node)) :
    Function.sub.apply read (subArgument text bindings) =
      decodeEntries read bindings >>= fun bound =>
        pure (.sub (cut text (bound.map Prod.fst)) bound) := by
  cases bindings with
  | nil => rfl
  | cons binding rest => rfl

/-- A function that reads one value, one level deeper. -/
theorem decodeWithin_wrap {f : Function} {name : String} (hname : Function.ofName? name = some f)
    {argument inner : Node} {wrap : Value → Value}
    (happly : ∀ read, f.apply read argument = read inner >>= fun v => pure (wrap v))
    {room depth : Nat} {v : Value} (hinner : decodeWithin room inner = within room depth v) :
    decodeWithin (room + 1) (longCall name argument) = within (room + 1) (depth + 1) (wrap v) := by
  rw [decodeWithin_longCall hname, happly, hinner, within_pure, within_succ]

section ReadingBack

variable {spell : String → Number}

mutual

/-- **Reading back, with any room.** The node of a normal value is read as the value, or it nests
too deep. -/
theorem decodeWithin_encode : ∀ (v : Value), v.Normal spell → ∀ room,
    decodeWithin room (v.encode spell) = within room v.depth v
  | _, _, 0 => rfl
  | .null, _, _ + 1 | .bool _, _, _ + 1 | .string _, _, _ + 1 => rfl
  | .number text, h, room + 1 => by
    obtain ⟨hfinite, htext⟩ := h
    simp [Value.encode, decodeWithin, hfinite, htext, Value.depth, within]
  | .list items, h, room + 1 => by
    rw [Value.encode, decodeWithin, mapM_encode items h room, within_pure, Value.depth]
  | .map entries, h, room + 1 => by
    obtain ⟨hsingle, hentries⟩ := h
    rw [Value.encode, decodeWithin, application?_encodeEntries spell hsingle]
    change (decodeEntries (decodeWithin room) (encodeEntries spell entries) >>= fun entries =>
      pure _) = _
    rw [decodeEntries_encode entries hentries room, within_pure, Value.depth]
  | .ref target, h, room + 1 => by
    rw [Value.encode, decodeWithin_longCall rfl]
    change (match Pseudo.ofName? target with | some p => pure _ | none => pure _) = _
    rw [Pseudo.ofName?_eq_none h]
    rfl
  | .pseudo parameter, _, room + 1 => by
    rw [Value.encode, decodeWithin_longCall rfl]
    change (match Pseudo.ofName? parameter.name with | some p => pure _ | none => pure _) = _
    rw [parameter.ofName?_name]
    rfl
  | .getAtt _ _, _, _ + 1 => rfl
  | .join delimiter parts, h, room + 1 =>
    decodeWithin_wrap rfl (fun _ => rfl) (decodeWithin_encode parts h room)
  | .sub pieces bindings, h, room + 1 => by
    obtain ⟨hpieces, hbindings⟩ := h
    rw [Value.encode, decodeWithin_longCall rfl, apply_subArgument, Value.depth,
      decodeEntries_encode bindings hbindings room, within_pure, cut_printPieces hpieces]
  | .select index list, h, room + 1 => by
    obtain ⟨hindex, hlist⟩ := h
    rw [Value.encode, decodeWithin_longCall rfl, Value.depth, within_succ]
    change (decodeWithin room (index.encode spell) >>= fun index =>
      decodeWithin room (list.encode spell) >>= fun list => pure _) = _
    rw [decodeWithin_encode index hindex room, decodeWithin_encode list hlist room, within_pair]
  | .split delimiter source, h, room + 1 =>
    decodeWithin_wrap rfl (fun _ => rfl) (decodeWithin_encode source h room)
  | .importValue name, h, room + 1 =>
    decodeWithin_wrap rfl (fun _ => rfl) (decodeWithin_encode name h room)
  | .base64 source, h, room + 1 =>
    decodeWithin_wrap rfl (fun _ => rfl) (decodeWithin_encode source h room)
  | .zones region, h, room + 1 =>
    decodeWithin_wrap rfl (fun _ => rfl) (decodeWithin_encode region h room)

/-- The items of a list are read back. -/
theorem mapM_encode : ∀ (items : List Value), NormalItems spell items → ∀ room,
    (encodeItems spell items).mapM (decodeWithin room) =
      within (room + 1) (itemsDepth items) items
  | [], _, _ => rfl
  | item :: rest, h, room => by
    obtain ⟨hitem, hrest⟩ := h
    rw [encodeItems, List.mapM_cons, decodeWithin_encode item hitem room,
      mapM_encode rest hrest room, itemsDepth, ← within_succ, within_pair]

/-- The entries of a map are read back. -/
theorem decodeEntries_encode : ∀ (entries : List (String × Value)), NormalEntries spell entries →
    ∀ room, decodeEntries (decodeWithin room) (encodeEntries spell entries) =
      within (room + 1) (entriesDepth entries) entries
  | [], _, _ => rfl
  | (key, value) :: rest, h, room => by
    obtain ⟨hvalue, hrest⟩ := h
    have hread := decodeWithin_encode value hvalue room
    have hothers := decodeEntries_encode rest hrest room
    rw [decodeEntries] at hothers ⊢
    rw [encodeEntries, List.mapM_cons, hothers]
    change ((decodeWithin room (value.encode spell) >>= fun value => pure (key, value)) >>= _) = _
    rw [hread, within_pure, ← within_succ, entriesDepth, within_pair]

end

/-- **Reading undoes writing.** A normal value of at most 64 levels is read back from its node; a
deeper one is refused. -/
theorem decode_encode {v : Value} (h : v.Normal spell) :
    (v.depth ≤ 64 → decode (v.encode spell) = .ok v) ∧
      (64 < v.depth → decode (v.encode spell) = .error .tooDeep) := by
  have hread : decode (v.encode spell) = within (maxDepth + 1) v.depth v :=
    decodeWithin_encode v h _
  constructor
  · intro hdepth
    rw [hread, within, if_pos (show v.depth < maxDepth + 1 by unfold maxDepth; omega)]
  · intro hdepth
    rw [hread, within, if_neg (show ¬ v.depth < maxDepth + 1 by unfold maxDepth; omega)]

end ReadingBack

/-- A launch script with every kind of placeholder, a literal one, and an open end. -/
def launchScript : Value :=
  .base64 (.sub [.text "echo ${HOME} $", .pseudo .region, .getAtt "Web" "Arn", .text " ",
    .bound "Port", .name "Stage", .text "$\x7b"] [("Port", .number "80")])

/-- Properties with every kind of value. -/
def launchProperties : Value :=
  .map [("UserData", launchScript), ("Fn::Sub", .list [.null, .bool true, .string "${A}"]),
    ("Role", .getAtt "Role" "Arn"), ("Zone", .select (.number "80") (.zones (.pseudo .region))),
    ("Names", .join "," (.split "." (.importValue (.map [("Fn::Cidr", .ref "Net")]))))]

theorem launchScript_normal : launchScript.Normal fun _ => .integer 80 :=
  ⟨⟨by decide, by decide, by decide, by decide, by decide⟩, ⟨by decide, by decide⟩, trivial⟩

theorem launchProperties_normal : launchProperties.Normal fun _ => .integer 80 := by
  have hnet : ∀ p : Pseudo, p.name ≠ "Net" := by decide
  refine ⟨by simp, launchScript_normal, ⟨trivial, trivial, trivial, trivial⟩,
    trivial, ⟨⟨by decide, by decide⟩, trivial⟩, ⟨?_, hnet, trivial⟩, trivial⟩
  -- the single key is not the name of one of the nine functions
  intro key value hsingle
  cases hsingle
  decide

theorem decode_encode_launchProperties :
    launchProperties.depth = 5 ∧
      decode (launchProperties.encode fun _ => .integer 80) = .ok launchProperties :=
  ⟨by decide, (decode_encode launchProperties_normal).1 (by decide)⟩

end CdkStacks.Template
