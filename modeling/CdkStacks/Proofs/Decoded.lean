import CdkStacks.Proofs.LongForm
import CdkStacks.Proofs.Placeholders
import Mathlib.Data.List.Chain

/-!
# Values that are read

What the values are like that reading a node gives.

* `CutPieces`: the pieces that a substitution text is cut into have no empty text and no two texts
  in a row;
* `Value.Decoded`: a value whose numbers are spelled as finite numbers are, and whose substitution
  texts were cut, at any depth;
* `decoded_of_decodeWithin`: values that are read are of this kind.
-/

namespace CdkStacks.Template

open CdkStacks.Document (Node Number)

/-! ## Pieces of a substitution text -/

/-- Pieces without an empty text and without two texts in a row. -/
structure CutPieces (pieces : List Piece) : Prop where
  nonempty : Piece.text "" ∉ pieces
  apart : pieces.IsChain fun first second => ¬ (first.isText ∧ second.isText)

theorem placeholder_isHole (bound : List String) (name : String) :
    ¬ (placeholder bound name).isText := by
  unfold placeholder
  split
  · simp [Piece.isText]
  · split
    · simp [Piece.isText]
    · split <;> simp [Piece.isText]

theorem cutPieces_textPiece (cs : List Char) : CutPieces (textPiece cs) := by
  unfold textPiece
  split_ifs with hempty
  · exact ⟨by simp, .nil⟩
  · refine ⟨?_, .singleton _⟩
    intro h
    have htext : "" = String.ofList cs := by simpa using h
    have hcs : cs = [] := by simpa using (congrArg String.toList htext).symm
    exact hempty (by simp [hcs])

/-- A text and a placeholder in front of pieces. -/
theorem CutPieces.extend {hole : Piece} {pieces : List Piece} (cs : List Char)
    (hhole : ¬ hole.isText) (h : CutPieces pieces) :
    CutPieces (textPiece cs ++ hole :: pieces) := by
  obtain ⟨hnonempty, -⟩ := cutPieces_textPiece cs
  have hapart : (hole :: pieces).IsChain fun first second => ¬ (first.isText ∧ second.isText) :=
    List.isChain_cons.2 ⟨fun _ _ hboth => hhole hboth.1, h.apart⟩
  constructor
  · intro hmem
    rcases List.mem_append.1 hmem with hmem | hmem
    · exact hnonempty hmem
    · rcases List.mem_cons.1 hmem with rfl | hmem
      · exact hhole rfl
      · exact h.nonempty hmem
  · unfold textPiece
    split_ifs
    · exact hapart
    · exact List.isChain_cons_cons.2 ⟨fun hboth => hhole hboth.2, hapart⟩

theorem cutPieces_cutFrom (bound : List String) (text cs : List Char) :
    CutPieces (cutFrom bound text cs) := by
  induction text, cs using cutFrom.induct with
  | case1 text cs hnext =>
    rw [cutFrom, hnext]
    exact cutPieces_textPiece _
  | case2 text cs before literal after hlength hnext ih =>
    rw [cutFrom, hnext]
    exact ih
  | case3 text cs before inner after hlength hinner hnext ih =>
    rw [cutFrom, hnext]
    split
    · next hnone => cases hnone
    · next hsome =>
      cases hsome
      exact absurd rfl (hinner _)
    · next hsome =>
      cases hsome
      exact ih.extend _ (placeholder_isHole _ _)

/-- **A substitution text is cut into pieces that can be told apart.** -/
theorem cutPieces_cut (text : String) (bound : List String) : CutPieces (cut text bound) :=
  cutPieces_cutFrom bound [] text.toList

/-- Behind a text stands a placeholder or nothing. -/
theorem CutPieces.next_isHole {before after : List Piece} {text : String}
    (h : CutPieces (before ++ .text text :: after)) : ∀ next ∈ after.head?, ¬ next.isText := by
  intro next hnext hboth
  obtain ⟨hapart, -⟩ := List.isChain_cons.1 h.apart.right_of_append
  exact hapart next hnext ⟨rfl, hboth⟩

/-! ## Values -/

/-- Values as they are read. -/
inductive Value.Decoded : Value → Prop
  | null : Decoded .null
  | bool (value : Bool) : Decoded (.bool value)
  | number {number : Number} : number.isFinite → Decoded (.number number.text)
  | string (text : String) : Decoded (.string text)
  | list {items : List Value} : (∀ item ∈ items, item.Decoded) → Decoded (.list items)
  | map {entries : List (String × Value)} : (∀ entry ∈ entries, entry.2.Decoded) →
      Decoded (.map entries)
  | ref (target : String) : Decoded (.ref target)
  | pseudo (parameter : Pseudo) : Decoded (.pseudo parameter)
  | getAtt (target member : String) : Decoded (.getAtt target member)
  | join (delimiter : String) {parts : Value} : parts.Decoded → Decoded (.join delimiter parts)
  | sub (text : String) {bindings : List (String × Value)} :
      (∀ entry ∈ bindings, entry.2.Decoded) →
      Decoded (.sub (cut text (bindings.map Prod.fst)) bindings)
  | select {index list : Value} : index.Decoded → list.Decoded → Decoded (.select index list)
  | split (delimiter : String) {source : Value} : source.Decoded →
      Decoded (.split delimiter source)
  | importValue {name : Value} : name.Decoded → Decoded (.importValue name)
  | base64 {source : Value} : source.Decoded → Decoded (.base64 source)
  | zones {region : Value} : region.Decoded → Decoded (.zones region)

section Reading

variable {read : Node → Except Malformed Value}
  (hread : ∀ node value, read node = .ok value → value.Decoded)

include hread

theorem decoded_of_decodeEntries {entries : List (Node × Node)} {results : List (String × Value)}
    (h : decodeEntries read entries = .ok results) : ∀ result ∈ results, result.2.Decoded := by
  intro result hresult
  obtain ⟨node, hnode⟩ := exists_of_mem_decodeEntries h result hresult
  exact hread node result.2 hnode

/-- A function is read as such a value when the values inside it are. -/
theorem decoded_of_apply {f : Function} {argument : Node} {result : Value}
    (h : f.apply read argument = .ok result) : result.Decoded := by
  cases f with
  | ref =>
    obtain ⟨target, -, h⟩ := exists_of_bind_eq_ok h
    split at h
    · cases h
      exact .pseudo _
    · cases h
      exact .ref _
  | getAtt =>
    unfold Function.apply at h
    dsimp only at h
    split at h
    · split at h
      · cases h
        exact .getAtt _ _
      · cases h
    · obtain ⟨target, -, h⟩ := exists_of_bind_eq_ok h
      obtain ⟨member, -, h⟩ := exists_of_bind_eq_ok h
      cases h
      exact .getAtt _ _
    · cases h
  | join =>
    obtain ⟨⟨first, second⟩, -, h⟩ := exists_of_bind_eq_ok h
    obtain ⟨delimiter, -, h⟩ := exists_of_bind_eq_ok h
    obtain ⟨inner, hinner, h⟩ := exists_of_bind_eq_ok h
    cases h
    exact .join _ (hread _ inner hinner)
  | split =>
    obtain ⟨⟨first, second⟩, -, h⟩ := exists_of_bind_eq_ok h
    obtain ⟨delimiter, -, h⟩ := exists_of_bind_eq_ok h
    obtain ⟨inner, hinner, h⟩ := exists_of_bind_eq_ok h
    cases h
    exact .split _ (hread _ inner hinner)
  | sub =>
    unfold Function.apply at h
    dsimp only at h
    split at h
    · cases h
      exact @Value.Decoded.sub _ [] (by simp)
    · obtain ⟨text, -, h⟩ := exists_of_bind_eq_ok h
      split at h
      · obtain ⟨bound, hbound, h⟩ := exists_of_bind_eq_ok h
        cases h
        exact .sub _ (decoded_of_decodeEntries hread hbound)
      · cases h
    · cases h
  | select =>
    obtain ⟨⟨first, second⟩, -, h⟩ := exists_of_bind_eq_ok h
    obtain ⟨index, hindex, h⟩ := exists_of_bind_eq_ok h
    obtain ⟨list, hlist, h⟩ := exists_of_bind_eq_ok h
    cases h
    exact .select (hread _ index hindex) (hread _ list hlist)
  | importValue =>
    obtain ⟨inner, hinner, h⟩ := exists_of_bind_eq_ok h
    cases h
    exact .importValue (hread _ inner hinner)
  | base64 =>
    obtain ⟨inner, hinner, h⟩ := exists_of_bind_eq_ok h
    cases h
    exact .base64 (hread _ inner hinner)
  | getAZs =>
    obtain ⟨inner, hinner, h⟩ := exists_of_bind_eq_ok h
    cases h
    exact .zones (hread _ inner hinner)

end Reading

/-- **Values that are read.** -/
theorem decoded_of_decodeWithin : ∀ {room : Nat} {node : Node} {value : Value},
    decodeWithin room node = .ok value → value.Decoded
  | 0, _, _, h => by cases h
  | room + 1, node, value, h => by
    have hread : ∀ node value, decodeWithin room node = .ok value → value.Decoded :=
      fun _ _ => decoded_of_decodeWithin
    cases hc : call? node with
    | some call =>
      obtain ⟨f, argument⟩ := call
      rw [decodeWithin_call hc] at h
      exact decoded_of_apply hread h
    | none =>
      cases node with
      | null =>
        cases h
        exact .null
      | bool value =>
        cases h
        exact .bool value
      | string text =>
        cases h
        exact .string text
      | number number =>
        rw [decodeWithin] at h
        split_ifs at h with hfinite
        cases h
        exact .number hfinite
      | sequence items =>
        rw [decodeWithin] at h
        obtain ⟨values, hvalues, h⟩ := exists_of_bind_eq_ok h
        cases h
        refine .list fun value hvalue => ?_
        obtain ⟨item, -, hitem⟩ := exists_of_mem_mapM hvalues value hvalue
        exact hread item value hitem
      | mapping entries =>
        rw [decodeWithin_mapping hc] at h
        obtain ⟨values, hvalues, h⟩ := exists_of_bind_eq_ok h
        cases h
        exact .map (decoded_of_decodeEntries hread hvalues)
      | tagged tag content =>
        rw [decodeWithin_tagged hc] at h
        obtain ⟨inner, hinner, h⟩ := exists_of_bind_eq_ok h
        cases h
        exact .map (by simpa using hread _ inner hinner)

end CdkStacks.Template
