import CdkStacks.Proofs.Interpolations
import CdkStacks.Proofs.Resolved
import CdkStacks.Proofs.Spelling

/-!
# Meaning of substitutions

A substitution is read from the generated code as the pieces that its text was cut into.

* `text_isPlain`: the text of a number has no special characters;
* `resolve_code`: the expression for a value that was read is code as a whole;
* `View.segment` is what a piece is to be read as;
* `substitution_reads_segments`: the expression for a substitution is read as the segments of its
  pieces. All texts are kept when there is no interpolation, and otherwise those without carriage
  returns.
-/

namespace CdkStacks.TypeScript

/-! ## Expressions are code -/

theorem Code.concat {first second : String} (h₁ : Code first.toList) (h₂ : Code second.toList) :
    Code (first ++ second).toList := by
  rw [String.toList_append]
  exact h₁.append h₂

theorem Code.identifier {name : String} (h : isIdentifier name) : Code name.toList :=
  .plain (List.all_eq_true.2 fun c hc =>
    isPlain_of_continuesIdentifier (continues_of_isIdentifier h c hc))

theorem Code.alphanumeric {name : String} (h : ∀ c ∈ name.toList, c.isAlphanum) :
    Code name.toList :=
  .plain (List.all_eq_true.2 fun c hc =>
    isPlain_of_continuesIdentifier (continuesIdentifier_of_isAlphanum (h c hc)))

theorem Code.commas : ∀ {texts : List String}, (∀ text ∈ texts, Code text.toList) →
    Code (commas texts).toList
  | [], _ => .nil
  | [text], h => by
    rw [TypeScript.commas, String.intercalate_singleton]
    exact h text List.mem_cons_self
  | text :: next :: rest, h => by
    rw [TypeScript.commas, String.intercalate_cons_cons]
    refine .concat (.concat (h text List.mem_cons_self) (.plain (by decide))) ?_
    exact Code.commas fun other hother => h other (List.mem_cons_of_mem text hother)

theorem objectKey_code (key : String) : Code (objectKey key).toList := by
  unfold objectKey
  split_ifs with hkey
  · exact .identifier hkey
  · exact .quoted key

/-- An expression that is code as a whole. -/
def Expr.IsCode (e : Expr) : Prop :=
  Code e.inline.toList

namespace Expr.IsCode

theorem raw {source : String} (h : source.toList.all isPlain) : (Expr.raw source).IsCode :=
  Code.plain h

theorem string (text : String) : (Expr.string text).IsCode :=
  Code.quoted text

theorem array {items : List Expr} (h : ∀ item ∈ items, item.IsCode) :
    (Expr.array items).IsCode := by
  change Code ("[" ++ commas (inlineItems items) ++ "]").toList
  refine .concat (.concat (.plain (by decide)) (.commas ?_)) (.plain (by decide))
  rw [inlineItems_eq]
  exact List.forall_mem_map.2 h

theorem object {entries : List (String × Expr)} (h : ∀ entry ∈ entries, entry.2.IsCode) :
    (Expr.object entries).IsCode := by
  cases entries with
  | nil => exact Code.nil.braces
  | cons entry rest =>
    have hinside : Code (" " ++ commas (inlineEntries (entry :: rest)) ++ " ").toList := by
      refine .concat (.concat (.plain (by decide)) (.commas ?_)) (.plain (by decide))
      rw [inlineEntries_eq]
      exact List.forall_mem_map.2 fun other hother =>
        .concat (.concat (objectKey_code other.1) (.plain (by decide))) (h other hother)
    have hbraces := hinside.braces
    have hinline : (Expr.object (entry :: rest)).inline =
      "\x7b " ++ commas (inlineEntries (entry :: rest)) ++ " \x7d" := rfl
    rw [IsCode, hinline]
    simpa using hbraces

theorem parameter (name : String) (accessor : Accessor) :
    (Expr.parameter name accessor).IsCode := by
  have hinline : (Expr.parameter name accessor).inline =
    (if isIdentifier name then "parameters." ++ name
      else "parameters[" ++ Text.quoted name ++ "]") ++ "." ++ accessor.member := rfl
  rw [IsCode, hinline]
  refine .concat (.concat ?_ (.plain (by decide))) ?_
  · split_ifs with hname
    · exact .concat (.plain (by decide)) (.identifier hname)
    · exact .concat (.concat (.plain (by decide)) (.quoted name)) (.plain (by decide))
  · cases accessor <;> exact .plain (by decide)

theorem call {function : String} {arguments : List Expr}
    (hfunction : function.toList.all isPlain) (h : ∀ argument ∈ arguments, argument.IsCode) :
    (Expr.call function arguments).IsCode := by
  change Code ("Fn." ++ function ++ "(" ++ commas (inlineItems arguments) ++ ")").toList
  refine .concat (.concat (.concat (.concat (.plain (by decide)) (.plain hfunction))
    (.plain (by decide))) (.commas ?_)) (.plain (by decide))
  rw [inlineItems_eq]
  exact List.forall_mem_map.2 h

theorem asText {value : Expr} (h : value.IsCode) : (Expr.asText value).IsCode :=
  Code.concat h (.plain (by decide))

theorem read {construct member : String} (hconstruct : isIdentifier construct)
    (hmember : Code member.toList) : (Expr.read construct member).IsCode :=
  .concat (.concat (.identifier hconstruct) (.plain (by decide))) hmember

theorem deferred {construct member : String} (hconstruct : isIdentifier construct)
    (hmember : Code member.toList) : (Expr.deferred construct member).IsCode := by
  have hinside : Code (" produce: () => " ++ construct ++ "." ++ member ++ " ").toList :=
    .concat (.concat (.concat (.concat (.plain (by decide)) (.identifier hconstruct))
      (.plain (by decide))) hmember) (.plain (by decide))
  have hwhole : Code ("Lazy.string(".toList ++
      ('{' :: ((" produce: () => " ++ construct ++ "." ++ member ++ " ").toList ++ ['}']) ++
        ")".toList)) :=
    (Code.plain (by decide)).append (hinside.braces.append (.plain (by decide)))
  have hinline : (Expr.deferred construct member).inline =
    "Lazy.string(\x7b produce: () => " ++ construct ++ "." ++ member ++ " \x7d)" := rfl
  rw [IsCode, hinline]
  simpa using hwhole

end Expr.IsCode

end CdkStacks.TypeScript

namespace CdkStacks.Document

open CdkStacks.Decimal CdkStacks.TypeScript

/-! ## Numbers are plain -/

theorem toDigits_isPlain (n : Nat) : ∀ c ∈ Nat.toDigits 10 n, isPlain c := by
  intro c hc
  have hdigit := Nat.isDigit_of_mem_toDigits (by decide) (by decide) hc
  exact isPlain_of_continuesIdentifier
    (continuesIdentifier_of_isAlphanum (by simp [Char.isAlphanum, hdigit]))

theorem magnitude_isPlain (x : Magnitude) : ∀ c ∈ x.text.toList, isPlain c := by
  unfold Magnitude.text
  split_ifs with hzero
  · exact List.all_eq_true.1 (by decide)
  · extract_lets d all place digits whole fraction head tail sign
    have hdigits : ∀ c ∈ digits, isPlain c := by
      intro c hc
      have hall := (List.dropWhile_sublist _).subset (List.mem_reverse.1 hc)
      exact toDigits_isPlain _ c (List.mem_reverse.1 hall)
    have hzeros : ∀ (n : Nat), ∀ c ∈ List.replicate n '0', isPlain c := by
      intro n c hc
      rw [List.eq_of_mem_replicate hc]
      decide
    have hfraction : ∀ c ∈ if fraction.isEmpty then ['0'] else fraction, isPlain c := by
      split_ifs
      · exact List.forall_mem_singleton.2 (by decide)
      · exact fun c hc => hdigits c (List.mem_of_mem_drop hc)
    have htail : ∀ c ∈ if tail.isEmpty then [] else '.' :: tail, isPlain c := by
      split_ifs
      · simp
      · exact List.forall_mem_cons.2 ⟨by decide, fun c hc => hdigits c (List.mem_of_mem_drop hc)⟩
    have hsign : ∀ c ∈ sign, isPlain c := by
      change ∀ c ∈ if place < 0 then ['-'] else [], isPlain c
      split_ifs <;> simp [isPlain, specialCharacters]
    have hhead : ∀ c ∈ head, isPlain c := fun c hc => hdigits c (List.mem_of_mem_take hc)
    generalize (if fraction.isEmpty then ['0'] else fraction) = behind at hfraction ⊢
    generalize (if tail.isEmpty then [] else '.' :: tail) = others at htail ⊢
    split_ifs
    · rw [String.toList_ofList]
      refine List.forall_mem_append.2
        ⟨fun c hc => ?_, List.forall_mem_cons.2 ⟨by decide, hfraction⟩⟩
      rcases List.mem_append.1 (List.mem_of_mem_take hc) with hc | hc
      · exact hdigits c hc
      · exact hzeros 16 c hc
    · rw [String.toList_ofList]
      exact List.forall_mem_cons.2 ⟨by decide, List.forall_mem_cons.2 ⟨by decide,
        List.forall_mem_append.2 ⟨hzeros _, hdigits⟩⟩⟩
    · rw [String.toList_ofList]
      simp only [List.forall_mem_append, List.forall_mem_cons]
      exact ⟨⟨⟨hhead, htail⟩, by decide, hsign⟩, toDigits_isPlain _⟩

/-- The text of a number has no special characters. -/
theorem text_isPlain (number : Number) : ∀ c ∈ number.text.toList, isPlain c := by
  cases number with
  | integer i =>
    rw [Number.text, integerText, String.toList_ofList]
    split_ifs
    · exact List.forall_mem_cons.2 ⟨by decide, toDigits_isPlain _⟩
    · exact toDigits_isPlain _
  | float x =>
    cases x with
    | finite negative x =>
      change ∀ c ∈ (if negative then "-" ++ x.text else x.text).toList, isPlain c
      split_ifs
      · rw [String.toList_append]
        exact List.forall_mem_append.2 ⟨List.all_eq_true.1 (by decide), magnitude_isPlain x⟩
      · exact magnitude_isPlain x
    | infinite negative => cases negative <;> exact List.all_eq_true.1 (by decide)
    | nan => exact List.all_eq_true.1 (by decide)

end CdkStacks.Document

namespace CdkStacks.Construct

open CdkStacks.Template CdkStacks.TypeScript
open CdkStacks.Document (Node)

/-! ## Resolved values are code -/

theorem pseudoExpr_isCode (parameter : Pseudo) : (pseudoExpr parameter).IsCode := by
  cases parameter <;> exact Code.plain (by decide)

theorem chunk_isText (view : View) (bindings : List (String × Noted Expr)) (piece : Piece) :
    (view.chunk bindings piece).value.isText = piece.isText := by
  cases piece with
  | bound name =>
    unfold View.chunk
    dsimp only
    split <;> rfl
  | text | name | getAtt | pseudo => rfl

theorem chunk_eq_text {view : View} {bindings : List (String × Noted Expr)} {piece : Piece}
    {text : String} : (view.chunk bindings piece).value = .text text ↔ piece = .text text := by
  constructor
  · intro h
    have hpiece : piece.isText := by rw [← chunk_isText view bindings, h]; rfl
    cases piece with
    | text other =>
      cases h
      rfl
    | bound | name | getAtt | pseudo => cases hpiece
  · rintro rfl
    rfl

theorem separate_of_holes {view : View} {pieces : List Piece}
    {bindings : List (String × Noted Expr)} (hpieces : CutPieces pieces)
    (hholes : ∀ value, .hole value ∈ pieces.map (fun piece => (view.chunk bindings piece).value) →
      value.IsCode) :
    Separate (pieces.map fun piece => (view.chunk bindings piece).value) where
  nonempty := by
    rintro text htext rfl
    obtain ⟨piece, hpiece, hchunk⟩ := List.mem_map.1 htext
    rw [chunk_eq_text] at hchunk
    exact hpieces.nonempty (hchunk ▸ hpiece)
  apart := by
    rw [List.isChain_map]
    refine hpieces.apart.imp fun first second hboth => ?_
    rwa [chunk_isText, chunk_isText]
  code := hholes

theorem functionNames_plain : ∀ function ∈ functionNames, function.toList.all isPlain := by
  decide

section Resolve

variable {template : Template} {view : View} (hview : view.scope = Scope.ofTemplate template)

include hview

theorem member_isCode {target name identifier member : String} {place : Nat}
    (hslot : view.scope.resource? target = some ⟨name, some identifier, place⟩)
    (hmember : Code member.toList) : (view.member place identifier member).IsCode := by
  rw [hview] at hslot
  have hlocal := resource?_isIdentifier hslot rfl
  unfold View.member
  split_ifs
  · exact .read hlocal hmember
  · exact .deferred hlocal hmember

theorem reference_isCode (target : String) : (view.reference target).IsCode := by
  unfold View.reference
  split
  · exact .parameter _ _
  · split
    · rename_i hslot
      exact member_isCode hview hslot (.plain (by decide))
    · exact .call (by decide) (by simpa using .string target)

theorem getAtt_isCode (target name : String) : (view.getAtt target name).IsCode := by
  unfold View.getAtt
  split
  · rename_i hslot
    refine member_isCode hview hslot (.concat (.plain (by decide)) (.alphanumeric ?_))
    exact Text.upperCamel_isAlphanum name
  · exact .asText (.call (by decide) (by simpa using ⟨.string target, .string name⟩))

theorem closed_isCode : view.Closed Expr.IsCode where
  pseudo := pseudoExpr_isCode
  reference := reference_isCode hview
  getAtt := getAtt_isCode hview
  word := by
    intro source hsource
    simp only [List.mem_cons, List.not_mem_nil, or_false] at hsource
    rcases hsource with rfl | rfl | rfl <;> exact .raw (by decide)
  number number _ := .raw (List.all_eq_true.2 (Document.text_isPlain number))
  string := .string
  array _ := .array
  object _ := .object
  call function hfunction _ := .call (functionNames_plain function hfunction)
  template _ _ hpieces hholes := Code.template (separate_of_holes hpieces hholes)

/-- The chunks of a substitution text can be told apart. -/
theorem separate_chunks {pieces : List Piece} {bindings : List (String × Noted Expr)}
    (hpieces : CutPieces pieces) (hbindings : ∀ entry ∈ bindings, entry.2.value.IsCode) :
    Separate (pieces.map fun piece => (view.chunk bindings piece).value) :=
  separate_of_holes hpieces fun _ => (closed_isCode hview).hole hbindings

/-- **The expression for a value that was read is code as a whole.** -/
theorem resolve_code {value : Value} (h : value.Decoded) (keys : KeyStyle) :
    (view.resolve keys value).value.IsCode :=
  (closed_isCode hview).resolve h keys

end Resolve

/-! ## Reading substitutions -/

/-- What a piece is to be read as: its text, or the source of its interpolation. -/
def View.segment (view : View) (bindings : List (String × Noted Expr)) (piece : Piece) : Segment :=
  match (view.chunk bindings piece).value with
  | .text text => .text text.toList
  | .hole value => .hole value.inline.toList

theorem segment_chunk (view : View) (bindings : List (String × Noted Expr)) (piece : Piece) :
    (view.chunk bindings piece).value.segment = (view.segment bindings piece).newlines := by
  unfold View.segment
  cases (view.chunk bindings piece).value <;> rfl

/-- Pieces that are all texts are one text at most. -/
theorem eq_of_allText {pieces : List Piece} (hpieces : CutPieces pieces)
    (h : pieces.all Piece.isText) : pieces = [] ∨ ∃ text, text ≠ "" ∧ pieces = [.text text] := by
  match pieces, h with
  | [], _ => exact Or.inl rfl
  | [piece], h =>
    cases piece with
    | text text =>
      refine Or.inr ⟨text, ?_, rfl⟩
      rintro rfl
      exact hpieces.nonempty List.mem_cons_self
    | bound | name | getAtt | pseudo => simp [Piece.isText] at h
  | first :: second :: rest, h =>
    have hboth : first.isText ∧ second.isText := by simp_all
    exact absurd hboth (List.isChain_cons_cons.1 hpieces.apart).1

/-- The text of a segment survives its line ends when it has no carriage return. -/
theorem map_newlines_segment_iff {view : View} {bindings : List (String × Noted Expr)}
    {pieces : List Piece} : (pieces.map (view.segment bindings)).map Segment.newlines =
        pieces.map (view.segment bindings) ↔
      ∀ text, Piece.text text ∈ pieces → '\r' ∉ text.toList := by
  rw [List.map_map, List.map_inj_left]
  constructor
  · intro h text htext
    have hsegment : Segment.text (newlines text.toList) = .text text.toList := h _ htext
    exact newlines_eq_self_iff.1 (Segment.text.inj hsegment)
  · intro h piece hpiece
    cases hchunk : (view.chunk bindings piece).value with
    | text text =>
      rw [chunk_eq_text] at hchunk
      subst hchunk
      exact congrArg Segment.text (newlines_eq_self_iff.2 (h text hpiece))
    | hole value => simp only [Function.comp_apply, View.segment, hchunk, Segment.newlines]

/-- **Substitutions keep their meaning, up to carriage returns.** The expression for a substitution
that was read is read as the segments of its pieces, in order. The texts are those of the pieces in
a string literal; in a template literal their line ends are line feeds, so that they are those of
the pieces exactly when none has a carriage return. -/
theorem substitution_reads_segments {room : Nat} {node : Node} {pieces : List Piece}
    {bindings : List (String × Value)} (h : decodeWithin room node = .ok (.sub pieces bindings))
    (template : Template) (owner : String) (place : Nat) (libraries : Libraries) (ledger : Ledger)
    (keys : KeyStyle) :
    let view : View := ⟨Scope.ofTemplate template, owner, place⟩
    let segments := pieces.map (view.segment (view.resolveEntries .property bindings))
    let written := ((Resolver.mk view libraries).resolve keys (.sub pieces bindings)).run ledger
    let reading := literal? written.1.inline.toList
    reading = some (if pieces.all Piece.isText then segments else segments.map Segment.newlines) ∧
      (reading = some segments ↔ pieces.all Piece.isText ∨
        ∀ text, Piece.text text ∈ pieces → '\r' ∉ text.toList) := by
  intro view segments written reading
  obtain ⟨hpieces, hbindings⟩ : CutPieces pieces ∧ ∀ entry ∈ bindings, entry.2.Decoded := by
    cases decoded_of_decodeWithin h with
    | sub text hbindings => exact ⟨cutPieces_cut _ _, hbindings⟩
  have hreading : reading =
      some (if pieces.all Piece.isText then segments else segments.map Segment.newlines) := by
    unfold reading written
    rw [Resolver.resolve_run, View.resolve]
    split_ifs with htext
    · rw [substitution_value_text htext]
      refine (literal?_quoted _).trans (congrArg some ?_)
      rcases eq_of_allText hpieces htext with rfl | ⟨text, hne, rfl⟩
      · rfl
      · have hlist : text.toList ≠ [] := by rwa [Ne, String.toList_eq_nil_iff]
        have hjoin : String.join ([Piece.text text].filterMap pieceText?) = text := by
          simp [pieceText?, String.join]
        rw [hjoin, textSegment, if_neg (by simpa using hlist)]
        rfl
    · have hcode : ∀ entry ∈ view.resolveEntries .property bindings, entry.2.value.IsCode := by
        rw [View.resolveEntries_eq]
        exact List.forall_mem_map.2 fun entry hentry => resolve_code rfl (hbindings entry hentry) _
      rw [substitution_value htext, literal?_template (separate_chunks rfl hpieces hcode),
        List.map_map]
      unfold segments
      rw [List.map_map]
      exact congrArg some (List.map_congr_left fun piece _ => segment_chunk view _ piece)
  refine ⟨hreading, ?_⟩
  rw [hreading, Option.some_inj]
  split_ifs with htext
  · simp [htext]
  · rw [map_newlines_segment_iff]
    simp [htext]

/-- A script with all that has to be escaped, and a variable that could end the literal. -/
def deployPieces : List Piece :=
  [.text "path\\ `${HOME}` $", .bound "Note", .text "\n", .pseudo .region]

theorem deployPieces_normal : NormalPieces ["Note"] deployPieces :=
  ⟨by decide, by decide, by decide, by decide, by decide⟩

theorem decode_deployPieces :
    decodeWithin 2 (.tagged "!Sub" (.sequence [.string (printPieces deployPieces),
        .mapping [(.string "Note", .string "\x7d`")]])) =
      .ok (.sub deployPieces [("Note", .string "\x7d`")]) := by
  have hcut := cut_printPieces deployPieces_normal
  nth_rewrite 2 [← hcut]
  rfl

theorem substitution_reads_segments_deploy :
    decodeWithin 2 (.tagged "!Sub" (.sequence [.string (printPieces deployPieces),
        .mapping [(.string "Note", .string "\x7d`")]])) =
      .ok (.sub deployPieces [("Note", .string "\x7d`")]) ∧
    literal? (((Resolver.mk ⟨Scope.ofTemplate (.ofParameters []), "Deploy", 0⟩ .standard).resolve
        .property (.sub deployPieces [("Note", .string "\x7d`")])).run
          ⟨.empty, []⟩).1.inline.toList =
      some [.text "path\\ `${HOME}` $".toList, .hole "\"\x7d`\"".toList,
        .text ['\n'], .hole "this.region".toList] := by
  have hreturn : ∀ text, Piece.text text ∈ deployPieces → '\r' ∉ text.toList := by
    intro text htext
    simp only [deployPieces, List.mem_cons, Piece.text.injEq, List.not_mem_nil, or_false,
      reduceCtorEq, false_or] at htext
    rcases htext with rfl | rfl <;> decide
  exact ⟨decode_deployPieces,
    (substitution_reads_segments decode_deployPieces (.ofParameters []) "Deploy" 0 .standard
      ⟨.empty, []⟩ .property).2.2 (Or.inr hreturn)⟩

/-- A text that ends with a carriage return, and a placeholder. -/
def returnPieces : List Piece :=
  [.text "a\r", .pseudo .region]

/-- **A carriage return is lost in a template literal:** it is read as a line feed. -/
theorem returnPieces_reads_feed :
    decodeWithin 1 (.tagged "!Sub" (.string "a\r${AWS::Region}")) =
      .ok (.sub returnPieces []) ∧
    literal? (((Resolver.mk ⟨Scope.ofTemplate (.ofParameters []), "Deploy", 0⟩ .standard).resolve
        .property (.sub returnPieces [])).run ⟨.empty, []⟩).1.inline.toList =
      some [.text ['a', '\n'], .hole "this.region".toList] := by
  have hnormal : NormalPieces [] returnPieces :=
    ⟨by decide, by decide, by decide, by decide, by decide⟩
  have hprint : printPieces returnPieces = "a\r${AWS::Region}" := by decide
  refine ⟨?_, by decide⟩
  rw [← cut_printPieces hnormal, hprint]
  rfl

end CdkStacks.Construct
