import CdkStacks.Template.Substitution
import Mathlib.Data.List.Infix

/-!
# Printing substitution texts

Cutting a substitution text into pieces undoes printing the pieces.

* `escape` marks the placeholders of a text as literal;
* `printPieces` writes pieces as one text;
* `Piece.Classified` says when the name of a placeholder stands for the piece;
* `NormalPieces` are pieces as a text can be cut into them;
* `cut_printPieces`: normal pieces are what their text is cut into.
-/

namespace CdkStacks.Template

/-! ## Printing -/

/-- A text with an exclamation mark behind every opening that has a closing brace. Until that brace
the text is `inside`, where an opening is nothing special. -/
def escape : (inside : Bool) → List Char → List Char
  | _, [] => []
  | false, '$' :: '{' :: rest =>
    if '}' ∈ rest then '$' :: '{' :: '!' :: escape true rest else '$' :: '{' :: rest
  | false, c :: rest => c :: escape false rest
  | true, c :: rest => c :: escape (c ≠ '}') rest

/-- Whether a piece is no placeholder. -/
def Piece.isText : Piece → Bool
  | .text _ => true
  | .bound _ | .name _ | .getAtt _ _ | .pseudo _ => false

/-- The text of a piece, which for a placeholder stands between its braces. -/
def Piece.inner : Piece → String
  | .text literal => literal
  | .bound key => key
  | .name target => target
  | .getAtt target member => target ++ "." ++ member
  | .pseudo parameter => parameter.name

/-- The way a piece is written. -/
def Piece.print (piece : Piece) : List Char :=
  if piece.isText then escape false piece.inner.toList
  else '$' :: '{' :: (piece.inner.toList ++ ['}'])

/-- The text of pieces. -/
def printPieces (pieces : List Piece) : String :=
  String.ofList (pieces.flatMap Piece.print)

/-! ## Normal pieces -/

/-- Every opening of a text has a closing brace behind it. -/
def Closed (cs : List Char) : Prop :=
  ∀ tail ∈ cs.tails, ['$', '{'] <+: tail → '}' ∈ tail

/-- The name of a placeholder has no blanks at its ends, no closing brace, and no exclamation mark
in front. -/
structure PlainName (name : String) : Prop where
  trimmed : Text.trim name = name
  unbraced : '}' ∉ name.toList
  unmarked : name.toList.head? ≠ some '!'

/-- The name of a placeholder stands for the piece: bound names come first, then pseudo parameters,
then attributes, whose resource ends at the first dot. -/
def Piece.Classified (bound : List String) : Piece → Prop
  | .text _ => True
  | .bound key => key ∈ bound
  | .pseudo parameter => parameter.name ∉ bound
  | .getAtt target member => target ++ "." ++ member ∉ bound ∧ '.' ∉ target.toList
  | .name target => target ∉ bound ∧ (∀ p : Pseudo, p.name ≠ target) ∧ '.' ∉ target.toList

/-- Pieces as a text is cut into them, when the names `bound` are bound. -/
structure NormalPieces (bound : List String) (pieces : List Piece) : Prop where
  nonempty : ∀ piece ∈ pieces, piece.isText → piece.inner ≠ ""
  apart : pieces.IsChain fun first second => ¬ (first.isText ∧ second.isText)
  closed : ∀ piece ∈ pieces.dropLast, piece.isText → Closed piece.inner.toList
  plain : ∀ piece ∈ pieces, ¬ piece.isText → PlainName piece.inner
  classified : ∀ piece ∈ pieces, piece.Classified bound

instance (cs : List Char) : Decidable (Closed cs) :=
  inferInstanceAs (Decidable (∀ tail ∈ cs.tails, ['$', '{'] <+: tail → '}' ∈ tail))

instance (name : String) : Decidable (PlainName name) :=
  decidable_of_iff (Text.trim name = name ∧ '}' ∉ name.toList ∧ name.toList.head? ≠ some '!')
    ⟨fun ⟨trimmed, unbraced, unmarked⟩ => ⟨trimmed, unbraced, unmarked⟩,
      fun h => ⟨h.trimmed, h.unbraced, h.unmarked⟩⟩

instance (target : String) : Decidable (∀ p : Pseudo, p.name ≠ target) :=
  decidable_of_iff (∀ p ∈ Pseudo.all, p.name ≠ target)
    ⟨fun h p => h p (by cases p <;> decide), fun h p _ => h p⟩

instance (bound : List String) : DecidablePred (Piece.Classified bound)
  | .text _ => .isTrue trivial
  | .bound key => inferInstanceAs (Decidable (key ∈ bound))
  | .pseudo parameter => inferInstanceAs (Decidable (parameter.name ∉ bound))
  | .getAtt target member =>
    inferInstanceAs (Decidable (target ++ "." ++ member ∉ bound ∧ '.' ∉ target.toList))
  | .name target => inferInstanceAs (Decidable
      (target ∉ bound ∧ (∀ p : Pseudo, p.name ≠ target) ∧ '.' ∉ target.toList))

theorem Closed.of_suffix {cs tail : List Char} (h : Closed cs) (hsuffix : tail <:+ cs) :
    Closed tail :=
  fun cs hcs => h cs ((List.mem_tails _ _).2 (((List.mem_tails _ _).1 hcs).trans hsuffix))

theorem Closed.brace_mem {rest : List Char} (h : Closed ('$' :: '{' :: rest)) : '}' ∈ rest := by
  have hmem := h _ ((List.mem_tails _ _).2 (List.suffix_refl _)) ⟨rest, rfl⟩
  simpa using hmem

theorem NormalPieces.tail {bound : List String} {piece : Piece} {pieces : List Piece}
    (h : NormalPieces bound (piece :: pieces)) : NormalPieces bound pieces where
  nonempty := fun other hother => h.nonempty other (List.mem_cons_of_mem _ hother)
  apart := by
    cases pieces with
    | nil => simp
    | cons next rest => exact (List.isChain_cons_cons.1 h.apart).2
  closed := by
    intro other hother
    refine h.closed other ?_
    cases pieces with
    | nil => simp at hother
    | cons next rest => exact List.mem_cons_of_mem _ hother
  plain := fun other hother => h.plain other (List.mem_cons_of_mem _ hother)
  classified := fun other hother => h.classified other (List.mem_cons_of_mem _ hother)

/-- Behind a text stands a placeholder or nothing. -/
theorem NormalPieces.next_isHole {bound : List String} {piece : Piece} {pieces : List Piece}
    (h : NormalPieces bound (piece :: pieces)) (htext : piece.isText) :
    ∀ next ∈ pieces.head?, ¬ next.isText := by
  intro next hnext hboth
  cases pieces with
  | nil => simp at hnext
  | cons other rest =>
    obtain rfl : other = next := by simpa using hnext
    exact (List.isChain_cons_cons.1 h.apart).1 ⟨htext, hboth⟩

theorem NormalPieces.closed_or_last {bound : List String} {piece : Piece} {pieces : List Piece}
    (h : NormalPieces bound (piece :: pieces)) (htext : piece.isText) :
    pieces.flatMap Piece.print = [] ∨ Closed piece.inner.toList := by
  cases pieces with
  | nil => exact .inl rfl
  | cons next rest => exact .inr (h.closed piece (List.mem_cons_self ..) htext)

theorem flatMap_print_ne {pieces : List Piece} (h : ∀ piece ∈ pieces.head?, ¬ piece.isText)
    (rest : List Char) : pieces.flatMap Piece.print ≠ '{' :: rest := by
  cases pieces with
  | nil => simp
  | cons piece pieces =>
    have hhole : ¬ piece.isText := h piece rfl
    simp [Piece.print, hhole]

/-! ## Names of placeholders -/

theorem Pseudo.ofName?_name (parameter : Pseudo) :
    Pseudo.ofName? parameter.name = some parameter := by
  cases parameter <;> decide

theorem Pseudo.ofName?_eq_none {name : String} (h : ∀ p : Pseudo, p.name ≠ name) :
    Pseudo.ofName? name = none := by
  simp [Pseudo.ofName?, h]

theorem Pseudo.dot_notMem_name (parameter : Pseudo) : '.' ∉ parameter.name.toList := by
  cases parameter <;> decide

theorem splitAt?_append {mark : Char} {left : List Char} (right : List Char) (h : mark ∉ left) :
    splitAt? mark (left ++ mark :: right) = some (left, right) := by
  induction left with
  | nil => simp [splitAt?]
  | cons c left ih =>
    obtain ⟨hne, hleft⟩ : mark ≠ c ∧ mark ∉ left := by simpa using h
    simp [splitAt?, Ne.symm hne, ih hleft]

theorem splitAt?_eq_none {mark : Char} {cs : List Char} (h : mark ∉ cs) :
    splitAt? mark cs = none := by
  induction cs with
  | nil => rfl
  | cons c cs ih =>
    obtain ⟨hne, hcs⟩ : mark ≠ c ∧ mark ∉ cs := by simpa using h
    simp [splitAt?, Ne.symm hne, ih hcs]

/-- A placeholder is read as the piece that it is printed for. -/
theorem placeholder_inner {bound : List String} {piece : Piece} (h : piece.Classified bound)
    (hhole : ¬ piece.isText) : placeholder bound piece.inner = piece := by
  cases piece with
  | text literal => exact absurd rfl hhole
  | bound key =>
    have hkey : key ∈ bound := h
    simp [placeholder, Piece.inner, hkey]
  | pseudo parameter =>
    have hfree : parameter.name ∉ bound := h
    simp [placeholder, Piece.inner, hfree, Pseudo.ofName?_name]
  | getAtt target member =>
    obtain ⟨hfree, hdot⟩ := h
    have hpseudo : Pseudo.ofName? (target ++ "." ++ member) = none := by
      -- no pseudo parameter has a dot in its name
      refine Pseudo.ofName?_eq_none fun p hp => p.dot_notMem_name ?_
      simp [hp]
    have hsplit : splitOnce? '.' (target ++ "." ++ member) = some (target, member) := by
      have := splitAt?_append member.toList hdot
      simp [splitOnce?, this]
    simp [placeholder, Piece.inner, hfree, hpseudo, hsplit]
  | name target =>
    obtain ⟨hfree, hpseudo, hdot⟩ := h
    have hsplit : splitOnce? '.' target = none := by simp [splitOnce?, splitAt?_eq_none hdot]
    simp [placeholder, Piece.inner, hfree, Pseudo.ofName?_eq_none hpseudo, hsplit]

/-! ## Steps of cutting -/

section Cutting

variable {bound : List String} {text cs : List Char}

theorem cutFrom_of_none (h : hole? cs = none) :
    cutFrom bound text cs = textPiece (text ++ cs) := by
  have hnext : nextHole? cs = none := by
    unfold nextHole?
    split <;> simp_all
  rw [cutFrom, hnext]

theorem nextHole?_of_some {before inner after : List Char}
    (h : hole? cs = some (before, inner, after)) :
    nextHole? cs = some (before, inner, ⟨after, hole?_length h⟩) := by
  unfold nextHole?
  split
  · next hnone => simp [h] at hnone
  · next hsome =>
    rw [h] at hsome
    cases hsome
    rfl

theorem cutFrom_of_literal {before literal after : List Char}
    (h : hole? cs = some (before, '!' :: literal, after)) :
    cutFrom bound text cs =
      cutFrom bound (text ++ before ++ '$' :: '{' :: literal ++ ['}']) after := by
  rw [cutFrom, nextHole?_of_some h]
  rfl

theorem cutFrom_of_placeholder {before inner after : List Char}
    (h : hole? cs = some (before, inner, after)) (hinner : ∀ rest, inner ≠ '!' :: rest) :
    cutFrom bound text cs = textPiece (text ++ before) ++
      placeholder bound (String.ofList (Text.trimList inner)) :: cutFrom bound [] after := by
  rw [cutFrom, nextHole?_of_some h]
  split
  · next hnone => cases hnone
  · next hsome =>
    cases hsome
    exact absurd rfl (hinner _)
  · next hsome =>
    cases hsome
    rfl

theorem hole?_cons {c : Char} (h : ∀ rest, c :: cs ≠ '$' :: '{' :: rest) :
    hole? (c :: cs) = (hole? cs).map fun hole => (c :: hole.1, hole.2) := by
  have hopen : opening? (c :: cs) = (opening? cs).map fun found => (c :: found.1, found.2) :=
    opening?.eq_3 c cs fun rest hc hcs => h rest (by rw [hc, hcs])
  unfold hole?
  rw [hopen]
  cases opening? cs with
  | none => rfl
  | some p => simp [Function.comp_def]

/-- A character that does not open a placeholder is text. -/
theorem cutFrom_cons {c : Char} (h : ∀ rest, c :: cs ≠ '$' :: '{' :: rest) :
    cutFrom bound text (c :: cs) = cutFrom bound (text ++ [c]) cs := by
  have hhole := hole?_cons h
  cases hcs : hole? cs with
  | none =>
    rw [hcs] at hhole
    rw [cutFrom_of_none hcs, cutFrom_of_none hhole]
    simp
  | some p =>
    obtain ⟨before, inner, after⟩ := p
    rw [hcs] at hhole
    by_cases hinner : ∃ literal, inner = '!' :: literal
    · obtain ⟨literal, rfl⟩ := hinner
      rw [cutFrom_of_literal hcs, cutFrom_of_literal hhole]
      simp
    · have hinner : ∀ rest, inner ≠ '!' :: rest := by simpa using hinner
      rw [cutFrom_of_placeholder hcs hinner, cutFrom_of_placeholder hhole hinner]
      simp

theorem hole?_opening {inner : List Char} (after : List Char) (h : '}' ∉ inner) :
    hole? ('$' :: '{' :: (inner ++ '}' :: after)) = some ([], inner, after) := by
  simp [hole?, opening?, splitAt?_append after h]

/-- An opening without a closing brace is text, up to the end. -/
theorem cutFrom_opening (h : '}' ∉ cs) :
    cutFrom bound text ('$' :: '{' :: cs) = textPiece (text ++ '$' :: '{' :: cs) := by
  refine cutFrom_of_none ?_
  simp [hole?, opening?, splitAt?_eq_none h]

/-! ## Cutting what was printed -/

theorem escape_true {literal : List Char} (after : List Char) (h : '}' ∉ literal) :
    escape true (literal ++ '}' :: after) = literal ++ '}' :: escape false after := by
  induction literal with
  | nil => simp [escape]
  | cons c literal ih =>
    obtain ⟨hne, hliteral⟩ : '}' ≠ c ∧ '}' ∉ literal := by simpa using h
    simp [escape, Ne.symm hne, ih hliteral]

theorem escape_false_cons {c : Char} (h : ∀ rest, c :: cs ≠ '$' :: '{' :: rest) :
    escape false (c :: cs) = c :: escape false cs :=
  escape.eq_3 c cs fun rest hc hcs => h rest (by rw [hc, hcs])

/-- Escaping keeps the first character. -/
theorem escape_head (c : Char) (cs : List Char) : ∃ rest, escape false (c :: cs) = c :: rest := by
  by_cases hopen : ∃ rest, c :: cs = '$' :: '{' :: rest
  · obtain ⟨rest, hrest⟩ := hopen
    obtain ⟨rfl, rfl⟩ := List.cons.inj hrest
    by_cases hbrace : '}' ∈ rest
    · exact ⟨_, by rw [escape, if_pos hbrace]⟩
    · exact ⟨_, by rw [escape, if_neg hbrace]⟩
  · exact ⟨_, escape_false_cons (not_exists.1 hopen)⟩

/-- **An escaped text is read as the text.** An opening that is left open must be at the end. -/
theorem cutFrom_escape {tail : List Char} (htail : ∀ rest, tail ≠ '{' :: rest) :
    ∀ (cs text : List Char), tail = [] ∨ Closed cs →
      cutFrom bound text (escape false cs ++ tail) = cutFrom bound (text ++ cs) tail
  | [], text, _ => by simp [escape]
  | c :: cs, text, h => by
    have hclosed : ∀ {after}, after <:+ c :: cs → tail = [] ∨ Closed after := fun hsuffix =>
      h.imp_right fun hcs => hcs.of_suffix hsuffix
    by_cases hopen : ∃ rest, c :: cs = '$' :: '{' :: rest
    · obtain ⟨rest, hrest⟩ := hopen
      rw [hrest] at h ⊢
      by_cases hbrace : '}' ∈ rest
      · -- a literal placeholder: the text goes on behind its closing brace
        obtain ⟨literal, after, rfl, hliteral⟩ := List.eq_append_cons_of_mem hbrace
        have hunmarked : '}' ∉ '!' :: literal := by simpa using hliteral
        have hescape : escape false ('$' :: '{' :: (literal ++ '}' :: after)) ++ tail =
            '$' :: '{' :: (('!' :: literal) ++ '}' :: (escape false after ++ tail)) := by
          simp [escape, escape_true after hliteral]
        have hafter : after <:+ c :: cs := by
          rw [hrest]
          exact ⟨'$' :: '{' :: (literal ++ ['}']), by simp⟩
        have hshorter : after.length < (c :: cs).length := by
          rw [hrest]
          simp only [List.length_cons, List.length_append]
          omega
        rw [hescape, cutFrom_of_literal (hole?_opening _ hunmarked),
          cutFrom_escape htail after _ (hclosed hafter)]
        simp
      · -- an open end: nothing stands behind the text
        obtain rfl : tail = [] := h.resolve_right fun hcs => hbrace hcs.brace_mem
        have hescape : escape false ('$' :: '{' :: rest) = '$' :: '{' :: rest := by
          simp [escape, hbrace]
        rw [hescape, List.append_nil, cutFrom_opening hbrace, cutFrom_of_none rfl, List.append_nil]
    · have hopen := not_exists.1 hopen
      have hplain : ∀ rest, c :: (escape false cs ++ tail) ≠ '$' :: '{' :: rest := by
        intro rest hrest
        obtain ⟨rfl, hbehind⟩ := List.cons.inj hrest
        cases cs with
        | nil => exact htail rest (by simpa [escape] using hbehind)
        | cons d cs =>
          obtain ⟨others, hhead⟩ := escape_head d cs
          rw [hhead] at hbehind
          obtain ⟨rfl, -⟩ := List.cons.inj hbehind
          exact hopen cs rfl
      rw [escape_false_cons hopen, List.cons_append, cutFrom_cons hplain,
        cutFrom_escape htail cs _ (hclosed (List.suffix_cons c cs))]
      simp
termination_by cs => cs.length
decreasing_by
  · assumption
  · exact Nat.lt_succ_self _

/-- A placeholder ends the text before it. -/
theorem cutFrom_print {piece : Piece} (hhole : ¬ piece.isText) (hplain : PlainName piece.inner)
    (hclass : piece.Classified bound) (tail : List Char) :
    cutFrom bound text (piece.print ++ tail) =
      textPiece text ++ piece :: cutFrom bound [] tail := by
  have hprint : piece.print ++ tail = '$' :: '{' :: (piece.inner.toList ++ '}' :: tail) := by
    simp [Piece.print, hhole]
  have hname : String.ofList (Text.trimList piece.inner.toList) = piece.inner := hplain.trimmed
  have hmark : ∀ rest, piece.inner.toList ≠ '!' :: rest := by
    intro rest hrest
    exact hplain.unmarked (by simp [hrest])
  rw [hprint, cutFrom_of_placeholder (hole?_opening tail hplain.unbraced) hmark, hname,
    placeholder_inner hclass hhole, List.append_nil]

theorem textPiece_inner {piece : Piece} (htext : piece.isText) (hne : piece.inner ≠ "") :
    textPiece piece.inner.toList = [piece] := by
  cases piece with
  | text literal =>
    have hcs : literal.toList ≠ [] := by simpa [Piece.inner] using hne
    simp [textPiece, Piece.inner, hcs]
  | bound | name | getAtt | pseudo => cases htext

/-- Cutting with a text at hand that no piece holds yet; the first piece must not be one more. -/
theorem cutFrom_flatMap_print : ∀ (pieces : List Piece) (text : List Char),
    NormalPieces bound pieces → text = [] ∨ (∀ piece ∈ pieces.head?, ¬ piece.isText) →
      cutFrom bound text (pieces.flatMap Piece.print) = textPiece text ++ pieces
  | [], text, _, _ => by
    rw [List.flatMap_nil, cutFrom_of_none rfl]
    simp
  | piece :: pieces, text, h, hhead => by
    have hmem : piece ∈ piece :: pieces := List.mem_cons_self ..
    rw [List.flatMap_cons]
    by_cases htext : piece.isText
    · obtain rfl : text = [] := hhead.resolve_right fun hhole => hhole piece rfl htext
      have hnext : ∀ next ∈ pieces.head?, ¬ next.isText := h.next_isHole htext
      have hprint : piece.print = escape false piece.inner.toList := by simp [Piece.print, htext]
      rw [hprint, cutFrom_escape (flatMap_print_ne hnext) _ _ (h.closed_or_last htext),
        List.nil_append, cutFrom_flatMap_print pieces _ h.tail (.inr hnext),
        textPiece_inner htext (h.nonempty piece hmem htext)]
      rfl
    · rw [cutFrom_print htext (h.plain piece hmem htext) (h.classified piece hmem),
        cutFrom_flatMap_print pieces [] h.tail (.inl rfl)]
      rfl

/-- **Cutting undoes printing.** -/
theorem cut_printPieces {pieces : List Piece} (h : NormalPieces bound pieces) :
    cut (printPieces pieces) bound = pieces := by
  rw [cut, printPieces, String.toList_ofList]
  exact cutFrom_flatMap_print pieces [] h (.inl rfl)

end Cutting

end CdkStacks.Template
