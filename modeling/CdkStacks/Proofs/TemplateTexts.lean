import CdkStacks.Proofs.Substitutions

/-!
# Texts of template literals

A text that is written to a template literal ends where it was written to end.

* `escapedInTurn` escapes a text by three replacements, one after the other;
* `lexText` reads the text of a template literal by the rules of ECMAScript, up to what it stops at;
* `escapedInTurn_eq`: the replacements do not get in each other's way;
* `lexText_escapeTemplate`: an escaped text is read character by character, to its end;
* `escaped_texts_contained`: so is every text of a substitution.
-/

namespace CdkStacks.TypeScript

/-! ## Escaping by replacements -/

/-- A text with every occurrence of a pattern replaced, from left to right. -/
def replaceAll (pattern new : List Char) : List Char → List Char
  | [] => []
  | c :: rest =>
    if pattern.isPrefixOf (c :: rest) then
      new ++ replaceAll pattern new (rest.drop (pattern.length - 1))
    else c :: replaceAll pattern new rest
termination_by text => text.length

/-- A text with its backslashes doubled, then each backtick behind a backslash, then each opening of
an interpolation. -/
def escapedInTurn (text : List Char) : List Char :=
  replaceAll ['$', '{'] ['\\', '$', '{']
    (replaceAll ['`'] ['\\', '`'] (replaceAll ['\\'] ['\\', '\\'] text))

theorem replaceAll_char (mark : Char) (new : List Char) (c : Char) (rest : List Char) :
    replaceAll [mark] new (c :: rest) =
      if c = mark then new ++ replaceAll [mark] new rest else c :: replaceAll [mark] new rest := by
  rw [replaceAll]
  by_cases h : c = mark
  · simp [h]
  · simp [h, Ne.symm h]

theorem replaceAll_opening (new rest : List Char) :
    replaceAll ['$', '{'] new ('$' :: '{' :: rest) = new ++ replaceAll ['$', '{'] new rest := by
  rw [replaceAll]
  simp

theorem replaceAll_of_not_opening {new : List Char} {c : Char} {rest : List Char}
    (h : c = '$' → rest.head? ≠ some '{') :
    replaceAll ['$', '{'] new (c :: rest) = c :: replaceAll ['$', '{'] new rest := by
  rw [replaceAll, if_neg]
  intro hpattern
  cases rest with
  | nil => simp at hpattern
  | cons d rest =>
    obtain ⟨rfl, rfl⟩ : '$' = c ∧ '{' = d := by simpa using hpattern
    exact h rfl rfl

/-- A replacement that starts with a backslash makes no brace the first character. -/
theorem head?_replaceAll {mark : Char} {new text : List Char} (hnew : new.head? = some '\\')
    (h : (replaceAll [mark] new text).head? = some '{') : text.head? = some '{' := by
  cases text with
  | nil => simp [replaceAll] at h
  | cons c rest =>
    rw [replaceAll_char] at h
    split_ifs at h with hc
    · simp [List.head?_append, hnew] at h
    · exact h

/-- **The three replacements amount to escaping each character on its own.** -/
theorem escapedInTurn_eq (text : List Char) : escapedInTurn text = Text.escapeTemplate text := by
  unfold escapedInTurn
  fun_induction Text.escapeTemplate text with
  | case1 => simp [replaceAll]
  | case2 rest ih => simp [replaceAll_char, replaceAll_opening, ih]
  | case3 c rest hne hspecial ih =>
    -- neither the character nor the backslash in front of it opens an interpolation
    rcases (by simpa using hspecial : c = '\\' ∨ c = '`') with rfl | rfl
    all_goals
      simp only [replaceAll_char, Char.reduceEq, if_true, if_false, List.cons_append,
        List.nil_append]
      rw [replaceAll_of_not_opening (by simp), replaceAll_of_not_opening (by simp), ih]
  | case4 c rest hne hspecial ih =>
    have hc : c ≠ '\\' ∧ c ≠ '`' := by simpa using hspecial
    rw [replaceAll_char, if_neg hc.1, replaceAll_char, if_neg hc.2, replaceAll_of_not_opening, ih]
    intro hdollar hhead
    have hrest := head?_replaceAll rfl (head?_replaceAll rfl hhead)
    obtain ⟨tail, rfl⟩ := List.head?_eq_some_iff.1 hrest
    exact hne tail hdollar rfl

/-! ## Reading a text -/

/-- A character of the text of a template literal, which may be escaped. -/
structure Lexeme where
  char : Char
  escaped : Bool
  deriving DecidableEq, Repr

/-- A lexeme as it is written. -/
def Lexeme.source (lexeme : Lexeme) : List Char :=
  if lexeme.escaped then ['\\', lexeme.char] else [lexeme.char]

/-- What the text of a template literal stops at. -/
inductive TextStop where
  /-- The backtick that ends the literal. -/
  | mark
  /-- A dollar sign and a brace, which open an interpolation. -/
  | opening
  /-- A backslash with nothing behind it. -/
  | dangling
  /-- The end of the source. -/
  | ending
  deriving DecidableEq, Repr

/-- A text of a template literal, what it stops at, and the source from there on. -/
structure LexedText where
  lexemes : List Lexeme
  stop : TextStop
  rest : List Char
  deriving DecidableEq, Repr

/-- Put lexemes in front of a text. -/
def LexedText.prepend (lexemes : List Lexeme) (lexed : LexedText) : LexedText :=
  { lexed with lexemes := lexemes ++ lexed.lexemes }

/-- Read the text of a template literal from a place on. A backslash escapes the next character,
whichever it is; what a longer escape goes on with stops no text. -/
def lexText : List Char → LexedText
  | [] => ⟨[], .ending, []⟩
  | ['\\'] => ⟨[], .dangling, ['\\']⟩
  | '\\' :: c :: rest => (lexText rest).prepend [⟨c, true⟩]
  | '$' :: '{' :: rest => ⟨[], .opening, '$' :: '{' :: rest⟩
  | c :: rest =>
    if c = '`' then ⟨[], .mark, c :: rest⟩ else (lexText rest).prepend [⟨c, false⟩]

theorem lexText_cons {c : Char} {rest : List Char} (hslash : c ≠ '\\') (hmark : c ≠ '`')
    (hopen : c = '$' → rest.head? ≠ some '{') :
    lexText (c :: rest) = (lexText rest).prepend [⟨c, false⟩] := by
  rw [lexText.eq_5 c rest (by simp [hslash]) (by simp [hslash]), if_neg hmark]
  rintro tail rfl rfl
  exact hopen rfl rfl

/-- Lexemes that write a text to a source, one for each character. Only characters that mean
something in a template literal are escaped, so each lexeme stands for its character. -/
structure Writes (lexemes : List Lexeme) (source text : List Char) : Prop where
  source : lexemes.flatMap Lexeme.source = source
  chars : lexemes.map Lexeme.char = text
  escapes : ∀ lexeme ∈ lexemes, lexeme.escaped → lexeme.char ∈ ['\\', '`', '$']

namespace Writes

variable {lexemes : List Lexeme} {source text : List Char}

theorem escape (h : Writes lexemes source text) {c : Char} (hc : c ∈ ['\\', '`', '$']) :
    Writes (⟨c, true⟩ :: lexemes) ('\\' :: c :: source) (c :: text) where
  source := by simp [Lexeme.source, h.source]
  chars := by simp [h.chars]
  escapes := List.forall_mem_cons.2 ⟨fun _ => hc, h.escapes⟩

theorem plain (h : Writes lexemes source text) (c : Char) :
    Writes (⟨c, false⟩ :: lexemes) (c :: source) (c :: text) where
  source := by simp [Lexeme.source, h.source]
  chars := by simp [h.chars]
  escapes := List.forall_mem_cons.2 ⟨by simp, h.escapes⟩

end Writes

/-- **An escaped text is read character by character,** up to what stands behind it. That is not a
brace, which a dollar sign at the end would open an interpolation with. -/
theorem lexText_escapeTemplate (text : List Char) : ∃ lexemes,
    Writes lexemes (Text.escapeTemplate text) text ∧
      ∀ tail : List Char, tail.head? ≠ some '{' →
        lexText (Text.escapeTemplate text ++ tail) = (lexText tail).prepend lexemes := by
  fun_induction Text.escapeTemplate text with
  | case1 => exact ⟨[], ⟨rfl, rfl, by simp⟩, fun tail _ => rfl⟩
  | case2 rest ih =>
    obtain ⟨lexemes, hwrites, hlex⟩ := ih
    refine ⟨_, (hwrites.plain '{').escape (by simp), fun tail htail => ?_⟩
    change (lexText ('{' :: (Text.escapeTemplate rest ++ tail))).prepend _ = _
    rw [lexText_cons (by decide) (by decide) (by simp), hlex tail htail]
    rfl
  | case3 c rest hne hspecial ih =>
    obtain ⟨lexemes, hwrites, hlex⟩ := ih
    have hc : c ∈ ['\\', '`', '$'] := by
      rcases (by simpa using hspecial : c = '\\' ∨ c = '`') with rfl | rfl <;> simp
    refine ⟨_, hwrites.escape hc, fun tail htail => ?_⟩
    change (lexText (Text.escapeTemplate rest ++ tail)).prepend _ = _
    rw [hlex tail htail]
    rfl
  | case4 c rest hne hspecial ih =>
    obtain ⟨lexemes, hwrites, hlex⟩ := ih
    have hc : c ≠ '\\' ∧ c ≠ '`' := by simpa using hspecial
    refine ⟨_, hwrites.plain c, fun tail htail => ?_⟩
    have hopen : c = '$' → (Text.escapeTemplate rest ++ tail).head? ≠ some '{' := by
      refine fun hdollar => head?_escapeTemplate_append (fun hhead => ?_) htail
      obtain ⟨inner, rfl⟩ := List.head?_eq_some_iff.1 hhead
      exact hne inner hdollar rfl
    rw [List.cons_append, lexText_cons hc.1 hc.2 hopen, hlex tail htail]
    rfl

end CdkStacks.TypeScript

namespace CdkStacks.Construct

open CdkStacks.Template CdkStacks.TypeScript

/-! ## Texts of substitutions -/

/-- A piece as it is written to a template literal. -/
def View.source (view : View) (bindings : List (String × Value)) (piece : Piece) : List Char :=
  (view.chunk (view.resolveEntries .property bindings) piece).value.source

/-- The source of an interpolation. -/
def IsInterpolation (source : List Char) : Prop :=
  ∃ value : Expr, source = '$' :: '{' :: (value.inline.toList ++ ['}'])

theorem source_isInterpolation {view : View} {bindings : List (String × Value)} {piece : Piece}
    (h : ¬ piece.isText) : IsInterpolation (view.source bindings piece) := by
  unfold View.source
  rw [← chunk_isText view (view.resolveEntries .property bindings)] at h
  cases hchunk : (view.chunk (view.resolveEntries .property bindings) piece).value with
  | text text => rw [hchunk] at h; exact absurd rfl h
  | hole value => exact ⟨value, rfl⟩

/-- A substitution with a placeholder is written piece by piece between two backticks. -/
theorem resolve_sub_source {pieces : List Piece} (h : ¬ pieces.all Piece.isText) (view : View)
    (keys : KeyStyle) (bindings : List (String × Value)) :
    (view.resolve keys (.sub pieces bindings)).value.inline.toList =
      '`' :: (pieces.flatMap (view.source bindings) ++ ['`']) := by
  rw [View.resolve, substitution_value h, template_inline, List.flatMap_map]
  rfl

/-- The text stops at what is written behind it: an interpolation, or the end of the literal. -/
theorem lexText_behind {source : Piece → List Char} {after : List Piece}
    (h : ∀ next ∈ after.head?, IsInterpolation (source next)) :
    let rest := after.flatMap source ++ ['`']
    rest.head? ≠ some '{' ∧
      lexText rest = ⟨[], if after.isEmpty then .mark else .opening, rest⟩ := by
  cases after with
  | nil => exact ⟨by simp, rfl⟩
  | cons next others =>
    obtain ⟨value, hvalue⟩ := h next rfl
    rw [List.flatMap_cons, hvalue]
    exact ⟨by simp, rfl⟩

/-- **Escaped texts stay in their literal.** Where a substitution is written as a template literal,
a text of it is escaped by three replacements, and the text read from there on is that text,
character by character. It stops nowhere inside, and then at what was written behind it: the
interpolation that follows, or else the backtick that ends the literal. -/
theorem escaped_texts_contained {text part : String} {bound : List String}
    {before after : List Piece} (h : cut text bound = before ++ .text part :: after)
    (hhole : ¬ (cut text bound).all Piece.isText) (resolver : Resolver) (ledger : Ledger)
    (keys : KeyStyle) (bindings : List (String × Value)) :
    let source := resolver.toView.source bindings
    let chunk := escapedInTurn part.toList
    let rest := after.flatMap source ++ ['`']
    ((resolver.resolve keys (.sub (cut text bound) bindings)).run ledger).1.inline.toList =
        '`' :: (before.flatMap source ++ (chunk ++ rest)) ∧
      (∀ next ∈ after.head?, IsInterpolation (source next)) ∧
      ∃ lexemes, Writes lexemes chunk part.toList ∧
        lexText chunk = ⟨lexemes, .ending, []⟩ ∧
        lexText (chunk ++ rest) =
          ⟨lexemes, if after.isEmpty then .mark else .opening, rest⟩ := by
  intro source chunk rest
  have hchunk : chunk = Text.escapeTemplate part.toList := escapedInTurn_eq _
  have hpieces : CutPieces (before ++ .text part :: after) := h ▸ cutPieces_cut text bound
  have hnext : ∀ next ∈ after.head?, IsInterpolation (source next) :=
    fun next hnext => source_isInterpolation (hpieces.next_isHole next hnext)
  obtain ⟨hhead, hrest⟩ := lexText_behind hnext
  obtain ⟨lexemes, hwrites, hlex⟩ := lexText_escapeTemplate part.toList
  rw [hchunk]
  refine ⟨?_, hnext, lexemes, hwrites, ?_, ?_⟩
  · have hpart : resolver.toView.source bindings (.text part) = Text.escapeTemplate part.toList :=
      rfl
    rw [resolver.resolve_run, resolve_sub_source hhole, h, List.flatMap_append, List.flatMap_cons,
      hpart, List.append_assoc, List.append_assoc]
  · simpa [lexText, LexedText.prepend] using hlex [] (by simp)
  · rw [hlex rest hhead, hrest, LexedText.prepend, List.append_nil]

/-- Texts on the brink: one starts with a brace and ends with a dollar sign, the other ends with a
backslash. -/
def brinkPieces : List Piece :=
  [.text "\x7b`$", .pseudo .region, .text "\x7b\\"]

theorem cut_brinkPieces : cut "\x7b`$${AWS::Region}\x7b\\" [] = brinkPieces := by
  have hnormal : NormalPieces [] brinkPieces :=
    ⟨by decide, by decide, by decide, by decide, by decide⟩
  have hprint : printPieces brinkPieces = "\x7b`$${AWS::Region}\x7b\\" := by decide
  rw [← hprint, cut_printPieces hnormal]

theorem escaped_texts_contained_brink :
    cut "\x7b`$${AWS::Region}\x7b\\" [] = brinkPieces ∧
      ¬ brinkPieces.all Piece.isText ∧
      ∃ lexemes, Writes lexemes "\x7b\\`$".toList "\x7b`$".toList ∧
        lexText "\x7b\\`$${this.region}\x7b\\\\`".toList =
          ⟨lexemes, .opening, "${this.region}\x7b\\\\`".toList⟩ := by
  have hhole : ¬ brinkPieces.all Piece.isText := by decide
  obtain ⟨-, -, lexemes, hwrites, -, hlex⟩ := escaped_texts_contained
    (cut_brinkPieces.trans (List.nil_append brinkPieces).symm) (cut_brinkPieces ▸ hhole)
    ⟨⟨Scope.ofTemplate (.ofParameters []), "Deploy", 0⟩, .standard⟩ ⟨.empty, []⟩ .property []
  rw [escapedInTurn_eq] at hwrites hlex
  exact ⟨cut_brinkPieces, hhole, lexemes, hwrites, hlex⟩

end CdkStacks.Construct
