import CdkStacks.Text.Digit
import CdkStacks.TypeScript.Expr
import Mathlib.Tactic.ByContra
import Mathlib.Tactic.SplitIfs

/-!
# Reading literals

How the literals of the generated code are read, by the rules of ECMAScript, and what the texts are
read as that are written to them.

* `unescape` gives the text that characters with escapes stand for. It knows the escapes of one
  character and those of four hexadecimal digits, and refuses all others;
* `newlines` is what a template literal makes of the line ends of its text: each is a line feed;
* `advance` follows source code character by character, and knows by a stack of frames what it is
  inside of. It refuses regular expressions, comments and escapes in names;
* `literal?` reads a string literal, or a template literal with its interpolations;
* `literal?_quoted`: a string literal is read as its text;
* `unescape_escapeTemplate`, `newlines_escapeTemplate`: a text of a template literal is read as that
  text, up to its line ends.
-/

namespace CdkStacks.TypeScript

/-! ## Texts with escapes -/

/-- Whether a character ends a line. -/
def endsLine (c : Char) : Bool :=
  c = '\n' || c = '\r' || c = '\u2028' || c = '\u2029'

/-- The character that a backslash and the given character stand for. -/
def escaped? (c : Char) : Option Char :=
  if c = 'b' then some '\x08'
  else if c = 't' then some '\t'
  else if c = 'n' then some '\n'
  else if c = 'v' then some '\x0b'
  else if c = 'f' then some '\x0c'
  else if c = 'r' then some '\r'
  else if c = 'u' || c = 'x' || c.isDigit || endsLine c then none
  else some c

/-- The text that characters with escapes stand for. A backslash at the end of a line joins the line
to the next one. -/
def unescape : List Char → Option (List Char)
  | [] => some []
  | '\\' :: 'u' :: a :: b :: c :: d :: rest =>
    ((Text.readNat? 16 [a, b, c, d]).bind Text.scalar?).bind fun char =>
      (unescape rest).map (char :: ·)
  | '\\' :: '\n' :: rest => unescape rest
  | '\\' :: c :: rest => (escaped? c).bind fun char => (unescape rest).map (char :: ·)
  | c :: rest => if c = '\\' then none else (unescape rest).map (c :: ·)

/-- A text with each line end as a line feed. -/
def newlines : List Char → List Char
  | [] => []
  | '\r' :: '\n' :: rest => '\n' :: newlines rest
  | c :: rest => (if c = '\r' then '\n' else c) :: newlines rest

/-! ## Source code -/

/-- What a place of source code is inside of. -/
inductive Frame where
  /-- Braces, also those of an interpolation. -/
  | brace
  /-- A string literal between two of the given marks. -/
  | quote (mark : Char)
  /-- The text of a template literal, perhaps behind a dollar sign. -/
  | template (dollar : Bool)
  /-- An escape. -/
  | escape
  deriving DecidableEq, Repr

/-- One character of source code outside of literals. -/
def advanceCode (frames : List Frame) (c : Char) : Option (List Frame) :=
  if c = '"' || c = '\x27' then some (.quote c :: frames)
  else if c = '`' then some (.template false :: frames)
  else if c = '{' then some (.brace :: frames)
  else if c = '}' then
    match frames with
    | .brace :: outer => some outer
    | _ => none
  else if c = '/' || c = '\\' then none
  else some frames

/-- One character of source code; the innermost frame comes first. -/
def advance : List Frame → Char → Option (List Frame)
  | .quote mark :: outer, c =>
    if c = mark then some outer
    else if c = '\\' then some (.escape :: .quote mark :: outer)
    else if c = '\n' || c = '\r' then none
    else some (.quote mark :: outer)
  | .template dollar :: outer, c =>
    if c = '`' then some outer
    else if c = '\\' then some (.escape :: .template false :: outer)
    else if dollar && c = '{' then some (.brace :: .template false :: outer)
    else some (.template (c = '$') :: outer)
  | .escape :: outer, _ => some outer
  | frames, c => advanceCode frames c

/-- Source code, character by character. -/
def scan (frames : List Frame) (source : List Char) : Option (List Frame) :=
  source.foldlM advance frames

/-! ## Literals -/

/-- A piece of a literal: a text, or the source of an interpolation. -/
inductive Segment where
  | text (value : List Char)
  | hole (source : List Char)
  deriving DecidableEq, Repr

/-- Put a character of a text in front of segments. -/
def addChar (c : Char) : List Segment → List Segment
  | .text value :: rest => .text (c :: value) :: rest
  | segments => .text [c] :: segments

/-- Put a text in front of segments. -/
def addText (text : List Char) (segments : List Segment) : List Segment :=
  text.foldr addChar segments

/-- Put a character in front of an interpolation. -/
def addSource (c : Char) : List Segment → List Segment
  | .hole source :: rest => .hole (c :: source) :: rest
  | segments => segments

mutual

/-- The segments of a template literal from a place in a text on, with escapes as they stand. The
source ends with the literal. -/
def textSegments? : List Char → Option (List Segment)
  | [] => none
  | '\\' :: c :: rest => (textSegments? rest).map (addText ['\\', c])
  | '$' :: '{' :: rest => holeSegments? [] rest
  | c :: rest =>
    if c = '`' then if rest.isEmpty then some [] else none
    else (textSegments? rest).map (addText [c])

/-- The segments of a template literal from a place in an interpolation on. The interpolation ends
with a closing brace that closes nothing inside it. -/
def holeSegments? (frames : List Frame) : List Char → Option (List Segment)
  | [] => none
  | c :: rest =>
    if frames.isEmpty && c = '}' then (textSegments? rest).map (.hole [] :: ·)
    else (advance frames c).bind fun next => (holeSegments? next rest).map (addSource c)

end

/-- A segment of a template literal with the value of its text. -/
def Segment.cook : Segment → Option Segment
  | .text raw => (unescape (newlines raw)).map .text
  | .hole source => some (.hole source)

/-- A segment with each line end of its text as a line feed. -/
def Segment.newlines : Segment → Segment
  | .text value => .text (TypeScript.newlines value)
  | .hole source => .hole source

/-- The characters of a string literal behind the opening quote, with escapes as they stand. The
source ends with the literal. -/
def stringBody? : List Char → Option (List Char)
  | [] => none
  | '\\' :: c :: rest => (stringBody? rest).map fun body => '\\' :: c :: body
  | c :: rest =>
    if c = '"' then if rest.isEmpty then some [] else none
    else if c = '\n' || c = '\r' then none
    else (stringBody? rest).map (c :: ·)

/-- The text as a segment, unless it is empty. -/
def textSegment (value : List Char) : List Segment :=
  if value.isEmpty then [] else [.text value]

/-- The segments of a literal. -/
def literal? : List Char → Option (List Segment)
  | '"' :: rest => ((stringBody? rest).bind unescape).map textSegment
  | '`' :: rest => (textSegments? rest).bind (·.mapM Segment.cook)
  | _ => none

/-! ## Texts of string literals -/

/-- The characters that mean something in source code or in literals. -/
def specialCharacters : List Char :=
  ['"', '\x27', '`', '{', '}', '/', '\\', '\n', '\r']

/-- A character that stands for itself everywhere. -/
def isPlain (c : Char) : Bool :=
  !specialCharacters.contains c

theorem isPlain_of_continuesIdentifier {c : Char} (h : continuesIdentifier c) : isPlain c := by
  by_contra hplain
  have hspecial : specialCharacters.all (!continuesIdentifier ·) := by decide
  have hc := List.all_eq_true.1 hspecial c (by simpa [isPlain] using hplain)
  rw [h] at hc
  cases hc

theorem hexDigit_facts : ∀ n < 16, Text.hexValue? (Text.hexDigit n) = some n ∧
    isPlain (Text.hexDigit n) := by
  decide

theorem scalar?_control : ∀ n < 32, Text.scalar? n = some (Char.ofNat n) := by
  decide

/-- How a character of a string literal is written: as an escape of one character, as an escape of
four digits, or as it stands. -/
theorem quoteChar_cases (c : Char) :
    (∃ name, Text.quoteChar c = ['\\', name] ∧ escaped? name = some c ∧ name ≠ 'u') ∨
      (c.toNat < 32 ∧ Text.quoteChar c =
        ['\\', 'u', '0', '0', Text.hexDigit (c.toNat / 16), Text.hexDigit (c.toNat % 16)]) ∨
      (Text.quoteChar c = [c] ∧ c ≠ '"' ∧ c ≠ '\\' ∧ c ≠ '\n' ∧ c ≠ '\r') := by
  unfold Text.quoteChar
  split_ifs with h₁ h₂ h₃ h₄ h₅ h₆ h₇ h₈
  · exact Or.inl ⟨'"', by simp [h₁, escaped?, endsLine]⟩
  · exact Or.inl ⟨'\\', by simp [h₂, escaped?, endsLine]⟩
  · exact Or.inl ⟨'b', by simp [h₃, escaped?]⟩
  · exact Or.inl ⟨'t', by simp [h₄, escaped?]⟩
  · exact Or.inl ⟨'n', by simp [h₅, escaped?]⟩
  · exact Or.inl ⟨'f', by simp [h₆, escaped?]⟩
  · exact Or.inl ⟨'r', by simp [h₇, escaped?]⟩
  · exact Or.inr (Or.inl ⟨h₈, rfl⟩)
  · exact Or.inr (Or.inr ⟨rfl, h₁, h₂, h₅, h₇⟩)

theorem unescape_cons {c : Char} (h : c ≠ '\\') (rest : List Char) :
    unescape (c :: rest) = (unescape rest).map (c :: ·) := by
  simp [unescape, h]

theorem unescape_quoteChar (c : Char) (rest : List Char) :
    unescape (Text.quoteChar c ++ rest) = (unescape rest).map (c :: ·) := by
  rcases quoteChar_cases c with ⟨name, h, hname, hu⟩ | ⟨hlt, h⟩ | ⟨h, -, hslash, -⟩
  · -- the name is no line feed, for which there is no escape
    have hfeed : name ≠ '\n' := by
      rintro rfl
      simp [escaped?, endsLine] at hname
    rw [h, List.cons_append, List.cons_append, List.nil_append,
      unescape.eq_4 name rest (by simp [hu]) hfeed, hname, Option.bind_some]
  · have hfirst := (hexDigit_facts (c.toNat / 16) (by omega)).1
    have hsecond := (hexDigit_facts (c.toNat % 16) (by omega)).1
    have hzero : Text.hexValue? '0' = some 0 := rfl
    have hcode : Text.readNat? 16 ['0', '0', Text.hexDigit (c.toNat / 16),
        Text.hexDigit (c.toNat % 16)] = some c.toNat := by
      have hdiv : c.toNat / 16 < 16 := by omega
      have hmod : c.toNat % 16 < 16 := by omega
      simp [Text.readNat?, Text.continueNat?, Text.digit?, hzero, hfirst, hsecond,
        Option.filter, hdiv, hmod]
      omega
    rw [h]
    simp only [List.cons_append, List.nil_append, unescape, hcode, Option.bind_some,
      scalar?_control c.toNat hlt, Char.ofNat_toNat]
  · rw [h]
    exact unescape_cons hslash rest

/-- The characters of a string literal stand for its text. -/
theorem unescape_flatMap_quoteChar (text : List Char) :
    unescape (text.flatMap Text.quoteChar) = some text := by
  induction text with
  | nil => rfl
  | cons c text ih => rw [List.flatMap_cons, unescape_quoteChar, ih, Option.map_some]

theorem ordinary_of_isPlain {c : Char} (h : isPlain c) :
    c ≠ '"' ∧ c ≠ '\\' ∧ c ≠ '\n' ∧ c ≠ '\r' := by
  simp only [isPlain, specialCharacters] at h
  simp_all

theorem stringBody?_cons {c : Char} (h : c ≠ '"' ∧ c ≠ '\\' ∧ c ≠ '\n' ∧ c ≠ '\r')
    (rest : List Char) : stringBody? (c :: rest) = (stringBody? rest).map (c :: ·) := by
  simp [stringBody?, h]

theorem stringBody?_quoteChar (c : Char) (rest : List Char) :
    stringBody? (Text.quoteChar c ++ rest) =
      (stringBody? rest).map (Text.quoteChar c ++ ·) := by
  rcases quoteChar_cases c with ⟨name, h, -⟩ | ⟨hlt, h⟩ | ⟨h, hc⟩
  · rw [h]
    rfl
  · have hfirst := ordinary_of_isPlain (hexDigit_facts (c.toNat / 16) (by omega)).2
    have hsecond := ordinary_of_isPlain (hexDigit_facts (c.toNat % 16) (by omega)).2
    have hzero : '0' ≠ '"' ∧ '0' ≠ '\\' ∧ '0' ≠ '\n' ∧ '0' ≠ '\r' := by decide
    rw [h]
    simp only [List.cons_append, List.nil_append, stringBody?, stringBody?_cons hfirst,
      stringBody?_cons hsecond, stringBody?_cons hzero, Option.map_map, Function.comp_def]
  · rw [h]
    exact stringBody?_cons hc rest

theorem stringBody?_flatMap_quoteChar (text : List Char) :
    stringBody? (text.flatMap Text.quoteChar ++ ['"']) = some (text.flatMap Text.quoteChar) := by
  induction text with
  | nil => rfl
  | cons c text ih =>
    rw [List.flatMap_cons, List.append_assoc, stringBody?_quoteChar, ih, Option.map_some]

/-- **A string literal is read as its text.** -/
theorem literal?_quoted (text : String) :
    literal? (Text.quoted text).toList = some (textSegment text.toList) := by
  rw [Text.quoted, String.toList_ofList, literal?, stringBody?_flatMap_quoteChar,
    Option.bind_some, unescape_flatMap_quoteChar, Option.map_some]

/-! ## Texts of template literals -/

/-- How a character of a template literal is written, unless it is a dollar sign in front of a
brace. -/
theorem escapeTemplate_cons {c : Char} {rest : List Char}
    (h : c = '$' → rest.head? ≠ some '{') : Text.escapeTemplate (c :: rest) =
      if c = '\\' || c = '`' then '\\' :: c :: Text.escapeTemplate rest
      else c :: Text.escapeTemplate rest := by
  refine Text.escapeTemplate.eq_3 c rest ?_
  rintro tail rfl rfl
  exact h rfl rfl

theorem newlines_cons {c : Char} {rest : List Char} (h : c = '\r' → rest.head? ≠ some '\n') :
    newlines (c :: rest) = (if c = '\r' then '\n' else c) :: newlines rest := by
  refine newlines.eq_3 c rest ?_
  rintro tail rfl rfl
  exact h rfl rfl

/-- Escaping makes no first character but a backslash. -/
theorem head?_escapeTemplate {text : List Char} {c : Char} (hc : c ≠ '\\')
    (h : (Text.escapeTemplate text).head? = some c) : text.head? = some c := by
  fun_cases Text.escapeTemplate text with
  | case1 => simp [Text.escapeTemplate] at h
  | case2 rest =>
    simp [Text.escapeTemplate] at h
    exact absurd h.symm hc
  | case3 d rest hne hspecial =>
    rw [Text.escapeTemplate.eq_3 d rest hne, if_pos hspecial] at h
    exact absurd (Option.some.inj h).symm hc
  | case4 d rest hne hspecial =>
    rw [Text.escapeTemplate.eq_3 d rest hne, if_neg hspecial] at h
    exact h

/-- Escaping opens no interpolation with what stands in front of it. -/
theorem head?_escapeTemplate_append {text tail : List Char} (htext : text.head? ≠ some '{')
    (htail : tail.head? ≠ some '{') : (Text.escapeTemplate text ++ tail).head? ≠ some '{' := by
  intro hhead
  rw [List.head?_append] at hhead
  rcases Option.or_eq_some_iff.1 hhead with hhead | ⟨-, hhead⟩
  · exact htext (head?_escapeTemplate (by decide) hhead)
  · exact htail hhead

theorem escapeTemplate_eq_nil {text : List Char} : Text.escapeTemplate text = [] ↔ text = [] := by
  fun_cases Text.escapeTemplate text <;> simp

theorem head?_newlines {text : List Char} (h : (newlines text).head? = some '{') :
    text.head? = some '{' := by
  fun_cases newlines text with
  | case1 => exact h
  | case2 rest => simp [newlines] at h
  | case3 c rest hne =>
    rw [newlines.eq_3 c rest hne] at h
    split_ifs at h with hc
    · simp at h
    · exact h

theorem unescape_escapeTemplate (text : List Char) :
    unescape (Text.escapeTemplate text) = some text := by
  fun_induction Text.escapeTemplate text with
  | case1 => rfl
  | case2 rest ih => simp [unescape, ih, escaped?, endsLine]
  | case3 c rest hne hspecial ih =>
    rcases (by simpa using hspecial : c = '\\' ∨ c = '`') with rfl | rfl <;>
      simp [unescape, ih, escaped?, endsLine]
  | case4 c rest hne hspecial ih =>
    have hslash : c ≠ '\\' := by simp_all
    rw [unescape_cons hslash, ih, Option.map_some]

/-- Line ends and escapes do not meet. -/
theorem newlines_escapeTemplate (text : List Char) :
    newlines (Text.escapeTemplate text) = Text.escapeTemplate (newlines text) := by
  fun_induction newlines text with
  | case1 => rfl
  | case2 rest ih =>
    rw [escapeTemplate_cons (by simp), escapeTemplate_cons (by simp),
      escapeTemplate_cons (by simp)]
    simp [newlines, ih]
  | case3 c rest hne ih =>
    by_cases hopen : c = '$' ∧ rest.head? = some '{'
    · obtain ⟨rfl, hbrace⟩ := hopen
      obtain ⟨tail, rfl⟩ := List.head?_eq_some_iff.1 hbrace
      rw [escapeTemplate_cons (by simp), newlines_cons (by simp),
        escapeTemplate_cons (by simp)] at ih
      have hih : newlines (Text.escapeTemplate tail) = Text.escapeTemplate (newlines tail) := by
        simpa [newlines_cons] using ih
      rw [Text.escapeTemplate, newlines_cons (by simp), newlines_cons (by simp),
        newlines_cons (by simp), hih]
      simp [newlines_cons, Text.escapeTemplate]
    · have hrest : c = '$' → rest.head? ≠ some '{' := fun hc hbrace => hopen ⟨hc, hbrace⟩
      have hnewlines : c = '$' → (newlines rest).head? ≠ some '{' :=
        fun hc hbrace => hrest hc (head?_newlines hbrace)
      rw [escapeTemplate_cons hrest]
      by_cases hreturn : c = '\r'
      · have hfeed : (Text.escapeTemplate rest).head? ≠ some '\n' := by
          intro hhead
          obtain ⟨tail, rfl⟩ := List.head?_eq_some_iff.1 (head?_escapeTemplate (by decide) hhead)
          exact hne tail hreturn rfl
        rw [escapeTemplate_cons (by simp [hreturn])]
        simp [hreturn, newlines_cons fun _ => hfeed, ih]
      · rw [if_neg hreturn, escapeTemplate_cons hnewlines]
        by_cases hspecial : c = '\\' || c = '`'
        · rw [if_pos hspecial, if_pos hspecial, newlines_cons (by simp),
            newlines_cons (by simp [hreturn]), ih]
          simp [hreturn]
        · rw [if_neg hspecial, if_neg hspecial, newlines_cons (by simp [hreturn]), if_neg hreturn,
            ih]

theorem return_notMem_newlines (text : List Char) : '\r' ∉ newlines text := by
  fun_induction newlines text with
  | case1 => simp
  | case2 rest ih => simp [ih]
  | case3 c rest hne ih =>
    rw [List.mem_cons, not_or]
    refine ⟨?_, ih⟩
    split_ifs with hc
    · decide
    · exact fun h => hc h.symm

/-- Texts without carriage returns keep their line ends, and no others. -/
theorem newlines_eq_self_iff {text : List Char} : newlines text = text ↔ '\r' ∉ text := by
  constructor
  · intro h
    rw [← h]
    exact return_notMem_newlines text
  · intro h
    induction text with
    | nil => rfl
    | cons c text ih =>
      obtain ⟨hc, htext⟩ := not_or.1 (List.mem_cons.not.1 h)
      rw [newlines_cons fun hreturn => absurd hreturn.symm hc, if_neg (Ne.symm hc), ih htext]

end CdkStacks.TypeScript
