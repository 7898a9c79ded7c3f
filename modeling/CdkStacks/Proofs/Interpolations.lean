import CdkStacks.Proofs.Literals
import Mathlib.Data.List.Chain

/-!
# Interpolations

A template literal is read as the chunks that were written to it.

* `Code` is source text that closes all it opens and nothing else, so that an interpolation with it
  ends where it should;
* `Separate` chunks can be told apart in a template literal;
* `Code.quoted`, `Code.template`: literals are code;
* `literal?_template`: a template literal is read as its chunks, with each line end of a text as a
  line feed.
-/

namespace CdkStacks.TypeScript

/-! ## Code in interpolations -/

theorem scan_append (frames : List Frame) (first second : List Char) :
    scan frames (first ++ second) = (scan frames first).bind (scan · second) :=
  List.foldlM_append

theorem scan_cons (frames : List Frame) (c : Char) (rest : List Char) :
    scan frames (c :: rest) = (advance frames c).bind (scan · rest) :=
  rfl

/-- A place outside of literals. -/
def InCode : List Frame → Prop
  | [] | .brace :: _ => True
  | _ => False

theorem advance_of_inCode {frames : List Frame} (h : InCode frames) (c : Char) :
    advance frames c = advanceCode frames c := by
  cases frames with
  | nil => rfl
  | cons frame outer =>
    cases frame with
    | brace => rfl
    | quote | template | escape => exact h.elim

/-- Source text that is code as a whole: it closes what it opens, and nothing else. -/
def Code (source : List Char) : Prop :=
  ∀ frames, InCode frames → scan frames source = some frames

namespace Code

theorem nil : Code [] := fun _ _ => rfl

theorem append {first second : List Char} (h₁ : Code first) (h₂ : Code second) :
    Code (first ++ second) := by
  intro frames hframes
  rw [scan_append, h₁ frames hframes, Option.bind_some, h₂ frames hframes]

theorem plain {source : List Char} (h : source.all isPlain) : Code source := by
  induction source with
  | nil => exact nil
  | cons c source ih =>
    intro frames hframes
    rw [List.all_cons, Bool.and_eq_true] at h
    obtain ⟨hc, hsource⟩ := h
    have hadvance : advance frames c = some frames := by
      rw [advance_of_inCode hframes]
      simp [isPlain, specialCharacters] at hc
      simp [advanceCode, hc]
    rw [scan_cons, hadvance, Option.bind_some]
    exact ih hsource frames hframes

theorem braces {source : List Char} (h : Code source) : Code ('{' :: (source ++ ['}'])) := by
  intro frames hframes
  rw [scan_cons, advance_of_inCode hframes]
  change scan (.brace :: frames) (source ++ ['}']) = some frames
  have hinside : InCode (.brace :: frames) := trivial
  rw [scan_append, h _ hinside]
  rfl

end Code

theorem scan_quoteChar (frames : List Frame) (c : Char) :
    scan (.quote '"' :: frames) (Text.quoteChar c) = some (.quote '"' :: frames) := by
  have hplain : ∀ {c}, c ≠ '"' ∧ c ≠ '\\' ∧ c ≠ '\n' ∧ c ≠ '\r' →
      advance (.quote '"' :: frames) c = some (.quote '"' :: frames) := by
    intro c hc
    simp [advance, hc]
  rcases quoteChar_cases c with ⟨name, h, -⟩ | ⟨hlt, h⟩ | ⟨h, hc⟩
  · rw [h]
    rfl
  · have hfirst := hplain (ordinary_of_isPlain (hexDigit_facts (c.toNat / 16) (by omega)).2)
    have hsecond := hplain (ordinary_of_isPlain (hexDigit_facts (c.toNat % 16) (by omega)).2)
    rw [h]
    change scan (.quote '"' :: frames) [_, _] = _
    rw [scan_cons, hfirst, Option.bind_some, scan_cons, hsecond]
    rfl
  · rw [h, scan_cons, hplain hc]
    rfl

theorem Code.quoted (text : String) : Code (Text.quoted text).toList := by
  intro frames hframes
  have hbody : ∀ cs : List Char, scan (.quote '"' :: frames) (cs.flatMap Text.quoteChar) =
      some (.quote '"' :: frames) := by
    intro cs
    induction cs with
    | nil => rfl
    | cons c cs ih => rw [List.flatMap_cons, scan_append, scan_quoteChar, Option.bind_some, ih]
  rw [Text.quoted, String.toList_ofList, scan_cons, advance_of_inCode hframes]
  change scan (.quote '"' :: frames) (_ ++ ['"']) = some frames
  rw [scan_append, hbody]
  rfl

/-! ## Template literals -/

/-- Whether a chunk is a text. -/
def Chunk.isText : Chunk → Bool
  | .text _ => true
  | .hole _ => false

/-- A chunk as it is written. -/
def Chunk.source : Chunk → List Char
  | .text contents => Text.escapeTemplate contents.toList
  | .hole value => '$' :: '{' :: (value.inline.toList ++ ['}'])

/-- A chunk as it is read: its text with each line end as a line feed, or its source. -/
def Chunk.segment : Chunk → Segment
  | .text contents => .text (newlines contents.toList)
  | .hole value => .hole value.inline.toList

/-- Chunks that can be told apart: texts are not empty and do not follow each other, and the
interpolations are code. -/
structure Separate (chunks : List Chunk) : Prop where
  nonempty : ∀ text, Chunk.text text ∈ chunks → text ≠ ""
  apart : chunks.IsChain fun first second => ¬ (first.isText ∧ second.isText)
  code : ∀ value, Chunk.hole value ∈ chunks → Code value.inline.toList

theorem Separate.tail {chunk : Chunk} {chunks : List Chunk} (h : Separate (chunk :: chunks)) :
    Separate chunks where
  nonempty := fun text htext => h.nonempty text (List.mem_cons_of_mem _ htext)
  apart := h.apart.tail
  code := fun value hvalue => h.code value (List.mem_cons_of_mem _ hvalue)

/-- Behind a text stands an interpolation or nothing. -/
theorem Separate.next {text : String} {chunks : List Chunk}
    (h : Separate (.text text :: chunks)) : ∀ next ∈ chunks.head?, ¬ next.isText := by
  intro next hnext hboth
  obtain ⟨rest, rfl⟩ := List.head?_eq_some_iff.1 hnext
  exact (List.isChain_cons_cons.1 h.apart).1 ⟨rfl, hboth⟩

theorem inlineChunks_toList : ∀ chunks : List Chunk,
    (inlineChunks chunks).toList = chunks.flatMap Chunk.source
  | [] => rfl
  | .text text :: rest => by
    rw [inlineChunks, String.toList_append, inlineChunks_toList rest, Text.templateText,
      String.toList_ofList]
    rfl
  | .hole value :: rest => by
    rw [inlineChunks, String.toList_append, String.toList_append, String.toList_append,
      inlineChunks_toList rest]
    simp [Chunk.source]

theorem template_inline (chunks : List Chunk) : (Expr.template chunks).inline.toList =
    '`' :: (chunks.flatMap Chunk.source ++ ['`']) := by
  have hinline : (Expr.template chunks).inline = "`" ++ inlineChunks chunks ++ "`" := rfl
  rw [hinline, String.toList_append, String.toList_append, inlineChunks_toList]
  rfl

/-- The text of a template literal leaves it open, perhaps behind a dollar sign. -/
theorem scan_escapeTemplate (frames : List Frame) (text : List Char) : ∀ dollar : Bool,
    (dollar → text.head? ≠ some '{') → ∃ dollar',
      scan (.template dollar :: frames) (Text.escapeTemplate text) =
        some (.template dollar' :: frames) := by
  fun_induction Text.escapeTemplate text with
  | case1 => exact fun dollar _ => ⟨dollar, rfl⟩
  | case2 rest ih => exact fun dollar _ => ih false (by simp)
  | case3 c rest hne hspecial ih => exact fun dollar _ => ih false (by simp)
  | case4 c rest hne hspecial ih =>
    intro dollar hdollar
    have hadvance : advance (.template dollar :: frames) c =
        some (.template (c = '$') :: frames) := by
      have hopen : (dollar && c = '{') = false := by
        cases dollar <;> simp_all
      simp_all [advance]
    rw [scan_cons, hadvance]
    refine ih _ fun hc hbrace => ?_
    obtain ⟨tail, rfl⟩ := List.head?_eq_some_iff.1 hbrace
    exact hne tail (by simpa using hc) rfl

/-- Chunks leave a template literal when the literal ends behind them. -/
theorem scan_chunks (frames : List Frame) : ∀ (chunks : List Chunk) (dollar : Bool),
    Separate chunks → (dollar → ∀ chunk ∈ chunks.head?, ¬ chunk.isText) →
      scan (.template dollar :: frames) (chunks.flatMap Chunk.source ++ ['`']) = some frames
  | [], _, _, _ => rfl
  | .text text :: chunks, dollar, hchunks, hdollar => by
    have hstart : dollar → text.toList.head? ≠ some '{' :=
      fun h => absurd rfl (hdollar h (.text text) rfl)
    obtain ⟨dollar', hscan⟩ := scan_escapeTemplate frames text.toList dollar hstart
    rw [List.flatMap_cons, List.append_assoc, scan_append, Chunk.source, hscan, Option.bind_some]
    exact scan_chunks frames chunks dollar' hchunks.tail fun _ => hchunks.next
  | .hole value :: chunks, dollar, hchunks, _ => by
    have hcode := hchunks.code value List.mem_cons_self
    have hopen : scan (.template dollar :: frames) ['$', '{'] =
        some (.brace :: .template false :: frames) := by
      cases dollar <;> rfl
    have hinside : InCode (.brace :: .template false :: frames) := trivial
    have hsource : Chunk.source (.hole value) = ['$', '{'] ++ (value.inline.toList ++ ['}']) := rfl
    rw [List.flatMap_cons, hsource, List.append_assoc, List.append_assoc, List.append_assoc,
      scan_append, hopen, Option.bind_some, scan_append, hcode _ hinside, Option.bind_some]
    exact scan_chunks frames chunks false hchunks.tail (by simp)

theorem Code.template {chunks : List Chunk} (h : Separate chunks) :
    Code (Expr.template chunks).inline.toList := by
  intro frames hframes
  rw [template_inline, scan_cons, advance_of_inCode hframes]
  exact scan_chunks frames chunks false h (by simp)

/-! ## Reading template literals -/

theorem textSegments?_cons {c : Char} {rest : List Char} (hslash : c ≠ '\\')
    (hmark : c ≠ '`') (hopen : c = '$' → rest.head? ≠ some '{') :
    textSegments? (c :: rest) = (textSegments? rest).map (addText [c]) := by
  rw [textSegments?.eq_4 c rest (by simp [hslash]), if_neg hmark]
  rintro tail rfl rfl
  exact hopen rfl rfl

/-- The text of a template literal is read as it stands, up to where it ends. -/
theorem textSegments?_escapeTemplate (text : List Char) {tail : List Char}
    (htail : tail.head? ≠ some '{') : textSegments? (Text.escapeTemplate text ++ tail) =
      (textSegments? tail).map (addText (Text.escapeTemplate text)) := by
  fun_induction Text.escapeTemplate text with
  | case1 => exact (congrFun Option.map_id (textSegments? tail)).symm
  | case2 rest ih =>
    change (textSegments? ('{' :: (Text.escapeTemplate rest ++ tail))).map (addText ['\\', '$']) = _
    rw [textSegments?_cons (by decide) (by decide) (by simp), ih, Option.map_map, Option.map_map]
    rfl
  | case3 c rest hne hspecial ih =>
    change (textSegments? (Text.escapeTemplate rest ++ tail)).map (addText ['\\', c]) = _
    rw [ih, Option.map_map]
    rfl
  | case4 c rest hne hspecial ih =>
    have hopen : c = '$' → (Text.escapeTemplate rest ++ tail).head? ≠ some '{' := by
      refine fun hc => head?_escapeTemplate_append (fun hhead => ?_) htail
      obtain ⟨inner, rfl⟩ := List.head?_eq_some_iff.1 hhead
      exact hne inner hc rfl
    rw [List.cons_append, textSegments?_cons (by simp_all) (by simp_all) hopen, ih, Option.map_map]
    rfl

/-- An interpolation is read up to the brace that closes it. -/
theorem holeSegments?_scan (source rest : List Char) : ∀ frames : List Frame,
    scan frames source = some [] → holeSegments? frames (source ++ '}' :: rest) =
      (textSegments? rest).map (.hole source :: ·) := by
  induction source with
  | nil =>
    intro frames h
    cases h
    rfl
  | cons c source ih =>
    intro frames h
    rw [scan_cons] at h
    obtain ⟨next, hnext, h⟩ := Option.bind_eq_some_iff.1 h
    have hopen : (frames.isEmpty && c = '}') = false := by
      by_contra hclose
      simp at hclose
      rw [hclose.1, hclose.2] at hnext
      cases hnext
    rw [List.cons_append, holeSegments?.eq_2, hopen, hnext, Option.bind_some, ih next h]
    simp [Option.map_map, Function.comp_def, addSource]

/-- A chunk as it is read, with escapes as they stand. -/
def Chunk.raw : Chunk → Segment
  | .text contents => .text (Text.escapeTemplate contents.toList)
  | .hole value => .hole value.inline.toList

theorem addText_of_hole {text : List Char} (htext : text ≠ []) {segments : List Segment}
    (h : ∀ value, segments.head? ≠ some (.text value)) :
    addText text segments = .text text :: segments := by
  induction text with
  | nil => exact absurd rfl htext
  | cons c text ih =>
    by_cases hlast : text = []
    · cases segments with
      | nil => simp [hlast, addText, addChar]
      | cons segment rest =>
        cases segment with
        | text value => exact absurd rfl (h value)
        | hole source => simp [hlast, addText, addChar]
    · change addChar c (addText text segments) = _
      rw [ih hlast]
      rfl

theorem textSegments?_chunks : ∀ chunks : List Chunk, Separate chunks →
    textSegments? (chunks.flatMap Chunk.source ++ ['`']) = some (chunks.map Chunk.raw)
  | [], _ => rfl
  | .text text :: chunks, h => by
    have hne : Text.escapeTemplate text.toList ≠ [] := by
      rw [Ne, escapeTemplate_eq_nil, String.toList_eq_nil_iff]
      exact h.nonempty text List.mem_cons_self
    have htail : (chunks.flatMap Chunk.source ++ ['`']).head? ≠ some '{' := by
      cases chunks with
      | nil => simp
      | cons chunk chunks =>
        cases chunk with
        | text other => exact absurd rfl (h.next _ rfl)
        | hole value => simp [Chunk.source]
    have hhole : ∀ value, (chunks.map Chunk.raw).head? ≠ some (.text value) := by
      cases chunks with
      | nil => simp
      | cons chunk chunks =>
        cases chunk with
        | text other => exact absurd rfl (h.next _ rfl)
        | hole value => simp [Chunk.raw]
    rw [List.flatMap_cons, List.append_assoc, Chunk.source, textSegments?_escapeTemplate _ htail,
      textSegments?_chunks chunks h.tail, Option.map_some, addText_of_hole hne hhole]
    rfl
  | .hole value :: chunks, h => by
    have hcode := h.code value List.mem_cons_self [] trivial
    rw [List.flatMap_cons, Chunk.source]
    simp only [List.cons_append, List.append_assoc, List.nil_append]
    rw [textSegments?, holeSegments?_scan _ _ _ hcode, textSegments?_chunks chunks h.tail]
    rfl

theorem cook_raw (chunk : Chunk) : chunk.raw.cook = some chunk.segment := by
  cases chunk with
  | text text =>
    rw [Chunk.raw, Segment.cook, newlines_escapeTemplate, unescape_escapeTemplate]
    rfl
  | hole value => rfl

/-- **A template literal is read as its chunks,** with each line end of a text as a line feed. -/
theorem literal?_template {chunks : List Chunk} (h : Separate chunks) :
    literal? (Expr.template chunks).inline.toList = some (chunks.map Chunk.segment) := by
  rw [template_inline, literal?, textSegments?_chunks chunks h, Option.bind_some]
  clear h
  induction chunks with
  | nil => rfl
  | cons chunk chunks ih => simp [cook_raw, ih]

end CdkStacks.TypeScript
