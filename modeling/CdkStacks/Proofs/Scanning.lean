import CdkStacks.Proofs.Decoded

/-!
# Scanning substitution texts

A substitution text can be read one character at a time, without searching ahead for the next
placeholder and without a text at hand.

* `scan` reads a text from left to right into marks: characters and placeholders. An opening is
  special only when a closing brace stands somewhere behind it;
* `classify` says what the name of a placeholder stands for;
* `merged` puts characters in a row together;
* `fillPieces`, `fillMarks` put texts in the place of the placeholders;
* `cut_agrees_scan`: cutting a text gives the merged marks, with nothing empty and no two texts in a
  row, and the same text however its placeholders are filled.
-/

namespace CdkStacks.Template

/-! ## The scanner -/

/-- What a scanner meets in a text. -/
inductive Mark where
  | char (c : Char)
  | hole (piece : Piece)
  deriving DecidableEq, Repr

/-- What the name of a placeholder stands for: a bound name comes first, then a pseudo parameter,
then an attribute, whose resource ends at the first dot. -/
def classify (bound : List String) (name : List Char) : Piece :=
  if String.ofList name ∈ bound then .bound (String.ofList name)
  else
    match Pseudo.all.find? fun parameter => parameter.name.toList = name with
    | some parameter => .pseudo parameter
    | none =>
      if '.' ∈ name then
        .getAtt (String.ofList (name.takeWhile (· ≠ '.')))
          (String.ofList (name.dropWhile (· ≠ '.')).tail)
      else .name (String.ofList name)

/-- The marks of what stands between braces: an exclamation mark makes it literal text, without that
mark. -/
def enclosed (bound : List String) (inner : List Char) : List Mark :=
  if inner.head? = some '!' then ('$' :: '{' :: (inner.tail ++ ['}'])).map .char
  else [.hole (classify bound (Text.trimList inner))]

/-- The marks of a text, from left to right. -/
def scan (bound : List String) : List Char → List Mark
  | [] => []
  | '$' :: '{' :: rest =>
    if '}' ∈ rest then
      enclosed bound (rest.takeWhile (· ≠ '}')) ++ scan bound (rest.dropWhile (· ≠ '}')).tail
    else .char '$' :: scan bound ('{' :: rest)
  | c :: rest => .char c :: scan bound rest
termination_by cs => cs.length
decreasing_by
  · have := (List.dropWhile_suffix (l := rest) (· ≠ '}')).length_le
    simp only [List.length_tail, List.length_cons]
    omega
  · simp
  · simp

/-- A character in front of pieces, as a part of the text that they start with. -/
def prepend (c : Char) : List Piece → List Piece
  | .text text :: rest => .text (String.ofList (c :: text.toList)) :: rest
  | pieces => .text (String.ofList [c]) :: pieces

/-- The pieces of marks: characters in a row are one text. -/
def merged : List Mark → List Piece
  | [] => []
  | .char c :: rest => prepend c (merged rest)
  | .hole piece :: rest => piece :: merged rest

/-! ## Filled texts -/

/-- The text of pieces when the placeholder number `n` is filled by `fill n`. -/
def fillPieces (fill : Nat → Piece → List Char) : Nat → List Piece → List Char
  | _, [] => []
  | n, piece :: rest =>
    if piece.isText then piece.inner.toList ++ fillPieces fill n rest
    else fill n piece ++ fillPieces fill (n + 1) rest

/-- The text of marks when the placeholder number `n` is filled by `fill n`. -/
def fillMarks (fill : Nat → Piece → List Char) : Nat → List Mark → List Char
  | _, [] => []
  | n, .char c :: rest => c :: fillMarks fill n rest
  | n, .hole piece :: rest => fill n piece ++ fillMarks fill (n + 1) rest

/-! ## Splitting a text at a character -/

section Splitting

variable {mark : Char} {cs left right : List Char}

theorem ne_of_notMem (h : mark ∉ left) : ∀ c ∈ left, decide (c ≠ mark) = true := by
  intro c hc
  simpa using ne_of_mem_of_not_mem hc h

theorem takeWhile_split (h : mark ∉ left) :
    (left ++ mark :: right).takeWhile (· ≠ mark) = left := by
  rw [List.takeWhile_append_of_pos (ne_of_notMem h)]
  simp

theorem dropWhile_split (h : mark ∉ left) :
    (left ++ mark :: right).dropWhile (· ≠ mark) = mark :: right := by
  rw [List.dropWhile_append_of_pos (ne_of_notMem h)]
  simp

theorem splitAt?_of_mem (h : mark ∈ cs) :
    splitAt? mark cs = some (cs.takeWhile (· ≠ mark), (cs.dropWhile (· ≠ mark)).tail) := by
  obtain ⟨left, right, rfl, hleft⟩ := List.eq_append_cons_of_mem h
  rw [splitAt?_append right hleft, takeWhile_split hleft, dropWhile_split hleft, List.tail_cons]

end Splitting

/-- **The name of a placeholder stands for the same** in both ways of reading it. -/
theorem placeholder_eq_classify (bound : List String) (name : List Char) :
    placeholder bound (String.ofList name) = classify bound name := by
  have hpseudo : Pseudo.ofName? (String.ofList name) =
      Pseudo.all.find? fun parameter => parameter.name.toList = name := by
    simp only [Pseudo.ofName?, ← String.toList_inj, String.toList_ofList]
  by_cases hbound : String.ofList name ∈ bound
  · simp [placeholder, classify, hbound]
  · cases hfind : Pseudo.all.find? fun parameter => parameter.name.toList = name with
    | some parameter => simp [placeholder, classify, hbound, hpseudo, hfind]
    | none =>
      by_cases hdot : '.' ∈ name
      · simp [placeholder, classify, hbound, hpseudo, hfind, hdot, splitOnce?,
          splitAt?_of_mem hdot]
      · simp [placeholder, classify, hbound, hpseudo, hfind, hdot, splitOnce?,
          splitAt?_eq_none hdot]

theorem classify_isHole (bound : List String) (name : List Char) :
    ¬ (classify bound name).isText := by
  rw [← placeholder_eq_classify]
  exact placeholder_isHole bound _

/-! ## Steps of the scanner -/

section Scanning

variable {bound : List String}

theorem scan_cons {c : Char} {cs : List Char} (h : ∀ rest, c :: cs ≠ '$' :: '{' :: rest) :
    scan bound (c :: cs) = .char c :: scan bound cs :=
  scan.eq_3 bound c cs fun rest hc hcs => h rest (by rw [hc, hcs])

/-- A placeholder is read up to its first closing brace. -/
theorem scan_placeholder {inner : List Char} (after : List Char) (h : '}' ∉ inner) :
    scan bound ('$' :: '{' :: (inner ++ '}' :: after)) =
      enclosed bound inner ++ scan bound after := by
  have hbrace : '}' ∈ inner ++ '}' :: after := by simp
  rw [scan, if_pos hbrace, takeWhile_split h, dropWhile_split h, List.tail_cons]

/-- Without a closing brace, all is text. -/
theorem scan_unclosed {cs : List Char} (h : '}' ∉ cs) : scan bound cs = cs.map .char := by
  fun_induction scan bound cs with
  | case1 => rfl
  | case2 rest hbrace ih => simp [hbrace] at h
  | case3 rest hbrace ih =>
    rw [ih (by simpa using hbrace)]
    rfl
  | case4 c rest hopen ih =>
    rw [ih (by simp_all)]
    rfl

/-! ## Merging -/

theorem prepend_of_notText {c : Char} {pieces : List Piece}
    (h : ∀ piece ∈ pieces.head?, ¬ piece.isText) :
    prepend c pieces = .text (String.ofList [c]) :: pieces := by
  unfold prepend
  split
  · exact absurd rfl (h _ rfl)
  · rfl

/-- Characters in a row are one text, when no other text stands behind them. -/
theorem merged_chars (text : List Char) {marks : List Mark}
    (h : ∀ piece ∈ (merged marks).head?, ¬ piece.isText) :
    merged (text.map .char ++ marks) = textPiece text ++ merged marks := by
  induction text with
  | nil => simp [textPiece]
  | cons c text ih =>
    rw [List.map_cons, List.cons_append, merged, ih]
    cases text with
    | nil => simpa [textPiece] using prepend_of_notText h
    | cons d text => simp [textPiece, prepend]

theorem merged_map_char (text : List Char) : merged (text.map .char) = textPiece text := by
  have hnil : ∀ piece ∈ (merged []).head?, ¬ piece.isText := by simp [merged]
  rw [← List.append_nil (text.map _), merged_chars text hnil, merged, List.append_nil]

/-- **Cutting is merging what the scanner meets,** also with a text at hand. -/
theorem cutFrom_eq_merged (text cs : List Char) :
    cutFrom bound text cs = merged (text.map .char ++ scan bound cs) := by
  induction cs using scan.induct generalizing text with
  | case1 =>
    rw [cutFrom_of_none rfl, scan, List.append_nil, List.append_nil, merged_map_char]
  | case2 rest hbrace ih =>
    obtain ⟨inner, after, rfl, hinner⟩ := List.eq_append_cons_of_mem hbrace
    rw [dropWhile_split hinner, List.tail_cons] at ih
    have hhole := hole?_opening after hinner
    rw [scan_placeholder after hinner]
    by_cases hmark : inner.head? = some '!'
    · -- a literal becomes a part of the text at hand
      obtain ⟨literal, rfl⟩ := List.head?_eq_some_iff.1 hmark
      rw [cutFrom_of_literal hhole, ih]
      simp [enclosed]
    · -- a placeholder ends the text at hand
      have hne : ∀ literal, inner ≠ '!' :: literal := by
        rintro literal rfl
        exact hmark rfl
      have hmarks : enclosed bound inner ++ scan bound after =
          .hole (classify bound (Text.trimList inner)) :: scan bound after := by
        simp [enclosed, hmark]
      have hhead : ∀ piece ∈ (merged (enclosed bound inner ++ scan bound after)).head?,
          ¬ piece.isText := by
        rw [hmarks]
        rintro piece ⟨⟩
        exact classify_isHole bound _
      rw [cutFrom_of_placeholder hhole hne, ih [], merged_chars text hhead, hmarks, merged,
        placeholder_eq_classify, List.append_nil, List.map_nil, List.nil_append]
  | case3 rest hbrace ih =>
    have hunclosed : '}' ∉ '$' :: '{' :: rest := by simpa using hbrace
    rw [cutFrom_opening hbrace, scan_unclosed hunclosed, ← List.map_append, merged_map_char]
  | case4 c rest hopen ih =>
    have hplain : ∀ behind, c :: rest ≠ '$' :: '{' :: behind := by
      rintro behind h
      obtain ⟨rfl, rfl⟩ := List.cons.inj h
      exact hopen behind rfl rfl
    rw [cutFrom_cons hplain, ih, scan_cons hplain]
    simp

/-! ## Filling -/

theorem fillPieces_prepend (fill : Nat → Piece → List Char) (n : Nat) (c : Char)
    (pieces : List Piece) :
    fillPieces fill n (prepend c pieces) = c :: fillPieces fill n pieces := by
  unfold prepend
  split
  · simp [fillPieces, Piece.isText, Piece.inner]
  · simp [fillPieces, Piece.isText, Piece.inner]

/-- Merging keeps the text, however it is filled. -/
theorem fillPieces_merged (fill : Nat → Piece → List Char) (n : Nat) (marks : List Mark)
    (h : ∀ piece, .hole piece ∈ marks → ¬ piece.isText) :
    fillPieces fill n (merged marks) = fillMarks fill n marks := by
  induction marks generalizing n with
  | nil => rfl
  | cons mark rest ih =>
    have hrest : ∀ piece, .hole piece ∈ rest → ¬ piece.isText :=
      fun piece hpiece => h piece (List.mem_cons_of_mem _ hpiece)
    cases mark with
    | char c => rw [merged, fillPieces_prepend, ih n hrest, fillMarks]
    | hole piece =>
      rw [merged, fillPieces, if_neg (h piece List.mem_cons_self), ih (n + 1) hrest, fillMarks]

theorem scan_isHole (cs : List Char) : ∀ piece, .hole piece ∈ scan bound cs → ¬ piece.isText := by
  intro piece
  fun_induction scan bound cs with
  | case1 => simp
  | case2 rest hbrace ih =>
    intro hmem
    rcases List.mem_append.1 hmem with hmem | hmem
    · unfold enclosed at hmem
      split_ifs at hmem
      · obtain ⟨c, -, hc⟩ := List.mem_map.1 hmem
        cases hc
      · obtain rfl : piece = _ := by simpa using hmem
        exact classify_isHole bound _
    · exact ih hmem
  | case3 rest hbrace ih => simpa using ih
  | case4 c rest hopen ih => simpa using ih

end Scanning

/-- **Cutting agrees with the scanner.** The pieces of a text are the marks that the scanner meets,
with the characters in a row put together. No piece is an empty text and no two texts stand in a
row; a text with its placeholders filled is what it is for the scanner; and every placeholder that
is searched for leaves less text behind it. -/
theorem cut_agrees_scan (text : String) (bound : List String) :
    cut text bound = merged (scan bound text.toList) ∧
      Piece.text "" ∉ cut text bound ∧
      (cut text bound).IsChain (fun first second => ¬ (first.isText ∧ second.isText)) ∧
      (∀ fill : Nat → Piece → List Char,
        fillPieces fill 0 (cut text bound) = fillMarks fill 0 (scan bound text.toList)) ∧
      ∀ cs before inner after, hole? cs = some (before, inner, after) →
        after.length < cs.length := by
  have hcut : cut text bound = merged (scan bound text.toList) := cutFrom_eq_merged [] text.toList
  obtain ⟨hnonempty, hapart⟩ := cutPieces_cut text bound
  refine ⟨hcut, hnonempty, hapart, fun fill => ?_, fun cs before inner after => hole?_length⟩
  rw [hcut]
  exact fillPieces_merged fill 0 _ (scan_isHole text.toList)

end CdkStacks.Template
