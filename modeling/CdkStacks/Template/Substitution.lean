import CdkStacks.Template.Value
import CdkStacks.Text.Blank

/-!
# Substitution texts

The text of `Fn::Sub` holds placeholders between a dollar sign with an opening brace and the
next closing brace.

* `hole?` finds the first placeholder of a text;
* `placeholder` says what a placeholder names: a variable of the substitution, a pseudo parameter,
  an attribute, or a parameter or resource, in this order of preference;
* `cut` cuts a text into pieces. A placeholder that starts with an exclamation mark is text, and so
  is an opening without a closing brace.
-/

namespace CdkStacks.Template

/-- Split at the first occurrence of a character, which belongs to neither side. -/
def splitAt? (mark : Char) : List Char → Option (List Char × List Char)
  | [] => none
  | c :: rest =>
    if c = mark then some ([], rest)
    else (splitAt? mark rest).map fun (left, right) => (c :: left, right)

/-- Split a text at the first occurrence of a character. -/
def splitOnce? (mark : Char) (s : String) : Option (String × String) :=
  (splitAt? mark s.toList).map fun (left, right) => (String.ofList left, String.ofList right)

/-- Split at the first opening of a placeholder, which belongs to neither side. -/
def opening? : List Char → Option (List Char × List Char)
  | [] => none
  | '$' :: '{' :: rest => some ([], rest)
  | c :: rest => (opening? rest).map fun (left, right) => (c :: left, right)

/-- The first placeholder: what stands before it, its inside, and what stands after it. -/
def hole? (cs : List Char) : Option (List Char × List Char × List Char) :=
  (opening? cs).bind fun (before, rest) =>
    (splitAt? '}' rest).map fun (inner, after) => (before, inner, after)

theorem splitAt?_length {mark : Char} {cs left right : List Char}
    (h : splitAt? mark cs = some (left, right)) :
    cs.length = left.length + right.length + 1 := by
  induction cs generalizing left right with
  | nil => simp [splitAt?] at h
  | cons c rest ih =>
    unfold splitAt? at h
    split at h
    · cases h
      simp
    · cases hr : splitAt? mark rest with
      | none => simp [hr] at h
      | some p =>
        obtain ⟨l, r⟩ := p
        simp only [hr, Option.map_some, Option.some.injEq, Prod.mk.injEq] at h
        obtain ⟨rfl, rfl⟩ := h
        have := ih hr
        simp only [List.length_cons]
        omega

theorem opening?_length {cs left right : List Char} (h : opening? cs = some (left, right)) :
    right.length < cs.length := by
  induction cs using opening?.induct generalizing left right with
  | case1 => simp [opening?] at h
  | case2 rest =>
    simp only [opening?, Option.some.injEq, Prod.mk.injEq] at h
    obtain ⟨-, rfl⟩ := h
    simp only [List.length_cons]
    omega
  | case3 c rest hne ih =>
    rw [opening?.eq_3 c rest hne] at h
    cases hr : opening? rest with
    | none => simp [hr] at h
    | some p =>
      obtain ⟨l, r⟩ := p
      simp only [hr, Option.map_some, Option.some.injEq, Prod.mk.injEq] at h
      obtain ⟨-, rfl⟩ := h
      have := ih hr
      simp only [List.length_cons]
      omega

/-- What stands after a placeholder is shorter than the whole text. -/
theorem hole?_length {cs before inner after : List Char}
    (h : hole? cs = some (before, inner, after)) : after.length < cs.length := by
  unfold hole? at h
  cases ho : opening? cs with
  | none => simp [ho] at h
  | some p =>
    obtain ⟨b, rest⟩ := p
    simp only [ho, Option.bind_some] at h
    cases hs : splitAt? '}' rest with
    | none => simp [hs] at h
    | some q =>
      obtain ⟨i, a⟩ := q
      simp only [hs, Option.map_some, Option.some.injEq, Prod.mk.injEq] at h
      obtain ⟨-, -, rfl⟩ := h
      have := opening?_length ho
      have := splitAt?_length hs
      omega

/-- What the placeholder `name` stands for when the substitution binds the names `bound`. -/
def placeholder (bound : List String) (name : String) : Piece :=
  if bound.contains name then .bound name
  else match Pseudo.ofName? name with
    | some p => .pseudo p
    | none => match splitOnce? '.' name with
      | some (target, member) => .getAtt target member
      | none => .name name

/-- A text piece, unless the text is empty. -/
def textPiece (cs : List Char) : List Piece :=
  if cs.isEmpty then [] else [.text (String.ofList cs)]

/-- The first placeholder, with the fact that less text is left behind it. -/
def nextHole? (cs : List Char) :
    Option (List Char × List Char × { after : List Char // after.length < cs.length }) :=
  match h : hole? cs with
  | none => none
  | some (before, inner, after) => some (before, inner, ⟨after, hole?_length h⟩)

/-- Cut the rest of a text into pieces; `text` is text already read that no piece holds yet. -/
def cutFrom (bound : List String) (text cs : List Char) : List Piece :=
  match nextHole? cs with
  | none => textPiece (text ++ cs)
  | some (before, '!' :: literal, ⟨after, _⟩) =>
    cutFrom bound (text ++ before ++ '$' :: '{' :: literal ++ ['}']) after
  | some (before, inner, ⟨after, _⟩) =>
    textPiece (text ++ before) ++
      placeholder bound (String.ofList (Text.trimList inner)) :: cutFrom bound [] after
termination_by cs.length

/-- Cut a substitution text into pieces; `bound` are the names that the substitution binds. -/
def cut (text : String) (bound : List String) : List Piece :=
  cutFrom bound [] text.toList

end CdkStacks.Template
