import CdkStacks.Proofs.TopLevel
import CdkStacks.Proofs.Allocations

/-!
# Places of generated files

Where the three files of a stack lie in its project, and that the app and the test import the stack
from where it lies.

* `Hyphenated` says how the name of a file looks; `kebab_hyphenated`: it looks so for every name,
  and `fileName_ne_empty`: it is not empty for a class;
* `segments_intercalate`: the segments of a path are the parts that it is put together from, and
  `Component.ofSegment?_name`: such a part is a component;
* `reach` follows components from a directory of the project, and gives nothing when they lead out
  of it; `resolveModule` is where a file finds a module that it imports;
* `Spread` is how the files lie in the project;
* `stack_found`: they lie there, and what the app and the test import is the stack.
-/

namespace CdkStacks.Text

/-! ## Names of files -/

/-- Words in lower-case letters and digits, with single hyphens between them. -/
structure Hyphenated (text : String) : Prop where
  chars : ∀ c ∈ text.toList, c.isLower ∨ c.isDigit ∨ c = '-'
  inner : ∀ before after, text.toList = before ++ '-' :: after →
    before ≠ [] ∧ before.getLast? ≠ some '-' ∧ after ≠ [] ∧ after.head? ≠ some '-'

theorem Hyphenated.notMem {text : String} (h : Hyphenated text) {c : Char}
    (hc : ¬ (c.isLower ∨ c.isDigit ∨ c = '-')) : c ∉ text.toList :=
  fun hmem => hc (h.chars c hmem)

theorem lowerWord_lower {word : List Char} (h : ∀ c ∈ word, c.isAlphanum) :
    ∀ c ∈ lowerWord word, c.isLower ∨ c.isDigit := by
  intro c hc
  obtain ⟨d, hd, rfl⟩ := List.mem_map.1 hc
  exact of_ascii (P := fun c => c.isAlphanum → c.toLower.isLower ∨ c.toLower.isDigit)
    (by decide) (h d hd) (h d hd)

theorem hyphen_notMem_lowerWord {name : String} {word : List Char} (h : word ∈ words name) :
    '-' ∉ lowerWord word := by
  intro hmem
  rcases lowerWord_lower (words_isAlphanum h) '-' hmem with hlower | hdigit
  · cases hlower
  · cases hdigit

/-- The words of a name stand between the hyphens of its file name. -/
theorem splitOn_kebab {name : String} (h : words name ≠ []) :
    (kebab name).toList.splitOn '-' = (words name).map lowerWord := by
  rw [kebab, String.toList_ofList]
  refine List.splitOn_intercalate '-' (fun word hword => ?_) (by simpa using h)
  obtain ⟨original, horiginal, rfl⟩ := List.mem_map.1 hword
  exact hyphen_notMem_lowerWord horiginal

theorem lowerWord_ne_nil {name : String} {word : List Char} (h : word ∈ words name) :
    lowerWord word ≠ [] := by
  intro hnil
  rw [lowerWord, List.map_eq_nil_iff] at hnil
  exact words_ne_nil (hnil ▸ h)

theorem mem_of_mem_intercalate {mark : List Char} {parts : List (List Char)} {c : Char}
    (h : c ∈ mark.intercalate parts) : c ∈ mark ∨ ∃ part ∈ parts, c ∈ part := by
  induction parts with
  | nil => simp at h
  | cons first rest ih =>
    cases rest with
    | nil => exact Or.inr ⟨first, List.mem_cons_self, by simpa using h⟩
    | cons second rest =>
      rw [List.intercalate_cons_cons, List.mem_append, List.mem_append] at h
      rcases h with (hfirst | hmark) | hrest
      · exact Or.inr ⟨first, List.mem_cons_self, hfirst⟩
      · exact Or.inl hmark
      · rcases ih hrest with hmark | ⟨part, hpart, hc⟩
        · exact Or.inl hmark
        · exact Or.inr ⟨part, List.mem_cons_of_mem _ hpart, hc⟩

theorem kebab_chars {name : String} {c : Char} (h : c ∈ (kebab name).toList) :
    c.isLower ∨ c.isDigit ∨ c = '-' := by
  rw [kebab, String.toList_ofList] at h
  rcases mem_of_mem_intercalate h with hmark | ⟨part, hpart, hc⟩
  · exact Or.inr (Or.inr (List.mem_singleton.1 hmark))
  · obtain ⟨word, hword, rfl⟩ := List.mem_map.1 hpart
    rcases lowerWord_lower (words_isAlphanum hword) c hc with hlower | hdigit
    · exact Or.inl hlower
    · exact Or.inr (Or.inl hdigit)

/-- Between two hyphens of a file name, before the first and behind the last one is a word. -/
theorem nil_notMem_splitOn_kebab (name : String) (h : (kebab name).toList ≠ []) :
    [] ∉ (kebab name).toList.splitOn '-' := by
  have hwords : words name ≠ [] := by
    intro hnil
    simp [kebab, hnil] at h
  rw [splitOn_kebab hwords, List.mem_map]
  rintro ⟨word, hword, hnil⟩
  exact lowerWord_ne_nil hword hnil

/-- **The name of a file is hyphenated,** whatever name it is made of. -/
theorem kebab_hyphenated (name : String) : Hyphenated (kebab name) := by
  refine ⟨fun c hc => kebab_chars hc, fun before after h => ?_⟩
  have hnil := nil_notMem_splitOn_kebab name (by simp [h])
  rw [h, List.splitOn_append_cons_self, List.mem_append, not_or] at hnil
  obtain ⟨hbefore, hafter⟩ := hnil
  refine ⟨?_, ?_, ?_, ?_⟩
  · rintro rfl
    exact hbefore (by simp)
  · intro hlast
    obtain ⟨front, rfl⟩ := List.getLast?_eq_some_iff.1 hlast
    rw [List.splitOn_append_cons_self] at hbefore
    simp at hbefore
  · rintro rfl
    exact hafter (by simp)
  · intro hhead
    obtain ⟨rest, rfl⟩ := List.head?_eq_some_iff.1 hhead
    exact hafter (List.mem_append_left (rest.splitOn '-') (List.mem_singleton_self []))

/-! ## Classes have file names -/

theorem flatten_pieces (cs : List Char) : (pieces cs).flatten = cs.filter Char.isAlphanum := by
  fun_induction pieces cs with
  | case1 => rfl
  | case2 c rest hc hnil ih => simp_all
  | case3 c rest hc first more hpieces ih => simp_all
  | case4 c rest hc ih => simp_all

theorem flatten_words (name : String) :
    (words name).flatten = name.toList.filter Char.isAlphanum := by
  rw [words, ← flatten_pieces]
  induction pieces name.toList with
  | nil => rfl
  | cons piece rest ih => simp [flatten_splitPiece, ih]

/-- A name with a letter or digit has a file name. -/
theorem kebab_ne_empty {name : String} (h : ∃ c ∈ name.toList, c.isAlphanum) :
    kebab name ≠ "" := by
  obtain ⟨c, hc, halphanum⟩ := h
  intro hempty
  have hmem : c ∈ (words name).flatten := by
    rw [flatten_words]
    exact List.mem_filter.2 ⟨hc, halphanum⟩
  obtain ⟨word, hword, -⟩ := List.mem_flatten.1 hmem
  have hsplit := splitOn_kebab (List.ne_nil_of_mem hword)
  rw [hempty] at hsplit
  have hnil : [] ∈ (words name).map lowerWord := by
    rw [← hsplit]
    exact List.mem_singleton_self []
  obtain ⟨other, hother, hlower⟩ := List.mem_map.1 hnil
  exact lowerWord_ne_nil hother hlower

end CdkStacks.Text

namespace CdkStacks.Files

/-! ## Segments of a path -/

theorem segments_eq_splitOn (cs : List Char) : segments cs = cs.splitOn '/' := by
  induction cs with
  | nil => rfl
  | cons c rest ih =>
    rw [segments, ih, List.splitOn_cons_eq_if_modifyHead]
    cases h : rest.splitOn '/' with
    | nil => exact absurd h (List.splitOn_ne_nil '/' rest)
    | cons first more =>
      by_cases hslash : c = '/'
      · simp [hslash]
      · simp [hslash]

/-- The segments of a path are the parts that it is put together from. -/
theorem segments_intercalate {parts : List String} (hne : parts ≠ [])
    (h : ∀ part ∈ parts, '/' ∉ part.toList) :
    segments ("/".intercalate parts).toList = parts.map String.toList := by
  rw [segments_eq_splitOn, String.toList_intercalate]
  refine List.splitOn_intercalate '/' (fun segment hsegment => ?_) (by simpa using hne)
  obtain ⟨part, hpart, rfl⟩ := List.mem_map.1 hsegment
  exact h part hpart

/-- A segment that is neither empty nor made of dots is a name. -/
theorem Component.ofSegment?_name {text : String} (h : text ∉ ["", ".", ".."]) :
    Component.ofSegment? text.toList = some (.name text) := by
  have hdots : ∀ dots ∈ ["", ".", ".."], text.toList ≠ dots.toList := by
    intro dots hdots heq
    exact h (String.toList_injective heq ▸ hdots)
  unfold ofSegment?
  split
  · rename_i heq
    exact absurd heq (hdots "" (by decide))
  · rename_i heq
    exact absurd heq (hdots "." (by decide))
  · rename_i heq
    exact absurd heq (hdots ".." (by decide))
  · rw [String.ofList_toList]

/-- A part that is neither empty nor made of dots, and has no slash. -/
def IsName (part : String) : Prop :=
  '/' ∉ part.toList ∧ part ∉ ["", ".", ".."]

theorem filterMap_ofSegment? {names : List String} (h : ∀ name ∈ names, IsName name) :
    (names.filterMap fun name => Component.ofSegment? name.toList) = names.map .name :=
  List.filterMap_eq_map_iff_forall_eq_some.2 fun name hname =>
    Component.ofSegment?_name (h name hname).2

/-- The components of a path that starts with a name or with `..`. -/
theorem components_intercalate {first : String} {rest : List String}
    (hfirst : first ∉ ["", "."]) (h : ∀ part ∈ first :: rest, '/' ∉ part.toList) :
    FilePath.components ⟨"/".intercalate (first :: rest)⟩ =
      (first :: rest).filterMap fun part => Component.ofSegment? part.toList := by
  have hdots : ∀ dots ∈ ["", "."], first.toList ≠ dots.toList := by
    intro dots hdots heq
    exact hfirst (String.toList_injective heq ▸ hdots)
  unfold FilePath.components
  simp only [segments_intercalate (List.cons_ne_nil first rest) h]
  split
  · rename_i heq
    exact absurd (List.cons.inj heq).1 (hdots "" (by decide))
  · rename_i heq
    exact absurd (List.cons.inj heq).1 (hdots "." (by decide))
  · exact List.filterMap_map

/-- The components of a path that starts with `.`. -/
theorem components_here {rest : List String} (h : ∀ part ∈ rest, '/' ∉ part.toList) :
    FilePath.components ⟨"/".intercalate ("." :: rest)⟩ =
      .here :: rest.filterMap fun part => Component.ofSegment? part.toList := by
  have hparts : ∀ part ∈ "." :: rest, '/' ∉ part.toList :=
    List.forall_mem_cons.2 ⟨by decide, h⟩
  unfold FilePath.components
  simp only [segments_intercalate (List.cons_ne_nil "." rest) hparts]
  exact congrArg (Component.here :: ·) List.filterMap_map

/-- The components of a path of names are the names. -/
theorem components_names {first : String} {rest : List String}
    (h : ∀ name ∈ first :: rest, IsName name) :
    FilePath.components ⟨"/".intercalate (first :: rest)⟩ = (first :: rest).map .name := by
  have hfirst : first ∉ ["", "."] := by
    have hname := (h first List.mem_cons_self).2
    simp only [List.mem_cons, not_or] at hname ⊢
    exact ⟨hname.1, hname.2.1, List.not_mem_nil⟩
  rw [components_intercalate hfirst fun part hpart => (h part hpart).1, filterMap_ofSegment? h]

/-! ## Places in a project -/

/-- Where components lead from a directory of a project. They lead nowhere when they start at the
root or leave the project. -/
def reach : List String → List Component → Option (List String)
  | directory, [] => some directory
  | _, .root :: _ => none
  | directory, .here :: rest => reach directory rest
  | directory, .parent :: rest => if directory.isEmpty then none else reach directory.dropLast rest
  | directory, .name text :: rest => reach (directory ++ [text]) rest

/-- Where a file of a project finds a module that it imports: the path of the module is followed
from the directory of the file. -/
def resolveModule (file : FilePath) (module : String) : Option (List String) := do
  let directory ← reach [] file.components.dropLast
  reach directory (FilePath.components ⟨module⟩)

theorem reach_names (directory names : List String) :
    reach directory (names.map .name) = some (directory ++ names) := by
  induction names generalizing directory with
  | nil => simp [reach]
  | cons name rest ih => simp [reach, ih]

/-- A file finds a module from the directory that it is in. -/
theorem resolveModule_of_components {file : FilePath} {directory : List String} {last : String}
    (h : file.components = (directory ++ [last]).map .name) (module : String) :
    resolveModule file module = reach directory (FilePath.components ⟨module⟩) := by
  unfold resolveModule
  rw [h, List.map_append, List.map_singleton, List.dropLast_concat, reach_names]
  rfl

end CdkStacks.Files

namespace CdkStacks.Scaffold

open CdkStacks.Files CdkStacks.Text CdkStacks.TypeScript

/-! ## Paths of the files -/

/-- The directories below `lib` on the way to the stack: that of the app, when the project holds
several apps and the app has a file name. -/
def appDirectory (app : String) (multiApp : Bool) : List String :=
  if multiApp && app ≠ "" then [app] else []

/-- What stands in front of the file name of the stack. -/
def libraryPath (app : String) (multiApp : Bool) : String :=
  if multiApp && app ≠ "" then "lib/" ++ app ++ "/" else "lib/"

theorem isAbsolute_eq_false {text : String} (h : '/' ∉ text.toList) :
    FilePath.isAbsolute ⟨text⟩ = false := by
  unfold FilePath.isAbsolute
  rw [decide_eq_false_iff_not]
  exact fun hhead => h (List.mem_of_head? hhead)

/-- A file is put behind a directory, with a slash between them unless there is one. -/
theorem join_eq {base file : String} (hbase : base ≠ "") (hfile : '/' ∉ file.toList) :
    FilePath.join ⟨base⟩ ⟨file⟩ =
      ⟨base ++ (if base.toList.getLast? = some '/' then "" else "/") ++ file⟩ := by
  unfold FilePath.join
  rw [isAbsolute_eq_false hfile]
  by_cases hslash : base.toList.getLast? = some '/'
  · simp [hbase, hslash]
  · simp [hbase, hslash]

/-- How the files of a stack lie in a project. -/
structure Spread (paths : Paths) (appFile stackFile : String) (multiApp : Bool) : Prop where
  app : paths.app.text = "bin/" ++ (appFile ++ ".ts")
  stack : paths.stack.text = libraryPath appFile multiApp ++ (stackFile ++ ".ts")
  test : paths.test.text = libraryPath appFile multiApp ++ (stackFile ++ ".test.ts")
  /-- No two of the paths are the same. -/
  apart : (paths.all.map FilePath.components).Nodup
  /-- No path starts at the root or leaves the project. -/
  inside : ∀ path ∈ paths.all, ∃ names : List String, path.components = names.map .name

/-- A file below the directory of the stack. -/
theorem library_join {app file : String} (happ : '/' ∉ app.toList) (hfile : '/' ∉ file.toList)
    (multiApp : Bool) :
    (if multiApp then FilePath.join ⟨"lib"⟩ ⟨app⟩ else ⟨"lib"⟩ : FilePath).join ⟨file⟩ =
      ⟨libraryPath app multiApp ++ file⟩ := by
  have hlib : ∀ name : String, '/' ∉ name.toList →
      FilePath.join ⟨"lib"⟩ ⟨name⟩ = ⟨"lib/" ++ name⟩ :=
    fun name hname => join_eq (by decide) hname
  cases multiApp with
  | false => exact hlib file hfile
  | true =>
    rw [if_pos rfl, hlib app happ, join_eq (by simp) hfile]
    by_cases hempty : app = ""
    · subst hempty
      rfl
    · have hlast : ("lib/" ++ app).toList.getLast? ≠ some '/' := by
        rw [String.toList_append, List.getLast?_append_of_ne_nil _ (by simpa using hempty)]
        exact fun hlast => happ (List.mem_of_getLast? hlast)
      rw [if_neg hlast]
      simp [libraryPath, hempty]

/-! ## Components of the paths -/

section Names

variable {app stack : String}

theorem fileName_hyphenated (name : String) : Hyphenated (fileName name) :=
  kebab_hyphenated name

theorem isName_of_hyphenated {text : String} (h : Hyphenated text) (hne : text ≠ "") :
    IsName text := by
  refine ⟨h.notMem (by decide), fun hdots => ?_⟩
  have hdot : '.' ∉ text.toList := h.notMem (by decide)
  simp only [List.mem_cons, List.not_mem_nil, or_false] at hdots
  rcases hdots with rfl | rfl | rfl
  · exact hne rfl
  · exact hdot (by decide)
  · exact hdot (by decide)

/-- A file name with an extension is a name, also when nothing stands in front of the extension. -/
theorem isName_append {text extension : String} (h : Hyphenated text)
    (hextension : '/' ∉ extension.toList) (hlength : 2 < extension.length) :
    IsName (text ++ extension) := by
  refine ⟨?_, fun hdots => ?_⟩
  · rw [String.toList_append, List.mem_append, not_or]
    exact ⟨h.notMem (by decide), hextension⟩
  · have hshort : (text ++ extension).length ≤ 2 := by
      simp only [List.mem_cons, List.not_mem_nil, or_false] at hdots
      rcases hdots with hdots | hdots | hdots <;> rw [hdots] <;> decide
    rw [String.length_append] at hshort
    omega

theorem isName_appDirectory (happ : Hyphenated app) (multiApp : Bool) :
    ∀ name ∈ appDirectory app multiApp, IsName name := by
  intro name hname
  unfold appDirectory at hname
  split_ifs at hname with hcondition
  · simp only [Bool.and_eq_true, decide_eq_true_eq] at hcondition
    rw [List.mem_singleton.1 hname]
    exact isName_of_hyphenated happ hcondition.2
  · cases hname

/-- The components of a path below the directory of the stack. -/
theorem components_library (happ : Hyphenated app) (multiApp : Bool) {file : String}
    (hfile : IsName file) : FilePath.components ⟨libraryPath app multiApp ++ file⟩ =
      (("lib" :: appDirectory app multiApp) ++ [file]).map .name := by
  have htext : libraryPath app multiApp ++ file =
      "/".intercalate ("lib" :: (appDirectory app multiApp ++ [file])) := by
    apply String.toList_injective
    unfold libraryPath appDirectory
    split_ifs <;> simp [String.intercalate_cons_cons]
  rw [htext]
  refine components_names (List.forall_mem_cons.2 ⟨⟨by decide, by decide⟩, ?_⟩)
  exact List.forall_mem_append.2
    ⟨isName_appDirectory happ multiApp, List.forall_mem_singleton.2 hfile⟩

/-- An empty directory is no component. -/
theorem filterMap_appDirectory (happ : Hyphenated app) (multiApp : Bool) :
    ((if multiApp then [app] else []).filterMap fun part => Component.ofSegment? part.toList) =
      (appDirectory app multiApp).map .name := by
  cases multiApp with
  | false => rfl
  | true =>
    by_cases hempty : app = ""
    · subst hempty
      rfl
    · have hname := Component.ofSegment?_name (isName_of_hyphenated happ hempty).2
      simp [appDirectory, hempty, hname]

/-- The path by which the app imports the stack goes up once, and then down to the stack. -/
theorem components_stackModule (multiApp : Bool) (hstack : fileName stack ≠ "") :
    FilePath.components ⟨stackModule app stack multiApp⟩ = .parent ::
      (("lib" :: appDirectory (fileName app) multiApp) ++ [fileName stack]).map .name := by
  have happ : Hyphenated (fileName app) := fileName_hyphenated app
  have hname : IsName (fileName stack) := isName_of_hyphenated (fileName_hyphenated stack) hstack
  have htext : stackModule app stack multiApp = "/".intercalate (".." :: "lib" ::
      ((if multiApp then [fileName app] else []) ++ [fileName stack])) := by
    apply String.toList_injective
    unfold stackModule
    split_ifs <;> simp [String.intercalate_cons_cons]
  have hslash : ∀ part ∈ ".." :: "lib" :: ((if multiApp then [fileName app] else []) ++
      [fileName stack]), '/' ∉ part.toList := by
    refine List.forall_mem_cons.2 ⟨by decide, List.forall_mem_cons.2 ⟨by decide, ?_⟩⟩
    refine List.forall_mem_append.2 ⟨?_, List.forall_mem_singleton.2 hname.1⟩
    split_ifs
    · exact List.forall_mem_singleton.2 (happ.notMem (by decide))
    · exact List.forall_mem_nil _
  have hup : Component.ofSegment? "..".toList = some .parent := rfl
  have hlib : Component.ofSegment? "lib".toList = some (.name "lib") :=
    Component.ofSegment?_name (by decide)
  rw [htext, components_intercalate (by decide) hslash, List.filterMap_cons, hup,
    List.filterMap_cons, hlib, List.filterMap_append, filterMap_appDirectory happ,
    filterMap_ofSegment? (List.forall_mem_singleton.2 hname), ← List.map_append]
  rfl

/-- The path by which the test imports the stack stays in its directory. -/
theorem components_testModule (hstack : fileName stack ≠ "") :
    FilePath.components ⟨testModule stack⟩ = .here :: [fileName stack].map .name := by
  have hname : IsName (fileName stack) := isName_of_hyphenated (fileName_hyphenated stack) hstack
  have htext : testModule stack = "/".intercalate ["." , fileName stack] := by
    apply String.toList_injective
    simp [testModule, String.intercalate_cons_cons]
  rw [htext, components_here (List.forall_mem_singleton.2 hname.1),
    filterMap_ofSegment? (List.forall_mem_singleton.2 hname)]

end Names

/-! ## The stack is where it is looked for -/

/-- The file name of a class is not empty. -/
theorem fileName_ne_empty {name stack : String} (h : classNameOf name = .ok stack) :
    fileName stack ≠ "" := by
  unfold classNameOf at h
  dsimp only at h
  split_ifs at h with hclass
  cases h
  rw [Bool.and_eq_true] at hclass
  apply kebab_ne_empty
  have hidentifier := hclass.1
  unfold isIdentifier at hidentifier
  split at hidentifier
  · cases hidentifier
  · rename_i c rest hlist
    have hc : c ∈ (className name).toList := by simp [hlist]
    exact ⟨c, hc, upperCamel_isAlphanum name c hc⟩

section Paths

variable (app stack : String) (multiApp : Bool)

/-- The paths of a stack, put together. -/
theorem paths_eq : Paths.of app stack multiApp =
    { app := ⟨"bin/" ++ (fileName app ++ ".ts")⟩
      stack := ⟨libraryPath (fileName app) multiApp ++ (fileName stack ++ ".ts")⟩
      test := ⟨libraryPath (fileName app) multiApp ++ (fileName stack ++ ".test.ts")⟩ } := by
  have hslash : ∀ name extension : String, '/' ∉ extension.toList →
      '/' ∉ (fileName name ++ extension).toList := by
    intro name extension hextension
    rw [String.toList_append, List.mem_append, not_or]
    exact ⟨(fileName_hyphenated name).notMem (by decide), hextension⟩
  have happ : '/' ∉ (fileName app).toList := (fileName_hyphenated app).notMem (by decide)
  unfold Paths.of
  dsimp only
  rw [library_join happ (hslash stack ".ts" (by decide)),
    library_join happ (hslash stack ".test.ts" (by decide)),
    join_eq (by decide) (hslash app ".ts" (by decide))]
  rfl

theorem components_app : (Paths.of app stack multiApp).app.components =
    (["bin"] ++ [fileName app ++ ".ts"]).map .name := by
  have htext : "bin/" ++ (fileName app ++ ".ts") =
      "/".intercalate ["bin", fileName app ++ ".ts"] := by
    apply String.toList_injective
    simp [String.intercalate_cons_cons]
  have hname : IsName (fileName app ++ ".ts") :=
    isName_append (fileName_hyphenated app) (by decide) (by decide)
  rw [paths_eq, htext]
  refine components_names (List.forall_mem_cons.2 ⟨⟨by decide, by decide⟩, ?_⟩)
  exact List.forall_mem_singleton.2 hname

theorem components_stack : (Paths.of app stack multiApp).stack.components =
    (("lib" :: appDirectory (fileName app) multiApp) ++ [fileName stack ++ ".ts"]).map .name := by
  rw [paths_eq]
  exact components_library (fileName_hyphenated app) multiApp
    (isName_append (fileName_hyphenated stack) (by decide) (by decide))

theorem components_test : (Paths.of app stack multiApp).test.components =
    (("lib" :: appDirectory (fileName app) multiApp) ++ [fileName stack ++ ".test.ts"]).map
      .name := by
  rw [paths_eq]
  exact components_library (fileName_hyphenated app) multiApp
    (isName_append (fileName_hyphenated stack) (by decide) (by decide))

/-- **The files of a stack lie apart, inside of the project.** -/
theorem spread_paths :
    Spread (Paths.of app stack multiApp) (fileName app) (fileName stack) multiApp := by
  refine ⟨by rw [paths_eq], by rw [paths_eq], by rw [paths_eq], ?_, ?_⟩
  · have hinjective : Function.Injective (List.map Component.name) :=
      List.map_injective_iff.2 fun _ _ => Component.name.inj
    have hfiles : fileName stack ++ ".ts" ≠ fileName stack ++ ".test.ts" := by
      intro heq
      have hlists := congrArg String.toList heq
      simp at hlists
    simp only [Paths.all, List.map_cons, List.map_nil, components_app, components_stack,
      components_test, List.nodup_cons, List.mem_cons, hinjective.eq_iff]
    simp [hfiles]
  · refine List.forall_mem_cons.2 ⟨⟨_, components_app app stack multiApp⟩, ?_⟩
    refine List.forall_mem_cons.2 ⟨⟨_, components_stack app stack multiApp⟩, ?_⟩
    exact List.forall_mem_singleton.2 ⟨_, components_test app stack multiApp⟩

/-- The app finds the stack. -/
theorem resolve_stackModule {stack : String} (hstack : fileName stack ≠ "") :
    resolveModule (Paths.of app stack multiApp).app (stackModule app stack multiApp) =
      some (("lib" :: appDirectory (fileName app) multiApp) ++ [fileName stack]) := by
  rw [resolveModule_of_components (components_app app stack multiApp),
    components_stackModule multiApp hstack]
  exact reach_names [] _

/-- The test finds the stack. -/
theorem resolve_testModule {stack : String} (hstack : fileName stack ≠ "") :
    resolveModule (Paths.of app stack multiApp).test (testModule stack) =
      some (("lib" :: appDirectory (fileName app) multiApp) ++ [fileName stack]) := by
  rw [resolveModule_of_components (components_test app stack multiApp),
    components_testModule hstack]
  exact reach_names _ [fileName stack]

end Paths

/-- **The files of a stack lie inside of the project, and the app and the test find the stack.** For
every name of an app and every class, both file names are hyphenated, and the paths are put together
from them, so that they differ and stay in the project. The module from which the app imports the
class, seen from the app, and the one from which the test imports it, seen from the test, are the
path of the stack without its extension. -/
theorem stack_found {name : String} {scaffold : Scaffold}
    (h : classNameOf name = .ok scaffold.stackName) (libraries : Libraries) :
    Hyphenated (fileName scaffold.appName) ∧ Hyphenated (fileName scaffold.stackName) ∧
      Spread scaffold.paths (fileName scaffold.appName) (fileName scaffold.stackName)
        scaffold.multiApp ∧
      ∃ stem place, scaffold.paths.stack.text = stem ++ ".ts" ∧
        reach [] (FilePath.components ⟨stem⟩) = some place ∧
        ((scaffold.importsOfApp libraries).Has
            (stackModule scaffold.appName scaffold.stackName scaffold.multiApp)
            (.value scaffold.stackName) ∧
          resolveModule scaffold.paths.app
            (stackModule scaffold.appName scaffold.stackName scaffold.multiApp) = some place) ∧
        (scaffold.importsOfTest libraries).Has (testModule scaffold.stackName)
            (.value scaffold.stackName) ∧
          resolveModule scaffold.paths.test (testModule scaffold.stackName) = some place := by
  have hstack := fileName_ne_empty h
  have hname : IsName (fileName scaffold.stackName) :=
    isName_of_hyphenated (fileName_hyphenated scaffold.stackName) hstack
  refine ⟨fileName_hyphenated _, fileName_hyphenated _, spread_paths ..,
    libraryPath (fileName scaffold.appName) scaffold.multiApp ++ fileName scaffold.stackName, _,
    ?_, ?_, ⟨?_, resolve_stackModule _ _ hstack⟩, ?_, resolve_testModule _ _ hstack⟩
  · rw [paths, paths_eq, String.append_assoc]
  · rw [components_library (fileName_hyphenated _) _ hname]
    exact reach_names [] _
  · exact (appImports_has ..).2 (Or.inl rfl)
  · exact (testImports_has ..).2 (Or.inl rfl)

/-- A stack of an app whose name has neither letters nor digits, in a project of several apps. -/
def dottedScaffold : Scaffold where
  stackName := "MyStack2"
  appName := "../.."
  template := .ofParameters []
  provenance := .new
  multiApp := true

theorem stack_found_dotted : classNameOf "my_stack2" = .ok dottedScaffold.stackName ∧
    Spread dottedScaffold.paths "" "my-stack2" true ∧
    dottedScaffold.paths.stack.text = "lib/my-stack2.ts" ∧
    stackModule dottedScaffold.appName dottedScaffold.stackName dottedScaffold.multiApp =
      "../lib//my-stack2" ∧
    resolveModule dottedScaffold.paths.app "../lib//my-stack2" = some ["lib", "my-stack2"] ∧
    ∃ place, (dottedScaffold.importsOfTest .standard).Has "./my-stack2" (.value "MyStack2") ∧
      resolveModule dottedScaffold.paths.test "./my-stack2" = some place := by
  have hclass : classNameOf "my_stack2" = .ok dottedScaffold.stackName := rfl
  obtain ⟨-, -, hspread, stem, place, -, -, -, himport, htest⟩ := stack_found hclass .standard
  exact ⟨hclass, hspread, rfl, rfl, by decide, place, himport, htest⟩

end CdkStacks.Scaffold
