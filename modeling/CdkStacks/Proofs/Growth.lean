import CdkStacks.Files.Store
import CdkStacks.Proofs.Results
import Mathlib.Tactic.SplitIfs

/-!
# Growing file trees

Making directories and files only adds to a tree: what is there stays, and a file comes to a place
where there was nothing.

* `Tree.Grows before after`: `after` has all that `before` has, so that a path which names something
  keeps naming it (`Grows.stat`);
* `Tree.Creates before after files`: `after` is `before` with new files, and perhaps with new
  directories;
* `Creates.trans`: such changes follow each other;
* `makeAll_creates`: making directories creates no file;
* `create_creates`, `create_creates_of_fault`: making a file creates that file, or none when it
  fails.
-/

namespace CdkStacks.Files.Tree

/-- Where a path leads to. -/
def locate (tree : Tree) (path : FilePath) : Except Fault Location :=
  tree.follow [] (tree.hops path)

/-- `after` has all that `before` has. -/
structure Grows (before after : Tree) : Prop where
  working : after.working = before.working
  /-- What is there stays as it is. -/
  kept : ∀ {location entry}, before.find? location = some entry →
    after.find? location = some entry

/-- `after` is `before` with new files, each at the end of its path. Directories may be new
anywhere. -/
structure Creates (before after : Tree) (files : List (FilePath × String)) : Prop
    extends Grows before after where
  /-- The paths of the files named nothing, and now name the files. -/
  created : ∀ file ∈ files, before.holds file.1 = false ∧ after.read file.1 = .ok file.2
  /-- There was nothing at the places of the files. -/
  placed : ∀ file ∈ files, ∃ location, after.locate file.1 = .ok location ∧
    before.find? location = none
  /-- No two files are at one place. -/
  apart : (files.map fun file => after.locate file.1).Nodup
  /-- All other files were there before. -/
  others : ∀ {location entry}, after.find? location = some entry → entry ≠ .directory →
    before.find? location = some entry ∨
      ∃ file ∈ files, after.locate file.1 = .ok location ∧ entry = .text file.2

/-! ## What a path names -/

/-- A path names what is at the place it leads to, which has to be a directory unless the path ends
with a name. -/
theorem stat_eq_ok {tree : Tree} {path : FilePath} {entry : Entry} :
    tree.stat path = .ok entry ↔ ∃ location, tree.locate path = .ok location ∧
      tree.find? location = some entry ∧ (path.ending = .name ∨ entry = .directory) := by
  unfold stat statHops locate
  cases tree.follow [] (tree.hops path) with
  | error fault => simp [bind, Except.bind]
  | ok location =>
    cases hfind : tree.find? location with
    | none => simp [bind, Except.bind, hfind]
    | some found =>
      by_cases hname : path.ending = .name <;> by_cases hdirectory : found = .directory <;>
        simp [bind, Except.bind, hfind, hname, hdirectory, pure, Except.pure]
      all_goals grind

theorem read_eq_ok {tree : Tree} {path : FilePath} {contents : String} :
    tree.read path = .ok contents ↔ path.ending = .name ∧ ∃ location,
      tree.locate path = .ok location ∧ tree.find? location = some (.text contents) := by
  constructor
  · intro h
    obtain ⟨entry, hstat, h⟩ := exists_of_bind_eq_ok h
    obtain ⟨location, hlocate, hfind, hend⟩ := stat_eq_ok.1 hstat
    cases entry with
    | directory | binary => cases h
    | text found =>
      cases h
      exact ⟨hend.resolve_right (by simp), location, hlocate, hfind⟩
  · rintro ⟨hname, location, hlocate, hfind⟩
    rw [read, stat_eq_ok.2 ⟨location, hlocate, hfind, Or.inl hname⟩]
    rfl

theorem holds_eq_false {tree : Tree} {path : FilePath} :
    tree.holds path = false ↔ ∀ entry, tree.stat path ≠ .ok entry := by
  unfold holds
  cases tree.stat path <;> simp

theorem find?_insert (tree : Tree) (location : Location) (entry : Entry) (other : Location) :
    (tree.insert location entry).find? other =
      (tree.find? other).or (if other = location then some entry else none) := by
  unfold find? insert
  by_cases hroot : other = []
  · simp [hroot]
  · rw [if_neg hroot, if_neg hroot, List.find?_append, Option.map_or]
    by_cases h : other = location
    · simp [h]
    · simp [h, Ne.symm h]

/-! ## Paths in a grown tree -/

namespace Grows

variable {before between after : Tree}

theorem refl (tree : Tree) : tree.Grows tree := ⟨rfl, fun h => h⟩

theorem trans (h₁ : before.Grows between) (h₂ : between.Grows after) : before.Grows after :=
  ⟨h₂.working.trans h₁.working, fun h => h₂.kept (h₁.kept h)⟩

theorem insert (tree : Tree) (location : Location) (entry : Entry) :
    tree.Grows (tree.insert location entry) where
  working := rfl
  kept hfind := by rw [find?_insert, hfind]; rfl

theorem enter (h : before.Grows after) {location : Location}
    (henter : before.enter location = .ok ()) : after.enter location = .ok () := by
  unfold Tree.enter at henter ⊢
  split at henter
  · rename_i hfind
    rw [h.kept hfind]
  · cases henter
  · cases henter

/-- Steps that lead somewhere keep leading there. -/
theorem follow (h : before.Grows after) : ∀ (hops : List Hop) {start location : Location},
    before.follow start hops = .ok location → after.follow start hops = .ok location
  | [], _, _, hfollow => hfollow
  | .up :: rest, start, location, hfollow => by
    obtain ⟨_, henter, hrest⟩ := exists_of_bind_eq_ok hfollow
    rw [Tree.follow, h.enter henter]
    exact h.follow rest hrest
  | .down name :: rest, start, location, hfollow => by
    obtain ⟨_, henter, hrest⟩ := exists_of_bind_eq_ok hfollow
    rw [Tree.follow, h.enter henter]
    by_cases hlong : maxNameLength < name.utf8ByteSize
    · simp only [if_pos hlong] at hrest
      cases hrest
    · simp only [if_neg hlong] at hrest
      simp only [if_neg hlong]
      exact h.follow rest hrest

theorem hops (h : before.Grows after) (path : FilePath) :
    after.hops path = before.hops path := by
  unfold Tree.hops
  rw [h.working]

/-- A path that leads somewhere keeps leading there. -/
theorem locate (h : before.Grows after) {path : FilePath} {location : Location}
    (hlocate : before.locate path = .ok location) : after.locate path = .ok location := by
  unfold Tree.locate at hlocate ⊢
  rw [h.hops]
  exact h.follow _ hlocate

/-- A path that names something keeps naming it. -/
theorem stat (h : before.Grows after) {path : FilePath} {entry : Entry}
    (hstat : before.stat path = .ok entry) : after.stat path = .ok entry := by
  obtain ⟨location, hlocate, hfind, hend⟩ := stat_eq_ok.1 hstat
  exact stat_eq_ok.2 ⟨location, h.locate hlocate, h.kept hfind, hend⟩

theorem read (h : before.Grows after) {path : FilePath} {contents : String}
    (hread : before.read path = .ok contents) : after.read path = .ok contents := by
  obtain ⟨hname, location, hlocate, hfind⟩ := read_eq_ok.1 hread
  exact read_eq_ok.2 ⟨hname, location, h.locate hlocate, h.kept hfind⟩

/-- A path that names nothing in the end named nothing before. -/
theorem holds_eq_false (h : before.Grows after) {path : FilePath}
    (hholds : after.holds path = false) : before.holds path = false :=
  Tree.holds_eq_false.2 fun entry hstat => Tree.holds_eq_false.1 hholds entry (h.stat hstat)

/-- What is not there in the end was not there before. -/
theorem find?_eq_none (h : before.Grows after) {location : Location}
    (hnone : after.find? location = none) : before.find? location = none := by
  cases hfind : before.find? location with
  | none => rfl
  | some entry => rw [h.kept hfind] at hnone; cases hnone

end Grows

/-! ## Changes in turn -/

namespace Creates

variable {before between after : Tree} {files more : List (FilePath × String)}

theorem refl (tree : Tree) : tree.Creates tree [] where
  toGrows := .refl tree
  created := by simp
  placed := by simp
  apart := by simp
  others h _ := Or.inl h

/-- **Changes follow each other.** -/
theorem trans (h₁ : before.Creates between files) (h₂ : between.Creates after more) :
    before.Creates after (files ++ more) where
  toGrows := h₁.toGrows.trans h₂.toGrows
  created := by
    intro file hfile
    rcases List.mem_append.1 hfile with hfile | hfile
    · obtain ⟨hholds, hread⟩ := h₁.created file hfile
      exact ⟨hholds, h₂.read hread⟩
    · obtain ⟨hholds, hread⟩ := h₂.created file hfile
      exact ⟨h₁.holds_eq_false hholds, hread⟩
  placed := by
    intro file hfile
    rcases List.mem_append.1 hfile with hfile | hfile
    · obtain ⟨location, hlocate, hnone⟩ := h₁.placed file hfile
      exact ⟨location, h₂.locate hlocate, hnone⟩
    · obtain ⟨location, hlocate, hnone⟩ := h₂.placed file hfile
      exact ⟨location, hlocate, h₁.find?_eq_none hnone⟩
  apart := by
    have hfirst : (files.map fun file => after.locate file.1) =
        files.map fun file => between.locate file.1 := by
      refine List.map_congr_left fun file hfile => ?_
      obtain ⟨location, hlocate, -⟩ := h₁.placed file hfile
      rw [hlocate, h₂.locate hlocate]
    rw [List.map_append, List.nodup_append, hfirst]
    refine ⟨h₁.apart, h₂.apart, ?_⟩
    -- in between, the first files are there already and at the places of the others is nothing
    intro place hplace other hother heq
    subst heq
    obtain ⟨file, hfile, rfl⟩ := List.mem_map.1 hplace
    obtain ⟨file', hfile', hsame⟩ := List.mem_map.1 hother
    obtain ⟨-, location, hlocate, hfind⟩ := read_eq_ok.1 (h₁.created file hfile).2
    obtain ⟨location', hlocate', hnone⟩ := h₂.placed file' hfile'
    have hlocations : location' = location := by
      rw [hlocate, hlocate'] at hsame
      exact Except.ok.inj hsame
    rw [hlocations, hfind] at hnone
    cases hnone
  others := by
    intro location entry hfind hentry
    rcases h₂.others hfind hentry with hfind | ⟨file, hfile, hlocate, htext⟩
    · rcases h₁.others hfind hentry with hfind | ⟨file, hfile, hlocate, htext⟩
      · exact Or.inl hfind
      · exact Or.inr ⟨file, List.mem_append_left _ hfile, h₂.locate hlocate, htext⟩
    · exact Or.inr ⟨file, List.mem_append_right _ hfile, hlocate, htext⟩

/-- A directory may come to a place where there is nothing. -/
theorem directory {tree : Tree} {location : Location} (h : tree.find? location = none) :
    tree.Creates (tree.insert location .directory) [] where
  toGrows := .insert ..
  created := by simp
  placed := by simp
  apart := by simp
  others := by
    intro other entry hfind hentry
    rw [find?_insert] at hfind
    by_cases heq : other = location
    · rw [heq, h] at hfind
      simp only [↓reduceIte, Option.none_or, Option.some.injEq] at hfind
      exact absurd hfind.symm hentry
    · simpa [heq] using hfind

/-- A file may come to the end of its path, when there is nothing. -/
theorem file {tree : Tree} {path : FilePath} {location : Location} (hname : path.ending = .name)
    (hlocate : tree.locate path = .ok location) (hnone : tree.find? location = none)
    (contents : String) :
    tree.Creates (tree.insert location (.text contents)) [(path, contents)] := by
  have hgrows := Grows.insert tree location (.text contents)
  have hfound : (tree.insert location (.text contents)).find? location = some (.text contents) := by
    simp [find?_insert, hnone]
  have hholds : tree.holds path = false := by
    refine Tree.holds_eq_false.2 fun entry hstat => ?_
    obtain ⟨other, hother, hfind, -⟩ := stat_eq_ok.1 hstat
    rw [hlocate] at hother
    cases hother
    rw [hnone] at hfind
    cases hfind
  have hread := read_eq_ok.2 ⟨hname, location, hgrows.locate hlocate, hfound⟩
  refine ⟨hgrows, by simpa using ⟨hholds, hread⟩, ?_, by simp, ?_⟩
  · simpa using ⟨location, hgrows.locate hlocate, hnone⟩
  · intro other entry hfind _
    by_cases heq : other = location
    · subst heq
      rw [hfound] at hfind
      exact Or.inr ⟨(path, contents), List.mem_singleton_self _, hgrows.locate hlocate,
        (Option.some.inj hfind).symm⟩
    · exact Or.inl (by simpa [find?_insert, heq] using hfind)

end Creates

/-! ## Making directories and files -/

/-- Making a directory creates no file. -/
theorem make_creates {tree made : Tree} {hops : List Hop} (h : tree.make hops = .ok made) :
    tree.Creates made [] := by
  obtain ⟨location, -, h⟩ := exists_of_bind_eq_ok h
  split at h
  · split at h
    · cases h
    · rename_i hnone
      cases h
      exact .directory hnone
  · obtain ⟨_, -, h⟩ := exists_of_bind_eq_ok h
    cases h

/-- Making a directory with all directories on the way creates no file, also when it fails. -/
theorem makeAll_creates (tree : Tree) (hops : List Hop) :
    tree.Creates (tree.makeAll hops).1 [] := by
  fun_induction makeAll tree hops with
  | case1 => exact .refl tree
  | case2 hop rest hops made hmake => exact make_creates hmake
  | case3 hop rest hops hmake parent fault hrest ih => simpa [hrest] using ih
  | case4 hop rest hops hmake parent hrest made hmade ih =>
    have hparent : tree.Creates parent [] := by simpa [hrest] using ih
    exact hparent.trans (make_creates hmade)
  | case5 hop rest hops hmake parent hrest fault hmade ih => simpa [hrest] using ih
  | case6 hop rest hops fault hmake hne => exact .refl tree

/-- A file is made at the end of its steps only, where there is nothing. -/
theorem createAt_eq_ok {tree made : Tree} {hops : List Hop} {ending : Ending} {file : Entry}
    (h : tree.createAt hops ending file = .ok made) :
    ending = .name ∧ ∃ location, tree.follow [] hops = .ok location ∧
      tree.find? location = none ∧ made = tree.insert location file := by
  obtain ⟨location, hfollow, h⟩ := exists_of_bind_eq_ok h
  cases ending with
  | slash => cases h
  | dots =>
    obtain ⟨_, -, h⟩ := exists_of_bind_eq_ok h
    cases h
  | name =>
    cases hfind : tree.find? location with
    | some entry =>
      simp only [hfind] at h
      cases h
    | none =>
      simp only [hfind] at h
      cases h
      exact ⟨rfl, location, hfollow, hfind, rfl⟩

/-- **Making a file** creates that file. -/
theorem create_creates {tree made : Tree} {path : FilePath} {contents : String}
    (h : tree.create path (.text contents) = (made, none)) :
    tree.Creates made [(path, contents)] := by
  have hdirectories := makeAll_creates tree (tree.hops path).dropLast.reverse
  rcases hparent : tree.makeAll (tree.hops path).dropLast.reverse with ⟨parent, _ | fault⟩
  · rw [hparent] at hdirectories
    cases hcreate : parent.createAt (tree.hops path) path.ending (.text contents) with
    | error fault => simp [create, hparent, hcreate] at h
    | ok result =>
      obtain rfl : result = made := by simpa [create, hparent, hcreate] using h
      obtain ⟨hname, location, hfollow, hnone, rfl⟩ := createAt_eq_ok hcreate
      rw [← hdirectories.hops] at hfollow
      exact hdirectories.trans (.file hname hfollow hnone contents)
  · simp [create, hparent] at h

/-- A file that cannot be made leaves at most the directories on the way to it. -/
theorem create_creates_of_fault {tree made : Tree} {path : FilePath} {file : Entry}
    {fault : Fault ⊕ Fault} (h : tree.create path file = (made, some fault)) :
    tree.Creates made [] := by
  have hdirectories := makeAll_creates tree (tree.hops path).dropLast.reverse
  rcases hparent : tree.makeAll (tree.hops path).dropLast.reverse with ⟨parent, _ | fault'⟩
  · rw [hparent] at hdirectories
    cases hcreate : parent.createAt (tree.hops path) path.ending file with
    | error fault' =>
      simp only [create, hparent, hcreate, Prod.mk.injEq] at h
      exact h.1 ▸ hdirectories
    | ok result => simp [create, hparent, hcreate] at h
  · rw [hparent] at hdirectories
    simp only [create, hparent, Prod.mk.injEq] at h
    exact h.1 ▸ hdirectories

end CdkStacks.Files.Tree
