import CdkStacks.Command.Run
import CdkStacks.Proofs.Growth

/-!
# Stores

What commands may rely on in the files that they work on, whatever these are made of.

* `Action.on` is what an action answers on a state, and the state it leaves;
* `Account` tells what is at each place of a store, and which files are new when its state changes;
* `Store.Sound`: looking leaves the state as it is, and creating a file makes all of it or fails and
  makes no file;
* `Tree.store_sound`: file trees are such a store, and `Tree.Creates` is their account;
* `Session.store_sound`: a session with a user is such a store when its files are.
-/

namespace CdkStacks.Command

/-! ## Actions -/

/-- Something that a command does on a state. -/
abbrev Action (σ α : Type) := ExceptT Failure (StateM σ) α

namespace Action

variable {σ α β : Type}

/-- What an action answers on a state, and the state it leaves. -/
def on (action : Action σ α) (state : σ) : Except Failure α × σ :=
  (StateT.run (ExceptT.run action) state).run

theorem on_bind (action : Action σ α) (next : α → Action σ β) (state : σ) :
    on (action >>= next) state =
      match on action state with
      | (.ok a, state) => on (next a) state
      | (.error failure, state) => (.error failure, state) := by
  simp only [on, ExceptT.run_bind, StateT.run_bind]
  rcases h : (StateT.run (ExceptT.run action) state) with ⟨_ | _, _⟩ <;> rfl

theorem on_pure (answer : α) (state : σ) :
    on (pure answer : Action σ α) state = (.ok answer, state) := rfl

end Action

end CdkStacks.Command

namespace CdkStacks.Files

/-! ## Laws of stores -/

/-- An account of the files in a store, and of those that are new. -/
structure Account (σ : Type) where
  Place : Type
  /-- What is at a place. -/
  entry? : σ → Place → Option Entry
  /-- The place that a path leads to. -/
  place? : σ → FilePath → Option Place
  /-- The files, each with its path and its contents, are what is new. -/
  Creates : σ → σ → List (FilePath × String) → Prop
  refl : ∀ state, Creates state state []
  trans : ∀ {before between after files more}, Creates before between files →
    Creates between after more → Creates before after (files ++ more)
  /-- What is there stays as it is. -/
  stays : ∀ {before after files place entry}, Creates before after files →
    entry? before place = some entry → entry? after place = some entry
  /-- All other files were there before. -/
  others : ∀ {before after files place entry}, Creates before after files →
    entry? after place = some entry → entry ≠ .directory →
    entry? before place = some entry ∨
      ∃ file ∈ files, place? after file.1 = some place ∧ entry = .text file.2

/-- How the creation of a file ends: it is there with all its contents, or no file is new. -/
inductive Account.Made {σ : Type} (account : Account σ) (path : FilePath) (contents : String)
    (before : σ) : Except Failure Unit × σ → Prop
  | whole {after : σ} : account.Creates before after [(path, contents)] →
      account.Made path contents before (.ok (), after)
  | failed {after : σ} (problem : WriteProblem) : account.Creates before after [] →
      account.Made path contents before (.error (.write path problem), after)

namespace Store

variable {σ : Type}

/-- Whether a path names something in a state. -/
def holdsIn (store : Store (StateM σ)) (state : σ) (path : FilePath) : Bool :=
  ((store.holds path).run state).run.1

/-- The text of a file in a state. -/
def readIn (store : Store (StateM σ)) (state : σ) (path : FilePath) : Except Failure String :=
  ((store.read path).run state).run.1

/-- What comes of making a file in a state. -/
def createIn (store : Store (StateM σ)) (state : σ) (path : FilePath) (contents : String) :
    Except Failure Unit × σ :=
  ((store.create path contents).run state).run

/-- What commands rely on in a store, by an account of its files. -/
structure Sound (store : Store (StateM σ)) (account : Account σ) : Prop where
  /-- To look leaves the state as it is. -/
  holds : ∀ path state, ((store.holds path).run state).run = (store.holdsIn state path, state)
  isDirectory : ∀ path state, ((store.isDirectory path).run state).run.2 = state
  read : ∀ path state, ((store.read path).run state).run = (store.readIn state path, state)
  /-- Reading does not fail in writing. -/
  read_ne_write : ∀ path state target problem,
    store.readIn state path ≠ .error (.write target problem)
  /-- What can be read is at the place that the path leads to. -/
  located : ∀ {state path contents}, store.readIn state path = .ok contents →
    ∃ place, account.place? state path = some place ∧
      account.entry? state place = some (.text contents)
  /-- A file is made as a whole or not at all. -/
  create : ∀ path contents state,
    account.Made path contents state (store.createIn state path contents)
  /-- A file that can be read is kept. -/
  kept : ∀ {before after files path contents}, account.Creates before after files →
    store.readIn before path = .ok contents → store.readIn after path = .ok contents
  /-- The path of a new file named nothing, and now the file can be read there. -/
  created : ∀ {before after files}, account.Creates before after files → ∀ file ∈ files,
    store.holdsIn before file.1 = false ∧ store.readIn after file.1 = .ok file.2

end Store

/-! ## File trees -/

namespace Tree

/-- The account of the files in a tree. -/
def account : Account Tree where
  Place := Location
  entry? := find?
  place? tree path := (tree.locate path).toOption
  Creates := Creates
  refl := .refl
  trans := .trans
  stays hcreates := hcreates.kept
  others hcreates hfind hentry := by
    refine (hcreates.others hfind hentry).imp_right ?_
    rintro ⟨file, hfile, hlocate, heq⟩
    exact ⟨file, hfile, congrArg Except.toOption hlocate, heq⟩

theorem createFailure_eq (path : FilePath) (fault : Fault ⊕ Fault) :
    ∃ problem, createFailure path fault = .write path problem := by
  rcases fault with fault | fault <;> cases fault <;> exact ⟨_, rfl⟩

theorem readText_eq_ok {tree : Tree} {path : FilePath} {contents : String} :
    tree.readText path = .ok contents ↔ tree.read path = .ok contents := by
  unfold readText
  cases tree.read path <;> simp

/-- **A file tree is a sound store.** -/
theorem store_sound : Tree.store.Sound account where
  holds _ _ := rfl
  isDirectory _ _ := rfl
  read _ _ := rfl
  read_ne_write path tree target problem h := by
    change tree.readText path = _ at h
    unfold readText at h
    split at h
    · cases h
    · rename_i fault _
      cases fault <;> cases h
  located {tree path contents} hread := by
    obtain ⟨-, location, hlocate, hfind⟩ := read_eq_ok.1 (readText_eq_ok.1 hread)
    exact ⟨location, congrArg Except.toOption hlocate, hfind⟩
  create path contents tree := by
    change account.Made path contents tree (tree.createText path contents)
    unfold createText
    rcases hcreate : tree.create path (.text contents) with ⟨made, _ | fault⟩
    · exact .whole (create_creates hcreate)
    · obtain ⟨problem, hproblem⟩ := createFailure_eq path fault
      simp only [hproblem]
      exact .failed problem (create_creates_of_fault hcreate)
  kept hcreates hread := readText_eq_ok.2 (hcreates.read (readText_eq_ok.1 hread))
  created hcreates file hfile := by
    obtain ⟨hholds, hread⟩ := hcreates.created file hfile
    exact ⟨hholds, readText_eq_ok.2 hread⟩

end Tree

end CdkStacks.Files

namespace CdkStacks.Command

open CdkStacks.Files

/-! ## Sessions -/

namespace Session

variable {σ : Type}

/-- The account of the files in a session; the user has no part in it. -/
def account (files : Account σ) : Account (Session σ) where
  Place := files.Place
  entry? session := files.entry? session.files
  place? session := files.place? session.files
  Creates before after new := files.Creates before.files after.files new ∧
    after.replies = before.replies ∧ after.asked = before.asked
  refl session := ⟨files.refl session.files, rfl, rfl⟩
  trans h₁ h₂ := ⟨files.trans h₁.1 h₂.1, h₂.2.1.trans h₁.2.1, h₂.2.2.trans h₁.2.2⟩
  stays hcreates := files.stays hcreates.1
  others hcreates := files.others hcreates.1

theorem run_onFiles {α : Type} (action : StateM σ α) (session : Session σ) :
    ((onFiles action).run session).run =
      ((action.run session.files).run.1,
        { session with files := (action.run session.files).run.2 }) := rfl

/-- **A session is a sound store** when its files are one. -/
theorem store_sound {store : Store (StateM σ)} {files : Account σ} (h : store.Sound files) :
    (environment store).store.Sound (account files) where
  holds path session := by
    change ((onFiles (store.holds path)).run session).run = _
    rw [run_onFiles, h.holds]
    rfl
  isDirectory path session := by
    change ((onFiles (store.isDirectory path)).run session).run.2 = _
    rw [run_onFiles, h.isDirectory]
  read path session := by
    change ((onFiles (store.read path)).run session).run = _
    rw [run_onFiles, h.read]
    rfl
  read_ne_write path session := h.read_ne_write path session.files
  located hread := h.located hread
  create path contents session := by
    have hmade := h.create path contents session.files
    change (account files).Made path contents session
      ((store.createIn session.files path contents).1,
        { session with files := (store.createIn session.files path contents).2 })
    cases hmade' : store.createIn session.files path contents with
    | mk result after =>
      rw [hmade'] at hmade
      cases hmade with
      | whole hcreates => exact .whole ⟨hcreates, rfl, rfl⟩
      | failed problem hcreates => exact .failed problem ⟨hcreates, rfl, rfl⟩
  kept hcreates hread := h.kept hcreates.1 hread
  created hcreates := h.created hcreates.1

end Session

end CdkStacks.Command
