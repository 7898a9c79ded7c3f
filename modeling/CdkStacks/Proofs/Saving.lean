import CdkStacks.Proofs.Stores

/-!
# Saving files

Generated files are saved one after the other, up to the first that cannot be saved. This holds of
every store that makes a file as a whole or not at all.

* `SavedAll` and `Refused` say how files are saved in turn, and why one cannot be saved;
* `SavesUpTo` says how saving files ends on a state, `saveFiles_savesUpTo` that it ends so: all
  files are created, or those in front of the one that is at fault.
-/

namespace CdkStacks.Command

open CdkStacks.Files CdkStacks.Scaffold CdkStacks.TypeScript

variable {σ : Type}

/-- The path and the contents of a file that is saved below a directory. -/
def saving (directory : FilePath) (file : File) : FilePath × String :=
  (directory.join file.path, file.contents)

/-- Files are saved below a directory one after the other, each in a state that has nothing at its
path and lets it be made there. -/
inductive SavedAll (store : Store (StateM σ)) (directory : FilePath) : σ → List File → σ → Prop
  | nil (state : σ) : SavedAll store directory state [] state
  | cons {before between after : σ} {file : File} {rest : List File} :
      store.holdsIn before (directory.join file.path) = false →
      store.createIn before (directory.join file.path) file.contents = (.ok (), between) →
      SavedAll store directory between rest after →
      SavedAll store directory before (file :: rest) after

/-- Why a file cannot be saved in a state, and the state that is left. -/
inductive Refused (store : Store (StateM σ)) (directory : FilePath) (file : File) (state : σ) :
    WriteProblem → σ → Prop
  /-- There is something at its path. -/
  | taken : store.holdsIn state (directory.join file.path) = true →
      Refused store directory file state .taken state
  /-- It cannot be made there. -/
  | fault {left : σ} {problem : WriteProblem} :
      store.holdsIn state (directory.join file.path) = false →
      store.createIn state (directory.join file.path) file.contents =
        (.error (.write (directory.join file.path) problem), left) →
      Refused store directory file state problem left

/-- How saving files below a directory ends on a state. -/
inductive SavesUpTo (store : Store (StateM σ)) (account : Account σ) (directory : FilePath)
    (files : List File) (before : σ) : Except Failure (List FilePath) × σ → Prop
  /-- All files are saved and listed in order; they are what is new. -/
  | all {after : σ} : SavedAll store directory before files after →
      account.Creates before after (files.map (saving directory)) →
      SavesUpTo store account directory files before
        (.ok (files.map fun file => directory.join file.path), after)
  /-- A file cannot be saved after those in front of it, which are what is new. -/
  | stopped {between after : σ} (saved : List File) (file : File) (rest : List File)
      (problem : WriteProblem) : files = saved ++ file :: rest →
      SavedAll store directory before saved between →
      Refused store directory file between problem after →
      account.Creates before after (saved.map (saving directory)) →
      SavesUpTo store account directory files before
        (.error (.write (directory.join file.path) problem), after)

theorem SavesUpTo.exists_creates {store : Store (StateM σ)} {account : Account σ}
    {directory : FilePath} {files : List File} {before after : σ}
    {result : Except Failure (List FilePath)}
    (h : SavesUpTo store account directory files before (result, after)) :
    ∃ new, account.Creates before after new := by
  cases h with
  | all _ hcreates => exact ⟨_, hcreates⟩
  | stopped _ _ _ _ _ _ _ hcreates => exact ⟨_, hcreates⟩

theorem saveFiles_cons {m : Type → Type} [Monad m] [LawfulMonad m] (store : Store m)
    (directory : FilePath) (file : File) (files : List File) :
    saveFiles store directory (file :: files) = do
      let path ← saveFile store directory file
      let paths ← saveFiles store directory files
      return path :: paths := by
  simp only [saveFiles, List.mapM_cons]

section Sound

variable {store : Store (StateM σ)} {account : Account σ} (h : store.Sound account)

include h

theorem Action.on_holds (path : FilePath) (state : σ) :
    Action.on (liftM (store.holds path) : Action σ Bool) state =
      (.ok (store.holdsIn state path), state) := by
  change (Except.ok ((store.holds path).run state).run.1, ((store.holds path).run state).run.2) = _
  rw [h.holds]

theorem Action.on_read (path : FilePath) (state : σ) :
    Action.on (ExceptT.mk (store.read path) : Action σ String) state =
      (store.readIn state path, state) :=
  h.read path state

/-- A file that is made is what is new. -/
theorem creates_of_createIn {before after : σ} {path : FilePath} {contents : String}
    (hcreate : store.createIn before path contents = (.ok (), after)) :
    account.Creates before after [(path, contents)] := by
  have hmade := h.create path contents before
  rw [hcreate] at hmade
  cases hmade with
  | whole hcreates => exact hcreates

/-- A file that cannot be saved leaves no file. -/
theorem Refused.creates {directory : FilePath} {file : File} {state left : σ}
    {problem : WriteProblem} (hrefused : Refused store directory file state problem left) :
    account.Creates state left [] := by
  cases hrefused with
  | taken _ => exact account.refl state
  | fault _ hcreate =>
    have hmade := h.create (directory.join file.path) file.contents state
    rw [hcreate] at hmade
    cases hmade with
    | failed _ hcreates => exact hcreates

/-- Files that are saved in turn are created. -/
theorem SavedAll.creates {directory : FilePath} {before after : σ} {files : List File}
    (hsaved : SavedAll store directory before files after) :
    account.Creates before after (files.map (saving directory)) := by
  induction hsaved with
  | nil state => exact account.refl state
  | cons _ hcreate _ ih => exact account.trans (creates_of_createIn h hcreate) ih

/-- Saving one file makes it, or fails for a reason. -/
theorem saveFile_on (directory : FilePath) (file : File) (state : σ) :
    (∃ after, Action.on (saveFile store directory file) state =
        (.ok (directory.join file.path), after) ∧
        SavedAll store directory state [file] after) ∨
      ∃ problem after, Action.on (saveFile store directory file) state =
        (.error (.write (directory.join file.path) problem), after) ∧
        Refused store directory file state problem after := by
  unfold saveFile
  simp only [Action.on_bind, Action.on_holds h]
  cases hholds : store.holdsIn state (directory.join file.path) with
  | true => exact Or.inr ⟨.taken, state, rfl, .taken hholds⟩
  | false =>
    have hmade := h.create (directory.join file.path) file.contents state
    have hon :
        Action.on (ExceptT.mk (store.create (directory.join file.path) file.contents)) state =
          store.createIn state (directory.join file.path) file.contents := rfl
    simp only [Bool.false_eq_true, ↓reduceIte, Action.on_bind, hon, Action.on_pure]
    rcases hcreate : store.createIn state (directory.join file.path) file.contents with
      ⟨result, after⟩
    rw [hcreate] at hmade
    cases hmade with
    | whole _ => exact Or.inl ⟨after, rfl, .cons hholds hcreate (.nil after)⟩
    | failed problem _ => exact Or.inr ⟨problem, after, rfl, .fault hholds hcreate⟩

/-- A file that is saved may come in front of others. -/
theorem SavesUpTo.cons {directory : FilePath} {file : File} {files : List File}
    {before between after : σ} {result : Except Failure (List FilePath)}
    (hfile : SavedAll store directory before [file] between)
    (hfiles : SavesUpTo store account directory files between (result, after)) :
    SavesUpTo store account directory (file :: files) before
      (result.map (directory.join file.path :: ·), after) := by
  have hcreates := hfile.creates h
  cases hfile with
  | cons hholds hcreate hnil =>
    cases hnil
    cases hfiles with
    | all hsaved hrest => exact .all (.cons hholds hcreate hsaved) (account.trans hcreates hrest)
    | stopped saved other rest problem heq hsaved hrefused hrest =>
      refine .stopped (file :: saved) other rest problem ?_ (.cons hholds hcreate hsaved) hrefused
        (account.trans hcreates hrest)
      rw [heq, List.cons_append]

/-- **Saving files** makes them in order, up to the first that cannot be saved. -/
theorem saveFiles_savesUpTo (directory : FilePath) (files : List File) (before : σ) :
    SavesUpTo store account directory files before
      (Action.on (saveFiles store directory files) before) := by
  induction files generalizing before with
  | nil => exact .all (.nil before) (account.refl before)
  | cons file files ih =>
    rw [saveFiles_cons, Action.on_bind]
    rcases saveFile_on h directory file before with
      ⟨between, hfirst, hsaved⟩ | ⟨problem, after, hfirst, hrefused⟩
    · simp only [hfirst, Action.on_bind]
      have hrest := ih between
      rcases hon : Action.on (saveFiles store directory files) between with
        ⟨failure | paths, after⟩
      all_goals
        rw [hon] at hrest
        exact hrest.cons h hsaved
    · rw [hfirst]
      exact .stopped [] file files problem rfl (.nil before) hrefused (hrefused.creates h)

end Sound

end CdkStacks.Command
