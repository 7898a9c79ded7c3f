import CdkStacks.Proofs.Saving

/-!
# Saving the files of a writer

A writer saves its closed files one by one and gives them up. This ends as saving the same files at
once does: all are new in the store, or those in front of the first that cannot be saved.

* `foldlM_push`: answers that are gathered one by one are those of a list;
* `saveClosed_eq`: a writer saves its closed files as `saveFiles` does, and has none afterwards;
* `saves_stop_at_first_failure`: what both ways of saving come to.
-/

namespace CdkStacks.Command

open CdkStacks.Files CdkStacks.Scaffold CdkStacks.TypeScript

section Gather

variable {m : Type → Type} [Monad m] [LawfulMonad m] {α β : Type}

/-- Answers that are gathered one by one come behind those that are there. -/
theorem foldlM_push (ask : α → m β) (items : List α) (there : List β) :
    items.foldlM (fun answers item => do return answers ++ [← ask item]) there =
      (there ++ ·) <$> items.mapM ask := by
  induction items generalizing there with
  | nil => simp
  | cons item items ih =>
    simp only [List.foldlM_cons, bind_assoc, pure_bind, ih, List.mapM_cons, map_bind, map_pure]
    refine bind_congr fun answer => ?_
    simp

/-- A writer saves its closed files in order, and has none afterwards. -/
theorem saveClosed_eq (store : Store m) (directory : FilePath) (writer : Writer) :
    saveClosed store directory writer =
      (fun result => (result, { writer with closed := [] })) <$>
        (saveFiles store directory writer.closed).run := by
  have hpush := foldlM_push (saveFile store directory) writer.closed []
  simp only [List.nil_append, id_map'] at hpush
  rw [saveClosed, hpush, bind_pure_comp, saveFiles]

end Gather

section Sound

variable {σ : Type}

theorem run_saveClosed (store : Store (StateM σ)) (directory : FilePath) (writer : Writer)
    (state : σ) :
    ((saveClosed store directory writer).run state).run =
      (((Action.on (saveFiles store directory writer.closed) state).1,
          { writer with closed := [] }),
        (Action.on (saveFiles store directory writer.closed) state).2) := by
  rw [saveClosed_eq, StateT.run_map]
  rfl

/-- **Saving stops cleanly at the first failure.** A writer that saves its closed files and saving
these files at once give the same result and leave the same state. Either all files are new in it,
or exactly those in front of one that could not be saved, which the failure names; what was there
before stays. The writer has no closed files in either case, and saving once more does nothing. -/
theorem saves_stop_at_first_failure {store : Store (StateM σ)} {account : Account σ}
    (h : store.Sound account) (directory : FilePath) (writer : Writer) (before : σ) :
    ∃ result after,
      Action.on (saveFiles store directory writer.closed) before = (result, after) ∧
      ((saveClosed store directory writer).run before).run =
        ((result, { writer with closed := [] }), after) ∧
      SavesUpTo store account directory writer.closed before (result, after) ∧
      (∀ path contents, store.readIn before path = .ok contents →
        store.readIn after path = .ok contents) ∧
      ∀ other,
        ((saveClosed store other { writer with closed := [] }).run after).run =
          ((.ok [], { writer with closed := [] }), after) := by
  have hclosed := run_saveClosed store directory writer before
  have hsaves := saveFiles_savesUpTo h directory writer.closed before
  rcases hon : Action.on (saveFiles store directory writer.closed) before with ⟨result, after⟩
  rw [hon] at hclosed hsaves
  refine ⟨result, after, rfl, hclosed, hsaves, fun path contents => ?_, fun other => ?_⟩
  · obtain ⟨files, hcreates⟩ := hsaves.exists_creates
    exact h.kept hcreates
  · rw [run_saveClosed]
    rfl

end Sound

/-- A writer with two closed files. -/
def closedWriter : Writer :=
  ⟨2, [], [⟨⟨"a.ts"⟩, ["a();"]⟩, ⟨⟨"b.ts"⟩, []⟩]⟩

/-- A tree with something at the path of the second. -/
def takenTree : Tree :=
  ⟨[], [(["out"], .directory), (["out", "b.ts"], .text "")]⟩

theorem saves_stop_at_first_failure_taken : ∃ result after,
    Action.on (saveFiles Tree.store ⟨"out"⟩ closedWriter.closed) takenTree = (result, after) ∧
      result = .error (.write ⟨"out/b.ts"⟩ .taken) ∧
        SavesUpTo Tree.store Tree.account ⟨"out"⟩ closedWriter.closed takenTree
          (result, after) := by
  obtain ⟨result, after, hon, -, hsaves, -⟩ :=
    saves_stop_at_first_failure Tree.store_sound ⟨"out"⟩ closedWriter takenTree
  have hresult : (Action.on (saveFiles Tree.store ⟨"out"⟩ closedWriter.closed) takenTree).1 =
      .error (.write ⟨"out/b.ts"⟩ .taken) := by
    decide +kernel
  rw [hon] at hresult
  exact ⟨result, after, hon, hresult, hsaves⟩

end CdkStacks.Command
