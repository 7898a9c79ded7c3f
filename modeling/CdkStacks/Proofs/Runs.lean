import CdkStacks.Proofs.Layout
import CdkStacks.Proofs.Saving

/-!
# Runs of the program

One run after the other works on the files of a store. No run changes or removes a file, and a run
creates the three files of its scaffold or, when it fails, those in front of the file that cannot be
saved. This holds of every store that makes a file as a whole or not at all.

* `Run` is a run with the replies of its user, `Run.on` what it does to the files;
* `Run.Asks`: what a run finds there asks for a scaffold;
* `Run.Effect` says what a run may do to the files;
* `Looks` actions leave everything as it is and do not fail in writing. All that a run does before
  it saves its files is of this kind, up to the questions that it asks;
* `Looks.ends` and `saveFiles_ends` take a run step by step to its effect, `Run.on_effect`;
* `runs_create_scaffolds`: every run of every sequence has its effect, and files are kept.
-/

namespace CdkStacks.Command

open CdkStacks.Files CdkStacks.Scaffold CdkStacks.TypeScript

/-! ## Runs -/

/-- A run of the program: what it is asked for, and what its user replies. -/
structure Run where
  invocation : Invocation
  replies : List Reply

variable {σ : Type}

/-- The settings that a command finds in a state of a store. -/
def settingsIn (store : Store (StateM σ)) (state : σ) (given : Option FilePath) :
    Except Failure Settings :=
  (Action.on (loadSettings store given) state).1

namespace Run

/-- What a run answers on a state of a store, and the state that it leaves. -/
def on (store : Store (StateM σ)) (run : Run) (state : σ) : Except Failure (List String) × σ :=
  let (answer, session) :=
    Action.on (run.invocation.perform (Session.environment store)) ⟨state, run.replies, []⟩
  (answer, session.files)

/-- The state that runs leave. -/
def after (store : Store (StateM σ)) (state : σ) (runs : List Run) : σ :=
  runs.foldl (fun state run => (run.on store state).2) state

/-- The directory that a run writes to. -/
def output (run : Run) : FilePath :=
  match run.invocation with
  | .migrate options _ => options.output
  | .new options _ => options.output

/-- What a run prints when it has written files. -/
def report (run : Run) (scaffold : Scaffold) (warnings : List Construct.Warning)
    (written : List FilePath) : List String :=
  match run.invocation with
  | .migrate options _ =>
    migratedLines options.template ⟨scaffold.stackName, scaffold.appName, written, warnings⟩
  | .new _ _ =>
    createdLines ⟨scaffold.stackName, scaffold.template.parameters.map (·.name), written⟩

/-- A run asks for a scaffold and has some settings, by what it finds in a state and what its user
replies. -/
inductive Asks (store : Store (StateM σ)) (state : σ) : Run → Scaffold → Settings → Prop
  /-- The template of the scaffold is in a file. -/
  | migrate {options : MigrateOptions} {given : Option FilePath} {replies : List Reply}
      {settings : Settings} {stackName text : String} {template : Template} :
      settingsIn store state given = .ok settings →
      options.stackName.bind classNameOf = .ok stackName →
      store.readIn state options.template = .ok text →
      Template.ofText (.ofPath options.template) text = .ok template →
      Asks store state ⟨.migrate options given, replies⟩
        { stackName, appName := options.app.getD stackName, template
          provenance := .migrated (options.template.fileName?.getD options.template.text)
          multiApp := options.multiApp } settings
  /-- The parameters of the scaffold are what the user has confirmed. -/
  | new {options : NewOptions} {given : Option FilePath} {replies : List Reply}
      {settings : Settings} {stackName : String} {confirmed : Confirmed} :
      settingsIn store state given = .ok settings →
      classNameOf options.stack = .ok stackName →
      (interview replies).result = .ok confirmed →
      Asks store state ⟨.new options given, replies⟩
        { stackName, appName := options.app
          template := Template.ofParameters (confirmed.map fun (name, type) => .plain name type)
          provenance := .new, multiApp := options.multiApp } settings

/-- What a run may do to the files of a store. -/
inductive Effect (store : Store (StateM σ)) (account : Account σ) (run : Run) (before : σ) :
    Except Failure (List String) × σ → Prop
  /-- It creates the files of its scaffold, and reports them in order. -/
  | done {after : σ} {scaffold : Scaffold} {settings : Settings} {generated : Generated} :
      run.Asks store before scaffold settings → scaffold.generate settings = .ok generated →
      generated.files.map File.path = scaffold.paths.all →
      account.Creates before after (generated.files.map (saving run.output)) →
      Effect store account run before
        (.ok (run.report scaffold generated.warnings (scaffold.paths.all.map run.output.join)),
          after)
  /-- It fails before it writes and leaves everything as it is. -/
  | refused {failure : Failure} : (∀ path problem, failure ≠ .write path problem) →
      Effect store account run before (.error failure, before)
  /-- It fails in writing a file, and creates the files in front of it. -/
  | cut {after : σ} {scaffold : Scaffold} {settings : Settings} {generated : Generated}
      (saved : List File) (file : File) (rest : List File) (problem : WriteProblem) :
      run.Asks store before scaffold settings → scaffold.generate settings = .ok generated →
      generated.files.map File.path = scaffold.paths.all →
      generated.files = saved ++ file :: rest →
      account.Creates before after (saved.map (saving run.output)) →
      Effect store account run before (.error (.write (run.output.join file.path) problem), after)

end Run

/-! ## Failures that are not about writing -/

/-- A result that is no failure in writing. -/
def NoWrite {α : Type} (result : Except Failure α) : Prop :=
  ∀ path problem, result ≠ .error (.write path problem)

namespace NoWrite

variable {α β : Type}

theorem ok (a : α) : NoWrite (.ok a) := by
  intro path problem h
  cases h

theorem bind {read : Except Failure α} {next : α → Except Failure β} (hread : NoWrite read)
    (hnext : ∀ a, NoWrite (next a)) : NoWrite (read >>= next) := by
  cases read with
  | error failure =>
    intro path problem h
    exact hread path problem (congrArg Except.error (Except.error.inj h))
  | ok a => exact hnext a

theorem mapM {read : α → Except Failure β} (hread : ∀ a, NoWrite (read a)) :
    ∀ items : List α, NoWrite (items.mapM read)
  | [] => .ok []
  | item :: items => by
    rw [List.mapM_cons]
    exact (hread item).bind fun b => (mapM hread items).bind fun bs => .ok (b :: bs)

theorem inContext (context : String) (result : Except Template.Malformed α) :
    NoWrite (Template.inContext context result) := by
  intro path problem h
  cases result <;> cases h

end NoWrite

theorem readSection_noWrite {α : Type} (read : String → Document.Node → Except Template.Malformed α)
    (root : Template.Fields) (title : String) :
    NoWrite (Template.readSection read root title) := by
  refine .bind ?_ fun entries => .mapM (fun entry => ?_) entries
  · intro path problem h
    unfold Template.sectionEntries at h
    split at h <;> cases h
  · exact .bind (.inContext _ _) fun name => .inContext _ _

/-- Reading a template does not fail in writing. -/
theorem ofText_noWrite (format : Template.Format) (text : String) :
    NoWrite (Template.ofText format text) := by
  unfold Template.ofText
  split
  · rename_i document _
    cases document with
    | mapping root =>
      have hsections {α : Type} (read : String → Document.Node → Except Template.Malformed α) :=
        readSection_noWrite read root
      refine .bind (hsections _ _) fun parameters => .bind (hsections _ _) fun resources =>
        .bind (hsections _ _) fun outputs => .bind (hsections _ _) fun conditions =>
        .bind ?_ fun _ => .bind ?_ fun _ => .ok _
      · intro path problem h
        unfold Template.checkDeclaredOnce at h
        split at h <;> cases h
      · intro path problem h
        unfold Template.checkReferences at h
        split at h <;> cases h
    | null | bool | number | string | sequence | tagged =>
      intro path problem h
      cases h
  · intro path problem h
    cases h

theorem generate_noWrite (scaffold : Scaffold) (settings : Settings) :
    NoWrite (scaffold.generate settings) := by
  refine .bind (.bind ?_ fun _ => .ok _) fun code => ?_
  · intro path problem h
    unfold Template.checkCycles at h
    split at h <;> cases h
  · split
    · exact .ok _
    · intro path problem h
      cases h

theorem classNameOf_noWrite (stack : String) : NoWrite (classNameOf stack) := by
  intro path problem h
  unfold classNameOf at h
  dsimp only at h
  split at h <;> cases h

theorem stackName_noWrite (options : MigrateOptions) :
    NoWrite (options.stackName.bind classNameOf) := by
  refine .bind ?_ classNameOf_noWrite
  intro path problem h
  unfold MigrateOptions.stackName at h
  split at h
  · cases h
  · split at h <;> cases h

/-! ## Actions that only look -/

/-- An action that leaves the state as it is, and does not fail in writing. -/
def Looks {α : Type} (action : Action σ α) : Prop :=
  ∀ state, ∃ result, Action.on action state = (result, state) ∧ NoWrite result

namespace Looks

variable {α β : Type}

theorem of_result {result : Except Failure α} (h : NoWrite result) :
    Looks (ExceptT.mk (pure result) : Action σ α) :=
  fun _ => ⟨result, rfl, h⟩

theorem bind {action : Action σ α} {next : α → Action σ β} (haction : Looks action)
    (hnext : ∀ a, Looks (next a)) : Looks (action >>= next) := by
  intro state
  obtain ⟨result, hon, hresult⟩ := haction state
  rw [Action.on_bind, hon]
  cases result with
  | error failure =>
    exact ⟨_, rfl, fun path problem heq => hresult path problem (congrArg _ (Except.error.inj heq))⟩
  | ok a => exact hnext a state

theorem throw {failure : Failure} (h : ∀ path problem, failure ≠ .write path problem) :
    Looks (MonadExcept.throw failure : Action σ α) :=
  fun _ => ⟨_, rfl, fun path problem heq => h path problem (Except.error.inj heq)⟩

end Looks

section Sound

variable {store : Store (StateM σ)} {account : Account σ} (h : store.Sound account)

include h

theorem Looks.holds (path : FilePath) : Looks (liftM (store.holds path) : Action σ Bool) :=
  fun state => ⟨_, Action.on_holds h path state, .ok _⟩

theorem Looks.isDirectory (path : FilePath) :
    Looks (liftM (store.isDirectory path) : Action σ Bool) := by
  refine fun state => ⟨.ok ((store.isDirectory path).run state).run.1, ?_, .ok _⟩
  change (Except.ok ((store.isDirectory path).run state).run.1,
    ((store.isDirectory path).run state).run.2) = _
  rw [h.isDirectory]

theorem Looks.read (path : FilePath) : Looks (ExceptT.mk (store.read path) : Action σ String) :=
  fun state => ⟨_, Action.on_read h path state, h.read_ne_write path state⟩

theorem checkFree_looks (directory : FilePath) (paths : List FilePath) :
    Looks (checkFree store directory paths) := by
  induction paths with
  | nil => exact fun _ => ⟨_, rfl, .ok _⟩
  | cons path paths ih =>
    refine .bind (.holds h _) fun found => ?_
    cases found with
    | true => exact .bind (.throw (by simp)) fun _ => ih
    | false => exact ih

theorem checkTargets_looks (directory : FilePath) (paths : Paths) :
    Looks (checkTargets store directory paths) := by
  refine .bind (.isDirectory h _) fun found => ?_
  cases found with
  | true => exact checkFree_looks h directory paths.all
  | false => exact .bind (.throw (by simp)) fun _ => checkFree_looks h directory paths.all

theorem readSettings_looks (path : FilePath) : Looks (readSettings store path) := by
  refine .bind (.read h path) fun text => .of_result ?_
  intro path problem h
  unfold Settings.ofText at h
  split at h
  · cases h
  · split at h <;> cases h

theorem loadSettings_looks (given : Option FilePath) : Looks (loadSettings store given) := by
  cases given with
  | some path =>
    refine .bind (.holds h path) fun found => ?_
    cases found with
    | true => exact readSettings_looks h path
    | false => exact .throw (by simp)
  | none =>
    refine .bind (.holds h settingsFile) fun found => ?_
    cases found with
    | true => exact readSettings_looks h settingsFile
    | false => exact fun _ => ⟨_, rfl, .ok _⟩

theorem readSettings_on (path : FilePath) (state : σ) :
    (Action.on (readSettings store path) state).1 =
      store.readIn state path >>= Settings.ofText := by
  rw [readSettings, Action.on_bind, Action.on_read h]
  cases store.readIn state path <;> rfl

/-- The settings depend on what can be looked at only. -/
theorem settingsIn_eq (given : Option FilePath) (state : σ) :
    settingsIn store state given =
      match given with
      | some path =>
        if store.holdsIn state path then store.readIn state path >>= Settings.ofText
        else .error (.absent path)
      | none =>
        if store.holdsIn state settingsFile then
          store.readIn state settingsFile >>= Settings.ofText
        else .ok .standard := by
  unfold settingsIn loadSettings
  cases given with
  | some path =>
    simp only [Action.on_bind, Action.on_holds h]
    cases store.holdsIn state path with
    | true => simp only [↓reduceIte, readSettings_on h]
    | false => rfl
  | none =>
    simp only [Action.on_bind, Action.on_holds h]
    cases store.holdsIn state settingsFile with
    | true => simp only [↓reduceIte, readSettings_on h]
    | false => rfl

/-- The settings of a session are those in its files. -/
theorem settingsIn_session (given : Option FilePath) (session : Session σ) :
    settingsIn (Session.environment store).store session given =
      settingsIn store session.files given := by
  rw [settingsIn_eq (Session.store_sound h), settingsIn_eq h]
  rfl

end Sound

theorem interview_noWrite (stage : Stage) (replies : List Reply) :
    NoWrite (stage.interview replies).result := by
  fun_induction Stage.interview stage replies with
  | case1 stage => exact .ok _
  | case2 stage reply rest next hnext behind ih => exact ih
  | case3 stage reply rest confirmed hdone => exact .ok _
  | case4 stage reply rest reason hfailed =>
    intro path problem h
    cases h

/-! ## Runs step by step -/

/-- What holds of the answer of an action, and of the files that it leaves. -/
def Ends {α : Type} (post : Except Failure α × σ → Prop) (action : Action (Session σ) α)
    (session : Session σ) : Prop :=
  post ((Action.on action session).1, (Action.on action session).2.files)

section Effect

variable {store : Store (StateM σ)} {account : Account σ} {run : Run} {before : σ}
  {session : Session σ}

/-- An action that only looks either ends a run, or leaves it to the next action. -/
theorem Looks.ends {α : Type} {action : Action (Session σ) α}
    {next : α → Action (Session σ) (List String)} (h : Looks action)
    (hbefore : session.files = before)
    (hnext : ∀ a, (Action.on action session).1 = .ok a →
      Ends (run.Effect store account before) (next a) session) :
    Ends (run.Effect store account before) (action >>= next) session := by
  obtain ⟨result, hon, hresult⟩ := h session
  rw [hon] at hnext
  rw [Ends, Action.on_bind, hon]
  cases result with
  | error failure =>
    rw [← hbefore]
    exact .refused fun path problem heq => hresult path problem (congrArg _ heq)
  | ok a => exact hnext a rfl

/-- A result either ends a run, or is what the next action goes on with. -/
theorem NoWrite.ends {α : Type} {result : Except Failure α}
    {next : α → Action (Session σ) (List String)} (h : NoWrite result)
    (hbefore : session.files = before)
    (hnext : ∀ a, result = .ok a → Ends (run.Effect store account before) (next a) session) :
    Ends (run.Effect store account before) (ExceptT.mk (pure result) >>= next) session :=
  (Looks.of_result h).ends hbefore hnext

/-- A run ends with a failure. -/
theorem throw_ends {α : Type} {failure : Failure} {next : α → Action (Session σ) (List String)}
    (h : ∀ path problem, failure ≠ .write path problem) (hbefore : session.files = before) :
    Ends (run.Effect store account before) (throw failure >>= next) session := by
  refine (Looks.throw h).ends hbefore fun a ha => ?_
  cases ha

theorem Action.on_interview (session : Session σ) :
    Action.on (ExceptT.mk (Session.environment store).interview) session =
      ((interview session.replies).result,
        { session with
          replies := session.replies.drop (interview session.replies).asked.length
          asked := session.asked ++ (interview session.replies).asked }) := rfl

/-- The questions either end a run, or their answers are what the next action goes on with. -/
theorem interview_ends {next : Confirmed → Action (Session σ) (List String)}
    (hbefore : session.files = before)
    (hnext : ∀ confirmed left, left.files = before →
      (interview session.replies).result = .ok confirmed →
      Ends (run.Effect store account before) (next confirmed) left) :
    Ends (run.Effect store account before)
      (ExceptT.mk (Session.environment store).interview >>= next) session := by
  rw [Ends, Action.on_bind, Action.on_interview]
  have hresult := interview_noWrite (.name []) session.replies
  rw [show Stage.interview (.name []) session.replies = interview session.replies from rfl]
    at hresult
  cases h : (interview session.replies).result with
  | error failure =>
    rw [h] at hresult
    rw [← hbefore]
    exact .refused fun path problem heq => hresult path problem (congrArg _ heq)
  | ok confirmed => exact hnext confirmed _ hbefore h

/-- Saving the files of a scaffold ends a run as it should. -/
theorem saveFiles_ends (h : store.Sound account) {scaffold : Scaffold} {settings : Settings}
    {generated : Generated} (hasks : run.Asks store before scaffold settings)
    (hgenerate : scaffold.generate settings = .ok generated) (session : Session σ)
    (hbefore : session.files = before) :
    Ends (run.Effect store account before) (do
      let written ← saveFiles (Session.environment store).store run.output generated.files
      return run.report scaffold generated.warnings written) session := by
  subst hbefore
  have hsaves := saveFiles_savesUpTo (Session.store_sound h) run.output generated.files session
  have hpaths := generate_files hgenerate
  rw [Ends, Action.on_bind]
  rcases hon : Action.on (saveFiles (Session.environment store).store run.output generated.files)
    session with ⟨result, after⟩
  rw [hon] at hsaves
  cases hsaves with
  | all _ hcreates =>
    have hwritten : (generated.files.map fun file => run.output.join file.path) =
        scaffold.paths.all.map run.output.join := by
      rw [← hpaths, List.map_map]
      rfl
    rw [hwritten]
    exact .done hasks hgenerate hpaths hcreates.1
  | stopped saved file rest problem heq _ _ hcreates =>
    exact .cut saved file rest problem hasks hgenerate hpaths heq hcreates.1

end Effect

section Sound

variable {store : Store (StateM σ)} {account : Account σ} (h : store.Sound account)

include h

theorem migrate_ends (options : MigrateOptions) (given : Option FilePath) (replies : List Reply)
    (state : σ) : Ends (Run.Effect store account ⟨.migrate options given, replies⟩ state)
      ((Invocation.migrate options given).perform (Session.environment store))
      ⟨state, replies, []⟩ := by
  have hsession := Session.store_sound h
  unfold Invocation.perform migrate
  refine (loadSettings_looks hsession given).ends rfl fun settings hsettings => ?_
  have hsettings := (settingsIn_session h given _).symm.trans hsettings
  simp only [bind_assoc]
  refine (Looks.holds hsession _).ends rfl fun found _ => ?_
  cases found with
  | false =>
    simp only [Bool.not_false, ↓reduceIte, bind_assoc]
    exact throw_ends (by simp) rfl
  | true =>
    simp only [Bool.not_true, Bool.false_eq_true, ↓reduceIte, bind_assoc, pure_bind]
    refine (stackName_noWrite options).ends rfl fun stackName hname => ?_
    refine (checkTargets_looks hsession _ _).ends rfl fun _ _ => ?_
    refine (Looks.read hsession _).ends rfl fun text htext => ?_
    rw [Action.on_read hsession] at htext
    refine (ofText_noWrite _ _).ends rfl fun template htemplate => ?_
    refine (generate_noWrite _ _).ends rfl fun generated hgenerate => ?_
    have hasks : Run.Asks store state ⟨.migrate options given, replies⟩ _ settings :=
      .migrate hsettings hname htext htemplate
    exact saveFiles_ends h hasks hgenerate _ rfl

theorem new_ends (options : NewOptions) (given : Option FilePath) (replies : List Reply)
    (state : σ) : Ends (Run.Effect store account ⟨.new options given, replies⟩ state)
      ((Invocation.new options given).perform (Session.environment store))
      ⟨state, replies, []⟩ := by
  have hsession := Session.store_sound h
  unfold Invocation.perform newStack
  refine (loadSettings_looks hsession given).ends rfl fun settings hsettings => ?_
  have hsettings := (settingsIn_session h given _).symm.trans hsettings
  simp only [bind_assoc, pure_bind]
  refine (classNameOf_noWrite _).ends rfl fun stackName hname => ?_
  refine (checkTargets_looks hsession _ _).ends rfl fun _ _ => ?_
  refine interview_ends rfl fun confirmed left hleft hconfirmed => ?_
  refine (generate_noWrite _ _).ends hleft fun generated hgenerate => ?_
  have hasks : Run.Asks store state ⟨.new options given, replies⟩ _ settings :=
    .new hsettings hname hconfirmed
  have hends := saveFiles_ends h hasks hgenerate left hleft
  simp only [Run.report, Template.ofParameters, List.map_map, Function.comp_def] at hends
  exact hends

/-! ## Runs one after the other -/

namespace Run

theorem on_effect (run : Run) (state : σ) :
    run.Effect store account state (run.on store state) := by
  obtain ⟨invocation, replies⟩ := run
  cases invocation with
  | migrate options given => exact migrate_ends h options given replies state
  | new options given => exact new_ends h options given replies state

omit h in
theorem Effect.exists_creates {run : Run} {before : σ}
    {outcome : Except Failure (List String) × σ}
    (heffect : run.Effect store account before outcome) :
    ∃ files, account.Creates before outcome.2 files := by
  cases heffect with
  | done _ _ _ hcreates => exact ⟨_, hcreates⟩
  | refused _ => exact ⟨_, account.refl before⟩
  | cut _ _ _ _ _ _ _ _ hcreates => exact ⟨_, hcreates⟩

theorem exists_creates_after (runs : List Run) (state : σ) :
    ∃ files, account.Creates state (after store state runs) files := by
  induction runs generalizing state with
  | nil => exact ⟨_, account.refl state⟩
  | cons run runs ih =>
    obtain ⟨first, hfirst⟩ := (on_effect h run state).exists_creates
    obtain ⟨others, hothers⟩ := ih (run.on store state).2
    exact ⟨_, account.trans hfirst hothers⟩

end Run

end Sound

/-- **Files are kept, and each run creates the files of its scaffold.** Whatever runs come first,
all runs that follow only create files and keep every file that can be read, and the next run
creates all files of its scaffold, no file, or those in front of a file that cannot be written. -/
theorem runs_create_scaffolds {store : Store (StateM σ)} {account : Account σ}
    (h : store.Sound account) (state : σ) (earlier later : List Run) (run : Run) :
    let reached := Run.after store state earlier
    let left := Run.after store state (earlier ++ later)
    (∃ files, account.Creates reached left files) ∧
      (∀ path contents, store.readIn reached path = .ok contents →
        store.readIn left path = .ok contents) ∧
      run.Effect store account reached (run.on store reached) := by
  intro reached left
  have hleft : left = Run.after store reached later := by
    simp only [left, reached, Run.after, List.foldl_append]
  obtain ⟨files, hcreates⟩ := Run.exists_creates_after h later reached
  rw [← hleft] at hcreates
  exact ⟨⟨files, hcreates⟩, fun path contents => h.kept hcreates, run.on_effect h reached⟩

/-- A tree with the directory of a project. -/
def projectTree : Tree :=
  ⟨[], [(["out"], .directory)]⟩

/-- A run that starts a stack without parameters there. -/
def startRun : Run :=
  ⟨.new ⟨⟨"out"⟩, "shop", "my-stack", false⟩ none, [.text ""]⟩

theorem runs_create_scaffolds_start :
    let reached := Run.after Tree.store projectTree [startRun]
    reached.holds ⟨"out/lib/my-stack.ts"⟩ = true ∧
      startRun.Effect Tree.store Tree.account reached (startRun.on Tree.store reached) ∧
        (startRun.on Tree.store reached).1 = .error (.present ⟨"out/bin/shop.ts"⟩) := by
  have hruns := runs_create_scaffolds Tree.store_sound projectTree [startRun] [] startRun
  exact ⟨by decide +kernel, hruns.2.2, by decide +kernel⟩

end CdkStacks.Command
