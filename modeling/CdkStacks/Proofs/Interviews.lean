import CdkStacks.Command.Interview
import Mathlib.Data.List.Basic

/-!
# What an interview comes to

The replies of a user are read in turns, a name and a type, up to the first that ends the interview.
A parameter that is given half is dropped, and one that is given again changes in its place.

* `Course` says how replies are read: which parameters are confirmed, what is asked, and the failure
  that is reached, if any;
* `Settled` says which parameters are left of those that were confirmed in turn: one for each name,
  in the order of first confirmation, with the type of the last;
* `settled_confirm`: confirming one more parameter keeps to that;
* `Course.interview_eq`: an interview runs its course and confirms one parameter after the other;
* `interview_folds_confirmed`: every interview has a course, and comes to what is left of it.
-/

namespace CdkStacks.Command

open CdkStacks.Text (trim)

/-! ## How replies are read -/

/-- The question for a name. -/
def nameQuestion : Question := (Stage.name []).question

/-- The question for a type. -/
def typeQuestion : Question := (Stage.type [] "").question

/-- The type that a reply stands for. -/
def typeIn (reply : String) : String :=
  if trim reply = "" then standardType else trim reply

/-- How replies are read: the parameters that are confirmed in turn, the questions that are asked,
and the reason of the failure that is reached. When the replies have run out, the user cancels. -/
inductive Course : List Reply → List (String × String) → List Question → Option String → Prop
  | cancelledName {replies : List Reply} : replies.headD .cancel = .cancel →
      Course replies [] [nameQuestion] none
  | blankName {name : String} {rest : List Reply} : trim name = "" →
      Course (.text name :: rest) [] [nameQuestion] none
  | failedName {reason : String} {rest : List Reply} :
      Course (.failure reason :: rest) [] [nameQuestion] (some reason)
  | cancelledType {name : String} {rest : List Reply} : trim name ≠ "" →
      rest.headD .cancel = .cancel →
      Course (.text name :: rest) [] [nameQuestion, typeQuestion] none
  | failedType {name reason : String} {rest : List Reply} : trim name ≠ "" →
      Course (.text name :: .failure reason :: rest) [] [nameQuestion, typeQuestion] (some reason)
  | confirmed {name type : String} {rest : List Reply} {given : List (String × String)}
      {asked : List Question} {failure : Option String} : trim name ≠ "" →
      Course rest given asked failure →
      Course (.text name :: .text type :: rest) ((trim name, typeIn type) :: given)
        (nameQuestion :: typeQuestion :: asked) failure

/-- **Every list of replies can be read.** -/
theorem exists_course (replies : List Reply) : ∃ given asked failure,
    Course replies given asked failure := by
  -- the replies are read two at a time, so the induction is on their number
  induction hlength : replies.length using Nat.strongRecOn generalizing replies with
  | _ number ih =>
    rcases replies with _ | ⟨name | _ | reason, rest⟩
    · exact ⟨_, _, _, .cancelledName rfl⟩
    · by_cases hname : trim name = ""
      · exact ⟨_, _, _, .blankName hname⟩
      rcases rest with _ | ⟨type | _ | reason, rest⟩
      · exact ⟨_, _, _, .cancelledType hname rfl⟩
      · have hless : rest.length < number := by
          simp only [List.length_cons] at hlength
          omega
        obtain ⟨given, asked, failure, hcourse⟩ := ih _ hless rest rfl
        exact ⟨_, _, _, .confirmed hname hcourse⟩
      · exact ⟨_, _, _, .cancelledType hname rfl⟩
      · exact ⟨_, _, _, .failedType hname⟩
    · exact ⟨_, _, _, .cancelledName rfl⟩
    · exact ⟨_, _, _, .failedName⟩

/-- At most one question finds no reply. -/
theorem Course.asked_length {replies : List Reply} {given : List (String × String)}
    {asked : List Question} {failure : Option String} (h : Course replies given asked failure) :
    asked.length ≤ replies.length + 1 := by
  induction h with
  | cancelledName _ | blankName _ | failedName | cancelledType _ _ | failedType _ => simp
  | confirmed _ _ ih =>
    simp only [List.length_cons]
    omega

/-! ## The parameters that are left -/

/-- A name gets a type, and nothing is said about it afterwards. -/
def LastGiven (given : List (String × String)) (name type : String) : Prop :=
  ∃ front back, given = front ++ (name, type) :: back ∧ name ∉ back.map Prod.fst

/-- What is left of parameters that were confirmed in turn. -/
structure Settled (given : List (String × String)) (confirmed : Confirmed) : Prop where
  /-- Every name once, in the order of first confirmation. -/
  names : confirmed.map Prod.fst = (given.map Prod.fst).eraseDups
  /-- With the type of the last confirmation. -/
  types : ∀ {name type}, (name, type) ∈ confirmed ↔ LastGiven given name type

theorem lastGiven_concat {given : List (String × String)} {name type other kind : String} :
    LastGiven (given ++ [(name, type)]) other kind ↔
      (other = name ∧ kind = type) ∨ (other ≠ name ∧ LastGiven given other kind) := by
  constructor
  · rintro ⟨front, back, hgiven, hback⟩
    rcases back.eq_nil_or_concat with rfl | ⟨init, last, rfl⟩
    · have hlast := (List.append_inj' hgiven rfl).2
      simp only [List.cons.injEq, Prod.mk.injEq, and_true] at hlast
      exact Or.inl ⟨hlast.1.symm, hlast.2.symm⟩
    · rw [List.concat_eq_append, ← List.cons_append, ← List.append_assoc] at hgiven
      obtain ⟨hfront, hlast⟩ := List.append_inj' hgiven rfl
      obtain rfl : (name, type) = last := List.singleton_inj.1 hlast
      simp only [List.concat_eq_append, List.map_append, List.map_cons, List.map_nil,
        List.mem_append, List.mem_singleton, not_or] at hback
      exact Or.inr ⟨hback.2, front, init, hfront, hback.1⟩
  · rintro (⟨rfl, rfl⟩ | ⟨hne, front, back, rfl, hback⟩)
    · exact ⟨given, [], rfl, by simp⟩
    · refine ⟨front, back ++ [(name, type)], by simp, ?_⟩
      simpa using ⟨by simpa using hback, hne⟩

theorem confirm_eq (confirmed : Confirmed) (name type : String) :
    confirm confirmed name type =
      if name ∈ confirmed.map Prod.fst then
        confirmed.map fun p => if p.1 = name then (name, type) else p
      else confirmed ++ [(name, type)] := by
  have hany : (confirmed.any fun p => p.1 = name) = true ↔ name ∈ confirmed.map Prod.fst := by
    simp only [List.any_eq_true, decide_eq_true_eq, List.mem_map]
  simp only [confirm, hany]

theorem mem_confirm {confirmed : Confirmed} {name type other kind : String} :
    (other, kind) ∈ confirm confirmed name type ↔
      (other = name ∧ kind = type) ∨ (other ≠ name ∧ (other, kind) ∈ confirmed) := by
  rw [confirm_eq]
  by_cases hname : name ∈ confirmed.map Prod.fst
  · rw [if_pos hname, List.mem_map]
    constructor
    · rintro ⟨p, hp, heq⟩
      by_cases hsame : p.1 = name
      · rw [if_pos hsame] at heq
        cases heq
        exact Or.inl ⟨rfl, rfl⟩
      · rw [if_neg hsame] at heq
        subst heq
        exact Or.inr ⟨hsame, hp⟩
    · rintro (⟨rfl, rfl⟩ | ⟨hne, hmem⟩)
      · obtain ⟨p, hp, hsame⟩ := List.mem_map.1 hname
        exact ⟨p, hp, if_pos hsame⟩
      · exact ⟨(other, kind), hmem, if_neg hne⟩
  · rw [if_neg hname, List.mem_append, List.mem_singleton, Prod.mk.injEq]
    constructor
    · rintro (hmem | hnew)
      · refine Or.inr ⟨?_, hmem⟩
        rintro rfl
        exact hname (List.mem_map_of_mem hmem)
      · exact Or.inl hnew
    · rintro (hnew | ⟨-, hmem⟩)
      · exact Or.inr hnew
      · exact Or.inl hmem

theorem map_fst_confirm (confirmed : Confirmed) (name type : String) :
    (confirm confirmed name type).map Prod.fst =
      if name ∈ confirmed.map Prod.fst then confirmed.map Prod.fst
      else confirmed.map Prod.fst ++ [name] := by
  rw [confirm_eq]
  by_cases hname : name ∈ confirmed.map Prod.fst
  · rw [if_pos hname, if_pos hname, List.map_map]
    refine List.map_congr_left fun p _ => ?_
    by_cases hsame : p.1 = name <;> simp [hsame]
  · rw [if_neg hname, if_neg hname, List.map_append]
    rfl

theorem eraseDups_concat (names : List String) (name : String) :
    (names ++ [name]).eraseDups =
      if name ∈ names.eraseDups then names.eraseDups else names.eraseDups ++ [name] := by
  rw [List.eraseDups_append]
  by_cases hname : name ∈ names
  · simp [List.removeAll, hname]
  · simp [List.removeAll, hname, List.eraseDups_cons]

/-- **Confirming one more parameter** leaves what it should. -/
theorem settled_confirm {given : List (String × String)} {confirmed : Confirmed}
    (h : Settled given confirmed) (name type : String) :
    Settled (given ++ [(name, type)]) (confirm confirmed name type) where
  names := by
    rw [map_fst_confirm, h.names, List.map_append]
    exact (eraseDups_concat _ name).symm
  types := by
    intro other kind
    rw [mem_confirm, lastGiven_concat, h.types]

/-- Confirm parameters in turn. -/
def confirmAll (confirmed : Confirmed) (given : List (String × String)) : Confirmed :=
  given.foldl (fun confirmed p => confirm confirmed p.1 p.2) confirmed

theorem settled_confirmAll {given more : List (String × String)} {confirmed : Confirmed}
    (h : Settled given confirmed) : Settled (given ++ more) (confirmAll confirmed more) := by
  induction more generalizing given confirmed with
  | nil => rwa [List.append_nil]
  | cons p more ih =>
    have hnext := ih (settled_confirm h p.1 p.2)
    rwa [List.append_assoc] at hnext

/-! ## Interviews -/

theorem answer_cancel (stage : Stage) : stage.answer .cancel = .done stage.confirmed := by
  cases stage <;> simp only [Stage.answer, Stage.confirmed]

theorem answer_failure (stage : Stage) (reason : String) :
    stage.answer (.failure reason) = .failed reason := by
  cases stage <;> simp only [Stage.answer]

theorem answer_blank {name : String} (h : trim name = "") (confirmed : Confirmed) :
    (Stage.name confirmed).answer (.text name) = .done confirmed := by
  simp [Stage.answer, h]

theorem answer_name {name : String} (h : trim name ≠ "") (confirmed : Confirmed) :
    (Stage.name confirmed).answer (.text name) = .ask (.type confirmed (trim name)) := by
  simp [Stage.answer, h]

theorem answer_type (confirmed : Confirmed) (parameter type : String) :
    (Stage.type confirmed parameter).answer (.text type) =
      .ask (.name (confirm confirmed parameter (typeIn type))) := by
  simp [Stage.answer, typeIn]

theorem interview_cancel {replies : List Reply} (h : replies.headD .cancel = .cancel)
    (stage : Stage) :
    stage.interview replies = ⟨.ok stage.confirmed, [stage.question]⟩ := by
  rcases replies with _ | ⟨reply, rest⟩
  · rfl
  · obtain rfl : reply = .cancel := h
    simp only [Stage.interview, answer_cancel]

/-- What a course comes to from what is confirmed already. -/
def Course.result (confirmed : Confirmed) (given : List (String × String)) :
    Option String → Except Failure Confirmed
  | none => .ok (confirmAll confirmed given)
  | some reason => .error (.prompt reason)

theorem Course.result_cons (confirmed : Confirmed) (name type : String)
    (given : List (String × String)) (failure : Option String) :
    Course.result confirmed ((name, type) :: given) failure =
      Course.result (confirm confirmed name type) given failure := by
  cases failure <;> rfl

/-- **An interview runs its course.** -/
theorem Course.interview_eq {replies : List Reply} {given : List (String × String)}
    {asked : List Question} {failure : Option String} (h : Course replies given asked failure)
    (confirmed : Confirmed) :
    (Stage.name confirmed).interview replies =
      ⟨Course.result confirmed given failure, asked⟩ := by
  induction h generalizing confirmed with
  | cancelledName hcancel =>
    rw [interview_cancel hcancel]
    rfl
  | blankName hname =>
    simp only [Stage.interview, answer_blank hname]
    rfl
  | failedName =>
    simp only [Stage.interview, answer_failure]
    rfl
  | cancelledType hname hcancel =>
    simp only [Stage.interview, answer_name hname, interview_cancel hcancel]
    rfl
  | failedType hname =>
    simp only [Stage.interview, answer_name hname, answer_failure]
    rfl
  | confirmed hname _ ih =>
    simp only [Stage.interview, answer_name hname, answer_type, ih, Course.result_cons]
    rfl

/-- **An interview comes to what was confirmed.** Every list of replies is read in turns up to the
first blank or cancelled name, cancelled type or failure, with at most one question more than there
are replies. The interview fails exactly when it reaches a failure, with its reason. Otherwise it
leaves one parameter for each name that was confirmed, in the order of first confirmation and with
the type of the last. -/
theorem interview_folds_confirmed (replies : List Reply) :
    (∃ given asked failure, Course replies given asked failure) ∧
    ∀ given asked failure, Course replies given asked failure →
      (interview replies).asked = asked ∧ asked.length ≤ replies.length + 1 ∧
      match failure with
      | some reason => (interview replies).result = .error (.prompt reason)
      | none => ∃ confirmed, (interview replies).result = .ok confirmed ∧
          Settled given confirmed := by
  refine ⟨exists_course replies, ?_⟩
  intro given asked failure hcourse
  have hinterview : interview replies = ⟨Course.result [] given failure, asked⟩ :=
    hcourse.interview_eq []
  have hsettled : Settled [] [] := ⟨rfl, by simp [LastGiven]⟩
  rw [hinterview]
  refine ⟨rfl, hcourse.asked_length, ?_⟩
  cases failure with
  | some reason => rfl
  | none => exact ⟨confirmAll [] given, rfl, settled_confirmAll hsettled⟩

example : (interview [.text "Count", .text " ", .text "Stage", .text "", .text " Count ",
    .text "Number", .text "Half"]).result = .ok [("Count", "Number"), ("Stage", "string")] := by
  rfl

end CdkStacks.Command
