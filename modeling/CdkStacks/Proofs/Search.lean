import CdkStacks.Template.Cycle
import Mathlib.Data.List.Chain
import Mathlib.Data.List.Nodup
import Mathlib.Data.List.Perm.Subperm
import Mathlib.Logic.Relation

/-!
# Searching for circles

The depth-first search over a finite graph finds a circle exactly when there is one.

* `IsCircle` is a walk that ends where it starts and meets no other node twice;
* `Safe` is a node from which no circle can be reached;
* `Trail` is the way from the start of the search to the node it stands at;
* `Answers` is what a search owes: a circle, or the nodes asked for among the safe ones;
* `searchAll_answers`: the search from every node keeps that.
-/

namespace CdkStacks.Template

open Relation (ReflTransGen TransGen)

/-! ## Circles -/

/-- The nodes `v₀, v₁, …, vₖ` of a circle: at least one step, `vₖ` is `v₀`, the nodes before `vₖ`
differ, and each node points to the next one. -/
def IsCircle (points : Nat → Nat → Prop) (nodes : List Nat) : Prop :=
  ∃ start inner, nodes = start :: (inner ++ [start]) ∧ (start :: inner).Nodup ∧
    nodes.IsChain points

theorem transGen_of_isChain {points : Nat → Nat → Prop} {last : Nat} :
    ∀ {first : Nat} {inner : List Nat}, (first :: (inner ++ [last])).IsChain points →
      TransGen points first last
  | first, [], h => by
    simp only [List.nil_append, List.isChain_cons_cons] at h
    exact .single h.1
  | first, next :: inner, h => by
    simp only [List.cons_append, List.isChain_cons_cons] at h
    exact .head h.1 (transGen_of_isChain h.2)

/-- The first node of a circle reaches itself. -/
theorem IsCircle.reaches_itself {points : Nat → Nat → Prop} {nodes : List Nat}
    (h : IsCircle points nodes) : ∃ node, TransGen points node node := by
  obtain ⟨start, inner, rfl, -, hchain⟩ := h
  exact ⟨start, transGen_of_isChain hchain⟩

section Graph

variable {edges : Nat → List Nat} {count : Nat}

/-- The relation of a graph that is given by its lists of edges. -/
def Leads (edges : Nat → List Nat) (node next : Nat) : Prop :=
  next ∈ edges node

/-- No circle can be reached from a node. -/
def Safe (edges : Nat → List Nat) (node : Nat) : Prop :=
  ∀ far, ReflTransGen (Leads edges) node far → ¬ TransGen (Leads edges) far far

/-- A node is safe when all nodes it points to are. -/
theorem Safe.of_edges {node : Nat} (h : ∀ next ∈ edges node, Safe edges next) :
    Safe edges node := by
  intro far hfar hcircle
  rcases hfar.cases_head with rfl | ⟨next, hnext, hrest⟩
  · -- a circle through the node itself passes one of the nodes it points to
    obtain ⟨next, hnext, hback⟩ := TransGen.head'_iff.1 hcircle
    exact h next hnext node hback hcircle
  · exact h next hnext far hrest hcircle

/-! ## The way to a node -/

/-- The way to the node the search stands at, which comes first: no node occurs twice, every node is
one of the first `count`, and each is pointed to by the one behind it. -/
structure Trail (edges : Nat → List Nat) (count : Nat) (trail : List Nat) : Prop where
  nodup : trail.Nodup
  bound : ∀ node ∈ trail, node < count
  chain : trail.IsChain fun next node => Leads edges node next

theorem Trail.start {node : Nat} (h : node < count) : Trail edges count [node] where
  nodup := by simp
  bound := by simpa using h
  chain := by simp

theorem Trail.step {node next : Nat} {path : List Nat} (h : Trail edges count (node :: path))
    (hnext : next ∈ edges node) (hlt : next < count) (hnew : next ∉ node :: path) :
    Trail edges count (next :: node :: path) where
  nodup := List.nodup_cons.2 ⟨hnew, h.nodup⟩
  bound := by
    intro other hother
    rcases List.mem_cons.1 hother with rfl | hother
    · exact hlt
    · exact h.bound other hother
  chain := List.isChain_cons_cons.2 ⟨hnext, h.chain⟩

/-- A trail is not longer than the number of nodes. -/
theorem Trail.length_le {trail : List Nat} (h : Trail edges count trail) :
    trail.length ≤ count := by
  have hsub : trail ⊆ List.range count := fun node hnode => List.mem_range.2 (h.bound node hnode)
  simpa using (List.subperm_of_subset h.nodup hsub).length_le

/-- A step back onto the trail closes a circle. -/
theorem Trail.isCircle {node next : Nat} {path : List Nat}
    (h : Trail edges count (node :: path)) (hnext : next ∈ edges node)
    (hback : next ∈ node :: path) :
    IsCircle (Leads edges) (circle (node :: path) next) := by
  obtain ⟨before, after, hsplit, hnew⟩ := List.eq_append_cons_of_mem hback
  have hcircle : circle (node :: path) next = next :: (before.reverse ++ [next]) := by
    have hne : ∀ node ∈ before, decide (node ≠ next) = true := fun node hnode =>
      decide_eq_true fun e => hnew (e ▸ hnode)
    rw [circle, hsplit, List.takeWhile_append_of_pos hne]
    simp
  have hnodup : (before ++ [next]).Nodup := by
    have := h.nodup
    rw [hsplit, List.append_cons] at this
    exact this.of_append_left
  refine ⟨next, before.reverse, hcircle, ?_, ?_⟩
  · have : (next :: before.reverse) = (before ++ [next]).reverse := by simp
    rw [this]
    exact List.nodup_reverse.2 hnodup
  · -- read backwards, the circle is the step back followed by the newest part of the trail
    have hpart : (before ++ [next]).IsChain fun next node => Leads edges node next := by
      have := h.chain
      rw [hsplit, List.append_cons] at this
      exact this.left_of_append
    have hreverse : next :: (before.reverse ++ [next]) = (next :: (before ++ [next])).reverse := by
      simp
    rw [hcircle, hreverse, List.isChain_reverse]
    cases before with
    | nil =>
      obtain ⟨rfl, -⟩ : node = next ∧ path = after := by simpa using hsplit
      simpa [Leads] using hnext
    | cons first rest =>
      obtain ⟨rfl, -⟩ : node = first ∧ path = rest ++ next :: after := by simpa using hsplit
      exact List.isChain_cons_cons.2 ⟨hnext, hpart⟩

/-! ## The search -/

/-- What a search for the nodes `goals` owes when `done` are known to be safe: a circle, or safe
nodes that include `done` and `goals`. -/
def Answers (edges : Nat → List Nat) (done goals : List Nat) :
    Except (List Nat) (List Nat) → Prop
  | .ok done' => done ⊆ done' ∧ goals ⊆ done' ∧ ∀ node ∈ done', Safe edges node
  | .error nodes => IsCircle (Leads edges) nodes

/-- Searching one node after the other answers for all of them when every single search does. -/
theorem answers_foldlM {visit : List Nat → Nat → Except (List Nat) (List Nat)} {goals : List Nat}
    (hvisit : ∀ done, (∀ node ∈ done, Safe edges node) → ∀ goal ∈ goals,
      Answers edges done [goal] (visit done goal)) :
    ∀ done, (∀ node ∈ done, Safe edges node) →
      Answers edges done goals (goals.foldlM visit done) := by
  induction goals with
  | nil =>
    intro done hdone
    exact ⟨List.Subset.refl _, List.nil_subset _, hdone⟩
  | cons goal goals ih =>
    intro done hdone
    have hfirst := hvisit done hdone goal (List.mem_cons_self ..)
    rw [List.foldlM_cons]
    cases hr : visit done goal with
    | error nodes =>
      rw [hr] at hfirst
      exact hfirst
    | ok done₁ =>
      rw [hr] at hfirst
      obtain ⟨hsub, hgoal, hsafe⟩ := hfirst
      have hrest := ih (fun done h g hg => hvisit done h g (List.mem_cons_of_mem _ hg)) done₁ hsafe
      change Answers edges done (goal :: goals) (goals.foldlM visit done₁)
      cases hr' : goals.foldlM visit done₁ with
      | error nodes =>
        rw [hr'] at hrest
        exact hrest
      | ok done₂ =>
        rw [hr'] at hrest
        obtain ⟨hsub', hgoals, hsafe'⟩ := hrest
        have hboth : goal :: goals ⊆ done₂ :=
          List.cons_subset.2 ⟨hsub' (hgoal (by simp)), hgoals⟩
        exact ⟨List.Subset.trans hsub hsub', hboth, hsafe'⟩

/-- Once all nodes that a node points to are searched, the node is done. -/
theorem Answers.finish {done : List Nat} {node : Nat} {answer : Except (List Nat) (List Nat)}
    (h : Answers edges done (edges node) answer) :
    Answers edges done [node] (do let done ← answer; return node :: done) := by
  cases answer with
  | error nodes => exact h
  | ok done' =>
    obtain ⟨hsub, hgoals, hsafe⟩ := h
    have hnode : Safe edges node := .of_edges fun next hnext => hsafe next (hgoals hnext)
    exact ⟨List.subset_cons_of_subset _ hsub, by simp, List.forall_mem_cons.2 ⟨hnode, hsafe⟩⟩

/-- **One search.** From a node at the end of a trail the search finds a circle or shows that the
node is safe. The fuel suffices, since the trail cannot be longer than the number of nodes. -/
theorem search_answers (hedges : ∀ node, ∀ next ∈ edges node, next < count) :
    ∀ (fuel : Nat) (path done : List Nat) (node : Nat), Trail edges count (node :: path) →
      count ≤ path.length + fuel → (∀ node ∈ done, Safe edges node) →
      Answers edges done [node] (search edges fuel path done node)
  | 0, path, done, node, htrail, hfuel, _ => by
    have := htrail.length_le
    simp only [List.length_cons] at this
    omega
  | fuel + 1, path, done, node, htrail, hfuel, hdone => by
    rw [search]
    refine Answers.finish (answers_foldlM ?_ done hdone)
    intro done hdone next hnext
    split_ifs with hknown hback
    · exact ⟨List.Subset.refl _, by simpa using hknown, hdone⟩
    · exact htrail.isCircle hnext (by simpa using hback)
    · have hnew : next ∉ node :: path := by simpa using hback
      have hroom : count ≤ (node :: path).length + fuel := by
        simp only [List.length_cons]
        omega
      exact search_answers hedges fuel (node :: path) done next
        (htrail.step hnext (hedges node next hnext) hnew) hroom hdone

/-- **The whole search.** It finds a circle or shows that all nodes are safe. -/
theorem searchAll_answers (hedges : ∀ node, ∀ next ∈ edges node, next < count) :
    Answers edges [] (List.range count) (searchAll edges count) := by
  refine answers_foldlM ?_ [] (by simp)
  intro done hdone node hnode
  split_ifs with hknown
  · exact ⟨List.Subset.refl _, by simpa using hknown, hdone⟩
  · exact search_answers hedges count [] done node (.start (List.mem_range.1 hnode)) (by simp) hdone

end Graph

end CdkStacks.Template
