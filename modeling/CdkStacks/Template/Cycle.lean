import CdkStacks.Failure
import CdkStacks.Template.Basic

/-!
# Circular references

A resource points to the resources that its properties read and to those it depends on. A stack
can only be built when no resource reaches itself that way.

* `Template.edges` are the resources that a resource points to, by their places;
* `search` looks for a circle depth first, from one resource;
* `Template.checkCycles` looks from every resource in turn.
-/

namespace CdkStacks.Template

/-- The resources that a resource points to, each once, in the order in which they are first
read. -/
def targets (template : Template) (resource : Resource) : List Nat :=
  ((resource.sites.map Site.target ++ resource.dependsOn).filterMap
    template.resourceIndex?).eraseDups

/-- The resources that the resource at a place points to. -/
def edges (template : Template) (place : Nat) : List Nat :=
  match template.resources[place]? with
  | some resource => template.targets resource
  | none => []

/-- The circle that a step back to `next` closes; `path` leads to the last node, which stands
first. -/
def circle (path : List Nat) (next : Nat) : List Nat :=
  next :: ((path.takeWhile (· ≠ next)).reverse ++ [next])

/-- Search from `node` for a circle. `path` are the nodes on the way to it, the last one first, and
`done` those from which no circle can be reached. The answer is a circle, or the nodes known to
reach none. A path is never longer than the number of nodes, which `fuel` is. -/
def search (edges : Nat → List Nat) :
    (fuel : Nat) → (path done : List Nat) → (node : Nat) → Except (List Nat) (List Nat)
  | 0, _, done, _ => .ok done
  | fuel + 1, path, done, node => do
    let done ← (edges node).foldlM
      (fun done next =>
        if done.contains next then .ok done
        else if (node :: path).contains next then .error (circle (node :: path) next)
        else search edges fuel (node :: path) done next)
      done
    return node :: done

/-- Search from every node below `count` that is not known to reach no circle. -/
def searchAll (edges : Nat → List Nat) (count : Nat) : Except (List Nat) (List Nat) :=
  (List.range count).foldlM
    (fun done node => if done.contains node then .ok done else search edges count [] done node) []

/-- The name of the resource at a place. -/
def nameAt (template : Template) (place : Nat) : String :=
  match template.resources[place]? with
  | some resource => resource.name
  | none => ""

/-- Fail when a resource reaches itself, naming the resources of the circle. -/
def checkCycles (template : Template) : Except Failure Unit :=
  match searchAll template.edges template.resources.length with
  | .ok _ => .ok ()
  | .error places => .error (.cycle (places.map template.nameAt))

end CdkStacks.Template
