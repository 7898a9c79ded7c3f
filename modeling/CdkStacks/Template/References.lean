import CdkStacks.Failure
import CdkStacks.Template.Basic

/-!
# Checking references

Every name that a template reads has to be declared.

* `Template.resolves` says whether a site reads a declared name;
* `Template.checkReferences` fails with the first name that is not declared: resources come in
  source order, each with its properties before its dependencies, then the outputs.
-/

namespace CdkStacks.Template

/-- Whether the name of a site is declared; an attribute needs a resource. -/
def resolves (template : Template) (site : Site) : Bool :=
  if site.needsResource then (template.resource? site.target).isSome
  else template.declares site.target

/-- What a resource reads: its properties, then the resources it depends on. -/
def Resource.reads (resource : Resource) : List Site :=
  resource.sites ++ resource.dependsOn.map fun name => ⟨name, true⟩

/-- Everything the resources and outputs read, each with its owner, in the order of the check. -/
def reads (template : Template) : List (String × Site) :=
  (template.resources.flatMap fun r => r.reads.map fun site => (r.name, site)) ++
    template.outputs.flatMap fun o => o.sites.map fun site => (o.name, site)

/-- Fail with the first name that is not declared. -/
def checkReferences (template : Template) : Except Failure Unit :=
  match template.reads.find? fun (_, site) => !template.resolves site with
  | some (owner, site) => .error (.unresolved owner site.target)
  | none => .ok ()

end CdkStacks.Template
