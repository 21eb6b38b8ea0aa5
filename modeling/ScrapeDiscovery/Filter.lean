import ScrapeDiscovery.Error
import ScrapeDiscovery.Resource
import ScrapeDiscovery.Rule.Basic

/-!
# Which resources a rule claims

The selectors of a rule are compiled once, which finds their faults, and then
matched against resources. A rule claims a resource of its kind if labels,
namespace and images all agree; selectors that are not given agree with
everything. Of the containers whose image agrees only the first one counts, and
if the rule has a port that container has to expose it.

Results:
* `kind_eq_of_isMatch`: a matching resource has the kind of the rule.
-/

namespace ScrapeDiscovery

/-- Patterns of which one has to match (`GlobSet`). -/
structure GlobSet where
  globs : List Glob
  deriving DecidableEq, Repr

namespace GlobSet

/-- Compiles one pattern (`compile_patterns`). -/
def compilePattern (pattern : String) : Except DiscoveryError Glob :=
  match Glob.compile pattern with
  | .ok g => .ok g
  | .error fault => .error (.invalidGlob pattern fault)

/-- Compiles patterns up to the first faulty one (`compile_patterns`). -/
def compileAll (patterns : List String) : Except DiscoveryError GlobSet :=
  (patterns.mapM compilePattern).map GlobSet.mk

/-- Compiles patterns; without any there is no set (`GlobSet::compile`). -/
def compile (patterns : List String) : Except DiscoveryError (Option GlobSet) :=
  if patterns.isEmpty then .ok none else (compileAll patterns).map some

/-- Whether a pattern matches, or there is none (`GlobSet::matches`). -/
def isMatch (s : GlobSet) (value : String) : Bool :=
  s.globs.isEmpty || s.globs.any (·.isMatch value)

end GlobSet

/-- The compiled selectors of a rule (`ResourceFilter`). -/
structure ResourceFilter where
  kind : ResourceKind
  images : Option GlobSet
  namespaces : Option GlobSet
  /-- The patterns of each label; a label without patterns only has to be there. -/
  labels : Option (List (String × GlobSet))
  port : Option Int
  deriving DecidableEq, Repr

namespace ResourceFilter

/-- Compiles the patterns of each label (`ResourceFilter::new`). -/
def compileLabels (labels : KeyMap (List String)) :
    Except DiscoveryError (Option (List (String × GlobSet))) :=
  if labels.isEmpty then .ok none
  else
    (labels.toList.mapM fun (e : String × List String) =>
      (GlobSet.compileAll e.2).map fun s => (e.1, s)).map some

/-- Reads the port of a rule (`ResourceFilter::new`). -/
def compilePort (rule : Rule) : Except DiscoveryError (Option Int) :=
  if rule.port = "" then .ok none
  else
    match Text.parseInt .int32 rule.port with
    | .ok port => .ok (some port)
    | .error fault => .error (.invalidPort rule.name rule.port fault)

/-- Compiles the selectors of a rule (`ResourceFilter::new`). All rules but those for the API server
need one. -/
def compile (rule : Rule) : Except DiscoveryError ResourceFilter := do
  let kind ←
    match ResourceKind.ofName? rule.selectors.resourceType with
    | some kind => pure kind
    | none => throw (.invalidResourceType rule.selectors.resourceType)
  let images ← GlobSet.compile rule.selectors.images
  let namespaces ← GlobSet.compile rule.selectors.namespaces
  let labels ← compileLabels rule.selectors.labels
  if kind ≠ .apiServer && images.isNone && namespaces.isNone && labels.isNone then
    throw (.noSelectors rule.name)
  let port ← compilePort rule
  return { kind, images, namespaces, labels, port }

/-- Whether the labels of a resource agree (`matches_labels`). A resource without labels never
does. -/
def matchesLabels (selectors : List (String × GlobSet)) (labels : KeyMap String) : Bool :=
  !labels.isEmpty &&
    selectors.all fun (key, set) => (labels.get? key).any set.isMatch

/-- Whether the first container with a matching image exposes the port
(`ResourceFilter::matches`). -/
def matchesContainers (images : GlobSet) (port : Option Int) (containers : List Container) :
    Bool :=
  match containers.find? fun c => images.isMatch c.image with
  | none => false
  | some c => port.all c.ports.contains

/-- Whether the rule claims a resource (`ResourceFilter::matches`). -/
def isMatch (f : ResourceFilter) (r : Resource) : Bool :=
  r.kind == f.kind &&
    f.labels.all (fun selectors => matchesLabels selectors r.object.labels) &&
    f.namespaces.all (fun set => set.isMatch r.object.ns) &&
    f.images.all fun set => matchesContainers set f.port r.containers

theorem kind_eq_of_isMatch {f : ResourceFilter} {r : Resource} (h : f.isMatch r = true) :
    r.kind = f.kind := by
  simp only [isMatch, Bool.and_eq_true, beq_iff_eq] at h
  exact h.1.1.1

end ResourceFilter

end ScrapeDiscovery
