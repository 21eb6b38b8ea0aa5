import Mathlib.Data.List.Basic
import Mathlib.Data.Option.Basic
import Mathlib.Tactic.Common
import ScrapeDiscovery.Cluster.Object
import ScrapeDiscovery.Provider

/-!
# Objects, and the resources that they are

The name of a target is made of the kind, the namespace and the name of an object.
Neither namespaces nor names have a `/`, so the name of a target tells which object of
which kind it belongs to, and the name of a provider tells that and its factory. Whether
an object is to be discovered can be read off it: a pod has to run and to have an address,
a service to have a cluster address.

Results:
* `targetName_inj`: objects of one kind with one target name are the same object.
* `Resource.kind_eq_of_targetName_eq`: resources with one target name are of one kind.
* `Resource.providerName_targetName_iff`: what providers with one name have in common.
* `ready_of_pod?`, `ready_of_service?`: which pods and services are to be discovered.
-/

namespace ScrapeDiscovery

/-! ## Target names -/

/-- An object as the cluster has them: no `/` in its namespace or its name. -/
structure ObjectMeta.IsPlain (o : ObjectMeta) : Prop where
  ns : '/' ∉ o.ns.toList
  name : '/' ∉ o.name.toList

/-- What follows the kind in the name of a target. -/
theorem targetName_eq (kind : ResourceKind) (o : ObjectMeta) :
    targetName kind o =
      (kind.name ++ "/") ++ if o.ns = "" then o.name else o.ns ++ "/" ++ o.name := by
  unfold targetName
  split
  · rfl
  · simp only [String.append_assoc]

theorem toList_append_slash (a b : String) :
    (a ++ "/" ++ b).toList = a.toList ++ '/' :: b.toList := by
  rw [String.toList_append, String.toList_append, List.append_assoc]
  rfl

/-- Of objects of one kind no two have the same target name. -/
theorem targetName_inj {kind : ResourceKind} {a b : ObjectMeta} (ha : a.IsPlain)
    (hb : b.IsPlain) :
    targetName kind a = targetName kind b ↔ a.ns = b.ns ∧ a.name = b.name := by
  -- a name without a namespace is no namespace and name
  have hmixed : ∀ {a b : ObjectMeta}, a.IsPlain → a.name ≠ b.ns ++ "/" ++ b.name := by
    intro a b ha h
    refine ha.name ?_
    rw [h, toList_append_slash]
    exact List.mem_append_right _ List.mem_cons_self
  rw [targetName_eq, targetName_eq, String.append_right_inj]
  split_ifs with hnone hnone' hnone'
  · rw [hnone, hnone', eq_self, true_and]
  · exact ⟨fun h => absurd h (hmixed ha), fun h => absurd (h.1.symm.trans hnone) hnone'⟩
  · exact ⟨fun h => absurd h.symm (hmixed hb), fun h => absurd (h.1.trans hnone') hnone⟩
  · rw [← String.toList_inj, toList_append_slash, toList_append_slash,
      List.append_cons_inj_of_notMem ha.ns ha.name, String.toList_inj, String.toList_inj, eq_self,
      true_and]

example : targetName .pod { ns := "a", name := "b/c" } =
    targetName .pod { ns := "a/b", name := "c" } := by
  decide

namespace Resource

/-- The kind of a resource can be read off the name of its target. -/
theorem kind_eq_of_targetName_eq {r r' : Resource} (he : r.targetName = r'.targetName) :
    r.kind = r'.kind := by
  have hhead : ∀ r : Resource, r.targetName.toList.head? = r.kind.name.toList.head? := by
    intro r
    unfold Resource.targetName ScrapeDiscovery.targetName
    cases r.kind <;> split <;> simp [ResourceKind.name]
  -- the names of the kinds begin with different letters
  have hinj : ∀ k k' : ResourceKind, k.name.toList.head? = k'.name.toList.head? → k = k' := by
    intro k k'
    cases k <;> cases k' <;> simp [ResourceKind.name]
  apply hinj
  rw [← hhead r, ← hhead r', he]

/-- What tells resources apart: the kind, the namespace and the name. -/
def identity (r : Resource) : ResourceKind × String × String :=
  (r.kind, r.object.ns, r.object.name)

/-- Of all resources no two have the same target name. -/
theorem targetName_eq_iff {r s : Resource} (hr : r.object.IsPlain) (hs : s.object.IsPlain) :
    r.targetName = s.targetName ↔ r.identity = s.identity := by
  have hsame : r.kind = s.kind → (r.targetName = s.targetName ↔
      r.object.ns = s.object.ns ∧ r.object.name = s.object.name) := by
    intro hkind
    rw [targetName, targetName, hkind]
    exact targetName_inj hr hs
  rw [identity, identity, Prod.mk.injEq, Prod.mk.injEq]
  constructor
  · intro h
    have hkind := kind_eq_of_targetName_eq h
    exact ⟨hkind, (hsame hkind).mp h⟩
  · rintro ⟨hkind, hobject⟩
    exact (hsame hkind).mpr hobject

/-- The name of a target tells its resource, the name of a provider tells its factory and its
    target. So providers with one name are of one factory and for one resource. -/
theorem providerName_targetName_iff {f g : Family} {r s : Resource} (hr : r.object.IsPlain)
    (hs : s.object.IsPlain) :
    (r.targetName = s.targetName ↔ r.identity = s.identity) ∧
      Function.Injective (fun p : Family × String => providerName p.1.factoryName p.2) ∧
      (providerName f.factoryName r.targetName = providerName g.factoryName s.targetName ↔
        f = g ∧ r.identity = s.identity) := by
  refine ⟨targetName_eq_iff hr hs, ?_, ?_⟩
  · rintro ⟨f, t⟩ ⟨g, u⟩ h
    exact Prod.ext_iff.mpr (providerName_inj.mp h)
  · rw [providerName_inj, targetName_eq_iff hr hs]

/-- Pods whose namespaces and names differ in where a dash stands have providers of their own. -/
theorem providerName_dashed_ne :
    let r : Resource := { kind := .pod, ip := "10.0.0.1", object := { name := "c", ns := "a-b" } }
    let s : Resource := { kind := .pod, ip := "10.0.0.2", object := { name := "b-c", ns := "a" } }
    r.object.IsPlain ∧ s.object.IsPlain ∧
      providerName Family.prometheus.factoryName r.targetName ≠
        providerName Family.prometheus.factoryName s.targetName := by
  intro r s
  have hr : r.object.IsPlain := ⟨by decide, by decide⟩
  have hs : s.object.IsPlain := ⟨by decide, by decide⟩
  refine ⟨hr, hs, fun h => ?_⟩
  have hidentity := ((providerName_targetName_iff hr hs).2.2.mp h).2
  exact absurd hidentity (by decide)

end Resource

namespace Cluster

/-! ## What is to be discovered -/

/-- Reads a text in a part of an object, empty where it is missing or null. -/
def textIn? (j : Json) (block name : String) : Option String := do
  let j ← object? j
  let s ← section? j block
  part s name Json.text? ""

/-- A pod is to be discovered while it runs and has an address. -/
theorem ready_of_pod? {j : Json} {o : Observed} (h : pod? j = some o) :
    o.resource.kind = .pod ∧ textIn? j "status" "podIP" = some o.resource.ip ∧
      (o.isReady = true ↔
        textIn? j "status" "phase" = some "Running" ∧ o.resource.ip ≠ "") := by
  simp only [pod?, Option.bind_eq_bind, Option.pure_def, Option.bind_eq_some_iff] at h
  obtain ⟨j', hj, -, -, object, -, spec, -, status, hstatus, containers, -, ip, hip, phase, hphase,
    ho⟩ := h
  obtain rfl := Option.some.inj ho
  simp [textIn?, hj, hstatus, hip, hphase]

/-- A service is to be discovered while it has a cluster address. -/
theorem ready_of_service? {j : Json} {o : Observed} (h : service? j = some o) :
    o.resource.kind = .service ∧ textIn? j "spec" "clusterIP" = some o.resource.ip ∧
      (o.isReady = true ↔ o.resource.ip ≠ "" ∧ o.resource.ip ≠ "None") := by
  simp only [service?, Option.bind_eq_bind, Option.pure_def, Option.bind_eq_some_iff] at h
  obtain ⟨j', hj, -, -, object, -, spec, hspec, ip, hip, ho⟩ := h
  obtain rfl := Option.some.inj ho
  simp [textIn?, hj, hspec, hip, hasAddress]

end Cluster

end ScrapeDiscovery
