import Mathlib.Data.List.Infix
import ScrapeDiscovery.Proofs.Discoverer.Ownership
import ScrapeDiscovery.Proofs.Discoverer.Phases

/-!
# Handlers and live providers

A provider is named after the family of its factory and after its target, while
a target is owned within a registry, and a family may have many registries: one
for each plugin type of telegraf inputs. As long as no two registries of a
family list the same target, the live provider of every target that is held is
the one that its handler has built. Where two do, they contest one provider, and
it goes with the first of the two that gives the target up.

Results:
* `Roster.Withdrawal.backed`, `Roster.Advance.backed_or_contested`: what the steps of the two
  phases keep.
* `Sound.not_contested_prometheus`: prometheus targets are never contested.
* `backed_iff_never_contested`: exactly when every target keeps its provider during a run.
-/

namespace ScrapeDiscovery

namespace Roster

/-! ## Providers in a roster -/

/-- Whatever a handler of a family holds of a target, the live provider is built from it. -/
def Backed (r : Roster) (factory : Family) (target : String) : Prop :=
  ∀ id config, r.factory? id = some factory → r.encoding id target = some config →
    r.catalog.get? (providerName factory.factoryName target) =
      some ⟨providerName factory.factoryName target, config⟩

/-- Two handlers of a family hold the same target. -/
def Contested (r : Roster) (factory : Family) (target : String) : Prop :=
  ∃ a b, a ≠ b ∧ r.factory? a = some factory ∧ r.factory? b = some factory ∧
    r.holds a target = true ∧ r.holds b target = true

/-! ## Withdrawing -/

theorem catalog_dismiss_of_ne {r : Roster} (hc : r.Consistent) {id : HandlerId}
    {p : String → Bool} {factory : Family} {target : String}
    (hne : r.factory? id = some factory → r.holds id target = true → p target = false) :
    (r.dismiss id p).catalog.get? (providerName factory.factoryName target) =
      r.catalog.get? (providerName factory.factoryName target) := by
  cases hid : r.handler? id with
  | none =>
    rw [dismiss, picked_of_handler?_eq_none hid]
    rfl
  | some h =>
    rw [catalog_dismiss hc hid, if_neg]
    rintro ⟨target', hm, hname⟩
    obtain ⟨hfactory, rfl⟩ := providerName_inj.mp hname
    obtain ⟨hh, hp⟩ := mem_picked.mp hm
    rw [hne (factory?_eq_some_iff.mpr ⟨h, hid, hfactory.symm⟩) hh] at hp
    cases hp

/-- Where a target is not contested, giving targets up leaves its provider to whoever still
    holds it. -/
theorem backed_dismiss {r : Roster} (hc : r.Consistent) {factory : Family} {target : String}
    (hb : r.Backed factory target) (hn : ¬r.Contested factory target) (id : HandlerId)
    (p : String → Bool) : (r.dismiss id p).Backed factory target := by
  intro i config hi he
  have hkeeps := (dismiss_retreat r id p).keeps hc
  rw [hkeeps.factory?_eq] at hi
  rw [encoding_dismiss] at he
  split_ifs at he with hgone
  rw [catalog_dismiss_of_ne hc]
  · exact hb i config hi he
  · -- the handler that gives up targets holds this one only if it is the one that keeps it
    intro hf hh
    have hii : i = id := by
      by_contra hne
      exact hn ⟨i, id, hne, hi, hf, holds_iff_encoding.mpr ⟨config, he⟩, hh⟩
    exact Bool.eq_false_iff.mpr fun hp => hgone ⟨hii, hp⟩

theorem Withdrawal.not_contested {r r' : Roster} (hc : r.Consistent) (hw : Withdrawal r r')
    {factory : Family} {target : String} (hn : ¬r.Contested factory target) :
    ¬r'.Contested factory target := by
  rintro ⟨a, b, hab, hfa, hfb, ha, hb⟩
  obtain ⟨ca, hea⟩ := holds_iff_encoding.mp ha
  obtain ⟨cb, heb⟩ := holds_iff_encoding.mp hb
  obtain ⟨ha, hfa'⟩ := hw.encoding hc hea
  obtain ⟨hb, hfb'⟩ := hw.encoding hc heb
  exact hn ⟨a, b, hab, hfa' ▸ hfa, hfb' ▸ hfb, holds_iff_encoding.mpr ⟨ca, ha⟩,
    holds_iff_encoding.mpr ⟨cb, hb⟩⟩

/-- A target that is not contested keeps its provider while targets are given up. -/
theorem Withdrawal.backed {r r' : Roster} (hc : r.Consistent) (hw : Withdrawal r r')
    {factory : Family} {target : String}
    (hb : r.Backed factory target ∧ ¬r.Contested factory target) :
    r'.Backed factory target ∧ ¬r'.Contested factory target := by
  refine ⟨?_, hw.not_contested hc hb.2⟩
  intro i config hi he
  obtain ⟨he', hf⟩ := hw.encoding hc he
  cases hw with
  | retreat h =>
    cases h with
    | note log => exact hb.1 i config hi he
    | dismiss id p log => exact backed_dismiss hc hb.1 hb.2 id p i config hi he
  | shut id => exact hb.1 i config (hf ▸ hi) he'
  | add hempty =>
    rw [catalog_add]
    exact hb.1 i config (hf ▸ hi) he'

/-! ## Publishing -/

theorem Contested.commit {r : Roster} {factory : Family} {target : String}
    (hn : r.Contested factory target) {id : HandlerId} {h : TargetHandler}
    (hid : r.handler? id = some h) (target' : String) (config : ScrapeConfig) :
    (r.commit id h target' config).Contested factory target := by
  obtain ⟨a, b, hab, hfa, hfb, ha, hb⟩ := hn
  refine ⟨a, b, hab, ?_, ?_, (holds_commit hid _ _ _ _).mpr (Or.inl ha),
    (holds_commit hid _ _ _ _).mpr (Or.inl hb)⟩
  · rw [factory?_commit hid, hfa]
  · rw [factory?_commit hid, hfb]

/-- Publishing a target leaves it contested, if another handler of the family holds it, and
    else with the provider of the handler that publishes. -/
theorem backed_or_contested_commit {r : Roster} {factory : Family} {target : String}
    (hb : r.Backed factory target) {id : HandlerId} {h : TargetHandler}
    (hid : r.handler? id = some h) (target' : String) (config : ScrapeConfig) :
    (r.commit id h target' config).Backed factory target ∨
      (r.commit id h target' config).Contested factory target := by
  have hfid : r.factory? id = some h.factory := factory?_eq_some_iff.mpr ⟨h, hid, rfl⟩
  rw [or_iff_not_imp_right]
  intro hn i c hi he
  rw [factory?_commit hid] at hi
  rw [catalog_commit]
  simp only [providerName_inj]
  by_cases hsame : factory = h.factory ∧ target = target'
  · obtain ⟨rfl, rfl⟩ := hsame
    rw [if_pos ⟨rfl, rfl⟩]
    have hii : i = id := by
      by_contra hne
      refine hn ⟨i, id, hne, ?_, ?_, holds_iff_encoding.mpr ⟨c, he⟩,
        (holds_commit hid _ _ _ _).mpr (Or.inr ⟨rfl, rfl⟩)⟩
      · rw [factory?_commit hid, hi]
      · rw [factory?_commit hid, hfid]
    rw [encoding_commit hid, if_pos ⟨hii, rfl⟩] at he
    cases he
    rfl
  · rw [if_neg hsame]
    rw [encoding_commit hid, if_neg] at he
    · exact hb i c hi he
    · rintro ⟨rfl, rfl⟩
      exact hsame ⟨Option.some.inj (hi.symm.trans hfid), rfl⟩

theorem Advance.backed_or_contested {r r' : Roster} (ha : Advance r r') {factory : Family}
    {target : String} (hb : r.Backed factory target ∨ r.Contested factory target) :
    r'.Backed factory target ∨ r'.Contested factory target := by
  cases ha with
  | note log mishaps => exact hb
  | publish resource log hid _ _ _ _ =>
    rcases hb with hb | hn
    · exact backed_or_contested_commit hb hid resource.targetName _
    · exact Or.inr (hn.commit hid resource.targetName _)

/-- What two phases make of a target that nobody contests. -/
theorem Phases.backed_or_contested {r r' : Roster} (hp : Phases r r') (hc : r.Consistent)
    {factory : Family} {target : String} (hb : r.Backed factory target)
    (hn : ¬r.Contested factory target) :
    r'.Backed factory target ∨ r'.Contested factory target := by
  obtain ⟨mid, hw, ha⟩ := hp
  obtain ⟨hmid, hbacked⟩ := Withdrawals.keep
    (P := fun r => r.Backed factory target ∧ ¬r.Contested factory target)
    (fun _ _ hc hP hw => hw.backed hc hP) hc ⟨hb, hn⟩ hw
  exact (Advances.keep (P := fun r => r.Backed factory target ∨ r.Contested factory target)
    (fun _ _ _ hP ha => ha.backed_or_contested hP) hmid (Or.inl hbacked.1) ha).2

end Roster

namespace Discoverer

/-! ## Providers of a discoverer -/

/-- Whatever an installed handler of a family holds of a target, the live provider is built
    from it. -/
def Backed (d : Discoverer) (factory : Family) (target : String) : Prop :=
  ∀ id ∈ d.installed, ∀ config, d.roster.factory? id = some factory →
    d.roster.encoding id target = some config →
      d.roster.catalog.get? (providerName factory.factoryName target) =
        some ⟨providerName factory.factoryName target, config⟩

/-- Installed handlers of a family, attached to different registries, hold the same target. -/
def Contested (d : Discoverer) (factory : Family) (target : String) : Prop :=
  ∃ a ∈ d.installed, ∃ b ∈ d.installed, d.roster.registryOf? a ≠ d.roster.registryOf? b ∧
    d.roster.factory? a = some factory ∧ d.roster.factory? b = some factory ∧
      d.roster.holds a target = true ∧ d.roster.holds b target = true

theorem Sound.backed_iff {d : Discoverer} (hs : d.Sound) {factory : Family} {target : String} :
    d.Backed factory target ↔ d.roster.Backed factory target := by
  constructor
  · intro hb id config hf he
    exact hb id (hs.mem_installed_of_holds (Roster.holds_iff_encoding.mpr ⟨config, he⟩)) config
      hf he
  · intro hb id _ config hf he
    exact hb id config hf he

theorem Sound.contested_iff {d : Discoverer} (hs : d.Sound) {factory : Family}
    {target : String} : d.Contested factory target ↔ d.roster.Contested factory target := by
  constructor
  · rintro ⟨a, -, b, -, hab, hfa, hfb, ha, hb⟩
    exact ⟨a, b, fun he => hab (he ▸ rfl), hfa, hfb, ha, hb⟩
  · rintro ⟨a, b, hab, hfa, hfb, ha, hb⟩
    refine ⟨a, hs.mem_installed_of_holds ha, b, hs.mem_installed_of_holds hb, ?_, hfa, hfb, ha,
      hb⟩
    exact fun he => hab (hs.consistent.eq_of_holds he ha hb)

theorem backed_start (settings : Settings) (nodeName : String) (factory : Family)
    (target : String) : (start settings nodeName).Backed factory target := by
  intro id _ config _ he
  exfalso
  obtain ⟨h, c, hid, hc⟩ := Roster.holds_iff.mp (Roster.holds_iff_encoding.mpr ⟨config, he⟩)
  have hadd : (start settings nodeName).roster.handler? id = _ := Roster.handler?_add _ _ id
  rw [hadd] at hid
  split_ifs at hid
  · cases hid
    cases hc
  · cases hid

/-! ## Prometheus targets -/

/-- There is one registry for all prometheus targets. -/
theorem Sound.registryOf?_of_prometheus {d : Discoverer} (hs : d.Sound) {id : HandlerId}
    (hid : id ∈ d.installed) (hf : d.roster.factory? id = some .prometheus) :
    d.roster.registryOf? id = some (registryName annotatedType) := by
  obtain ⟨h, hg, hfactory⟩ := Roster.factory?_eq_some_iff.mp hf
  rcases mem_installed.mp hid with hin | rfl
  · obtain ⟨k, p, hp, rfl⟩ := mem_handlers.mp hin
    obtain ⟨h', hg', hm⟩ := hs.made k p hp
    obtain rfl := Option.some.inj (hg.symm.trans hg')
    obtain ⟨hreg, htype, -⟩ := makeHandler_eq_ok hm
    have htype : Family.ofPluginType p.rule.pluginType = .ok h.factory := htype
    rw [hfactory] at htype
    rw [ofPluginType_eq_prometheus htype] at hreg
    exact Roster.registryOf?_eq_some_iff.mpr ⟨h, hg, hreg⟩
  · obtain ⟨annotationPrefix, nodeName, -, hb⟩ := hs.setup
    rw [hg] at hb
    have hreg := congrArg TargetHandler.registry (Option.some.inj hb)
    exact Roster.registryOf?_eq_some_iff.mpr ⟨h, hg, hreg⟩

theorem Sound.not_contested_prometheus {d : Discoverer} (hs : d.Sound) (target : String) :
    ¬d.Contested .prometheus target := by
  rintro ⟨a, ha, b, hb, hab, hfa, hfb, -⟩
  exact hab ((hs.registryOf?_of_prometheus ha hfa).trans (hs.registryOf?_of_prometheus hb hfb).symm)

/-! ## Contested providers -/

/-- One of two contesting handlers belongs to a rule. -/
theorem Contested.exists_rule {d : Discoverer} {factory : Family} {target : String}
    (hn : d.Contested factory target) :
    ∃ name p id, d.pipelines.get? name = some p ∧ id ∈ d.installed ∧ p.handler ≠ id ∧
      d.roster.factory? p.handler = some factory ∧ d.roster.factory? id = some factory ∧
        d.roster.holds p.handler target = true ∧ d.roster.holds id target = true := by
  obtain ⟨a, ha, b, hb, hab, hfa, hfb, hha, hhb⟩ := hn
  have hne : a ≠ b := fun he => hab (he ▸ rfl)
  rcases mem_installed.mp ha with hin | rfl
  · obtain ⟨name, p, hp, rfl⟩ := mem_handlers.mp hin
    exact ⟨name, p, b, hp, hb, hne, hfa, hfb, hha, hhb⟩
  rcases mem_installed.mp hb with hin | rfl
  · obtain ⟨name, p, hp, rfl⟩ := mem_handlers.mp hin
    exact ⟨name, p, d.annotated, hp, ha, hne.symm, hfb, hfa, hhb, hha⟩
  · exact absurd rfl hne

/-- Deleting a rule takes the provider of a contested target away, though another handler still
    holds the target. -/
theorem Contested.not_backed_delete {d : Discoverer} (hs : d.Sound) {factory : Family}
    {target : String} (hn : d.Contested factory target) :
    ∃ name, ¬(d.delete name).Backed factory target := by
  obtain ⟨name, p, id, hp, hid, hne, hfp, hfid, hhp, hhid⟩ := hn.exists_rule
  refine ⟨name, fun hb => ?_⟩
  have hs' : (d.delete name).Sound := hs.step (.delete name)
  have hr : (d.delete name).roster = d.roster.close p.handler := by
    rw [delete, teardown_of_get? hp]
    rfl
  obtain ⟨h, hg, hfactory⟩ := Roster.factory?_eq_some_iff.mp hfp
  have hclose : (d.roster.close p.handler).handler? id = d.roster.handler? id := by
    rw [Roster.handler?_close hs.consistent, if_neg hne.symm]
  obtain ⟨config, he⟩ := Roster.holds_iff_encoding.mp hhid
  have hgone : (d.roster.close p.handler).catalog.get?
      (providerName factory.factoryName target) = none := by
    rw [Roster.catalog_close hs.consistent hg, if_pos]
    exact ⟨target, Roster.mem_picked.mpr ⟨hhp, rfl⟩, by rw [hfactory]⟩
  have hlive := hs'.backed_iff.mp hb id config
  rw [hr, Roster.factory?, Roster.encoding, Roster.entries, hclose, hgone] at hlive
  cases hlive hfid he

/-! ## Every run -/

theorem Sound.backed_or_contested_step {d : Discoverer} (hs : d.Sound) (op : Operation)
    {factory : Family} {target : String} (hb : d.Backed factory target)
    (hn : ¬d.Contested factory target) :
    (d.step op).Backed factory target ∨ (d.step op).Contested factory target := by
  rw [(hs.step op).backed_iff, (hs.step op).contested_iff]
  rw [hs.contested_iff] at hn
  exact (hs.step_phases op).backed_or_contested hs.consistent (hs.backed_iff.mp hb) hn

/-- Deleting a rule leaves a target that is not contested to whoever still holds it. -/
theorem Sound.backed_delete {d : Discoverer} (hs : d.Sound) {factory : Family}
    {target : String} (hb : d.Backed factory target) (hn : ¬d.Contested factory target)
    (name : String) : (d.delete name).Backed factory target := by
  have hs' : (d.delete name).Sound := hs.step (.delete name)
  rw [hs'.backed_iff]
  rw [hs.contested_iff] at hn
  exact (Roster.Withdrawals.keep
    (P := fun r => r.Backed factory target ∧ ¬r.Contested factory target)
    (fun _ _ hc hP hw => hw.backed hc hP) hs.consistent ⟨hs.backed_iff.mp hb, hn⟩
    (d.teardown_withdrawals name)).2.1

/-- A target that is never contested during a run is backed all along. -/
theorem backed_of_never_contested {d : Discoverer} (hs : d.Sound) {factory : Family}
    {target : String} (hb : d.Backed factory target) {ops : List Operation}
    (hn : ∀ ops', ops' <+: ops → ¬(d.run ops').Contested factory target) :
    (d.run ops).Backed factory target := by
  induction ops using List.reverseRecOn with
  | nil => exact hb
  | append_singleton ops op ih =>
    have hpre : ops <+: ops ++ [op] := List.prefix_append ops [op]
    have hrun : d.run (ops ++ [op]) = (d.run ops).step op := by
      rw [run, List.foldl_append]
      rfl
    have hlast := hn (ops ++ [op]) (List.prefix_refl _)
    rw [hrun] at hlast ⊢
    have hbacked := ih fun ops' h => hn ops' (h.trans hpre)
    exact ((hs.run ops).backed_or_contested_step op hbacked (hn ops hpre)).resolve_right hlast

/-- During a run every target is backed by the live provider that its handlers have built, and
    would be after the deletion of any rule, exactly if handlers of one family but different
    registries never come to hold it at once; and no prometheus target ever is held so. -/
theorem backed_iff_never_contested (settings : Settings) (nodeName : String)
    (ops : List Operation) (factory : Family) (target : String) :
    let d := fun ops' => (start settings nodeName).run ops'
    ((∀ ops', ops' <+: ops →
        (d ops').Backed factory target ∧ ∀ name, ((d ops').delete name).Backed factory target) ↔
      ∀ ops', ops' <+: ops → ¬(d ops').Contested factory target) ∧
    ¬(d ops).Contested .prometheus target := by
  intro d
  have hsound : ∀ ops', (d ops').Sound := sound_run settings nodeName
  refine ⟨⟨fun hb ops' hpre hn => ?_, fun hn ops' hpre => ?_⟩,
    (hsound ops).not_contested_prometheus target⟩
  · obtain ⟨name, hbad⟩ := hn.not_backed_delete (hsound ops')
    exact hbad ((hb ops' hpre).2 name)
  · have hbacked : (d ops').Backed factory target :=
      backed_of_never_contested (sound_start settings nodeName)
        (backed_start settings nodeName factory target) fun ops'' h => hn ops'' (h.trans hpre)
    exact ⟨hbacked, (hsound ops').backed_delete hbacked (hn ops' hpre)⟩

/-- Two rules for telegraf inputs of different types select the same pod. Once one of them is
    deleted the other still holds the target, without a live provider. -/
theorem exists_held_without_provider :
    let redis : Rule :=
      { name := "a", pluginType := "telegraf/redis", selectors := { images := ["redis:*"] } }
    let memcached : Rule :=
      { name := "b", pluginType := "telegraf/memcached", selectors := { images := ["redis:*"] } }
    let pod : Resource :=
      { kind := .pod, ip := "10.0.0.1", object := { name := "x", ns := "ns" }
        containers := [{ image := "redis:6", ports := [] }] }
    let d := (start {} "node-1").run
      [.handleAll true [redis, memcached], .discover true pod, .delete "b"]
    ∃ id ∈ d.handlers, d.roster.holds id "pod/ns/x" = true ∧
      d.roster.factory? id = some .telegraf ∧
        d.roster.catalog.get? (providerName Family.telegraf.factoryName "pod/ns/x") = none := by
  decide +kernel

end Discoverer

end ScrapeDiscovery
