import ScrapeDiscovery.Error
import ScrapeDiscovery.Scrape.Config

/-!
# Providers

A provider is a live source of metrics for one target. The factory of a family
builds it from a scrape configuration of that family, and the catalog holds the
live ones under their names.

Results:
* `providerName_inj`: no two factories or targets share the name of a provider.
* `build_eq_ok_iff`: a factory builds exactly the complete configurations of its family.
-/

namespace ScrapeDiscovery

/-- A live source of metrics (`ScrapeSourceProvider`). -/
structure Provider where
  name : String
  config : ScrapeConfig
  deriving DecidableEq, Repr

/-- The live providers under their names (`ProviderCatalog`). -/
abbrev Catalog := KeyMap Provider

/-- The name of the factory of a family (`SourceFactory::name`). -/
def Family.factoryName : Family → String
  | .prometheus => "prometheus_metrics_source"
  | .telegraf => "telegraf_metrics_source"

/-- The name of the provider that a factory builds for a target (`provider_name`). -/
def providerName (factory target : String) : String := factory ++ ": " ++ target

/-- The name of a provider tells its factory and its target. -/
theorem providerName_inj {f g : Family} {s t : String} :
    providerName f.factoryName s = providerName g.factoryName t ↔ f = g ∧ s = t := by
  constructor
  · intro h
    cases f <;> cases g
    · exact ⟨rfl, (String.append_right_inj _).mp h⟩
    · -- the names of the two factories begin with different letters
      have := congrArg (·.toList.head?) h
      simp [providerName, Family.factoryName] at this
    · have := congrArg (·.toList.head?) h
      simp [providerName, Family.factoryName] at this
    · exact ⟨rfl, (String.append_right_inj _).mp h⟩
  · rintro ⟨rfl, rfl⟩
    rfl

namespace Provider

/-- What a configuration lacks to be scraped (`SourceFactory::build`). -/
def missing? : ScrapeConfig → Option BuildFault
  | .prometheus c => if c.url = "" then some .missingUrl else none
  | .telegraf c => if c.plugins.isEmpty then some .missingPlugin else none

/-- The provider of a target, built by the factory of a family (`SourceFactory::build`). -/
def build (factory : Family) (config : ScrapeConfig) : Except DiscoveryError Provider :=
  if config.family = factory then
    match missing? config with
    | some fault => .error (.unbuildable config.name fault)
    | none => .ok ⟨providerName factory.factoryName config.name, config⟩
  else .error (.unbuildable config.name (.foreign factory.factoryName))

/-- A factory builds exactly the complete configurations of its family. -/
theorem build_eq_ok_iff {factory : Family} {config : ScrapeConfig} {p : Provider} :
    build factory config = .ok p ↔
      config.family = factory ∧ missing? config = none ∧
        p = ⟨providerName factory.factoryName config.name, config⟩ := by
  unfold build
  by_cases h : config.family = factory
  · cases hm : missing? config with
    | none => simp [h, eq_comm]
    | some f => simp [h]
  · simp [h]

end Provider

end ScrapeDiscovery
