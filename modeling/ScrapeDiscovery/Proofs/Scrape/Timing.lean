import ScrapeDiscovery.Proofs.Duration.Roundtrip
import ScrapeDiscovery.Proofs.Scrape.Encoding

/-!
# How often prometheus targets are scraped

A rule has durations, an annotation has the text of one. So that an annotation can stand in
place of a rule, the durations of a rule are written out first and then read like
annotations. Nothing is lost on the way, up to the longest duration, and reading never
fails on what was written. No time at all is not told from no duration.

Results:
* `readDuration_durationText`: a duration that was written is read again.
* `Encoder.targetDuration_of_plain`: the duration of a target without annotations.
* `Encoder.collection_lossless`: what every target has of the durations of its rule.
-/

namespace ScrapeDiscovery

/-! ## Durations as texts -/

/-- Every duration has a text, no time at all too. -/
theorem Duration.render_ne_empty (d : Duration) : d.render ≠ "" := by
  intro h
  have hread := parse_render d
  rw [h] at hread
  cases hread

/-- The durations that count: no time at all means that none is set. -/
def Collection.inEffect (c : Collection) : Collection where
  interval := c.interval.filter (!·.isZero)
  timeout := c.timeout.filter (!·.isZero)

theorem readDuration_render (d : Duration) :
    readDuration d.render = .ok ((some d).filter (!·.isZero)) := by
  rw [readDuration, Duration.parse_render, Except.map, Option.filter_some]
  cases d.isZero <;> rfl

/-- A duration is read again from its text, and where there is none from the text of no time at
    all. -/
theorem readDuration_durationText (d : Option Duration) :
    readDuration (if durationText d = "" then "0s" else durationText d) =
      .ok (d.filter (!·.isZero)) := by
  cases d with
  | none => rfl
  | some d =>
    have hne : durationText (some d) ≠ "" := d.render_ne_empty
    rw [if_neg hne]
    exact readDuration_render d

/-! ## The durations of targets -/

namespace Encoder

variable {keys : AnnotationKeys} {nodeName ip : String} {kind : ResourceKind}
  {object : ObjectMeta} {rule : Rule}

/-- Without an annotation a target has the duration of its rule. -/
theorem targetDuration_of_plain {part : String}
    (h : (object.annotations.get? (keys.key part)).getD "" = "") (what : DurationSetting)
    (d : Option Duration) :
    targetDuration keys kind object what part d = .ok (d.filter (!·.isZero)) := by
  rw [targetDuration, setting_of_plain h, readDuration_durationText]

/-- Where no annotation sets a duration, encoding fails with the HTTP client alone. -/
theorem encode_of_plain (haddress : hasAddress ip = true)
    (hinterval : (object.annotations.get? (keys.key "collectionInterval")).getD "" = "")
    (htimeout : (object.annotations.get? (keys.key "timeout")).getD "" = "") :
    ∃ config : HttpClient → PrometheusConfig,
      (∀ client, (config client).collection = rule.collection.inEffect) ∧
      (prometheus keys nodeName).encode ip kind object (some rule) =
        (targetHttpClient keys kind object rule).map
          fun client => some (.prometheus (config client)) := by
  simp only [encode, encodePrometheus, haddress, Option.isNone_some, Option.getD_some,
    targetDuration_of_plain hinterval, targetDuration_of_plain htimeout]
  exact ⟨_, fun _ => rfl, rfl⟩

/-- Of a resource whose annotations set no durations the encoder makes a target that has just the
    durations of the rule, whatever these are, but for durations of no time. It fails only where
    the HTTP client of the rule cannot be read, and has nothing to encode only where there is no
    address. Every duration is read again from its text. -/
theorem collection_lossless (keys : AnnotationKeys) (nodeName ip : String) (kind : ResourceKind)
    (object : ObjectMeta) (rule : Rule)
    (hinterval : (object.annotations.get? (keys.key "collectionInterval")).getD "" = "")
    (htimeout : (object.annotations.get? (keys.key "timeout")).getD "" = "") :
    let encoded := (prometheus keys nodeName).encode ip kind object (some rule)
    let client := targetHttpClient keys kind object rule
    (hasAddress ip = false → encoded = .ok none) ∧
    (hasAddress ip = true → ∀ fault, client = .error fault → encoded = .error fault) ∧
    (hasAddress ip = true → ∀ httpClient, client = .ok httpClient →
      ∃ c, encoded = .ok (some (.prometheus c)) ∧ c.collection = rule.collection.inEffect) ∧
    ∀ d : Duration, readDuration (durationText (some d)) =
      .ok (if d.isZero then none else some d) := by
  intro encoded client
  refine ⟨fun h => encode_of_not_hasAddress h kind object (some rule), ?_, ?_, fun d => ?_⟩
  · intro haddress fault hfault
    obtain ⟨config, -, hencoded⟩ := encode_of_plain haddress hinterval htimeout
    exact hencoded.trans (congrArg (Except.map _) hfault)
  · intro haddress httpClient hclient
    obtain ⟨config, hcollection, hencoded⟩ := encode_of_plain haddress hinterval htimeout
    exact ⟨config httpClient, hencoded.trans (congrArg (Except.map _) hclient),
      hcollection httpClient⟩
  · rw [durationText, Option.map_some, Option.getD_some, readDuration_render, Option.filter_some]
    cases d.isZero <;> rfl

/-- The longest interval that there is, and a timeout of no time. -/
theorem collection_of_longest_interval :
    let longest : Duration := ⟨18446744073709551615, 999999999, by decide, by decide⟩
    let rule : Rule := { name := "r", pluginType := "prometheus",
                         collection := ⟨some longest, some .zero⟩ }
    ∃ c, (prometheus (.ofPrefix "") "node-1").encode "10.0.0.1" .pod { name := "web" }
        (some rule) = .ok (some (.prometheus c)) ∧ c.collection = ⟨some longest, none⟩ := by
  intro longest rule
  obtain ⟨-, -, hencoded, -⟩ := collection_lossless (.ofPrefix "") "node-1" "10.0.0.1" .pod
    { name := "web" } rule (by decide) (by decide)
  obtain ⟨c, hc, hcollection⟩ := hencoded (by decide) _ rfl
  exact ⟨c, hc, hcollection⟩

end Encoder

end ScrapeDiscovery
