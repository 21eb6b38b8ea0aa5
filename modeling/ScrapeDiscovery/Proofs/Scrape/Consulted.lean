import ScrapeDiscovery.Proofs.Scrape.Encoding

/-!
# The annotations that encoders look at

Of all the annotations of a resource an encoder looks at those for its settings and at no others:
eleven with the prefix of prometheus targets, or two of telegraf inputs. The rest of the metadata
is only looked at as a whole. Resources that agree on this are encoded alike.

Results:
* `setting_exchange`: a setting of which the annotation is the same.
* `Encoder.encode_exchange`: an encoder with other annotations, of which those it looks at are the
  same.
* `Encoder.encode_alike`: two resources that agree on what encoders look at.
-/

namespace ScrapeDiscovery

/-! ## Annotations -/

/-- The settings of prometheus targets that have an annotation. -/
def annotatedSettings : List String :=
  ["scrape", "scheme", "path", "port", "prefix", "includeLabels", "source", "collectionInterval",
    "timeout", "insecureSkipVerify", "serverName"]

/-- The annotations that encoders look at. -/
def AnnotationKeys.consulted (keys : AnnotationKeys) : List String :=
  annotatedSettings.map keys.key ++ [ telegrafPrefixAnnotation, telegrafLabelsAnnotation]

theorem AnnotationKeys.key_mem_consulted {keys : AnnotationKeys} {part : String}
    (h : part ∈ annotatedSettings) : keys.key part ∈ keys.consulted :=
  List.mem_append_left _ (List.mem_map_of_mem h)

/-- The same object with other annotations. -/
def ObjectMeta.exchange (object : ObjectMeta) (annotations : KeyMap String) : ObjectMeta :=
  { object with annotations }

/-- Whether an object has, of the annotations that encoders look at, the same as in a map. -/
def ObjectMeta.Shares (object : ObjectMeta) (keys : AnnotationKeys) (annotations : KeyMap String) :
    Prop :=
  ∀ key ∈ keys.consulted, annotations.get? key = object.annotations.get? key

instance (object : ObjectMeta) (keys : AnnotationKeys) (annotations : KeyMap String) :
    Decidable (object.Shares keys annotations) :=
  inferInstanceAs (Decidable (∀ key ∈ keys.consulted, _))

/-- Whether two resources agree on everything but the annotations that no encoder looks at. -/
structure Resource.Alike (keys : AnnotationKeys) (r r' : Resource) : Prop where
  kind : r'.kind = r.kind
  ip : r'.ip = r.ip
  name : r'.object.name = r.object.name
  ns : r'.object.ns = r.object.ns
  labels : r'.object.labels = r.object.labels
  containers : r'.containers = r.containers
  annotations : r.object.Shares keys r'.object.annotations

/-! ## Encoding -/

section Exchange

variable {keys : AnnotationKeys} {object : ObjectMeta} {annotations : KeyMap String}

theorem setting_exchange {key : String} (h : annotations.get? key = object.annotations.get? key)
    (ruleValue default : String) :
    setting (object.exchange annotations) (some key) ruleValue default =
      setting object (some key) ruleValue default := by
  have hget : (object.exchange annotations).annotations.get? key = object.annotations.get? key := h
  simp only [setting, Option.bind_some, hget]

/-- The setting of a prometheus target. -/
theorem setting_exchange_key (h : object.Shares keys annotations) {part : String}
    (hpart : part ∈ annotatedSettings) (ruleValue default : String) :
    setting (object.exchange annotations) (some (keys.key part)) ruleValue default =
      setting object (some (keys.key part)) ruleValue default :=
  setting_exchange (h _ (AnnotationKeys.key_mem_consulted hpart)) ruleValue default

namespace Encoder

variable {nodeName ip : String} {kind : ResourceKind} {rule : Option Rule}

theorem targetDuration_exchange (h : object.Shares keys annotations) (what : DurationSetting)
    {part : String} (hpart : part ∈ annotatedSettings) (ruleValue : Option Duration) :
    targetDuration keys kind (object.exchange annotations) what part ruleValue =
      targetDuration keys kind object what part ruleValue := by
  rw [targetDuration, setting_exchange_key h hpart]
  rfl

theorem targetHttpClient_exchange (h : object.Shares keys annotations) (r : Rule) :
    targetHttpClient keys kind (object.exchange annotations) r =
      targetHttpClient keys kind object r := by
  simp (disch := decide) only [targetHttpClient, setting_exchange_key h]
  rfl

/-- Whether the annotations that an encoder looks at are among those with certain keys. -/
def Consults (keys : AnnotationKeys) : Encoder → Prop
  | .prometheus keys' _ => keys' = keys
  | .telegraf _ => True

/-- Other annotations do not matter if those that the encoder looks at stay. -/
theorem encode_exchange {e : Encoder} (he : e.Consults keys) (h : object.Shares keys annotations) :
    e.encode ip kind (object.exchange annotations) rule = e.encode ip kind object rule := by
  cases e with
  | prometheus keys' nodeName =>
    obtain rfl : keys' = keys := he
    simp (disch := decide) only [encode, encodePrometheus, AnnotationKeys.scrape,
      setting_exchange_key h, targetDuration_exchange h, targetHttpClient_exchange h]
    rfl
  | telegraf defaults =>
    have htelegraf : ∀ key ∈ [ telegrafPrefixAnnotation, telegrafLabelsAnnotation],
        annotations.get? key = object.annotations.get? key :=
      fun key hkey => h key (List.mem_append_right _ hkey)
    simp only [encode, encodeTelegraf,
      setting_exchange (htelegraf telegrafPrefixAnnotation (by decide)),
      setting_exchange (htelegraf telegrafLabelsAnnotation (by decide))]
    rfl

end Encoder

end Exchange

section Alike

variable {keys : AnnotationKeys} {r r' : Resource} (h : r.Alike keys r')
include h

theorem Resource.Alike.object_eq : r'.object = r.object.exchange r'.object.annotations := by
  rw [ObjectMeta.exchange, ← h.name, ← h.ns, ← h.labels]

theorem Resource.Alike.targetName_eq : r'.targetName = r.targetName := by
  rw [Resource.targetName, h.kind, h.object_eq]
  rfl

/-- Resources that agree on what encoders look at have the same encodings. -/
theorem Encoder.encode_alike {e : Encoder} (he : e.Consults keys) (rule : Option Rule) :
    e.encode r'.ip r'.kind r'.object rule = e.encode r.ip r.kind r.object rule := by
  rw [h.ip, h.kind, h.object_eq, encode_exchange he h.annotations]

end Alike

end ScrapeDiscovery
