import ScrapeDiscovery.Proofs.Discoverer.Ownership
import ScrapeDiscovery.Proofs.Discoverer.Phases

/-!
# What calls do to encodings

A call concerns one target of one handler, and all encodings of other targets
and of other handlers stay as they are.

Results:
* `Sound.encoding_performAll_deletes`: the encodings after deletions.
* `Sound.encoding_performAll_of_ne`: calls for other targets or handlers.
* `Sound.ready`: the handler of a pipeline can publish whatever it encodes.
-/

namespace ScrapeDiscovery

/-- The handler that a call is for, where it names one. -/
def HandlerCall.id? : HandlerCall → Option HandlerId
  | .delete id _ => some id
  | .handle id _ _ => some id
  | .annotate _ => none

/-- The target that a call is about. -/
def HandlerCall.target : HandlerCall → String
  | .delete _ target => target
  | .handle _ resource _ => resource.targetName
  | .annotate resource => resource.targetName

namespace Discoverer

/-! ## Encodings -/

theorem Sound.encoding_perform_of_ne {d : Discoverer} (hs : d.Sound) {c : HandlerCall}
    {i : HandlerId} {target : String}
    (hne : ¬(i = c.id?.getD d.annotated ∧ target = c.target)) :
    (d.perform c).roster.encoding i target = d.roster.encoding i target := by
  cases c with
  | delete id t =>
    exact (Roster.encoding_delete d.roster id t i target).trans (if_neg hne)
  | handle id resource rule =>
    exact Roster.encoding_handle_of_ne hs.consistent hne (some rule) false
  | annotate resource =>
    simp only [Discoverer.perform, annotate]
    split
    · rfl
    split
    · exact Roster.encoding_handle_of_ne hs.consistent hne none _
    · exact (Roster.encoding_delete d.roster _ _ i target).trans (if_neg hne)

/-- Calls for other handlers or about other targets leave an encoding as it is. -/
theorem Sound.encoding_performAll_of_ne {d : Discoverer} (hs : d.Sound)
    {calls : List HandlerCall} {i : HandlerId} {target : String}
    (hne : ∀ c ∈ calls, ¬(i = c.id?.getD d.annotated ∧ target = c.target)) :
    (d.performAll calls).roster.encoding i target = d.roster.encoding i target := by
  induction calls generalizing d with
  | nil => rfl
  | cons c cs ih =>
    have hrest : ∀ c' ∈ cs, ¬(i = c'.id?.getD (d.perform c).annotated ∧ target = c'.target) := by
      intro c' hc'
      rw [perform_eq d c]
      exact hne c' (List.mem_cons_of_mem _ hc')
    exact (ih (hs.perform c) hrest).trans (hs.encoding_perform_of_ne (hne c List.mem_cons_self))

theorem Sound.encoding_performAll_deletes {d : Discoverer} (hs : d.Sound) (ids : List HandlerId)
    (target : String) (i : HandlerId) (target' : String) :
    (d.performAll (ids.map (.delete · target))).roster.encoding i target' =
      if i ∈ ids ∧ target' = target then none else d.roster.encoding i target' := by
  induction ids generalizing d with
  | nil =>
    rw [if_neg fun h => List.not_mem_nil h.1]
    rfl
  | cons id ids ih =>
    have hstep := Roster.encoding_delete d.roster id target i target'
    refine (ih (hs.perform (.delete id target))).trans ?_
    rw [show (d.perform (.delete id target)).roster.encoding i target' = _ from hstep]
    by_cases ht : target' = target
    · by_cases hi : i = id
      · simp [ht, hi]
      · simp [ht, hi]
    · simp [ht]

/-! ## Publishing -/

/-- A standard encoder belongs to the family of its plugin type. -/
theorem family_of_resolve {annotationPrefix nodeName pluginType : String} {e : Encoder}
    {family : Family} (hf : Family.ofPluginType pluginType = .ok family)
    (he : (EncoderTable.standard annotationPrefix nodeName).resolve pluginType = .ok e) :
    e.family = family := by
  rw [EncoderTable.resolve, EncoderTable.get?_standard_encoders] at he
  have hunique : ∀ f, Family.ofPluginType pluginType = .ok f → f = family := fun _ h =>
    Except.ok.inj (h.symm.trans hf)
  split_ifs at he with hmemcached hredis hprometheus
  · subst hmemcached
    cases he
    exact hunique .telegraf (by decide)
  · subst hredis
    cases he
    exact hunique .telegraf (by decide)
  · subst hprometheus
    cases he
    exact hunique .prometheus (by decide)
  · rw [hf] at he
    cases family with
    | prometheus => cases he
    | telegraf =>
      cases he
      rfl

/-- The handler of a pipeline is open, and its factory takes whatever its encoder makes. -/
theorem Sound.ready {d : Discoverer} (hs : d.Sound) {p : Pipeline}
    (hp : p ∈ d.pipelines.values) :
    ∃ h, d.roster.handler? p.handler = some h ∧ h.closed = false ∧
      h.encoder.family = h.factory := by
  obtain ⟨k, hp⟩ := KeyMap.mem_values_iff.mp hp
  obtain ⟨h, hid, hm⟩ := hs.made k p hp
  obtain ⟨-, hfamily, hresolve, -, -, hopen⟩ := makeHandler_eq_ok hm
  obtain ⟨annotationPrefix, nodeName, hencoders, -⟩ := hs.setup
  rw [hencoders] at hresolve
  exact ⟨h, hid, hopen, family_of_resolve hfamily hresolve⟩

end Discoverer

end ScrapeDiscovery
