import ScrapeDiscovery.Proofs.Discoverer.Entries

/-!
# Where held configurations come from

Nothing is held that was not encoded, and nothing is encoded but the resources that are
taken in and the API server, which every rule for it asks for. So behind every target
there is one of these resources, and the configuration that is held of the target was
encoded from it. Only calls encode anything, and a call is about one resource.

Results:
* `Sound.sourced_perform`: a call about a resource of a set.
* `sourced_run`: every run.
-/

namespace ScrapeDiscovery

namespace Roster

variable {P : Resource → Prop} {r r' : Roster}

/-- Whatever is held of a target was encoded from a resource of a set that has this target. -/
def Sourced (P : Resource → Prop) (r : Roster) : Prop :=
  ∀ id target config, r.encoding id target = some config →
    ∃ resource, P resource ∧ target = resource.targetName ∧
      ∃ (e : Encoder) (rule : Option Rule),
        e.encode resource.ip resource.kind resource.object rule = .ok (some config)

/-- Giving targets up adds nothing. -/
theorem Sourced.withdrawals (hp : r.Sourced P) (hc : r.Consistent) (hws : Withdrawals r r') :
    r'.Sourced P := by
  refine (Withdrawals.keep (P := Sourced P) ?_ hc hp hws).2
  intro r r' hc hp hstep id target config he
  exact hp id target config (hstep.encoding hc he).1

/-- A handler that is asked for a resource adds at most what it has just encoded of it. -/
theorem Sourced.handle (hp : r.Sourced P) (hc : r.Consistent) (id : HandlerId)
    {resource : Resource} (hresource : P resource) (rule : Option Rule) (confirmed : Bool) :
    (r.handle id resource rule confirmed).Sourced P := by
  intro i target config he
  rcases encoding_handle_cases hc he with he | ⟨rfl, rfl, h, -, henc, -⟩
  · exact hp i target config he
  · exact ⟨resource, hresource, rfl, h.encoder, rule, henc⟩

end Roster

namespace Discoverer

open Roster

variable {P : Resource → Prop} {d d' : Discoverer}

/-- Whatever a handler of the discoverer holds was encoded from a resource of a set. -/
def Sourced (P : Resource → Prop) (d : Discoverer) : Prop := d.roster.Sourced P

theorem Sourced.withdrawals (hp : d.Sourced P) (hs : d.Sound)
    (hws : Withdrawals d.roster d'.roster) : d'.Sourced P :=
  Roster.Sourced.withdrawals hp hs.consistent hws

theorem Sound.sourced_perform (hs : d.Sound) (hp : d.Sourced P) {c : HandlerCall}
    (hc : c.IsAbout P) : (d.perform c).Sourced P := by
  cases c with
  | delete id target =>
    exact hp.withdrawals hs (.single (.retreat (delete_retreat d.roster id target)))
  | handle id resource rule => exact Roster.Sourced.handle hp hs.consistent id hc (some rule) false
  | annotate resource =>
    show (d.annotate resource).Sourced P
    unfold annotate
    split
    · exact hp
    split
    · exact Roster.Sourced.handle hp hs.consistent d.annotated hc none _
    · refine hp.withdrawals hs (.single (.retreat ?_))
      exact delete_retreat d.roster d.annotated resource.targetName

theorem invariant_sourced (P : Resource → Prop) : Invariant P (Sourced P) where
  withdrawals hs hp _ hws := hp.withdrawals hs hws
  perform hs hp _ hc := hs.sourced_perform hp hc

/-! ## Every run -/

/-- Whether a resource is taken in by one of the operations, or is the API server. -/
def IsSource (ops : List Operation) (resource : Resource) : Prop :=
  resource = .apiServer ∨ ∃ leading, Operation.discover leading resource ∈ ops

/-- Whatever is held in a state of a run was encoded from a resource that was taken in, or from the
    API server. -/
theorem sourced_run (settings : Settings) (nodeName : String) (ops : List Operation) :
    ((start settings nodeName).run ops).Sourced (IsSource ops) := by
  have hstart : (start settings nodeName).Sourced (IsSource ops) := by
    intro id target config he
    rw [(vacant_start settings nodeName).encoding] at he
    cases he
  exact (invariant_sourced (IsSource ops)).run (Or.inl rfl) (sound_start settings nodeName) hstart
    fun leading resource hop => Or.inr ⟨leading, hop⟩

end Discoverer

end ScrapeDiscovery
