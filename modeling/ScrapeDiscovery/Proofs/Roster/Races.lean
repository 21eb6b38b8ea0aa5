import Mathlib.Data.List.Infix
import ScrapeDiscovery.Proofs.Roster.Effects

/-!
# Races for a target

Handlers share a registry and a factory, and the steps of their calls come in any order.
A recorded owner of a target then either holds it, with the provider built from its
encoding, or has given it up and is about to retract it; and no provider is live for a
target without an owner. So all that can have gone wrong once the calls have returned is
that a handler holds a target without being recorded as its owner.

There is one way to come to that. A call of another handler has looked the owner up, or a
call of the same handler has taken the target away, before the handler publishes the
target; and only after that it publishes the target itself, or retracts it. This is a
`LastingRace` if from then on the handler keeps the target without a record.

Results:
* `Sound.run`: what holds in whatever order the steps come.
* `Sound.threatened_act`, `Sound.stranded_act`: what one action does about a record.
* `Sound.threatened_run`, `Sound.stranded_run`: how a handler comes to hold a target without a
  record.
* `agrees_iff_not_lastingRace`: what is true once all calls have returned.
-/

namespace ScrapeDiscovery

/-! ## The records of a target -/

namespace Roster

/-- A handler holds a target and is recorded as its owner. -/
def Recorded (r : Roster) (registry : String) (id : HandlerId) (target : String) : Prop :=
  r.holds id target = true ∧ r.owner? registry target = some id

/-- A handler holds a target and is not recorded as its owner. -/
def Stranded (r : Roster) (registry : String) (id : HandlerId) (target : String) : Prop :=
  r.holds id target = true ∧ r.owner? registry target ≠ some id

/-- A target is held by one handler at most, which is the one recorded, and a provider for it is
    live exactly then, with the encoding of the holder. -/
structure Agrees (r : Roster) (registry : String) (factory : Family) (target : String) : Prop where
  unique : ∀ i j, r.holds i target = true → r.holds j target = true → i = j
  recorded : ∀ i, r.owner? registry target = some i ↔ r.holds i target = true
  provided : ∀ p, r.catalog.get? (providerName factory.factoryName target) = some p ↔
    ∃ i config, r.encoding i target = some config ∧
      p = ⟨providerName factory.factoryName target, config⟩

end Roster

/-- A call that has checked what it depends on and is about to take the record of a target away
    from a handler: one of another handler publishes the target, one of the same handler retracts
    it. -/
def Call.Threatens (c : Call) (id : HandlerId) (target : String) : Prop :=
  c.handler ≠ id ∧ c.stage.Promises target ∨ c.handler = id ∧ c.stage.Retracts target

namespace Traffic

/-! ## In whatever order -/

/-- Handlers that share a registry and a factory, each with its encoder, some of them for targets
    that ask for themselves. Nobody has called them yet. -/
def assemble (registry : String) (factory : Family) (members : List (Encoder × Bool)) :
    Traffic where
  roster := members.foldl
    (fun r m => r.add { registry, factory, encoder := m.1, useAnnotations := m.2 }) {}

/-- What holds of the traffic of handlers that share a registry and a factory. -/
structure Sound (registry : String) (factory : Family) (t : Traffic) : Prop where
  shared : t.roster.Shared registry factory
  fits : ∀ c ∈ t.calls, c.stage.Fits factory
  /-- A target without an owner has no provider. -/
  vacant : ∀ target, t.roster.owner? registry target = none →
    t.roster.catalog.get? (providerName factory.factoryName target) = none
  /-- A recorded owner holds the target with this provider, or is about to retract it. -/
  backed : ∀ target id, t.roster.owner? registry target = some id →
    ∃ config, t.roster.catalog.get? (providerName factory.factoryName target) =
        some ⟨providerName factory.factoryName target, config⟩ ∧
      (t.roster.encoding id target = some config ∨
        ∃ c ∈ t.calls, c.handler = id ∧ c.stage.Retracts target)

section Assemble

variable (registry : String) (factory : Family)

/-- Without any target nothing is held, recorded or live. -/
def IsBare (r : Roster) : Prop :=
  r.catalog = ∅ ∧ (∀ registry target, r.owner? registry target = none) ∧
    ∀ id target, r.encoding id target = none

theorem shared_assemble (members : List (Encoder × Bool)) :
    (assemble registry factory members).roster.Shared registry factory := by
  refine List.foldlRecOn (motive := (Roster.Shared · registry factory)) members _
    ⟨fun _ _ _ ho => ?_, fun _ _ hid => ?_⟩ fun r hr m _ => hr.add rfl rfl
  · cases ho
  · cases hid

theorem bare_assemble (members : List (Encoder × Bool)) :
    IsBare (assemble registry factory members).roster := by
  refine List.foldlRecOn (motive := IsBare) members _ ⟨rfl, fun _ _ => rfl, fun _ _ => rfl⟩ ?_
  rintro r ⟨hcatalog, howner, henc⟩ m -
  refine ⟨?_, fun registry' target => ?_, fun id target => ?_⟩
  · rw [Roster.catalog_add, hcatalog]
  · rw [Roster.owner?_add, howner]
  · rw [Roster.encoding_add_empty r rfl, henc]

theorem sound_assemble (members : List (Encoder × Bool)) :
    Sound registry factory (assemble registry factory members) := by
  obtain ⟨hcatalog, howner, -⟩ := bare_assemble registry factory members
  refine ⟨shared_assemble registry factory members, fun _ hc => absurd hc List.not_mem_nil,
    fun target _ => ?_, fun target id ho => ?_⟩
  · rw [hcatalog]
    rfl
  · rw [howner] at ho
    cases ho

end Assemble

variable {registry : String} {factory : Family} {t : Traffic}

/-- What a step of a call does about a target. -/
theorem Sound.effect (hs : t.Sound registry factory) {n : Nat} {c : Call}
    (hc : t.calls[n]? = some c) (target : String) :
    Effect registry factory c.handler target t.roster (t.advance n).roster c.stage
      (c.step t.roster).1 := by
  have heffect := Call.effect hs.shared (hs.fits c (List.mem_of_getElem? hc)) target
  rw [advance_eq hc]
  exact heffect

theorem Sound.vacant_advance (hs : t.Sound registry factory) {n : Nat} {c : Call}
    (hc : t.calls[n]? = some c) {target : String}
    (ho : (t.advance n).roster.owner? registry target = none) :
    (t.advance n).roster.catalog.get? (providerName factory.factoryName target) = none := by
  cases hs.effect hc target with
  | nothing howner _ hcatalog => exact hcatalog.trans (hs.vacant target (howner ▸ ho))
  | published _ _ howner =>
    rw [howner] at ho
    cases ho
  | withdrawn _ howner _ hcatalog => exact hcatalog.trans (hs.vacant target (howner ▸ ho))
  | retracted _ _ howner _ hcatalog =>
    rw [hcatalog]
    split_ifs with hown
    · rfl
    · rw [howner, if_neg hown] at ho
      exact hs.vacant target ho

theorem Sound.backed_advance (hs : t.Sound registry factory) {n : Nat} {c : Call}
    (hc : t.calls[n]? = some c) {target : String} {id : HandlerId}
    (ho : (t.advance n).roster.owner? registry target = some id) :
    ∃ config, (t.advance n).roster.catalog.get? (providerName factory.factoryName target) =
        some ⟨providerName factory.factoryName target, config⟩ ∧
      ((t.advance n).roster.encoding id target = some config ∨
        ∃ d ∈ (t.advance n).calls, d.handler = id ∧ d.stage.Retracts target) := by
  have hself := mem_advance_self hc
  -- the other calls that are about to retract the target still are
  have hothers : ∀ d ∈ t.calls, d ≠ c → d.handler = id → d.stage.Retracts target →
      ∃ d' ∈ (t.advance n).calls, d'.handler = id ∧ d'.stage.Retracts target :=
    fun d hd hne hdid hretracts => ⟨d, (mem_advance hc hd).resolve_right hne, hdid, hretracts⟩
  cases hs.effect hc target with
  | nothing howner henc hcatalog _ _ hkeeps =>
    rw [howner] at ho
    obtain ⟨config, hlive, hheld | ⟨d, hd, hdid, hretracts⟩⟩ := hs.backed target id ho
    · exact ⟨config, hcatalog.trans hlive, Or.inl ((henc id).trans hheld)⟩
    · refine ⟨config, hcatalog.trans hlive, Or.inr ?_⟩
      by_cases hdc : d = c
      · subst hdc
        exact ⟨_, hself, hdid, (hkeeps hretracts).resolve_right fun hne => hne (hdid ▸ ho)⟩
      · exact hothers d hd hdc hdid hretracts
  | @published _ config _ _ _ howner henc hcatalog =>
    obtain rfl := Option.some.inj (howner.symm.trans ho)
    exact ⟨config, hcatalog, Or.inl ((henc _).trans (if_pos rfl))⟩
  | withdrawn hs' howner henc hcatalog =>
    rw [howner] at ho
    obtain ⟨config, hlive, hheld⟩ := hs.backed target id ho
    refine ⟨config, hcatalog.trans hlive, ?_⟩
    by_cases hidc : id = c.handler
    · exact Or.inr ⟨_, hself, hidc.symm, hs'⟩
    · rcases hheld with hheld | ⟨d, hd, hdid, hretracts⟩
      · exact Or.inl ((henc id).trans ((if_neg hidc).trans hheld))
      · exact Or.inr (hothers d hd (fun hdc => hidc (hdc ▸ hdid.symm)) hdid hretracts)
  | retracted _ _ howner henc hcatalog =>
    have hown : t.roster.owner? registry target ≠ some c.handler := by
      intro hown
      rw [howner, if_pos hown] at ho
      cases ho
    rw [howner, if_neg hown] at ho
    rw [if_neg hown] at hcatalog
    obtain ⟨config, hlive, hheld | ⟨d, hd, hdid, hretracts⟩⟩ := hs.backed target id ho
    · exact ⟨config, hcatalog.trans hlive, Or.inl ((henc id).trans hheld)⟩
    · refine ⟨config, hcatalog.trans hlive, Or.inr (hothers d hd ?_ hdid hretracts)⟩
      rintro rfl
      exact hown (hdid ▸ ho)

theorem Sound.advance (hs : t.Sound registry factory) (n : Nat) :
    (t.advance n).Sound registry factory := by
  cases hc : t.calls[n]? with
  | none =>
    rw [advance_of_none hc]
    exact hs
  | some c =>
    have hfits := hs.fits c (List.mem_of_getElem? hc)
    refine ⟨?_, fun d hd => ?_, fun target => hs.vacant_advance hc,
      fun target id => hs.backed_advance hc⟩
    · rw [advance_eq hc]
      exact Call.shared hs.shared hfits
    · obtain ⟨m, hm⟩ := List.getElem?_of_mem hd
      rcases mem_calls_advance hc hm with hd | ⟨-, rfl⟩
      · exact hs.fits d (List.mem_of_getElem? hd)
      · exact Call.fits hs.shared

theorem Sound.act (hs : t.Sound registry factory) (a : Action) :
    (t.act a).Sound registry factory := by
  cases a with
  | start id request =>
    refine ⟨hs.shared, fun c hc => ?_, hs.vacant, fun target i ho => ?_⟩
    · rcases List.mem_append.mp hc with hc | hc
      · exact hs.fits c hc
      · rw [List.mem_singleton.mp hc]
        cases request <;> trivial
    · obtain ⟨config, hlive, hheld | ⟨c, hc, hrest⟩⟩ := hs.backed target i ho
      · exact ⟨config, hlive, Or.inl hheld⟩
      · exact ⟨config, hlive, Or.inr ⟨c, List.mem_append_left _ hc, hrest⟩⟩
  | advance n => exact hs.advance n

theorem Sound.run (hs : t.Sound registry factory) (actions : List Action) :
    (t.run actions).Sound registry factory := by
  induction actions generalizing t with
  | nil => exact hs
  | cons a actions ih => exact ih (hs.act a)

/-! ## How a record is lost -/

/-- A call is about to publish a target of a handler. -/
def Publishing (t : Traffic) (n : Nat) (id : HandlerId) (target : String) : Prop :=
  ∃ c, t.calls[n]? = some c ∧ c.handler = id ∧
    ∃ change config p, c.stage = .publishing target change config p

/-- A call is about to take the record of a target away from a handler. -/
def Threatened (t : Traffic) (n : Nat) (id : HandlerId) (target : String) : Prop :=
  ∃ c, t.calls[n]? = some c ∧ c.Threatens id target

theorem not_threatens_first (id i : HandlerId) (request : Request) (target : String) :
    ¬(⟨i, request.first⟩ : Call).Threatens id target := by
  rintro (⟨-, h⟩ | ⟨-, h⟩) <;> cases request <;> exact h

theorem Sound.threatened_advance (hs : t.Sound registry factory) {n : Nat} {c : Call}
    (hc : t.calls[n]? = some c) {k : Nat} {id : HandlerId} {target : String}
    (hrec : (t.advance n).roster.Recorded registry id target)
    (hthreat : (t.advance n).Threatened k id target) :
    t.Threatened k id target ∧
      (t.roster.Recorded registry id target ∨ t.Publishing n id target) := by
  obtain ⟨hheld, ho⟩ := hrec
  obtain ⟨config, he⟩ := Roster.holds_iff_encoding.mp hheld
  obtain ⟨d, hd, hd'⟩ := hthreat
  -- either the call that threatens has taken the step, or it has threatened before
  have hthreat : t.Threatened k id target ∨
      k = n ∧ (⟨c.handler, (c.step t.roster).1⟩ : Call).Threatens id target := by
    rcases mem_calls_advance hc hd with hd | ⟨rfl, rfl⟩
    · exact Or.inl ⟨d, hd, hd'⟩
    · exact Or.inr ⟨rfl, hd'⟩
  cases hs.effect hc target with
  | nothing howner henc _ hpromises hretracts =>
    rw [howner] at ho
    rw [henc] at he
    refine ⟨?_, Or.inl ⟨Roster.holds_iff_encoding.mpr ⟨config, he⟩, ho⟩⟩
    rcases hthreat with hthreat | ⟨rfl, ⟨hne, hs'⟩ | ⟨hid, hs'⟩⟩
    · exact hthreat
    · -- the record that the call has found is not this one
      refine ⟨c, hc, Or.inl ⟨hne, (hpromises hs').resolve_right fun hfree => ?_⟩⟩
      exact hne (hfree id ho).symm
    · exact ⟨c, hc, Or.inr ⟨hid, hretracts hs'⟩⟩
  | published hs hs' howner =>
    have hid : c.handler = id := Option.some.inj (howner.symm.trans ho)
    refine ⟨hthreat.resolve_right ?_, Or.inr ⟨c, hc, hid, _, _, _, hs⟩⟩
    rw [hs']
    rintro ⟨-, ⟨-, h⟩ | ⟨-, h⟩⟩ <;> exact h
  | withdrawn hs' howner henc =>
    rw [howner] at ho
    rw [henc] at he
    split_ifs at he with hid
    refine ⟨hthreat.resolve_right ?_, Or.inl ⟨Roster.holds_iff_encoding.mpr ⟨config, he⟩, ho⟩⟩
    rintro ⟨-, ⟨-, h⟩ | ⟨h, -⟩⟩
    · exact hs'.not_promises h
    · exact hid h.symm
  | retracted hs hs' howner henc =>
    rw [henc] at he
    have hown : t.roster.owner? registry target = some id := by
      rw [howner] at ho
      split_ifs at ho
      exact ho
    refine ⟨?_, Or.inl ⟨Roster.holds_iff_encoding.mpr ⟨config, he⟩, hown⟩⟩
    rcases hthreat with hthreat | ⟨rfl, ⟨-, h⟩ | ⟨hid, -⟩⟩
    · exact hthreat
    · exact absurd h hs'
    · exact ⟨c, hc, Or.inr ⟨hid, hs⟩⟩

theorem Sound.stranded_advance (hs : t.Sound registry factory) {n : Nat} {c : Call}
    (hc : t.calls[n]? = some c) {id : HandlerId} {target : String}
    (hstranded : (t.advance n).roster.Stranded registry id target) :
    t.roster.Stranded registry id target ∨
      t.roster.Recorded registry id target ∧ t.Threatened n id target := by
  obtain ⟨hheld, ho⟩ := hstranded
  obtain ⟨config, he⟩ := Roster.holds_iff_encoding.mp hheld
  -- where the handler has held the target before, it is about whether it was recorded
  have hbefore : ∀ {config}, t.roster.encoding id target = some config →
      (t.roster.owner? registry target = some id → c.Threatens id target) →
        t.roster.Stranded registry id target ∨
          t.roster.Recorded registry id target ∧ t.Threatened n id target := by
    intro config he hthreat
    have hheld := Roster.holds_iff_encoding.mpr ⟨config, he⟩
    by_cases hown : t.roster.owner? registry target = some id
    · exact Or.inr ⟨⟨hheld, hown⟩, c, hc, hthreat hown⟩
    · exact Or.inl ⟨hheld, hown⟩
  cases hs.effect hc target with
  | nothing howner henc =>
    rw [howner] at ho
    rw [henc] at he
    exact hbefore he fun hown => absurd hown ho
  | published hs _ howner henc =>
    have hne : c.handler ≠ id := fun hid => ho (hid ▸ howner)
    rw [henc, if_neg hne.symm] at he
    refine hbefore he fun _ => Or.inl ⟨hne, ?_⟩
    rw [hs]
    rfl
  | withdrawn _ howner henc =>
    rw [howner] at ho
    rw [henc] at he
    split_ifs at he
    exact hbefore he fun hown => absurd hown ho
  | retracted hs _ howner henc =>
    rw [henc] at he
    refine hbefore he fun hown => Or.inr ⟨?_, hs⟩
    by_contra hne
    rw [howner, if_neg fun h => hne (Option.some.inj (h.symm.trans hown))] at ho
    exact ho hown

/-- Whoever threatens the record of a target after an action did so before, and unless the target
    was recorded before, its handler has just published it. -/
theorem Sound.threatened_act (hs : t.Sound registry factory) {a : Action} {k : Nat}
    {id : HandlerId} {target : String} (hrec : (t.act a).roster.Recorded registry id target)
    (hthreat : (t.act a).Threatened k id target) :
    t.Threatened k id target ∧ (t.roster.Recorded registry id target ∨
      ∃ n, a = .advance n ∧ t.Publishing n id target) := by
  cases a with
  | start i request =>
    obtain ⟨d, hd, hd'⟩ := hthreat
    rcases mem_calls_start hd with hd | rfl
    · exact ⟨⟨d, hd, hd'⟩, Or.inl hrec⟩
    · exact absurd hd' (not_threatens_first id i request target)
  | advance n =>
    cases hc : t.calls[n]? with
    | none =>
      have hsame : t.act (.advance n) = t := advance_of_none hc
      rw [hsame] at hrec hthreat
      exact ⟨hthreat, Or.inl hrec⟩
    | some c =>
      obtain ⟨hbefore, hor⟩ := hs.threatened_advance hc hrec hthreat
      exact ⟨hbefore, hor.imp_right fun hp => ⟨n, rfl, hp⟩⟩

/-- A handler comes to hold a target without a record only by a step of a call that threatens its
    record. -/
theorem Sound.stranded_act (hs : t.Sound registry factory) {a : Action} {id : HandlerId}
    {target : String} (hstranded : (t.act a).roster.Stranded registry id target) :
    t.roster.Stranded registry id target ∨
      ∃ k, a = .advance k ∧ t.roster.Recorded registry id target ∧ t.Threatened k id target := by
  cases a with
  | start i request => exact Or.inl hstranded
  | advance k =>
    cases hc : t.calls[k]? with
    | none =>
      have hsame : t.act (.advance k) = t := advance_of_none hc
      rw [hsame] at hstranded
      exact Or.inl hstranded
    | some c => exact (hs.stranded_advance hc hstranded).imp_right fun h => ⟨k, rfl, h⟩

/-! ## Races -/

/-- A handler published a target while another call threatened its record; that call has taken the
    record away, and the handler has held the target without a record ever since. -/
def LastingRace (registry : String) (t : Traffic) (actions : List Action) (id : HandlerId)
    (target : String) : Prop :=
  ∃ before n between k after,
    actions = before ++ .advance n :: between ++ .advance k :: after ∧
    (t.run before).Publishing n id target ∧ (t.run before).Threatened k id target ∧
    (t.run (before ++ .advance n :: between)).roster.Recorded registry id target ∧
    ∀ since, since <+: after →
      (t.run (before ++ .advance n :: between ++ .advance k :: since)).roster.Stranded registry id
        target

/-- Whoever threatens a recorded owner has done so when the owner published the target. -/
theorem Sound.threatened_run (hs : t.Sound registry factory) (hcalls : t.calls = [])
    {actions : List Action} {k : Nat} {id : HandlerId} {target : String}
    (hrec : (t.run actions).roster.Recorded registry id target)
    (hthreat : (t.run actions).Threatened k id target) :
    ∃ before n between, actions = before ++ .advance n :: between ∧
      (t.run before).Publishing n id target ∧ (t.run before).Threatened k id target := by
  induction actions using List.reverseRecOn with
  | nil =>
    obtain ⟨c, hc, -⟩ := hthreat
    rw [show (t.run []).calls = [] from hcalls] at hc
    cases hc
  | append_singleton actions a ih =>
    rw [run_append] at hrec hthreat
    obtain ⟨hearlier, hbefore | ⟨n, rfl, hpublishing⟩⟩ :=
      (hs.run actions).threatened_act hrec hthreat
    · obtain ⟨before, n, between, rfl, hrest⟩ := ih hbefore hearlier
      exact ⟨before, n, between ++ [a], by simp, hrest⟩
    · exact ⟨actions, n, [], rfl, hpublishing, hearlier⟩

/-- A handler that holds a target without a record has lost it in a race. -/
theorem Sound.stranded_run (hs : t.Sound registry factory) (hcalls : t.calls = [])
    {id : HandlerId} {target : String} (hnone : ¬t.roster.Stranded registry id target)
    {actions : List Action} (hstranded : (t.run actions).roster.Stranded registry id target) :
    LastingRace registry t actions id target := by
  induction actions using List.reverseRecOn with
  | nil => exact absurd hstranded hnone
  | append_singleton actions a ih =>
    have hlast := hstranded
    rw [run_append] at hlast
    rcases (hs.run actions).stranded_act hlast with hbefore | ⟨k, rfl, hrec, hthreat⟩
    · obtain ⟨before, n, between, k, after, rfl, hpublishing, hthreat, hrec, hsince⟩ := ih hbefore
      refine ⟨before, n, between, k, after ++ [a], by simp, hpublishing, hthreat, hrec,
        fun since hpre => ?_⟩
      rcases List.prefix_concat_iff.mp hpre with rfl | hpre
      · simpa using hstranded
      · exact hsince since hpre
    · obtain ⟨before, n, between, rfl, hpublishing, hthreat⟩ :=
        hs.threatened_run hcalls hrec hthreat
      refine ⟨before, n, between, k, [], rfl, hpublishing, hthreat, hrec, fun since hpre => ?_⟩
      rw [List.prefix_nil.mp hpre]
      exact hstranded

theorem LastingRace.stranded {actions : List Action} {id : HandlerId} {target : String}
    (h : LastingRace registry t actions id target) :
    (t.run actions).roster.Stranded registry id target := by
  obtain ⟨before, n, between, k, after, rfl, -, -, -, hsince⟩ := h
  exact hsince after (List.prefix_refl after)

/-! ## Once all calls have returned -/

theorem Sound.provided_of_quiet (hs : t.Sound registry factory) (hquiet : t.IsQuiet)
    {target : String} {id : HandlerId} (ho : t.roster.owner? registry target = some id) :
    ∃ config, t.roster.encoding id target = some config ∧
      t.roster.catalog.get? (providerName factory.factoryName target) =
        some ⟨providerName factory.factoryName target, config⟩ := by
  obtain ⟨config, hlive, henc | ⟨c, hc, -, hretracts⟩⟩ := hs.backed target id ho
  · exact ⟨config, henc, hlive⟩
  · rw [hquiet c hc] at hretracts
    exact hretracts.elim

/-- Once all calls have returned, a target is in order if nobody holds it without a record. -/
theorem Sound.agrees_iff (hs : t.Sound registry factory) (hquiet : t.IsQuiet) (target : String) :
    t.roster.Agrees registry factory target ↔
      ∀ id, ¬t.roster.Stranded registry id target := by
  constructor
  · rintro h id ⟨hheld, hne⟩
    exact hne ((h.recorded id).mpr hheld)
  intro hnone
  have howner : ∀ id, t.roster.holds id target = true →
      t.roster.owner? registry target = some id :=
    fun id hheld => by_contra fun hne => hnone id ⟨hheld, hne⟩
  refine ⟨fun i j hi hj => ?_, fun i => ⟨fun ho => ?_, howner i⟩, fun p => ⟨fun hp => ?_, ?_⟩⟩
  · exact Option.some.inj ((howner i hi).symm.trans (howner j hj))
  · obtain ⟨config, henc, -⟩ := hs.provided_of_quiet hquiet ho
    exact Roster.holds_iff_encoding.mpr ⟨config, henc⟩
  · cases ho : t.roster.owner? registry target with
    | none =>
      rw [hs.vacant target ho] at hp
      cases hp
    | some i =>
      obtain ⟨config, henc, hlive⟩ := hs.provided_of_quiet hquiet ho
      exact ⟨i, config, henc, Option.some.inj (hp.symm.trans hlive)⟩
  · rintro ⟨i, config, henc, rfl⟩
    have ho := howner i (Roster.holds_iff_encoding.mpr ⟨config, henc⟩)
    obtain ⟨config', henc', hlive⟩ := hs.provided_of_quiet hquiet ho
    rw [hlive, Option.some.inj (henc.symm.trans henc')]

theorem not_stranded_assemble (registry : String) (factory : Family)
    (members : List (Encoder × Bool)) (id : HandlerId) (target : String) :
    ¬(assemble registry factory members).roster.Stranded registry id target := by
  rintro ⟨hheld, -⟩
  obtain ⟨-, -, hnone⟩ := bare_assemble registry factory members
  obtain ⟨config, he⟩ := Roster.holds_iff_encoding.mp hheld
  rw [hnone] at he
  cases he

theorem stranded_iff_lastingRace (registry : String) (factory : Family)
    (members : List (Encoder × Bool)) (actions : List Action) (id : HandlerId)
    (target : String) :
    ((assemble registry factory members).run actions).roster.Stranded registry id target ↔
      LastingRace registry (assemble registry factory members) actions id target :=
  ⟨(sound_assemble registry factory members).stranded_run rfl
    (not_stranded_assemble registry factory members id target), LastingRace.stranded⟩

theorem agrees_iff_of_quiet (registry : String) (factory : Family)
    (members : List (Encoder × Bool)) {actions : List Action}
    (hquiet : ((assemble registry factory members).run actions).IsQuiet) (target : String) :
    ((assemble registry factory members).run actions).roster.Agrees registry factory target ↔
      ∀ id, ¬LastingRace registry (assemble registry factory members) actions id target := by
  rw [((sound_assemble registry factory members).run actions).agrees_iff hquiet]
  exact forall_congr' fun id =>
    not_congr (stranded_iff_lastingRace registry factory members actions id target)

/-- Handlers that share a registry and a factory are called in any order, and in the end all calls
    have returned. Then a recorded owner of a target holds it, with the provider built from its
    encoding, and without an owner no provider is live. The target has no other holder exactly if
    no handler has lost its record in a race that lasts. -/
theorem agrees_iff_not_lastingRace (registry : String) (factory : Family)
    (members : List (Encoder × Bool)) (actions : List Action)
    (hquiet : ((assemble registry factory members).run actions).IsQuiet) (target : String) :
    let r := ((assemble registry factory members).run actions).roster
    (∀ id, r.owner? registry target = some id → ∃ config, r.encoding id target = some config ∧
      r.catalog.get? (providerName factory.factoryName target) =
        some ⟨providerName factory.factoryName target, config⟩) ∧
    (r.owner? registry target = none →
      r.catalog.get? (providerName factory.factoryName target) = none) ∧
    (r.Agrees registry factory target ↔
      ∀ id, ¬LastingRace registry (assemble registry factory members) actions id target) := by
  intro r
  have hs := (sound_assemble registry factory members).run actions
  exact ⟨fun id => hs.provided_of_quiet hquiet, hs.vacant target,
    agrees_iff_of_quiet registry factory members hquiet target⟩

/-- The lookups of two handlers both come before the first of the two publishes, and then both hold
    the target. A call that gives a target up takes it away, the handler publishes it anew, and then
    the call retracts it: the handler holds the target without a record and without a provider. -/
theorem exists_two_holders :
    let redis : Rule := { name := "a", pluginType := "telegraf/redis" }
    let pod : Resource :=
      { kind := .pod, ip := "10.0.0.1", object := { name := "x", ns := "ns" } }
    let update : Request := .handle pod (some redis) false
    let handlers := assemble "telegraf.redis" .telegraf
      [(.telegraf .redis, false), (.telegraf .redis, false)]
    let both := handlers.run
      [.start 0 update, .start 1 update, .advance 0, .advance 1, .advance 0, .advance 1,
        .advance 0, .advance 1]
    let lost := handlers.run
      [.start 0 update, .advance 0, .advance 0, .advance 0,
        .start 0 (.delete "pod/ns/x"), .advance 1, .advance 1,
        .start 0 update, .advance 2, .advance 2, .advance 2, .advance 1, .advance 1]
    (both.IsQuiet ∧ both.roster.holds 0 "pod/ns/x" = true ∧
      both.roster.holds 1 "pod/ns/x" = true) ∧
    lost.IsQuiet ∧ lost.roster.holds 0 "pod/ns/x" = true ∧
      lost.roster.owner? "telegraf.redis" "pod/ns/x" = none ∧
      lost.roster.catalog.get? (providerName Family.telegraf.factoryName "pod/ns/x") = none := by
  decide +kernel

/-- Two handlers look the owner of a target up before either of them publishes it: one of them loses
    its record in a race. -/
theorem lastingRace_of_both_looked_up :
    let redis : Rule := { name := "a", pluginType := "telegraf/redis" }
    let pod : Resource :=
      { kind := .pod, ip := "10.0.0.1", object := { name := "x", ns := "ns" } }
    let update : Request := .handle pod (some redis) false
    let handlers := assemble "telegraf.redis" .telegraf
      [(.telegraf .redis, false), (.telegraf .redis, false)]
    let actions : List Action :=
      [.start 0 update, .start 1 update, .advance 0, .advance 1, .advance 0, .advance 1,
        .advance 0, .advance 1]
    (handlers.run actions).IsQuiet ∧
      ∃ id, LastingRace "telegraf.redis" handlers actions id "pod/ns/x" := by
  intro redis pod update handlers actions
  have hquiet : (handlers.run actions).IsQuiet := by decide +kernel
  have hboth : (handlers.run actions).roster.holds 0 "pod/ns/x" = true ∧
      (handlers.run actions).roster.holds 1 "pod/ns/x" = true := by
    decide +kernel
  refine ⟨hquiet, ?_⟩
  by_contra hnone
  obtain ⟨-, -, hiff⟩ := agrees_iff_not_lastingRace "telegraf.redis" .telegraf
    [(.telegraf .redis, false), (.telegraf .redis, false)] actions hquiet "pod/ns/x"
  have hagrees := hiff.mpr (not_exists.mp hnone)
  exact absurd (hagrees.unique 0 1 hboth.1 hboth.2) (by decide)

end Traffic

end ScrapeDiscovery
