import ScrapeDiscovery.Proofs.Discoverer.Calls

/-!
# Calls that ask nothing of the catalog

A handler that is asked to bring a target up to date under a rule declines if it is
closed, if another handler of its registry owns the target, if its encoder has
nothing for the resource, or if the encoding is the one it holds. It then changes
neither what is held nor what is recorded or live. Otherwise it publishes, which
the catalog is told. Nothing that was told is ever taken back, so if a list of such
calls tells the catalog nothing, each of them is declined.

Results:
* `handle_cases_declines`: a handler declines or tells the catalog.
* `calls_prefix_withdrawals`, `calls_prefix_advances`: what the catalog was told stays told.
* `Sound.calls_performAll_eq_iff`, `Sound.same_performAll`: lists of calls that are declined.
-/

namespace ScrapeDiscovery

namespace Roster

/-! ## Rosters that agree -/

/-- The owners, the encodings and the live providers are the same, and nothing was asked of the
    catalog in between. -/
structure Same (r r' : Roster) : Prop where
  owner? : ∀ registry target, r'.owner? registry target = r.owner? registry target
  encoding : ∀ id target, r'.encoding id target = r.encoding id target
  catalog : r'.catalog = r.catalog
  calls : r'.calls = r.calls

theorem Same.refl (r : Roster) : r.Same r := ⟨fun _ _ => rfl, fun _ _ => rfl, rfl, rfl⟩

/-- What is reported and what fails do not count. -/
theorem same_note (r : Roster) (log : List LogEvent) (mishaps : Mishaps) :
    r.Same { r with log, mishaps } := ⟨fun _ _ => rfl, fun _ _ => rfl, rfl, rfl⟩

theorem Same.trans {r r' r'' : Roster} (h : r.Same r') (h' : r'.Same r'') : r.Same r'' :=
  ⟨fun registry target => (h'.owner? registry target).trans (h.owner? registry target),
    fun id target => (h'.encoding id target).trans (h.encoding id target),
    h'.catalog.trans h.catalog, h'.calls.trans h.calls⟩

theorem Same.holds {r r' : Roster} (h : r.Same r') (id : HandlerId) (target : String) :
    r'.holds id target = r.holds id target :=
  congrArg Option.isSome (h.encoding id target)

theorem same_add (r : Roster) {h : TargetHandler} (hempty : h.entries = ∅) : r.Same (r.add h) where
  owner? := owner?_add r h
  encoding := encoding_add_empty r hempty
  catalog := catalog_add r h
  calls := by
    unfold add openRegistry
    split <;> rfl

/-- Closing a handler that holds nothing. -/
theorem same_close {r : Roster} {id : HandlerId} (hnone : ∀ target, r.holds id target = false) :
    r.Same (r.close id) := by
  have hpicked : (r.shut id).picked id (fun _ => true) = [] := by
    refine List.eq_nil_iff_forall_not_mem.mpr fun target ht => ?_
    rw [mem_picked, holds_shut, hnone] at ht
    exact Bool.false_ne_true ht.1
  have hclose : r.close id = (r.shut id).withdraw id fun _ => true := by
    rw [Roster.close, dismiss, hpicked]
    rfl
  rw [hclose]
  refine ⟨fun _ _ => rfl, fun i target => ?_, rfl, rfl⟩
  rw [encoding_withdraw, encoding_shut]
  split_ifs with hi
  · have hh := hnone target
    rw [← hi.1] at hh
    exact (Option.isSome_eq_false_iff.mp hh |> Option.isNone_iff_eq_none.mp).symm
  · rfl

/-! ## Declining -/

/-- Why a handler that is asked to bring the target of a resource up to date under a rule does not
    publish it. -/
def Declines (r : Roster) (id : HandlerId) (h : TargetHandler) (resource : Resource)
    (rule : Rule) : Prop :=
  h.closed = true ∨ h.encoder.family ≠ h.factory ∨
    (∃ i, r.owner? h.registry resource.targetName = some i ∧ i ≠ id) ∨
      h.encode? resource (some rule) = none ∨
        h.encode? resource (some rule) = r.encoding id resource.targetName

/-- A handler declines, and nothing changes but the number of mishaps, or it tells the catalog. -/
theorem handle_cases_declines {r : Roster} (hc : r.Consistent) {id : HandlerId}
    {h : TargetHandler} (hid : r.handler? id = some h) (resource : Resource) (rule : Rule) :
    (r.Declines id h resource rule ∧
        ∃ mishaps, r.handle id resource (some rule) false = { r with mishaps }) ∨
      ¬r.Declines id h resource rule ∧
        ∃ call, (r.handle id resource (some rule) false).calls = r.calls ++ [call] := by
  rw [handle_eq hc hid]
  by_cases hforeign : (r.owner? h.registry resource.targetName).any (· ≠ id) = true
  · rw [if_pos hforeign]
    obtain ⟨i, hi, hne⟩ := (Option.any_eq_true _ _).mp hforeign
    exact Or.inl ⟨Or.inr (Or.inr (Or.inl ⟨i, hi, of_decide_eq_true hne⟩)), r.mishaps, rfl⟩
  rw [if_neg hforeign]
  have hnone : ∀ e, h.encoder.encode resource.ip resource.kind resource.object (some rule) = e →
      e.toOption.join = none → r.Declines id h resource rule := fun e he hjoin => by
    refine Or.inr (Or.inr (Or.inr (Or.inl ?_)))
    rw [TargetHandler.encode?, he, hjoin]
  split
  · next henc => exact Or.inl ⟨hnone _ henc rfl, _, rfl⟩
  · next config henc =>
    have hsome : h.encode? resource (some rule) = some config := by
      rw [TargetHandler.encode?, henc]
      rfl
    rw [renew_eq hid henc]
    by_cases hcur : r.encoding id resource.targetName = some config
    · rw [if_pos hcur]
      exact Or.inl ⟨Or.inr (Or.inr (Or.inr (Or.inr (hsome.trans hcur.symm)))), r.mishaps, rfl⟩
    rw [if_neg hcur]
    by_cases hfamily : h.encoder.family = h.factory
    swap
    · rw [if_neg hfamily]
      exact Or.inl ⟨Or.inr (Or.inl hfamily), _, rfl⟩
    rw [if_pos hfamily]
    by_cases hclosed : h.closed = true
    · rw [if_pos hclosed]
      exact Or.inl ⟨Or.inl hclosed, r.mishaps, rfl⟩
    · rw [if_neg hclosed]
      refine Or.inr ⟨?_, _, rfl⟩
      rintro (hc | hf | ⟨i, hi, hne⟩ | hn | he)
      · exact hclosed hc
      · exact hf hfamily
      · rw [hi] at hforeign
        exact hforeign (decide_eq_true hne)
      · rw [hsome] at hn
        cases hn
      · exact hcur (he.symm.trans hsome)
  · next henc =>
    rw [if_neg (by simp)]
    exact Or.inl ⟨hnone _ henc rfl, r.mishaps, rfl⟩

/-! ## What was asked of the catalog -/

theorem calls_prefix_retract (r : Roster) (id : HandlerId) (target : String) :
    r.calls <+: (r.retract id target).calls := by
  unfold retract
  split
  · exact List.prefix_refl _
  · next h _ =>
    have howner : (r.owner h.registry target).2.calls = r.calls := by
      unfold owner
      split
      · rfl
      · split <;> rfl
    rw [← howner]
    dsimp only
    split
    · exact List.prefix_append _ _
    · exact List.prefix_refl _

theorem calls_prefix_retractAll (r : Roster) (id : HandlerId) (targets : List String) :
    r.calls <+: (r.retractAll id targets).calls := by
  induction targets generalizing r with
  | nil => exact List.prefix_refl _
  | cons t ts ih => exact (calls_prefix_retract r id t).trans (ih (r.retract id t))

theorem calls_prefix_withdrawals {r r' : Roster} (hw : Withdrawals r r') :
    r.calls <+: r'.calls := by
  induction hw with
  | refl => exact List.prefix_refl _
  | @tail mid last _ hstep ih =>
    refine ih.trans ?_
    cases hstep with
    | retreat h =>
      cases h with
      | note log => exact List.prefix_refl _
      | dismiss id p log => exact calls_prefix_retractAll (mid.withdraw id p) id (mid.picked id p)
    | shut id => exact List.prefix_refl _
    | add hempty => exact (same_add mid hempty).calls ▸ List.prefix_refl _

theorem calls_prefix_advances {r r' : Roster} (ha : Advances r r') : r.calls <+: r'.calls := by
  induction ha with
  | refl => exact List.prefix_refl _
  | tail _ hstep ih =>
    refine ih.trans ?_
    cases hstep with
    | note log mishaps => exact List.prefix_refl _
    | publish => exact List.prefix_append _ _

end Roster

namespace Discoverer

/-! ## Lists of calls -/

/-- Nothing is asked of the catalog when a call is performed. -/
def Rests (d : Discoverer) (c : HandlerCall) : Prop := (d.perform c).roster.calls = d.roster.calls

/-- A call rests exactly if its handler declines it. -/
theorem Sound.rests_iff {d : Discoverer} (hs : d.Sound) {id : HandlerId} {resource : Resource}
    {rule : Rule} :
    d.Rests (.handle id resource rule) ↔
      ∀ b, (d.roster.handler? id).map (·.blank) = some b →
        d.roster.Declines id b resource rule := by
  show (d.roster.handle id resource (some rule) false).calls = d.roster.calls ↔ _
  cases hid : d.roster.handler? id with
  | none =>
    rw [Roster.handle_of_handler?_eq_none hid]
    exact iff_of_true rfl fun _ h => nomatch h
  | some h =>
    have hblank : (∀ b, (some h).map (·.blank) = some b → d.roster.Declines id b resource rule) ↔
        d.roster.Declines id h resource rule := by
      rw [Option.map_some]
      exact ⟨fun hall => hall h.blank rfl, fun hd b hb => Option.some.inj hb ▸ hd⟩
    rw [hblank]
    rcases Roster.handle_cases_declines hs.consistent hid resource rule with
      ⟨hd, mishaps, heq⟩ | ⟨hn, call, heq⟩
    · rw [heq]
      exact iff_of_true rfl hd
    · rw [heq]
      exact iff_of_false (by simp) hn

theorem Sound.same_perform {d : Discoverer} (hs : d.Sound) {c : HandlerCall} (hc : c.IsHandle)
    (hrests : d.Rests c) : d.roster.Same (d.perform c).roster := by
  cases c with
  | handle id resource rule =>
    show d.roster.Same (d.roster.handle id resource (some rule) false)
    cases hid : d.roster.handler? id with
    | none =>
      rw [Roster.handle_of_handler?_eq_none hid]
      exact .refl _
    | some h =>
      rcases Roster.handle_cases_declines hs.consistent hid resource rule with
        ⟨-, mishaps, heq⟩ | ⟨-, call, heq⟩
      · rw [heq]
        exact Roster.same_note _ _ _
      · exact absurd (hrests.symm.trans heq) (by simp)
  | delete id target => exact hc.elim
  | annotate resource => exact hc.elim

/-- What a call leads to depends on what is held and recorded. -/
theorem Sound.rests_congr {d d' : Discoverer} (hs : d.Sound) (hs' : d'.Sound)
    (hk : d.roster.Keeps d'.roster) (hsame : d.roster.Same d'.roster) {c : HandlerCall}
    (hc : c.IsHandle) : d'.Rests c ↔ d.Rests c := by
  cases c with
  | handle id resource rule =>
    rw [hs.rests_iff, hs'.rests_iff, hk.blank]
    refine forall_congr' fun b => forall_congr' fun _ => ?_
    rw [Roster.Declines, Roster.Declines, hsame.owner?, hsame.encoding]
  | delete id target => exact hc.elim
  | annotate resource => exact hc.elim

theorem Sound.calls_prefix_performAll {d : Discoverer} (hs : d.Sound) {calls : List HandlerCall}
    (hcalls : ∀ c ∈ calls, c.IsHandle) :
    d.roster.calls <+: (d.performAll calls).roster.calls :=
  Roster.calls_prefix_advances (hs.performAll_advances hcalls)

/-- Calls that each rest leave everything as it is. -/
theorem Sound.same_performAll {d : Discoverer} (hs : d.Sound) {calls : List HandlerCall}
    (hcalls : ∀ c ∈ calls, c.IsHandle) (hrests : ∀ c ∈ calls, d.Rests c) :
    d.roster.Same (d.performAll calls).roster := by
  induction calls generalizing d with
  | nil => exact .refl _
  | cons c cs ih =>
    have hs' := hs.perform c
    have hfirst := hs.same_perform (hcalls c List.mem_cons_self) (hrests c List.mem_cons_self)
    refine hfirst.trans (ih hs' (fun c' hc' => hcalls c' (List.mem_cons_of_mem _ hc')) ?_)
    intro c' hc'
    rw [hs.rests_congr hs' (hs.perform_keeps c) hfirst (hcalls c' (List.mem_cons_of_mem _ hc'))]
    exact hrests c' (List.mem_cons_of_mem _ hc')

/-- A list of calls asks nothing of the catalog exactly if none of them does. -/
theorem Sound.calls_performAll_eq_iff {d : Discoverer} (hs : d.Sound) {calls : List HandlerCall}
    (hcalls : ∀ c ∈ calls, c.IsHandle) :
    (d.performAll calls).roster.calls = d.roster.calls ↔ ∀ c ∈ calls, d.Rests c := by
  refine ⟨fun hall => ?_, fun hrests => (hs.same_performAll hcalls hrests).calls⟩
  induction calls generalizing d with
  | nil => exact fun _ h => absurd h List.not_mem_nil
  | cons c cs ih =>
    have hs' := hs.perform c
    have hcs : ∀ c' ∈ cs, c'.IsHandle := fun c' hc' => hcalls c' (List.mem_cons_of_mem _ hc')
    have hone : ∀ c' ∈ [c], c'.IsHandle := fun c' hc' =>
      List.mem_singleton.mp hc' ▸ hcalls c List.mem_cons_self
    have hbefore := hs.calls_prefix_performAll hone
    change d.roster.calls <+: (d.perform c).roster.calls at hbefore
    have hafter : (d.perform c).roster.calls <+: d.roster.calls := by
      have hrest := hs'.calls_prefix_performAll hcs
      rwa [show ((d.perform c).performAll cs).roster.calls = d.roster.calls from hall] at hrest
    have hfirst : d.Rests c :=
      (hbefore.eq_of_length (Nat.le_antisymm hbefore.length_le hafter.length_le)).symm
    have hsame := hs.same_perform (hcalls c List.mem_cons_self) hfirst
    intro c' hc'
    rcases List.mem_cons.mp hc' with rfl | hc'
    · exact hfirst
    · rw [← hs.rests_congr hs' (hs.perform_keeps c) hsame (hcs c' hc')]
      exact ih hs' hcs (hall.trans hsame.calls.symm) c' hc'

end Discoverer

end ScrapeDiscovery
