import Mathlib.Algebra.BigOperators.Group.Finset.Basic
import Mathlib.Algebra.Order.Group.Multiset
import ScrapeDiscovery.Proofs.Roster.Calls

/-!
# The reported changes as a ledger

Read in their order, the events of a roster keep a ledger of targets, each under its
name and the name of its factory: a target that was added is entered, one that was
updated must be there, and one that was deleted is struck off once. Bringing a target
up to date and giving one up report what they do. A handler that gives up all its
targets at once reports nothing, so these are lost to the ledger.

Results:
* `told_handle`, `told_delete`: the ledger follows the calls of a handler.
* `told_dismiss`: what a handler loses that gives up everything at once.
* `Told.trans`: losses add up.
-/

namespace ScrapeDiscovery

/-- Target names, each with the name of a factory. -/
abbrev Holdings := Multiset (String × String)

/-! ## The ledger -/

namespace LogEvent

/-- The ledger after one more event, if the event fits the ledger before. -/
def enter? (ledger : Holdings) : LogEvent → Option Holdings
  | .targetChanged .added target factory => some ((target, factory) ::ₘ ledger)
  | .targetChanged .updated target factory =>
    if (target, factory) ∈ ledger then some ledger else none
  | .targetChanged .deleted target factory =>
    if (target, factory) ∈ ledger then some (ledger.erase (target, factory)) else none
  | _ => some ledger

/-- The ledger that events lead to from nothing. -/
def replay? (log : List LogEvent) : Option Holdings := log.foldlM enter? 0

/-- Events lead from one ledger to another, whatever else is in both. -/
def Lead (events : List LogEvent) (before after : Holdings) : Prop :=
  ∀ others, events.foldlM enter? (before + others) = some (after + others)

variable {events events' : List LogEvent} {a b c : Holdings}

theorem Lead.nil (a : Holdings) : Lead [] a a := fun _ => rfl

theorem Lead.append (h : Lead events a b) (h' : Lead events' b c) :
    Lead (events ++ events') a c := by
  intro others
  rw [List.foldlM_append, h others]
  exact h' others

theorem Lead.frame (h : Lead events a b) (c : Holdings) : Lead events (a + c) (b + c) := by
  intro others
  rw [add_assoc, add_assoc]
  exact h (c + others)

theorem lead_added (target factory : String) (a : Holdings) :
    Lead [.targetChanged .added target factory] a ((target, factory) ::ₘ a) := by
  intro others
  rw [Multiset.cons_add]
  rfl

theorem lead_updated {target factory : String} (h : (target, factory) ∈ a) :
    Lead [.targetChanged .updated target factory] a a := by
  intro others
  have hin : (target, factory) ∈ a + others := Multiset.mem_add.mpr (Or.inl h)
  rw [List.foldlM_cons, enter?, if_pos hin]
  rfl

theorem lead_deleted (target factory : String) (a : Holdings) :
    Lead [.targetChanged .deleted target factory] ((target, factory) ::ₘ a) a := by
  intro others
  have hin : (target, factory) ∈ (target, factory) ::ₘ (a + others) := Multiset.mem_cons_self _ _
  rw [List.foldlM_cons, Multiset.cons_add, enter?, if_pos hin, Multiset.erase_cons_head]
  rfl

end LogEvent

/-! ## What a handler holds -/

namespace TargetHandler

variable (h : TargetHandler)

/-- The targets of a handler, each with the name of its factory. -/
def holdings : Holdings := (h.entries.keys : Multiset String).map (·, h.factory.factoryName)

theorem mem_holdings_of_contains {target : String} (hc : h.entries.contains target = true) :
    (target, h.factory.factoryName) ∈ h.holdings :=
  Multiset.mem_map_of_mem _ (KeyMap.mem_keys_iff.mpr (KeyMap.contains_iff.mp hc))

theorem holdings_including {target : String} (config : ScrapeConfig) :
    (h.including target config).holdings =
      if h.entries.contains target then h.holdings
      else (target, h.factory.factoryName) ::ₘ h.holdings := by
  have hmem : ∀ k, k ∈ (h.entries.insert target config).keys ↔ k = target ∨ k ∈ h.entries.keys := by
    intro k
    rw [KeyMap.mem_keys_iff, KeyMap.mem_keys_iff, KeyMap.get?_insert]
    by_cases hk : k = target <;> simp [hk]
  have hnodup := KeyMap.keys_nodup (h.entries.insert target config)
  split_ifs with hc
  · have hin := KeyMap.mem_keys_iff.mpr (KeyMap.contains_iff.mp hc)
    have hperm : (h.entries.insert target config).keys.Perm h.entries.keys :=
      (List.perm_ext_iff_of_nodup hnodup h.entries.keys_nodup).mpr fun k =>
        (hmem k).trans (or_iff_right_of_imp fun hk => hk ▸ hin)
    exact congrArg (Multiset.map _) (Multiset.coe_eq_coe.mpr hperm)
  · have hnot : target ∉ h.entries.keys := fun hin =>
      hc (KeyMap.contains_iff.mpr (KeyMap.mem_keys_iff.mp hin))
    have hperm : (h.entries.insert target config).keys.Perm (target :: h.entries.keys) :=
      (List.perm_ext_iff_of_nodup hnodup (h.entries.keys_nodup.cons hnot)).mpr fun k =>
        (hmem k).trans List.mem_cons.symm
    exact congrArg (Multiset.map _) (Multiset.coe_eq_coe.mpr hperm)

theorem holdings_without {target : String} (hc : h.entries.contains target = true) :
    h.holdings = (target, h.factory.factoryName) ::ₘ (h.without (· == target)).holdings := by
  have hin := KeyMap.mem_keys_iff.mpr (KeyMap.contains_iff.mp hc)
  have hmem : ∀ k, k ∈ (h.without (· == target)).entries.keys ↔
      k ∈ h.entries.keys ∧ k ≠ target := by
    intro k
    rw [KeyMap.mem_keys_iff, KeyMap.mem_keys_iff, without, KeyMap.get?_filter]
    cases h.entries.get? k <;> simp
  have hnot : target ∉ (h.without (· == target)).entries.keys := fun h' => ((hmem _).mp h').2 rfl
  have hnodup := (KeyMap.keys_nodup (h.without (· == target)).entries).cons hnot
  have hperm : h.entries.keys.Perm (target :: (h.without (· == target)).entries.keys) := by
    refine (List.perm_ext_iff_of_nodup h.entries.keys_nodup hnodup).mpr fun k => ?_
    rw [List.mem_cons, hmem]
    by_cases hk : k = target
    · simp [hk, hin]
    · simp [hk]
  exact congrArg (Multiset.map _) (Multiset.coe_eq_coe.mpr hperm)

theorem holdings_without_all : (h.without fun _ => true).holdings = 0 := by
  have hempty : (h.without fun _ => true).entries = ∅ :=
    KeyMap.ext_get? fun k => by
      rw [without, KeyMap.get?_filter]
      cases h.entries.get? k <;> rfl
  rw [holdings, hempty]
  rfl

end TargetHandler

namespace Roster

variable {r r' r'' : Roster} {id : HandlerId} {h : TargetHandler}

/-- What one handler holds. -/
def holdingsOf (r : Roster) (id : HandlerId) : Holdings :=
  (r.handler? id).elim 0 TargetHandler.holdings

/-- What all handlers hold. -/
def holdings (r : Roster) : Holdings := ∑ id ∈ Finset.range r.nextId, r.holdingsOf id

theorem holdingsOf_of_handler? (hid : r.handler? id = some h) : r.holdingsOf id = h.holdings := by
  rw [holdingsOf, hid]
  rfl

theorem holdingsOf_of_handler?_eq_none (hid : r.handler? id = none) : r.holdingsOf id = 0 := by
  rw [holdingsOf, hid]
  rfl

/-- Where one handler changes, the others hold the rest. -/
theorem exists_rest (r' : Roster) (hid : r.handler? id = some h)
    (hsize : r'.nextId = r.nextId) (hother : ∀ i, i ≠ id → r'.handler? i = r.handler? i) :
    ∃ rest, r.holdings = r.holdingsOf id + rest ∧ r'.holdings = r'.holdingsOf id + rest := by
  have hmem : id ∈ Finset.range r.nextId := Finset.mem_range.mpr (lt_nextId_of_handler? hid)
  refine ⟨∑ i ∈ (Finset.range r.nextId).erase id, r.holdingsOf i,
    (Finset.add_sum_erase _ _ hmem).symm, ?_⟩
  rw [holdings, hsize, ← Finset.add_sum_erase _ _ hmem]
  refine congrArg (r'.holdingsOf id + ·) (Finset.sum_congr rfl fun i hi => ?_)
  rw [holdingsOf, hother i (Finset.ne_of_mem_erase hi)]
  rfl

/-! ## Steps and the ledger -/

/-- What was reported from one roster to another leads from what the handlers held to what they
    hold, together with what was lost. -/
def Told (r r' : Roster) (lost : Holdings) : Prop :=
  ∃ events, r'.log = r.log ++ events ∧ LogEvent.Lead events r.holdings (r'.holdings + lost)

theorem Told.refl (r : Roster) : Told r r 0 :=
  ⟨[], (List.append_nil _).symm, by rw [add_zero]; exact .nil _⟩

theorem Told.trans {lost lost' : Holdings} (ht : Told r r' lost) (ht' : Told r' r'' lost') :
    Told r r'' (lost + lost') := by
  obtain ⟨events, hlog, hlead⟩ := ht
  obtain ⟨events', hlog', hlead'⟩ := ht'
  refine ⟨events ++ events', by rw [hlog', hlog, List.append_assoc], ?_⟩
  rw [add_comm lost lost', ← add_assoc]
  exact hlead.append (hlead'.frame lost)

/-- Steps without a report lose whatever is not held any longer. -/
theorem Told.of_log_eq {lost : Holdings} (hlog : r'.log = r.log)
    (hholdings : r.holdings = r'.holdings + lost) : Told r r' lost := by
  refine ⟨[], by rw [hlog, List.append_nil], ?_⟩
  rw [hholdings]
  exact .nil _

/-- Other events than those about targets do not matter. -/
theorem Told.report {lost : Holdings} (ht : Told r r' lost) {e : LogEvent}
    (he : ∀ change target factory, e ≠ .targetChanged change target factory) :
    Told r (r'.report e) lost := by
  obtain ⟨events, hlog, hlead⟩ := ht
  refine ⟨events ++ [e], ?_, hlead.append fun others => ?_⟩
  · rw [Roster.report, hlog, List.append_assoc]
  · cases e with
    | targetChanged change target factory => exact absurd rfl (he change target factory)
    | _ => rfl

theorem log_retract (r : Roster) (id : HandlerId) (target : String) :
    (r.retract id target).log = r.log := by
  have howner : ∀ registry, (r.owner registry target).2.log = r.log := by
    intro registry
    unfold owner
    split
    · rfl
    · split <;> rfl
  unfold retract
  split
  · rfl
  · next h _ =>
    rw [← howner h.registry]
    dsimp only
    split <;> rfl

theorem log_dismiss (r : Roster) (id : HandlerId) (p : String → Bool) :
    (r.dismiss id p).log = r.log := by
  have hall : ∀ (targets : List String) (r : Roster), (r.retractAll id targets).log = r.log := by
    intro targets
    induction targets with
    | nil => exact fun _ => rfl
    | cons t ts ih => exact fun r => (ih (r.retract id t)).trans (log_retract r id t)
  exact hall _ _

theorem log_add (r : Roster) (h : TargetHandler) : (r.add h).log = r.log := by
  unfold add openRegistry
  split <;> rfl

/-- What a handler publishes is reported. -/
theorem told_commit (hid : r.handler? id = some h) (target : String) (config : ScrapeConfig) :
    Told r ((r.commit id h target config).report
      (.targetChanged (if (r.encoding id target).isSome then .updated else .added) target
        h.factory.factoryName)) 0 := by
  have hnew : (r.commit id h target config).handler? id = some (h.including target config) :=
    (handler?_commit hid target config id).trans (if_pos rfl)
  obtain ⟨rest, hbefore, hafter⟩ := exists_rest (r.commit id h target config) hid
    (nextId_update r id _) fun i hi => (handler?_commit hid target config i).trans (if_neg hi)
  have hlead : LogEvent.Lead [.targetChanged
      (if (r.encoding id target).isSome then .updated else .added) target h.factory.factoryName]
      h.holdings (h.including target config).holdings := by
    rw [h.holdings_including, encoding_of_handler? hid]
    change LogEvent.Lead [.targetChanged (if h.entries.contains target then _ else _) _ _] _ _
    split_ifs with hc
    · exact LogEvent.lead_updated (h.mem_holdings_of_contains hc)
    · exact LogEvent.lead_added _ _ _
  refine ⟨_, rfl, ?_⟩
  change LogEvent.Lead _ r.holdings ((r.commit id h target config).holdings + 0)
  rw [add_zero, hbefore, hafter, holdingsOf_of_handler? hid, holdingsOf_of_handler? hnew]
  exact hlead.frame rest

/-- A target that a handler gives up is reported. -/
theorem told_release (hc : r.Consistent) {target : String} (hh : r.holds id target = true) :
    Told r (r.release id target) 0 := by
  obtain ⟨h, -, hid, -⟩ := holds_iff.mp hh
  have hleft : (r.dismiss id (· == target)).handler? id = some (h.without (· == target)) := by
    rw [handler?_dismiss hc, if_pos rfl, hid]
    rfl
  obtain ⟨rest, hbefore, hafter⟩ := exists_rest (r.dismiss id (· == target)) hid
    (nextId_dismiss r id _) fun i hi => (handler?_dismiss hc id _ i).trans (if_neg hi)
  rw [holds_of_handler? hid] at hh
  rw [release_eq hid (by rwa [holds_of_handler? hid])]
  refine ⟨_, congrArg (· ++ _) (log_dismiss r id _), ?_⟩
  change LogEvent.Lead _ r.holdings ((r.dismiss id (· == target)).holdings + 0)
  rw [add_zero, hbefore, hafter, holdingsOf_of_handler? hid, holdingsOf_of_handler? hleft,
    h.holdings_without hh]
  exact (LogEvent.lead_deleted _ _ _).frame rest

theorem told_delete (hc : r.Consistent) (id : HandlerId) (target : String) :
    Told r (r.delete id target) 0 := by
  unfold delete
  split_ifs with hh
  · exact told_release hc hh
  · exact .refl r

theorem told_handle (hc : r.Consistent) (id : HandlerId) (resource : Resource)
    (rule : Option Rule) (confirmed : Bool) :
    Told r (r.handle id resource rule confirmed) 0 := by
  cases hid : r.handler? id with
  | none =>
    rw [handle_of_handler?_eq_none hid]
    exact .refl r
  | some h =>
    have hmishaps : ∀ mishaps, Told r { r with mishaps } 0 := fun _ =>
      .of_log_eq rfl (add_zero _).symm
    rw [handle_eq hc hid]
    split
    · exact .refl r
    split
    · exact hmishaps _
    · next config henc =>
      rw [renew_eq hid henc]
      split
      · exact .refl r
      split
      · split
        · exact .refl r
        · exact told_commit hid _ config
      · exact hmishaps _
    · split
      · next hgive =>
        simp only [Bool.and_eq_true] at hgive
        exact told_release hc (holds_iff_encoding.mpr (Option.isSome_iff_exists.mp hgive.1.1))
      · exact .refl r

/-- Whatever a handler gives up at once is lost. -/
theorem told_dismiss (hc : r.Consistent) (id : HandlerId) :
    Told r (r.dismiss id fun _ => true) (r.holdingsOf id) := by
  refine .of_log_eq (log_dismiss r id _) ?_
  cases hid : r.handler? id with
  | none =>
    have hsame : ∀ i, (r.dismiss id fun _ => true).holdingsOf i = r.holdingsOf i := by
      intro i
      rw [holdingsOf, handler?_dismiss hc, hid]
      split_ifs with hi
      · rw [hi, holdingsOf_of_handler?_eq_none hid]
        rfl
      · rfl
    rw [holdingsOf_of_handler?_eq_none hid, add_zero, holdings, holdings, nextId_dismiss]
    exact Finset.sum_congr rfl fun i _ => (hsame i).symm
  | some h =>
    have hleft : (r.dismiss id fun _ => true).handler? id = some (h.without fun _ => true) := by
      rw [handler?_dismiss hc, if_pos rfl, hid]
      rfl
    obtain ⟨rest, hbefore, hafter⟩ := exists_rest (r.dismiss id fun _ => true) hid
      (nextId_dismiss r id _) fun i hi => (handler?_dismiss hc id _ i).trans (if_neg hi)
    rw [hbefore, hafter, holdingsOf_of_handler? hleft, h.holdings_without_all, zero_add, add_comm]

end Roster

end ScrapeDiscovery
