import ScrapeDiscovery.Proofs.Roster.Views

/-!
# Calls of handlers that overlap

A handler is asked to bring the target of a resource up to date, to give a target up or
to close. Such a call is made of steps that nothing comes between: it looks the owner of
the target up, reads the current encoding, publishes the target, takes targets away from
the handler, or retracts what was published for one of them. Between two steps of a call
other calls may take theirs, for the same handler or another one. `Traffic` is a roster
with all calls that have begun, and an action lets another call begin or lets one of
them take its next step.

Results:
* `Request.alone`: a call that takes its steps with nothing in between is the request.
* `run_alone`: the same within any traffic.
* `mem_calls_start`, `mem_calls_advance`, `mem_advance`: the calls after an action.
-/

namespace ScrapeDiscovery

/-! ## The steps of a call -/

/-- What a handler is asked for. -/
inductive Request where
  | handle (resource : Resource) (rule : Option Rule) (confirmed : Bool)
  | delete (target : String)
  | close
  deriving DecidableEq, Repr

/-- What a call does next (`TargetHandler::handle`). -/
inductive Stage where
  /-- Looks up who owns the target of a resource. -/
  | looking (resource : Resource) (rule : Option Rule) (confirmed : Bool)
  /-- Reads the current encoding of the target and makes the new one. -/
  | reading (resource : Resource) (rule : Option Rule) (confirmed : Bool)
  /-- Publishes a target with the provider built for it. -/
  | publishing (target : String) (change : TargetChange) (config : ScrapeConfig) (p : Provider)
  /-- Looks whether the handler holds a target. -/
  | checking (target : String)
  /-- Takes a target away from the handler. -/
  | withdrawing (target : String)
  /-- Makes the handler refuse new targets. -/
  | shutting
  /-- Takes all targets away from the handler. -/
  | clearing
  /-- Retracts targets one by one, and reports each if it should be `told`. -/
  | retracting (targets : List String) (told : Bool)
  | returned
  deriving DecidableEq, Repr

namespace Stage

/-- What a call of a handler `h` goes on with when it has read the current encoding of the target
    of a resource. -/
def afterReading (r : Roster) (h : TargetHandler) (current : Option ScrapeConfig)
    (resource : Resource) (rule : Option Rule) (confirmed : Bool) : Stage × Roster :=
  match h.encoder.encode resource.ip resource.kind resource.object rule with
  | .error _ =>
    (returned, { r with mishaps := { r.mishaps with encoding := r.mishaps.encoding + 1 } })
  | .ok (some config) =>
    if current = some config then (returned, r)
    else
      match Provider.build h.factory config with
      | .error _ =>
        (returned, { r with mishaps := { r.mishaps with build := r.mishaps.build + 1 } })
      | .ok p =>
        (publishing resource.targetName (if current.isSome then .updated else .added) config p, r)
  | .ok none =>
    if current.isSome && h.useAnnotations && confirmed then (withdrawing resource.targetName, r)
    else (returned, r)

/-- One step of a call of a handler `h`. -/
def step (r : Roster) (id : HandlerId) (h : TargetHandler) : Stage → Stage × Roster
  | looking resource rule confirmed =>
    match r.owner h.registry resource.targetName with
    | (owner, r) => (if owner.any (· ≠ id) then returned else reading resource rule confirmed, r)
  | reading resource rule confirmed =>
    afterReading r h (r.encoding id resource.targetName) resource rule confirmed
  | publishing target change config p =>
    -- the owner is not looked up again
    match r.publish id target config p with
    | none => (returned, r)
    | some r => (returned, r.report (.targetChanged change target h.factory.factoryName))
  | checking target => (if r.holds id target then withdrawing target else returned, r)
  | withdrawing target => (retracting [target] true, r.withdraw id (· == target))
  | shutting => (clearing, r.shut id)
  | clearing => (retracting (r.picked id fun _ => true) false, r.withdraw id fun _ => true)
  | retracting [] _ => (returned, r)
  | retracting (target :: rest) told =>
    let r := r.retract id target
    (retracting rest told,
      if told then r.report (.targetChanged .deleted target h.factory.factoryName) else r)
  | returned => (returned, r)

end Stage

namespace Request

/-- How a call begins. -/
def first : Request → Stage
  | handle resource rule confirmed => .looking resource rule confirmed
  | delete target => .checking target
  | close => .shutting

/-- A request that is carried out as a whole. -/
def perform (r : Roster) (id : HandlerId) : Request → Roster
  | handle resource rule confirmed => r.handle id resource rule confirmed
  | delete target => r.delete id target
  | close => r.close id

end Request

/-- A call that has begun. -/
structure Call where
  handler : HandlerId
  stage : Stage
  deriving DecidableEq, Repr

/-- One step of a call; nobody calls a handler that does not exist. -/
def Call.step (r : Roster) (c : Call) : Stage × Roster :=
  match r.handler? c.handler with
  | none => (.returned, r)
  | some h => c.stage.step r c.handler h

theorem Call.step_eq {r : Roster} {id : HandlerId} {h : TargetHandler}
    (hid : r.handler? id = some h) (s : Stage) : Call.step r ⟨id, s⟩ = s.step r id h := by
  simp only [Call.step, hid]

/-! ## Calls that take their steps in between each other -/

/-- A roster and the calls of its handlers. -/
structure Traffic where
  roster : Roster
  /-- The calls that have begun, the latest last. -/
  calls : List Call := []
  deriving DecidableEq, Repr

namespace Traffic

/-- What happens next. -/
inductive Action where
  /-- A handler is called. -/
  | start (id : HandlerId) (request : Request)
  /-- A call takes its next step. -/
  | advance (n : Nat)
  deriving DecidableEq, Repr

/-- Lets a call take its next step. -/
def advance (t : Traffic) (n : Nat) : Traffic :=
  match t.calls[n]? with
  | none => t
  | some c =>
    { roster := (c.step t.roster).2
      calls := t.calls.set n { c with stage := (c.step t.roster).1 } }

/-- The traffic after an action. -/
def act (t : Traffic) : Action → Traffic
  | .start id request => { t with calls := t.calls ++ [⟨id, request.first⟩] }
  | .advance n => t.advance n

/-- The traffic after several actions. -/
def run (t : Traffic) (actions : List Action) : Traffic := actions.foldl act t

/-- All calls have returned. -/
def IsQuiet (t : Traffic) : Prop := ∀ c ∈ t.calls, c.stage = .returned

instance (t : Traffic) : Decidable t.IsQuiet := inferInstanceAs (Decidable (∀ c ∈ t.calls, _))

theorem run_append (t : Traffic) (xs ys : List Action) :
    t.run (xs ++ ys) = (t.run xs).run ys := List.foldl_append

theorem advance_of_none {t : Traffic} {n : Nat} (hc : t.calls[n]? = none) : t.advance n = t := by
  simp only [advance, hc]

theorem advance_eq {t : Traffic} {n : Nat} {c : Call} (hc : t.calls[n]? = some c) :
    t.advance n =
      { roster := (c.step t.roster).2
        calls := t.calls.set n { c with stage := (c.step t.roster).1 } } := by
  simp only [advance, hc]

/-- When a call has begun, a call is the same as before, or it is the one that has begun. -/
theorem mem_calls_start {t : Traffic} {id : HandlerId} {request : Request} {m : Nat} {d : Call}
    (hd : (t.act (.start id request)).calls[m]? = some d) :
    t.calls[m]? = some d ∨ d = ⟨id, request.first⟩ := by
  have hd : (t.calls ++ [⟨id, request.first⟩])[m]? = some d := hd
  rw [List.getElem?_append] at hd
  split_ifs at hd
  · exact Or.inl hd
  · exact Or.inr (List.mem_singleton.mp (List.mem_of_getElem? hd))

/-- After a step of a call, a call is the same as before, or it is the one that took the step. -/
theorem mem_calls_advance {t : Traffic} {n m : Nat} {c d : Call} (hc : t.calls[n]? = some c)
    (hd : (t.advance n).calls[m]? = some d) :
    t.calls[m]? = some d ∨ m = n ∧ d = { c with stage := (c.step t.roster).1 } := by
  rw [advance_eq hc, List.getElem?_set] at hd
  split_ifs at hd with hnm
  · exact Or.inr ⟨hnm.symm, (Option.some.inj hd).symm⟩
  · exact Or.inl hd

/-- A call that has begun is still there after a step, unless it is the one that took the step. -/
theorem mem_advance {t : Traffic} {n : Nat} {c d : Call} (hc : t.calls[n]? = some c)
    (hd : d ∈ t.calls) : d ∈ (t.advance n).calls ∨ d = c := by
  obtain ⟨m, hm⟩ := List.getElem?_of_mem hd
  rw [advance_eq hc]
  by_cases hnm : n = m
  · subst hnm
    exact Or.inr (Option.some.inj (hm.symm.trans hc))
  · refine Or.inl (List.mem_of_getElem? (i := m) ?_)
    rw [List.getElem?_set_ne hnm]
    exact hm

theorem mem_advance_self {t : Traffic} {n : Nat} {c : Call} (hc : t.calls[n]? = some c) :
    { c with stage := (c.step t.roster).1 } ∈ (t.advance n).calls := by
  rw [advance_eq hc]
  exact List.mem_set (List.getElem?_eq_some_iff.mp hc).1 _

end Traffic

/-! ## Calls that nothing comes between -/

/-- The steps that a call takes with nothing in between lead from a roster to another one. -/
inductive Alone (id : HandlerId) : Stage × Roster → Roster → Prop
  | returned (r : Roster) : Alone id (.returned, r) r
  | step {s : Stage} {r r' : Roster} (h : Alone id (Call.step r ⟨id, s⟩) r') : Alone id (s, r) r'

namespace Alone

variable {id : HandlerId} {h : TargetHandler} {r : Roster}

theorem retracting_nil (hid : r.handler? id = some h) (told : Bool) :
    Alone id (.retracting [] told, r) r := by
  refine .step ?_
  rw [Call.step_eq hid]
  exact .returned r

theorem withdrawing (hid : r.handler? id = some h) (target : String) :
    Alone id (.withdrawing target, r) (r.release id target) := by
  have hid₁ : (r.withdraw id (· == target)).handler? id =
      some { h with entries := h.entries.filter fun k _ => !(k == target) } := by
    rw [Roster.withdraw, Roster.handler?_update_self, hid]
    rfl
  have hid₂ : ((r.withdraw id (· == target)).retract id target).handler? id =
      some { h with entries := h.entries.filter fun k _ => !(k == target) } := by
    rw [Roster.handler?, Roster.handlers_retract]
    exact hid₁
  simp only [Roster.release, hid]
  refine .step ?_
  rw [Call.step_eq hid]
  refine .step ?_
  rw [Call.step_eq hid₁]
  exact retracting_nil (r := ((r.withdraw id (· == target)).retract id target).report _) hid₂ true

theorem retracting (hid : r.handler? id = some h) (targets : List String) :
    Alone id (.retracting targets false, r) (r.retractAll id targets) := by
  induction targets generalizing r with
  | nil => exact retracting_nil hid false
  | cons target targets ih =>
    refine .step ?_
    rw [Call.step_eq hid]
    refine ih ?_
    show (r.retract id target).handler? id = some h
    rw [Roster.handler?, Roster.handlers_retract]
    exact hid

theorem publishing (hid : r.handler? id = some h) (target : String) (change : TargetChange)
    (config : ScrapeConfig) (p : Provider) :
    Alone id (.publishing target change config p, r)
      (match r.publish id target config p with
        | none => r
        | some r => r.report (.targetChanged change target h.factory.factoryName)) := by
  refine .step ?_
  rw [Call.step_eq hid, Stage.step]
  split
  · exact .returned _
  · exact .returned _

theorem reading (hid : r.handler? id = some h) (resource : Resource) (rule : Option Rule)
    (confirmed : Bool) :
    Alone id (.reading resource rule confirmed, r)
      (match h.encoder.encode resource.ip resource.kind resource.object rule with
        | .error _ => { r with mishaps := { r.mishaps with encoding := r.mishaps.encoding + 1 } }
        | .ok (some config) =>
          r.renew id h resource.targetName (r.encoding id resource.targetName) config
        | .ok none =>
          if (r.encoding id resource.targetName).isSome && h.useAnnotations && confirmed then
            r.release id resource.targetName
          else r) := by
  refine .step ?_
  rw [Call.step_eq hid, Stage.step, Stage.afterReading]
  split
  · exact .returned _
  · next config _ =>
    rw [Roster.renew]
    by_cases hcur : r.encoding id resource.targetName = some config
    · rw [if_pos hcur, if_pos hcur]
      exact .returned r
    rw [if_neg hcur, if_neg hcur]
    cases Provider.build h.factory config with
    | error _ => exact .returned _
    | ok p => exact publishing hid _ _ _ _
  · by_cases hgive : (r.encoding id resource.targetName).isSome && h.useAnnotations && confirmed
    · rw [if_pos hgive, if_pos hgive]
      exact withdrawing hid _
    · rw [if_neg hgive, if_neg hgive]
      exact .returned r

end Alone

/-- A call that takes its steps with nothing in between is the request. -/
theorem Request.alone {r : Roster} {id : HandlerId} {h : TargetHandler}
    (hid : r.handler? id = some h) (request : Request) :
    Alone id (request.first, r) (request.perform r id) := by
  cases request with
  | handle resource rule confirmed =>
    have hid₁ : (r.owner h.registry resource.targetName).2.handler? id = some h := by
      rw [Roster.handler?, Roster.handlers_owner]
      exact hid
    refine .step ?_
    rw [Call.step_eq hid]
    simp only [Request.first, Stage.step, Request.perform, Roster.handle, hid]
    by_cases howned : (r.owner h.registry resource.targetName).1.any (· ≠ id)
    · rw [if_pos howned, if_pos howned]
      exact .returned _
    · rw [if_neg howned, if_neg howned]
      exact Alone.reading hid₁ resource rule confirmed
  | delete target =>
    refine .step ?_
    rw [Call.step_eq hid]
    simp only [Request.first, Stage.step, Request.perform, Roster.delete]
    by_cases hheld : r.holds id target = true
    · rw [if_pos hheld, if_pos hheld]
      exact Alone.withdrawing hid target
    · rw [if_neg hheld, if_neg hheld]
      exact .returned r
  | close =>
    have hid₁ : (r.shut id).handler? id = some { h with closed := true } := by
      rw [Roster.shut, Roster.handler?_update_self, hid]
      rfl
    have hid₂ : ((r.shut id).withdraw id fun _ => true).handler? id =
        some { h with closed := true, entries := h.entries.filter fun _ _ => !true } := by
      rw [Roster.withdraw, Roster.handler?_update_self, hid₁]
      rfl
    refine .step ?_
    rw [Call.step_eq hid]
    refine .step ?_
    rw [Call.step_eq hid₁]
    exact Alone.retracting hid₂ _

namespace Traffic

theorem advance_last (r : Roster) (calls : List Call) (c : Call) :
    advance { roster := r, calls := calls ++ [c] } calls.length =
      { roster := (c.step r).2, calls := calls ++ [{ c with stage := (c.step r).1 }] } := by
  rw [advance_eq (c := c) List.getElem?_concat_length]
  simp

theorem run_of_alone {id : HandlerId} {x : Stage × Roster} {r : Roster} (h : Alone id x r)
    (calls : List Call) :
    ∃ k, run { roster := x.2, calls := calls ++ [⟨id, x.1⟩] }
        (List.replicate k (.advance calls.length)) =
      { roster := r, calls := calls ++ [⟨id, .returned⟩] } := by
  induction h with
  | returned r => exact ⟨0, rfl⟩
  | @step s r r' _ ih =>
    obtain ⟨k, hk⟩ := ih
    refine ⟨k + 1, ?_⟩
    rw [List.replicate_succ]
    refine Eq.trans ?_ hk
    exact congrArg (run · (List.replicate k (.advance calls.length)))
      (advance_last r calls ⟨id, s⟩)

/-- In any traffic a call that takes its steps with nothing in between is the request. -/
theorem run_alone (t : Traffic) {id : HandlerId} {h : TargetHandler}
    (hid : t.roster.handler? id = some h) (request : Request) :
    ∃ k, t.run (.start id request :: List.replicate k (.advance t.calls.length)) =
      { roster := request.perform t.roster id, calls := t.calls ++ [⟨id, .returned⟩] } :=
  run_of_alone (request.alone hid) t.calls

end Traffic

end ScrapeDiscovery
