import Mathlib.Algebra.Group.Action.Defs
import Mathlib.Algebra.Order.BigOperators.Group.List
import Mathlib.Algebra.Order.Ring.Nat
import ScrapeDiscovery.Proofs.Manager.Following

/-!
# Settling comes to an end

Running woken tasks wakes further ones: the task of a watch wakes itself when its turn
was too short for all events, and following leadership begins or ends the watch of
services. Each turn of a task takes some `effort` away all the same. The watches and
the woken tasks are the `Agenda` of a manager, and what is done about resources and
settings leaves it alone.

Results:
* `effort_runTask`: a turn of a task takes effort away.
* `ready_settle`: all tasks wait when a manager has settled.
-/

namespace ScrapeDiscovery

/-- How many turns a woken task may come to, its own and those of tasks that it wakes. -/
def ManagerTask.cost : ManagerTask → Nat
  | .leadership => 2
  | _ => 1

namespace Manager

variable {m m' : Manager}

/-! ## Effort -/

/-- A bound on how many turns it takes until all tasks wait. -/
def effort (m : Manager) : Nat :=
  (m.ready.map ManagerTask.cost).sum + backlog m.pods + backlog m.services

theorem effort_of_agenda (h : m'.agenda = m.agenda) : m'.effort = m.effort := by
  have hready : m'.ready = m.ready := congrArg Agenda.ready h
  have hpods : m'.pods = m.pods := congrArg Agenda.pods h
  have hservices : m'.services = m.services := congrArg Agenda.services h
  rw [effort, effort, hready, hpods, hservices]

theorem effort_wake (m : Manager) (t : ManagerTask) : (m.wake t).effort ≤ m.effort + t.cost := by
  unfold wake
  split
  · exact Nat.le_add_right _ _
  · simp only [effort, List.map_append, List.sum_append, List.map_singleton, List.sum_singleton]
    omega

/-- Settling has as many turns at its disposal as it may take. -/
theorem effort_le (m : Manager) :
    m.effort ≤ 2 * m.ready.length + backlog m.pods + backlog m.services := by
  have hcost : ∀ n ∈ m.ready.map ManagerTask.cost, n ≤ 2 := by
    intro n hn
    obtain ⟨t, -, rfl⟩ := List.mem_map.mp hn
    cases t <;> decide
  have hsum := List.sum_le_card_nsmul _ 2 hcost
  rw [List.length_map, smul_eq_mul] at hsum
  unfold effort
  omega

/-! ## Turns -/

/-- How the effort changes when a watch is put in the place of another one. -/
theorem effort_putWatch (m : Manager) (kind : ResourceKind) (w : Watch) :
    (m.putWatch kind w).effort + backlog (m.watch? kind) = m.effort + backlog (some w) := by
  cases kind <;> simp only [effort, putWatch, watch?] <;> omega

theorem effort_runWatch (m : Manager) (kind : ResourceKind) :
    (m.runWatch kind).effort ≤ m.effort := by
  cases hw : m.watch? kind with
  | none => simp only [runWatch, hw, Nat.le_refl]
  | some w =>
    let taken := m.takeIn w.kind w.due
    have hagenda : taken.agenda = m.agenda := agenda_takeIn m w.kind w.due
    have hput := effort_putWatch taken kind w.turned
    rw [effort_of_agenda hagenda, watch?_of_agenda hagenda, hw] at hput
    have hrun : m.runWatch kind =
        if w.turned.isIdle then taken.putWatch kind w.turned
        else (taken.putWatch kind w.turned).wake (watchTask kind) := by
      simp only [runWatch, hw]
      rfl
    rw [hrun]
    split
    · have hturned := w.backlog_turned
      omega
    · next hleft =>
      have hbusy : w.isIdle = false :=
        Bool.eq_false_iff.mpr fun hidle => hleft (Watch.isIdle_turned hidle)
      have hlt := Watch.backlog_turned_lt hbusy
      have hwake := effort_wake (taken.putWatch kind w.turned) (watchTask kind)
      have hcost : (watchTask kind).cost = 1 := by cases kind <;> rfl
      omega

theorem agenda_runRetired (m : Manager) : m.runRetired.agenda = m.agenda :=
  agenda_foldl (f := drain) (fun m w => agenda_takeIn m w.kind w.pending) _ m.retired

theorem agenda_resync (m : Manager) : m.resync.2.agenda = m.agenda := by
  simp only [resync]
  split
  · exact agenda_foldl (f := replay) (fun _ _ => rfl) _ _
  · rfl

theorem agenda_runResync (m : Manager) : m.runResync.agenda = m.agenda := by
  simp only [runResync]
  split
  · exact agenda_resync _
  · rfl

theorem effort_resume (m : Manager) : m.resume.effort ≤ m.effort + 1 := by
  unfold resume
  split
  · exact Nat.le_succ _
  · have hput := effort_putWatch m .service { kind := .service }
    have hnone : backlog (some { kind := .service }) = 0 := rfl
    have hwake := effort_wake (m.putWatch .service { kind := .service }) .services
    have hcost : ManagerTask.services.cost = 1 := rfl
    show (m.beginWatch .service).effort ≤ m.effort + 1
    show ((m.putWatch .service { kind := .service }).wake .services).effort ≤ m.effort + 1
    omega

theorem effort_pause (m : Manager) : m.pause.effort ≤ m.effort + 1 := by
  unfold pause
  split
  · exact Nat.le_succ _
  · next w _ =>
    let stopped : Manager :=
      { m with services := none, retired := m.retired ++ [{ w with phase := .ended }] }
    have hstopped : stopped.effort ≤ m.effort := by
      show (m.ready.map ManagerTask.cost).sum + backlog m.pods + 0 ≤ m.effort
      unfold effort
      omega
    have hwake := effort_wake stopped .retired
    have hcost : ManagerTask.retired.cost = 1 := rfl
    show (stopped.wake .retired).effort ≤ m.effort + 1
    omega

theorem effort_runLeadership (m : Manager) : m.runLeadership.effort ≤ m.effort + 1 := by
  unfold runLeadership
  split
  · exact Nat.le_succ _
  · have hlooked : m.looked.effort = m.effort := rfl
    dsimp only
    split_ifs
    · show m.looked.follow.effort ≤ m.looked.effort + 1
      unfold follow
      split
      · exact effort_resume m.looked
      · exact effort_pause m.looked
    · exact Nat.le_succ _
    · exact effort_resume m.looked
    · exact Nat.le_succ _

/-- A turn of a task that was woken takes effort away, although it may wake others. -/
theorem effort_runTask (m : Manager) (t : ManagerTask) :
    (m.runTask t).effort < m.effort + t.cost := by
  cases t with
  | pods => exact Nat.lt_succ_of_le (effort_runWatch m .pod)
  | services => exact Nat.lt_succ_of_le (effort_runWatch m .service)
  | retired => exact Nat.lt_succ_of_le (effort_of_agenda (agenda_runRetired m)).le
  | resync =>
    refine Nat.lt_succ_of_le ?_
    simp only [runTask]
    split
    · exact (effort_of_agenda (agenda_runResync m)).le
    · exact Nat.le_refl _
  | leadership => exact Nat.lt_succ_of_le (effort_runLeadership m)

/-! ## Settling -/

theorem ready_settleWithin {fuel : Nat} (h : m.effort ≤ fuel) :
    (settleWithin fuel m).ready = [] := by
  induction fuel generalizing m with
  | zero =>
    have hnone : (m.ready.map ManagerTask.cost).sum = 0 := by
      unfold effort at h
      omega
    cases hready : m.ready with
    | nil => exact hready
    | cons t ts =>
      rw [hready, List.map_cons, List.sum_cons] at hnone
      cases t <;> simp [ManagerTask.cost] at hnone
  | succ fuel ih =>
    unfold settleWithin
    split
    · assumption
    · next t ts hready =>
      have hpop : m.effort = { m with ready := ts }.effort + t.cost := by
        simp only [effort, hready, List.map_cons, List.sum_cons]
        omega
      have hturn := effort_runTask { m with ready := ts } t
      exact ih (by omega)

/-- When a manager has settled, all tasks wait. -/
theorem ready_settle (m : Manager) : m.settle.ready = [] := ready_settleWithin m.effort_le

end Manager

end ScrapeDiscovery
