import ScrapeDiscovery.Proofs.Manager.Moves

/-!
# Turns of the task of a watch

What is reported goes to the producer of a watch, from there into the queue of the
task, and from the queue it is taken in. No event is lost on this way or overtakes
another one. A turn of the task does some of both, as much as the budget allows for,
and comes to the same as that many single moves.

Results:
* `Watch.due_append_events`: a turn takes in the oldest events and leaves the others in order.
* `Watch.backlog_turned`, `Watch.backlog_turned_lt`: how much less a turn leaves to do.
* `agenda_takeIn`: taking in events leaves the watches and the woken tasks alone.
* `exists_run_eq_runWatch`: a turn that nothing comes between, as a sequence of moves.
-/

namespace ScrapeDiscovery

namespace Watch

/-- The events that were reported and not taken in yet, the oldest first. -/
def events (w : Watch) : List ResourceEvent := w.pending ++ w.reported

theorem events_of_report? {w w' : Watch} {e : ResourceEvent} (h : w.report? e = some w') :
    w'.events = w.events ++ [e] := by
  unfold report? at h
  split at h
  · obtain rfl := Option.some.inj h
    exact (List.append_assoc _ _ _).symm
  · cases h

theorem events_of_finish? {w w' : Watch} (h : w.finish? = some w') : w'.events = w.events := by
  unfold finish? at h
  split at h
  · obtain rfl := Option.some.inj h
    rfl
  · cases h

theorem enqueue?_of_reported {w : Watch} {e : ResourceEvent} {es : List ResourceEvent}
    (hw : w.reported = e :: es) (hroom : w.pending.length < eventBuffer) :
    w.enqueue? = some { w with reported := es, pending := w.pending ++ [e] } := by
  simp only [enqueue?, hw, if_pos hroom]

theorem events_of_enqueue? {w w' : Watch} (h : w.enqueue? = some w') : w'.events = w.events := by
  unfold enqueue? at h
  split at h
  · cases h
  · next e es hw =>
    split at h
    · obtain rfl := Option.some.inj h
      simp [events, hw]
    · cases h

/-- A turn takes in the oldest events and leaves the others in order. -/
theorem due_append_events (w : Watch) : w.due ++ w.turned.events = w.events := by
  show w.filled.take w.intake ++ (w.filled.drop w.intake ++ w.reported.drop w.handover) = w.events
  rw [← List.append_assoc, List.take_append_drop, filled, List.append_assoc,
    List.take_append_drop, events]

theorem backlog_turned (w : Watch) :
    Manager.backlog (some w.turned) + w.handover + w.due.length = Manager.backlog (some w) := by
  have hle : w.handover ≤ w.reported.length := Nat.min_le_left _ _
  simp only [Manager.backlog, turned, due, filled, List.length_drop, List.length_append,
    List.length_take]
  omega

/-- As long as there are events, a turn leaves less to do. -/
theorem backlog_turned_lt {w : Watch} (h : w.isIdle = false) :
    Manager.backlog (some w.turned) < Manager.backlog (some w) := by
  have hlength : 0 < w.reported.length + w.pending.length := by
    rw [isIdle, Bool.and_eq_false_iff, List.isEmpty_eq_false_iff, List.isEmpty_eq_false_iff,
      ← List.length_pos_iff, ← List.length_pos_iff] at h
    omega
  have hdue : w.due.length =
      min w.intake (w.pending.length + min w.handover w.reported.length) := by
    simp only [due, filled, List.length_append, List.length_take]
  have hturned := w.backlog_turned
  simp only [intake, handover, eventBuffer, turnBudget] at hdue hturned
  omega

theorem isIdle_turned {w : Watch} (h : w.isIdle = true) : w.turned.isIdle = true := by
  simp only [isIdle, Bool.and_eq_true, List.isEmpty_iff] at h ⊢
  simp [turned, filled, h.1, h.2]

end Watch

namespace Manager

variable {m : Manager}

/-! ## Watches and woken tasks -/

/-- What is left to do for the tasks of the watches: the watches, and which tasks were woken. -/
structure Agenda where
  ready : List ManagerTask
  pods : Option Watch
  services : Option Watch

/-- The agenda of a manager. -/
def agenda (m : Manager) : Agenda := ⟨m.ready, m.pods, m.services⟩

theorem watch?_of_agenda {m' : Manager} (h : m'.agenda = m.agenda) (kind : ResourceKind) :
    m'.watch? kind = m.watch? kind := by
  cases kind with
  | pod => exact congrArg Agenda.pods h
  | service => exact congrArg Agenda.services h
  | apiServer => exact congrArg Agenda.services h

theorem agenda_foldl {α : Type} {f : Manager → α → Manager}
    (hf : ∀ m a, (f m a).agenda = m.agenda) (m : Manager) (as : List α) :
    (as.foldl f m).agenda = m.agenda :=
  as.foldlRecOn (motive := (agenda · = m.agenda)) f rfl fun m' h a _ => (hf m' a).trans h

theorem agenda_apply (m : Manager) (kind : ResourceKind) (e : ResourceEvent) :
    (m.apply kind e).agenda = m.agenda := by
  cases e with
  | applied r => rfl
  | deleted r => rfl
  | restarted rs =>
    have hgone := agenda_foldl (f := forget) (fun _ _ => rfl) m (m.gone kind rs)
    exact (agenda_foldl (f := discover) (fun _ _ => rfl) _ rs).trans hgone

theorem agenda_takeIn (m : Manager) (kind : ResourceKind) (es : List ResourceEvent) :
    (m.takeIn kind es).agenda = m.agenda :=
  agenda_foldl (fun m e => agenda_apply m kind e) m es

/-! ## Putting a watch in its place -/

@[simp] theorem watch?_putWatch (m : Manager) (kind : ResourceKind) (w : Watch) :
    (m.putWatch kind w).watch? kind = some w := by
  cases kind <;> rfl

@[simp] theorem putWatch_putWatch (m : Manager) (kind : ResourceKind) (w w' : Watch) :
    (m.putWatch kind w).putWatch kind w' = m.putWatch kind w' := by
  cases kind <;> rfl

theorem putWatch_eq_self {kind : ResourceKind} {w : Watch} (hw : m.watch? kind = some w) :
    m.putWatch kind w = m := by
  cases kind <;> simp only [watch?] at hw <;> simp only [putWatch, ← hw]

theorem apply_putWatch (m : Manager) (kind kind' : ResourceKind) (w : Watch) (e : ResourceEvent) :
    (m.putWatch kind w).apply kind' e = (m.apply kind' e).putWatch kind w := by
  have hdiscover : ∀ (m : Manager) r,
      (m.putWatch kind w).discover r = (m.discover r).putWatch kind w := by
    cases kind <;> exact fun _ _ => rfl
  have hforget : ∀ (m : Manager) r,
      (m.putWatch kind w).forget r = (m.forget r).putWatch kind w := by
    cases kind <;> exact fun _ _ => rfl
  cases e with
  | applied r => exact hdiscover m r
  | deleted r => exact hforget m r
  | restarted rs =>
    have hgone : (m.putWatch kind w).gone kind' rs = m.gone kind' rs := by
      cases kind <;> rfl
    simp only [apply]
    rw [hgone, List.foldl_hom (putWatch · kind w) hforget,
      List.foldl_hom (putWatch · kind w) hdiscover]

theorem takeIn_putWatch (m : Manager) (kind kind' : ResourceKind) (w : Watch)
    (es : List ResourceEvent) :
    (m.putWatch kind w).takeIn kind' es = (m.takeIn kind' es).putWatch kind w :=
  List.foldl_hom (putWatch · kind w) fun m e => apply_putWatch m kind kind' w e

/-! ## A turn, one move at a time -/

/-- Events that are put into the queue, one after the other. -/
theorem run_enqueue {kind : ResourceKind} {w : Watch} (hw : m.watch? kind = some w) {n : Nat}
    (hn : n ≤ w.reported.length) (hroom : w.pending.length + n ≤ eventBuffer) :
    m.run (List.replicate n (.enqueue kind)) =
      m.putWatch kind
        { w with reported := w.reported.drop n, pending := w.pending ++ w.reported.take n } := by
  induction n generalizing m w with
  | zero =>
    rw [List.take_zero, List.append_nil, List.drop_zero]
    exact (putWatch_eq_self hw).symm
  | succ n ih =>
    obtain ⟨e, es, hes⟩ := List.exists_cons_of_length_pos (Nat.lt_of_lt_of_le n.succ_pos hn)
    let w' : Watch := { w with reported := es, pending := w.pending ++ [e] }
    have hstep : m.enqueue kind = m.putWatch kind w' := by
      have hnext : w.enqueue? = some w' := Watch.enqueue?_of_reported hes (by omega)
      simp only [enqueue, hw, Option.bind_some, hnext]
    have hlength : w.reported.length = es.length + 1 := by rw [hes, List.length_cons]
    have hqueued : w'.pending.length = w.pending.length + 1 := List.length_append
    have hrest := ih (m := m.putWatch kind w') (w := w') (watch?_putWatch m kind w')
      (show n ≤ es.length by omega) (by omega)
    rw [List.replicate_succ]
    show (m.enqueue kind).run (List.replicate n (.enqueue kind)) = _
    rw [hstep, hrest, putWatch_putWatch, hes]
    simp [w']

/-- Events that are taken in from the queue, one after the other. -/
theorem run_takeNext {kind : ResourceKind} {w : Watch} (hw : m.watch? kind = some w) (n : Nat) :
    m.run (List.replicate n (.takeNext kind)) =
      (m.takeIn w.kind (w.pending.take n)).putWatch kind
        { w with pending := w.pending.drop n } := by
  induction n generalizing m w with
  | zero => exact (putWatch_eq_self hw).symm
  | succ n ih =>
    let w' : Watch := { w with pending := w.pending.tail }
    let m' : Manager := m.takeIn w.kind (w.pending.take 1)
    have hstep : m.takeNext kind = m'.putWatch kind w' := by
      simp only [takeNext, hw]
      rfl
    have hsplit : m'.takeIn w.kind (w.pending.tail.take n) =
        m.takeIn w.kind (w.pending.take (n + 1)) := by
      have htake : w.pending.take (n + 1) = w.pending.take 1 ++ w.pending.tail.take n := by
        rw [Nat.add_comm, List.take_add, List.drop_one]
      rw [takeIn, takeIn, htake, List.foldl_append]
      rfl
    rw [List.replicate_succ]
    show (m.takeNext kind).run (List.replicate n (.takeNext kind)) = _
    rw [hstep, ih (watch?_putWatch m' kind w'), takeIn_putWatch, putWatch_putWatch]
    show (m'.takeIn w.kind (w.pending.tail.take n)).putWatch kind
      { w with pending := w.pending.tail.drop n } = _
    rw [hsplit, List.drop_tail]

/-- A turn that nothing comes between: the producer puts events into the queue, and the task takes
    events in from there. The task is woken again if any are left. -/
theorem exists_run_eq_runWatch {kind : ResourceKind} {w : Watch} (hw : m.watch? kind = some w)
    (hbegun : w.phase ≠ .starting) (hroom : w.pending.length ≤ eventBuffer) :
    ∃ n k,
      let m' := m.run (List.replicate n (.enqueue kind) ++ List.replicate k (.takeNext kind))
      m.runWatch kind = if w.turned.isIdle then m' else m'.wake (watchTask kind) := by
  refine ⟨w.handover, w.intake, ?_⟩
  let filled : Watch := { w with reported := w.reported.drop w.handover, pending := w.filled }
  have hturned : w.turned = { filled with pending := w.filled.drop w.intake } := by
    rw [Watch.turned, if_neg hbegun]
  have hle : w.handover ≤ w.reported.length := Nat.min_le_left _ _
  have hfits : w.pending.length + w.handover ≤ eventBuffer := by
    unfold Watch.handover
    omega
  have hrun : m.run (List.replicate w.handover (.enqueue kind) ++
        List.replicate w.intake (.takeNext kind)) =
      (m.takeIn w.kind w.due).putWatch kind w.turned := by
    rw [run_append, run_enqueue hw hle hfits]
    show (m.putWatch kind filled).run _ = _
    rw [run_takeNext (watch?_putWatch m kind filled), takeIn_putWatch, putWatch_putWatch, hturned]
    rfl
  rw [hrun]
  simp only [runWatch, hw]

end Manager

end ScrapeDiscovery
