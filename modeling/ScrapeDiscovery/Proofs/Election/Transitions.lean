import Mathlib.Data.List.Chain
import Mathlib.Data.List.Induction
import Mathlib.Data.List.TakeWhile
import ScrapeDiscovery.Leadership

/-!
# Transitions of leadership

Where a leader is elected, leadership has four faces: the flag and the name of the leader that
are asked for, the values that are published, and a measure. They are written at different
places, by an elector that says who leads and by a failure. Whatever is called and in which
order, they agree after each call, and a value is published exactly if the flag has changed.
The first failure is the last call that counts.

Results:
* `call_of_failed`: after a failure nothing changes.
* `consistent_run`: what is known of leadership after calls, by induction on them.
* `transitions_run`: the four faces after any calls.
-/

namespace ScrapeDiscovery

namespace Leadership

/-! ## Calls -/

/-- What is called, by an elector or where it ends. -/
inductive Call where
  /-- Records who leads. -/
  | lead (leading : Bool) (leader : String)
  /-- Gives up leading for good. -/
  | fail
  deriving DecidableEq, Repr

/-- Lets one call happen. -/
def call (l : Leadership) : Call → Leadership
  | .lead leading leader => l.lead leading leader
  | .fail => l.fail

/-- Lets calls happen one after the other. -/
def run (l : Leadership) (calls : List Call) : Leadership := calls.foldl call l

/-- The leader that a call records. -/
def Call.leader? : Call → Option String
  | .lead _ leader => some leader
  | .fail => none

/-- The leader that was recorded last before the first failure, empty if none was. -/
def lastLeader (calls : List Call) : String :=
  ((calls.takeWhile (· ≠ .fail)).filterMap Call.leader?).getLast?.getD ""

theorem run_concat (l : Leadership) (calls : List Call) (c : Call) :
    l.run (calls ++ [c]) = (l.run calls).call c := by
  rw [run, List.foldl_append]
  rfl

theorem lastLeader_concat (calls : List Call) (c : Call) :
    lastLeader (calls ++ [c]) =
      if .fail ∈ calls then lastLeader calls else c.leader?.getD (lastLeader calls) := by
  by_cases hfail : .fail ∈ calls
  · -- what comes after a failure is not looked at
    obtain ⟨before, after, rfl⟩ := List.append_of_mem hfail
    simp [lastLeader, List.takeWhile_append]
  · have hbefore : ∀ d ∈ calls, decide (d ≠ .fail) = true := fun d hd =>
      decide_eq_true fun heq => hfail (heq ▸ hd)
    have hall : calls.takeWhile (· ≠ .fail) = calls := List.takeWhile_eq_self_iff.mpr hbefore
    rw [if_neg hfail, lastLeader, lastLeader, List.takeWhile_append_of_pos hbefore, hall,
      List.filterMap_append, List.getLast?_append]
    cases c <;> simp [Call.leader?]

/-! ## Calls after a failure -/

theorem call_of_failed {l : Leadership} (h : l.failed = true) (c : Call) : l.call c = l := by
  cases c with
  | lead leading leader => exact lead_of_failed h leading leader
  | fail => exact if_pos h

theorem run_of_failed {l : Leadership} (h : l.failed = true) (calls : List Call) :
    l.run calls = l := by
  induction calls with
  | nil => rfl
  | cons c calls ih => rw [run, List.foldl_cons, call_of_failed h]; exact ih

/-! ## One call -/

/-- Whether an agent leads after a call. -/
def Call.leading : Call → Bool
  | .lead leading _ => leading
  | .fail => false

/-- What a call makes of leadership where a leader is elected and no election has failed. -/
structure Call.Effect (c : Call) (l l' : Leadership) : Prop where
  daemon : l'.daemon = true
  failed_iff : l'.failed = true ↔ c = .fail
  elected : l'.elected = c.leading
  leader : l'.leader = c.leader?.getD l.leader
  published : l'.published =
    if c.leading = l.elected then l.published else l.published ++ [c.leading]
  /-- The measure is left alone only where the flag does not change. -/
  gauge : l'.gauge = c.leading ∨ c.leading = l.elected ∧ l'.gauge = l.gauge
  errors : l'.electionErrors = if c = .fail then l.electionErrors + 1 else l.electionErrors

variable {l : Leadership}

theorem leading_eq_elected (hd : l.daemon = true) : l.leading = l.elected := by
  rw [leading, hd, Bool.not_true, Bool.false_or]

theorem effect_call (hd : l.daemon = true) (hf : l.failed = false) (c : Call) :
    c.Effect l (l.call c) := by
  cases c with
  | lead leading leader =>
    have hcount : ¬(l.failed || !l.daemon) = true := by simp [hf, hd]
    rw [call, lead, if_neg hcount]
    dsimp only
    split
    · next hsame =>
      exact ⟨hd, by simp [hf], rfl, rfl, (if_pos hsame.symm).symm, Or.inr ⟨hsame.symm, rfl⟩, rfl⟩
    · next hother =>
      exact ⟨hd, by simp [publish, measure, hf], rfl, rfl, (if_neg (Ne.symm hother)).symm,
        Or.inl rfl, rfl⟩
  | fail =>
    rw [call, fail, hf, if_neg Bool.false_ne_true]
    dsimp only
    split
    · next hled =>
      exact ⟨hd, by simp [publish], rfl, rfl, (if_neg (by simp [Call.leading, hled])).symm,
        Or.inl rfl, rfl⟩
    · next hfollowed =>
      exact ⟨hd, by simp, rfl, rfl, (if_pos (Bool.eq_false_iff.mpr hfollowed).symm).symm,
        Or.inl rfl, rfl⟩

/-! ## All calls -/

/-- What is known of leadership after calls. -/
structure Consistent (l : Leadership) (calls : List Call) : Prop where
  daemon : l.daemon = true
  failed_iff : l.failed = true ↔ .fail ∈ calls
  elected_of_failed : l.failed = true → l.elected = false
  visible : l.visible = l.elected
  gauge : l.gauge = l.elected
  alternates : (false :: l.published).IsChain (· ≠ ·)
  leader : l.leader = lastLeader calls
  errors : l.electionErrors = if .fail ∈ calls then 1 else 0

theorem consistent_start : (start true).Consistent [] where
  daemon := rfl
  failed_iff := by simp [start]
  elected_of_failed _ := rfl
  visible := rfl
  gauge := rfl
  alternates := .singleton false
  leader := rfl
  errors := rfl

/-- Publishing another value than the one that subscribers see. -/
theorem isChain_concat (hd : l.daemon = true) (h : (false :: l.published).IsChain (· ≠ ·))
    {value : Bool} (hvalue : value ≠ l.visible) :
    (false :: (l.published ++ [value])).IsChain (· ≠ ·) := by
  rw [← List.cons_append, List.isChain_append]
  refine ⟨h, .singleton value, fun seen hseen next hnext => ?_⟩
  have hvisible : l.visible = seen := by
    rw [List.getLast?_cons, Option.mem_some_iff] at hseen
    rw [visible, hd, ← hseen, Bool.not_true]
  rw [List.head?_cons, Option.mem_some_iff] at hnext
  rw [← hnext, ← hvisible]
  exact hvalue.symm

theorem Consistent.call {calls : List Call} (h : l.Consistent calls) (c : Call) :
    (l.call c).Consistent (calls ++ [c]) := by
  by_cases hfailed : l.failed = true
  · have hfail := h.failed_iff.mp hfailed
    rw [call_of_failed hfailed]
    refine ⟨h.daemon, ?_, h.elected_of_failed, h.visible, h.gauge, h.alternates, ?_, ?_⟩
    · simp [hfailed, hfail]
    · rw [lastLeader_concat, if_pos hfail, h.leader]
    · rw [h.errors, if_pos hfail, if_pos (List.mem_append_left _ hfail)]
  · have hfail := mt h.failed_iff.mpr hfailed
    have e := effect_call h.daemon (Bool.eq_false_iff.mpr hfailed) c
    refine ⟨e.daemon, ?_, fun hlast => ?_, ?_, ?_, ?_, ?_, ?_⟩
    · simp [e.failed_iff, hfail, eq_comm]
    · rw [e.elected, e.failed_iff.mp hlast]
      rfl
    · rw [Leadership.visible, e.published, e.daemon, e.elected]
      split
      · next hsame => rw [hsame, ← h.visible, Leadership.visible, h.daemon]
      · rw [List.getLast?_concat, Option.getD_some]
    · rw [e.elected]
      rcases e.gauge with hgauge | ⟨hsame, hgauge⟩
      · exact hgauge
      · rw [hgauge, h.gauge, hsame]
    · rw [e.published]
      split
      · exact h.alternates
      · next hother => exact isChain_concat h.daemon h.alternates (h.visible ▸ hother)
    · rw [e.leader, lastLeader_concat, if_neg hfail, h.leader]
    · rw [e.errors, h.errors, if_neg hfail]
      simp [hfail, eq_comm]

theorem consistent_run (calls : List Call) : ((start true).run calls).Consistent calls := by
  induction calls using List.reverseRecOn with
  | nil => exact consistent_start
  | append_singleton calls c ih =>
    rw [run_concat]
    exact ih.call c

/-- Whatever was called since an agent started that has to be elected: subscribers see and the
    measure says whether the agent leads, no published value follows itself, and the next call
    publishes a value exactly if it changes whether the agent leads. The leader is the one that
    was recorded last before the first failure. That is counted, and no other one. Once an
    election has failed the agent does not lead, and nothing changes that is ever called. -/
theorem transitions_run (calls : List Call) :
    let l := (start true).run calls
    l.visible = l.leading ∧ l.gauge = l.leading ∧
      (false :: l.published).IsChain (· ≠ ·) ∧
      (∀ c, (l.call c).published =
        if (l.call c).leading = l.leading then l.published
        else l.published ++ [(l.call c).leading]) ∧
      l.leader = lastLeader calls ∧
      l.electionErrors = (if .fail ∈ calls then 1 else 0) ∧
      ∀ after, (l.call .fail).run after = l.call .fail ∧ (l.call .fail).leading = false ∧
        (l.call .fail).failed = true ∧ (l.call .fail).electionErrors = 1 := by
  intro l
  have h : l.Consistent calls := consistent_run calls
  have hleading := leading_eq_elected h.daemon
  refine ⟨hleading ▸ h.visible, hleading ▸ h.gauge, h.alternates, fun c => ?_, h.leader, h.errors,
    fun after => ?_⟩
  · have hafter := leading_eq_elected (h.call c).daemon
    rw [hafter, hleading]
    by_cases hfailed : l.failed = true
    · rw [call_of_failed hfailed, if_pos rfl]
    · have e := effect_call h.daemon (Bool.eq_false_iff.mpr hfailed) c
      rw [e.published, e.elected]
  · have h' := h.call .fail
    have hfail : Call.fail ∈ calls ++ [.fail] := List.mem_append_right _ (List.mem_singleton_self _)
    have hfailed := h'.failed_iff.mpr hfail
    refine ⟨run_of_failed hfailed after, ?_, hfailed, h'.errors.trans (if_pos hfail)⟩
    rw [leading_eq_elected h'.daemon, h'.elected_of_failed hfailed]

end Leadership

end ScrapeDiscovery
