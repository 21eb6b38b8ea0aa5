import ScrapeDiscovery.Proofs.Settings.History
import ScrapeDiscovery.Proofs.OnlySince

/-!
# What is told to be a change of the settings in effect

Whoever asks for the settings in effect is told whether they have changed. That is worked out
only if something was written since the last time: what is combined then is compared with what
was answered before, as a whole. What is combined has no blocks of the earlier format, which
count for nothing. The settings that a handler starts with may have them, and until something
is written they are answered as they are. So a change is told where the rules or the five other
settings differ, and once more when such blocks are left out for the first time.

Results:
* `Settings.eq_iff_agrees_isPlain`: when settings are the same as others without such blocks.
* `told_run`: what is known of the last answer after a history, by induction on it.
* `changed_iff`: when a change is told.
* `exists_changed_of_agrees`: a change is told and nothing that counts is different.
-/

namespace ScrapeDiscovery

namespace Settings

/-- Whether settings have no blocks of the earlier format. -/
def IsPlain (s : Settings) : Prop := s.ignoredInterval = none ∧ s.legacyRules = []

theorem isPlain_combine (wired : Settings) (runtime : KeyMap (List Rule)) :
    (wired.combine runtime).IsPlain := ⟨rfl, rfl⟩

theorem eq_iff_agrees_isPlain {s t : Settings} (ht : t.IsPlain) :
    s = t ↔ s.Agrees t ∧ s.IsPlain := by
  constructor
  · rintro rfl
    exact ⟨.refl s, ht⟩
  · rintro ⟨hagrees, hs⟩
    cases s
    cases t
    obtain ⟨hrules, hinterval, hprefix, hexcludes, hruntime, hdisabled⟩ := hagrees
    obtain ⟨hignored, hlegacy⟩ := hs
    obtain ⟨hignored', hlegacy'⟩ := ht
    simp_all only

end Settings

namespace LiveSettings

/-! ## What was answered -/

/-- The settings that are answered along a history. -/
def answers (l : LiveSettings) : List Operation → List Settings
  | [] => []
  | op :: ops => (if op = .current then [l.current.1.1] else []) ++ (l.step op).answers ops

/-- The settings that were answered last, or else those at the start. -/
def lastAnswer (wired : Settings) (ops : List Operation) : Settings :=
  ((start wired).answers ops).getLast?.getD wired

theorem answers_append (l : LiveSettings) (ops ops' : List Operation) :
    l.answers (ops ++ ops') = l.answers ops ++ (l.run ops).answers ops' := by
  induction ops generalizing l with
  | nil => rfl
  | cons op ops ih => rw [List.cons_append, answers, ih, answers, List.append_assoc]; rfl

theorem lastAnswer_concat (wired : Settings) (ops : List Operation) (op : Operation) :
    lastAnswer wired (ops ++ [op]) =
      if op = .current then ((start wired).run ops).current.1.1 else lastAnswer wired ops := by
  rw [lastAnswer, answers_append, answers, answers, List.append_nil]
  split
  · rw [List.getLast?_concat, Option.getD_some]
  · rw [List.append_nil, lastAnswer]

/-! ## What was written since -/

/-- Whether an operation writes something, after what has happened before. -/
def Operation.writes (before : List Operation) : Operation → Bool
  | .setWired _ => true
  | .update s => s.isSource || (LiveSettings.contributor? before s.name).isSome
  | .delete name => (LiveSettings.contributor? before name).isSome
  | .current => false

/-- Whether nobody has asked since something was written. -/
def Unasked (ops : List Operation) : Prop :=
  OnlySince (fun before op => op.writes before = true) (· ≠ .current) ops

theorem dirty_delete (l : LiveSettings) (name : String) :
    (l.delete name).dirty = (l.runtime.contains name || l.dirty) := by
  unfold delete
  split
  · next hknown => rw [hknown, Bool.true_or]; rfl
  · next hmissing => rw [Bool.eq_false_iff.mpr hmissing, Bool.false_or]

theorem dirty_update (l : LiveSettings) (s : RuleSource) :
    (l.update s).dirty = (s.isSource || l.runtime.contains s.name || l.dirty) := by
  unfold update
  split
  · next hmarked => rw [hmarked, Bool.true_or, Bool.true_or]; rfl
  · next hunmarked => rw [Bool.eq_false_iff.mpr hunmarked, Bool.false_or, dirty_delete]

theorem Reflects.contains {l : LiveSettings} {wired : Settings} {ops : List Operation}
    (h : l.Reflects wired ops) (name : String) :
    l.runtime.contains name = (contributor? ops name).isSome := by
  rw [KeyMap.contains, h.source, Option.isSome_map]

theorem Reflects.dirty_step {l : LiveSettings} {wired : Settings} {ops : List Operation}
    (h : l.Reflects wired ops) {op : Operation} (hop : op ≠ .current) :
    (l.step op).dirty = (op.writes ops || l.dirty) := by
  cases op with
  | setWired new => rfl
  | update s => rw [LiveSettings.step, dirty_update, h.contains]; rfl
  | delete name => rw [LiveSettings.step, dirty_delete, h.contains]; rfl
  | current => exact absurd rfl hop

theorem combined_step (l : LiveSettings) {op : Operation} (hop : op ≠ .current) :
    (l.step op).combined = l.combined := by
  have hdelete : ∀ name, (l.delete name).combined = l.combined := fun name => by
    unfold delete
    split <;> rfl
  cases op with
  | setWired new => rfl
  | update s =>
    rw [step, update]
    split
    · rfl
    · exact hdelete s.name
  | delete name => exact hdelete name
  | current => exact absurd rfl hop

/-! ## The last answer -/

/-- What is known of the last answer after a history. -/
structure Told (l : LiveSettings) (wired : Settings) (ops : List Operation) : Prop where
  reflects : l.Reflects wired ops
  combined_eq : l.combined = lastAnswer wired ops
  dirty_iff : l.dirty = true ↔ Unasked ops
  isPlain_or_eq : l.combined.IsPlain ∨ l.combined = wired

theorem isPlain_current_or_eq (l : LiveSettings) :
    l.current.1.1.IsPlain ∨ l.current.1.1 = l.combined := by
  unfold current
  split
  · exact Or.inl (Settings.isPlain_combine ..)
  · exact Or.inr rfl

theorem told_step {wired : Settings} {ops : List Operation}
    (h : ((start wired).run ops).Told wired ops) (op : Operation) :
    (((start wired).run ops).step op).Told wired (ops ++ [op]) := by
  refine ⟨h.reflects.step op, ?_, ?_, ?_⟩
  · rw [lastAnswer_concat]
    split
    · next hop => rw [hop]; exact combined_current _
    · next hop => rw [combined_step _ hop, h.combined_eq]
  · rw [Unasked, onlySince_concat]
    by_cases hop : op = .current
    · subst hop
      have hclean : (((start wired).run ops).step .current).dirty = false := dirty_current _
      simp [hclean, Operation.writes]
    · rw [h.reflects.dirty_step hop, Bool.or_eq_true, h.dirty_iff, Unasked]
      simp only [hop, ne_eq, not_false_eq_true, true_and]
  · by_cases hop : op = .current
    · subst hop
      have hcombined : (((start wired).run ops).step .current).combined =
          ((start wired).run ops).current.1.1 := combined_current _
      rw [hcombined]
      rcases isPlain_current_or_eq ((start wired).run ops) with hplain | heq
      · exact Or.inl hplain
      · rw [heq]
        exact h.isPlain_or_eq
    · rw [combined_step _ hop]
      exact h.isPlain_or_eq

theorem told_run (wired : Settings) (ops : List Operation) :
    ((start wired).run ops).Told wired ops := by
  induction ops using List.reverseRecOn with
  | nil =>
    have hasked : ¬Unasked [] := not_onlySince_nil
    exact ⟨reflects_run wired [], rfl, iff_of_false Bool.false_ne_true hasked, Or.inr rfl⟩
  | append_singleton ops op ih =>
    rw [run, List.foldl_append]
    exact told_step ih op

theorem changed_current_iff (l : LiveSettings) :
    l.current.1.2 = true ↔
      l.dirty = true ∧ ¬(l.combined.Agrees l.current.1.1 ∧ l.combined.IsPlain) := by
  unfold current
  split
  · next hdirty =>
    rw [← Settings.eq_iff_agrees_isPlain (Settings.isPlain_combine ..)]
    exact decide_eq_true_iff.trans ⟨fun hne => ⟨hdirty, hne.symm⟩, fun h => Ne.symm h.2⟩
  · next hclean => simp [hclean]

theorem agrees_current_of_clean {l : LiveSettings} (hclean : ¬l.dirty = true) :
    l.combined.Agrees l.current.1.1 := by
  rw [current, if_neg hclean]
  exact .refl _

/-- After any history, whoever asks is told of a change exactly if the rules or one of the five
    other settings differ from those answered last, or from those at the start if nobody has
    asked, or if something was written since and the last answer had blocks of the earlier
    format. Only the settings at the start have such blocks. -/
theorem changed_iff (wired : Settings) (ops : List Operation) :
    let answer := ((start wired).run ops).current.1
    let last := lastAnswer wired ops
    (answer.2 = true ↔ ¬last.Agrees answer.1 ∨ ¬last.IsPlain ∧ Unasked ops) ∧
      (last.IsPlain ∨ last = wired) := by
  intro answer last
  obtain ⟨-, hlast, hdirty, hplain⟩ := told_run wired ops
  have hclean := agrees_current_of_clean (l := (start wired).run ops)
  have hchanged := changed_current_iff ((start wired).run ops)
  rw [hdirty] at hclean hchanged
  rw [hlast] at hplain hclean hchanged
  refine ⟨hchanged.trans ?_, hplain⟩
  constructor
  · rintro ⟨hunasked, hdiffers⟩
    exact (not_and_or.mp hdiffers).imp_right fun hblocks => ⟨hblocks, hunasked⟩
  · rintro (hdiffers | ⟨hblocks, hunasked⟩)
    · exact ⟨not_imp_comm.mp hclean hdiffers, fun h => hdiffers h.1⟩
    · exact ⟨hunasked, fun h => hblocks h.2⟩

/-- A handler starts with a block that is ignored, and a source without rules is taken up. The
    settings in effect are those at the start, but a change is told. -/
theorem exists_changed_of_agrees :
    let wired : Settings := { ignoredInterval := some Duration.fiveMinutes }
    let ops : List Operation := [.update (RuleSource.annotated { name := "s" })]
    let answer := ((start wired).run ops).current.1
    answer.2 = true ∧ (lastAnswer wired ops).Agrees answer.1 ∧ .current ∉ ops :=
  ⟨rfl, ⟨rfl, rfl, rfl, rfl, rfl, rfl⟩, by decide⟩

end LiveSettings

end ScrapeDiscovery
