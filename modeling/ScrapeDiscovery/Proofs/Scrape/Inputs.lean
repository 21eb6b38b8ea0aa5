import ScrapeDiscovery.Proofs.Scrape.Encoding
import ScrapeDiscovery.Proofs.Text.Gaps

/-!
# The plugin of an input

The plugin type of an input is `telegraf/` with the name of a plugin behind it. Its encoder gets
the name by taking `telegraf/` away wherever it stands in the type, and not just at the
beginning. So the name is what stands behind the first `telegraf/` as long as there is no
second one. A type with a second one names the plugin of a shorter type, and a type in which
there is nothing else names none.

Results:
* `Family.ofPluginType_eq_telegraf_iff`: which plugin types are those of inputs.
* `Encoder.telegrafPlugin_append`: a first `telegraf/` is not told from a second one.
* `Encoder.plugins_of_encode`: the plugins of every input.
* `Encoder.exists_plugins_ne`: two types with one plugin, and a type with none.
-/

namespace ScrapeDiscovery

/-- The plugin types of inputs are `telegraf/` with some name behind it. -/
theorem Family.ofPluginType_eq_telegraf_iff {pluginType : String} :
    ofPluginType pluginType = .ok .telegraf ↔ ∃ p, p ≠ "" ∧ pluginType = telegrafPrefix ++ p := by
  constructor
  · intro h
    unfold ofPluginType at h
    split_ifs at h with hprometheus htelegraf
    · cases h
    obtain ⟨hbegin, hlength⟩ := Bool.and_eq_true_iff.mp htelegraf
    obtain ⟨rest, hrest⟩ := List.isPrefixOf_iff_prefix.mp hbegin
    have htype : pluginType = telegrafPrefix ++ String.ofList rest := by
      rw [← String.toList_inj, String.toList_append, String.toList_ofList, hrest]
    refine ⟨String.ofList rest, fun hempty => ?_, htype⟩
    rw [htype, hempty, String.append_empty] at hlength
    exact absurd (of_decide_eq_true hlength) (Nat.lt_irrefl _)
  · rintro ⟨p, hp, rfl⟩
    have hne : telegrafPrefix ++ p ≠ "prometheus" := by
      -- the first letters differ
      intro h
      have hhead := congrArg (fun s : String => s.toList.head?) h
      simp [telegrafPrefix] at hhead
    have hbegin : telegrafPrefix.toList.isPrefixOf (telegrafPrefix ++ p).toList = true := by
      rw [List.isPrefixOf_iff_prefix, String.toList_append]
      exact List.prefix_append _ _
    have hlength : telegrafPrefix.length < (telegrafPrefix ++ p).length := by
      rw [String.length_append]
      have : p.length ≠ 0 := fun h => hp (String.length_eq_zero_iff.mp h)
      omega
    rw [ofPluginType, if_neg hne, if_pos]
    exact Bool.and_eq_true_iff.mpr ⟨hbegin, decide_eq_true hlength⟩

namespace Encoder

theorem toList_telegrafPlugin (pluginType : String) :
    (telegrafPlugin pluginType).toList =
      Text.replaceEach telegrafPrefix.toList [] pluginType.toList := by
  rw [telegrafPlugin, Text.replaceText, String.toList_ofList, Text.replaceAll_eq (by decide)]
  rfl

/-- What the plugin type of an input begins with bears on the plugin no more than it would if it
    were not there. -/
theorem telegrafPlugin_append (p : String) :
    telegrafPlugin (telegrafPrefix ++ p) = telegrafPlugin p := by
  rw [← String.toList_inj, toList_telegrafPlugin, toList_telegrafPlugin, String.toList_append,
    Text.replaceEach_append (by decide), List.nil_append]

theorem telegrafPlugin_eq_self_iff {p : String} :
    telegrafPlugin p = p ↔ ¬telegrafPrefix.toList <:+: p.toList := by
  rw [← String.toList_inj, toList_telegrafPlugin, Text.replaceEach_eq_self_iff (by decide)]

theorem telegrafPlugin_eq_empty_iff {p : String} :
    telegrafPlugin p = "" ↔ ∃ n, p.toList = (List.replicate n telegrafPrefix.toList).flatten := by
  rw [← String.toList_eq_nil_iff, toList_telegrafPlugin,
    Text.replaceEach_nil_eq_nil_iff (by decide)]

/-- Let a rule with the plugin type of an input be encoded. The type is `telegraf/` with some name
    behind it, and the configuration lists one plugin. That is the plugin of this name exactly if
    the name does not have `telegraf/` in it, since all of these are taken away, and it has an
    empty name exactly if the name is made of nothing else. -/
theorem plugins_of_encode (defaults : TelegrafDefaults) (ip : String) (kind : ResourceKind)
    (object : ObjectMeta) {rule : Rule} {config : ScrapeConfig}
    (htype : Family.ofPluginType rule.pluginType = .ok .telegraf)
    (h : (telegraf defaults).encode ip kind object (some rule) = .ok (some config)) :
    ∃ p c, p ≠ "" ∧ rule.pluginType = telegrafPrefix ++ p ∧ config = .telegraf c ∧
      c.plugins = [telegrafPlugin p] ∧
      (c.plugins = [p] ↔ ¬telegrafPrefix.toList <:+: p.toList) ∧
      (c.plugins = [""] ↔
        ∃ n, p.toList = (List.replicate n telegrafPrefix.toList).flatten) := by
  obtain ⟨p, hp, htype⟩ := Family.ofPluginType_eq_telegraf_iff.mp htype
  obtain ⟨r, c, hr, hc, -, hplugins, -⟩ := encodeTelegraf_eq_some (Except.ok.inj h)
  obtain rfl := Option.some.inj hr
  rw [htype, telegrafPlugin_append] at hplugins
  refine ⟨p, c, hp, htype, hc, hplugins, ?_, ?_⟩
  · rw [hplugins, List.singleton_inj, telegrafPlugin_eq_self_iff]
  · rw [hplugins, List.singleton_inj, telegrafPlugin_eq_empty_iff]

/-- The plugin type of inputs for nginx names the plugin nginx. -/
theorem plugins_of_nginx :
    let rule : Rule := { name := "r", pluginType := "telegraf/nginx" }
    Family.ofPluginType rule.pluginType = .ok .telegraf ∧
      ∃ c, (telegraf .generic).encode "10.0.0.7" .pod { name := "x" } (some rule) =
        .ok (some (.telegraf c)) ∧ c.plugins = ["nginx"] := by
  intro rule
  have htype : Family.ofPluginType rule.pluginType = .ok .telegraf := by decide +kernel
  refine ⟨htype, _, rfl, ?_⟩
  obtain ⟨p, c, -, hsplit, hc, -, hplugins, -⟩ :=
    plugins_of_encode .generic "10.0.0.7" .pod { name := "x" } htype rfl
  obtain rfl : "nginx" = p := (String.append_right_inj telegrafPrefix).mp hsplit
  obtain rfl := ScrapeConfig.telegraf.inj hc
  exact hplugins.mpr (by decide)

/-- The plugin type with `telegraf/` twice before redis is that of an input and names the plugin
    redis, as the type with `telegraf/` once does. The one with nothing behind both is that of an
    input too, and the plugin that it names has an empty name. -/
theorem exists_plugins_ne :
    (∀ pluginType ∈ ["telegraf/redis", "telegraf/telegraf/redis", "telegraf/telegraf/"],
        Family.ofPluginType pluginType = .ok .telegraf) ∧
      (∃ c, (telegraf .generic).encode "10.0.0.7" .pod { name := "x" }
          (some { name := "r", pluginType := "telegraf/telegraf/redis" }) =
            .ok (some (.telegraf c)) ∧ c.plugins = ["redis"] ∧ c.plugins ≠ ["telegraf/redis"]) ∧
      (∃ c, (telegraf .redis).encode "10.0.0.7" .pod { name := "x" }
          (some { name := "r", pluginType := "telegraf/redis" }) =
            .ok (some (.telegraf c)) ∧ c.plugins = ["redis"]) ∧
      ∃ c, (telegraf .generic).encode "10.0.0.7" .pod { name := "x" }
          (some { name := "r", pluginType := "telegraf/telegraf/" }) =
            .ok (some (.telegraf c)) ∧ c.plugins = [""] ∧ c.plugins ≠ ["telegraf/"] := by
  exact ⟨by decide +kernel, ⟨_, rfl, by decide +kernel, by decide +kernel⟩,
    ⟨_, rfl, by decide +kernel⟩, ⟨_, rfl, by decide +kernel, by decide +kernel⟩⟩

end Encoder

end ScrapeDiscovery
