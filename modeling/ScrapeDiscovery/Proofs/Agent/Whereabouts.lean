import ScrapeDiscovery.Proofs.Agent.Values

/-!
# How an agent is told where it runs

The node and the namespace of an agent are told by options, or else by variables of their own.
The text of an option is taken for a value and written again, while a variable of its own is
taken as it is. So whatever else the environment has, both ways lead to the same settings but
for this one, and to this one only if its text is kept as it is.

Results:
* `AgentOptions.given_insert`, `AgentOptions.configured?_insert`: one more option that is given.
* `AgentOptions.ofVariables_insert`: the settings of one way from those of the other.
* `AgentOptions.told_verbatim_iff`: when both ways lead to the same settings.
-/

namespace ScrapeDiscovery

/-! ## Options -/

/-- What tells an agent where it runs. -/
inductive Whereabouts where
  | node
  | ns
  deriving DecidableEq, Repr

namespace Whereabouts

/-- The option. -/
def optionName : Whereabouts → String
  | node => "node_name"
  | ns => "namespace"

/-- The variable of the option. -/
def ofOption : Whereabouts → String
  | node => "DISCOVERY_NODE_NAME"
  | ns => "DISCOVERY_NAMESPACE"

/-- The variable that counts where the option does not tell. -/
def ofAgent : Whereabouts → String
  | node => "NODE_NAME"
  | ns => "POD_NAMESPACE"

/-- What an agent is told. -/
def get : Whereabouts → AgentOptions → String
  | node, o => o.nodeName
  | ns, o => o.ownNamespace

/-- Tells an agent something else. -/
def put : Whereabouts → AgentOptions → String → AgentOptions
  | node, o, s => { o with nodeName := s }
  | ns, o, s => { o with ownNamespace := s }

@[simp] theorem get_put (w : Whereabouts) (o : AgentOptions) (s : String) :
    w.get (w.put o s) = s := by
  cases w <;> rfl

@[simp] theorem put_get (w : Whereabouts) (o : AgentOptions) : w.put o (w.get o) = o := by
  cases w <;> rfl

theorem optionName?_ofOption (w : Whereabouts) :
    AgentOptions.optionName? w.ofOption = some w.optionName := by
  cases w <;> decide +kernel

theorem optionName?_ofAgent (w : Whereabouts) : AgentOptions.optionName? w.ofAgent = none := by
  cases w <;> decide +kernel

end Whereabouts

namespace AgentOptions

variable {w : Whereabouts} {o : AgentOptions} {env : KeyMap String} {v : String}

/-- No variable tells an option. -/
def Untold (w : Whereabouts) (env : KeyMap String) : Prop :=
  ∀ e ∈ env.toList, optionName? e.1 ≠ some w.optionName

instance : Decidable (Untold w env) := inferInstanceAs (Decidable (∀ e ∈ env.toList, _))

/-- What is taken of a variable. -/
def optionOf? (e : String × String) : Option (String × String) :=
  (optionName? e.1).map fun name => (name, e.2)

theorem given_eq (env : KeyMap String) :
    given env = KeyMap.ofList (env.toList.filterMap optionOf?) := rfl

theorem ne_of_mem_options {es : List (String × String)}
    (hes : ∀ e ∈ es, optionName? e.1 ≠ some w.optionName) :
    ∀ e ∈ es.filterMap optionOf?, w.optionName ≠ e.1 := by
  intro e he hname
  obtain ⟨x, hx, he⟩ := List.mem_filterMap.mp he
  obtain ⟨name, hoption, rfl⟩ := Option.map_eq_some_iff.mp he
  refine hes x hx ?_
  rw [hoption, hname]

/-- No option of that name is given. -/
theorem ne_of_mem_given (h : Untold w env) : ∀ e ∈ (given env).toList, w.optionName ≠ e.1 :=
  fun e he => ne_of_mem_options h e (KeyMap.mem_of_mem_ofList he)

/-- One more variable of an option gives one more option. -/
theorem given_insert (h : Untold w env) :
    given (env.insert w.ofOption v) = (given env).insert w.optionName v := by
  have hfresh : ∀ e ∈ env.toList, w.ofOption ≠ e.1 := fun e he hvariable =>
    h e he (hvariable ▸ w.optionName?_ofOption)
  obtain ⟨before, after, hes, hinsert⟩ := KeyMap.exists_insertEntry (v := v) hfresh
  have hentry : optionOf? (w.ofOption, v) = some (w.optionName, v) := by
    rw [optionOf?, w.optionName?_ofOption]
    rfl
  have hafter := ne_of_mem_options fun e he => h e (hes ▸ List.mem_append_right _ he)
  rw [given_eq, given_eq, hes, List.filterMap_append, ← KeyMap.ofList_append_cons hafter]
  change KeyMap.ofList ((KeyMap.insertEntry w.ofOption v env.toList).filterMap optionOf?) = _
  rw [hinsert, List.filterMap_append, List.filterMap_cons_some hentry]

theorem given_insert_ofAgent (w : Whereabouts) (env : KeyMap String) (v : String) :
    given (env.insert w.ofAgent v) = given env := by
  have hnone : ∀ v, optionOf? (w.ofAgent, v) = none := by
    intro v
    rw [optionOf?, w.optionName?_ofAgent]
    rfl
  exact congrArg KeyMap.ofList (KeyMap.filterMap_insertEntry hnone)

/-! ## What the options tell -/

/-- Sets options one after the other. -/
def setAll? (o : AgentOptions) (es : List (String × String)) : Option AgentOptions :=
  es.foldlM (fun o e => o.set? e.1 (.ofText e.2)) o

theorem configured?_eq (env : KeyMap String) : configured? env = setAll? {} (given env).toList :=
  rfl

theorem set?_optionName (w : Whereabouts) (o : AgentOptions) (value : VariableValue) :
    o.set? w.optionName value = some (w.put o value.asText) := by
  cases w <;> rfl

/-- Other options are set beside one that tells where the agent runs, whatever it says. -/
theorem set?_put {name : String} (hname : w.optionName ≠ name) (value : VariableValue)
    (s : String) : (w.put o s).set? name value = (o.set? name value).map (w.put · s) := by
  cases w
  all_goals
    unfold set?
    split
    all_goals first
      | exact absurd rfl hname
      | rfl
      | (rw [Option.map_map]; rfl)

theorem setAll?_put {es : List (String × String)} (hes : ∀ e ∈ es, w.optionName ≠ e.1)
    (s : String) : (w.put o s).setAll? es = (o.setAll? es).map (w.put · s) := by
  induction es generalizing o with
  | nil => rfl
  | cons e es ih =>
    obtain ⟨he, hes⟩ := List.forall_mem_cons.mp hes
    rw [setAll?, setAll?, List.foldlM_cons, List.foldlM_cons, set?_put he]
    cases o.set? e.1 (.ofText e.2) with
    | none => rfl
    | some o' => exact ih hes

theorem setAll?_append (o : AgentOptions) (es es' : List (String × String)) :
    o.setAll? (es ++ es') = (o.setAll? es).bind (·.setAll? es') :=
  List.foldlM_append

/-- One more option that tells where the agent runs, and only that. -/
theorem configured?_insert (h : Untold w env) :
    configured? (env.insert w.ofOption v) =
      (configured? env).map (w.put · (VariableValue.ofText v).asText) := by
  have hname := ne_of_mem_given h
  obtain ⟨before, after, hes, hinsert⟩ := KeyMap.exists_insertEntry (v := v) hname
  have hafter : ∀ e ∈ after, w.optionName ≠ e.1 := fun e he =>
    hname e (hes ▸ List.mem_append_right _ he)
  rw [configured?_eq, configured?_eq, given_insert h, hes]
  change setAll? {} (KeyMap.insertEntry w.optionName v (given env).toList) = _
  rw [hinsert, setAll?_append, setAll?_append]
  cases setAll? {} before with
  | none => rfl
  | some o =>
    calc o.setAll? ((w.optionName, v) :: after)
        = (w.put o (VariableValue.ofText v).asText).setAll? after := by
          rw [setAll?, List.foldlM_cons, set?_optionName]
          rfl
      _ = (o.setAll? after).map (w.put · (VariableValue.ofText v).asText) := setAll?_put hafter _

theorem configured?_insert_ofAgent (w : Whereabouts) (env : KeyMap String) (v : String) :
    configured? (env.insert w.ofAgent v) = configured? env := by
  rw [configured?_eq, configured?_eq, given_insert_ofAgent]

/-- Without such an option nothing is told. -/
theorem get_of_configured? (h : Untold w env) (ho : configured? env = some o) : w.get o = "" := by
  have hput : (configured? env).map (w.put · "") = configured? env := by
    rw [configured?_eq, ← setAll?_put (ne_of_mem_given h) ""]
    cases w <;> rfl
  rw [ho] at hput
  rw [← Option.some.inj hput, Whereabouts.get_put]

/-! ## What is settled -/

theorem isEmpty_of_ne {s : String} (hs : s ≠ "") : s.isEmpty = false :=
  Bool.eq_false_iff.mpr (mt String.isEmpty_iff.mp hs)

theorem orVariable_of_ne {s : String} (hs : s ≠ "") (env : KeyMap String) (name : String) :
    orVariable s env name = s := by
  rw [orVariable, isEmpty_of_ne hs]
  rfl

theorem orVariable_insert_of_ne {name other : String} (hne : name ≠ other) (s : String) :
    orVariable s (env.insert other v) name = orVariable s env name := by
  rw [orVariable, orVariable, KeyMap.get?_insert_of_ne hne]

theorem orVariable_insert_self (env : KeyMap String) (name v : String) :
    orVariable "" (env.insert name v) name = v := by
  rw [orVariable, KeyMap.get?_insert_self]
  rfl

/-- Something else that is told changes nothing else that is settled. -/
theorem settled_put {s : String} (hs : s ≠ "") (ho : w.get o ≠ "") :
    (w.put o s).settled = o.settled.map (w.put · s) := by
  cases w with
  | node =>
    have ho : o.nodeName.isEmpty = false := isEmpty_of_ne ho
    cases hdaemon : o.daemon <;> cases hns : o.ownNamespace.isEmpty <;>
      simp [settled, Whereabouts.put, Except.map, isEmpty_of_ne hs, ho, hdaemon, hns]
  | ns =>
    have ho : o.ownNamespace.isEmpty = false := isEmpty_of_ne ho
    cases hdaemon : o.daemon <;> cases hnode : o.nodeName.isEmpty <;>
      simp [settled, Whereabouts.put, Except.map, isEmpty_of_ne hs, ho, hdaemon, hnode]

theorem get_settled {o' : AgentOptions} (ho : w.get o ≠ "") (h : o.settled = .ok o') :
    w.get o' = w.get o := by
  have hput : o.settled.map (w.put · (w.get o)) = o.settled := by
    rw [← settled_put ho ho, Whereabouts.put_get]
  rw [h] at hput
  rw [← Except.ok.inj hput, Whereabouts.get_put]

/-- A text that is told keeps the agent from looking up the variable. -/
theorem located_put {s : String} (hs : s ≠ "") :
    (w.put o s).located (env.insert w.ofOption v) =
      w.put (o.located (env.insert w.ofAgent v)) s := by
  cases w
  all_goals
    simp only [located, Whereabouts.put, Whereabouts.ofOption, Whereabouts.ofAgent,
      orVariable_of_ne hs]
    rw [orVariable_insert_of_ne (by decide), orVariable_insert_of_ne (by decide)]

theorem get_located (ho : w.get o = "") :
    w.get (o.located (env.insert w.ofAgent v)) = v := by
  cases w with
  | node =>
    have ho : o.nodeName = "" := ho
    simp only [located, Whereabouts.get, Whereabouts.ofAgent, ho, orVariable_insert_self]
  | ns =>
    have ho : o.ownNamespace = "" := ho
    simp only [located, Whereabouts.get, Whereabouts.ofAgent, ho, orVariable_insert_self]

theorem ofVariables_of_configured? {o : AgentOptions} (h : configured? env = some o) :
    ofVariables env = (o.located env).settled := by
  rw [ofVariables, h]

/-- The settings of an agent that is told by an option, from those of one that is told by a
variable of its own. -/
theorem ofVariables_insert (hv : v ≠ "") (h : Untold w env) :
    ofVariables (env.insert w.ofOption v) =
      (ofVariables (env.insert w.ofAgent v)).map
        (w.put · (VariableValue.ofText v).asText) := by
  have hs := VariableValue.asText_ofText_ne_empty hv
  have hagent := configured?_insert_ofAgent w env v
  have hoption := configured?_insert (v := v) h
  cases ho : configured? env with
  | none =>
    rw [ho] at hagent hoption
    rw [ofVariables, ofVariables, hagent, hoption]
    rfl
  | some o =>
    rw [ho] at hagent hoption
    have hget : w.get (o.located (env.insert w.ofAgent v)) ≠ "" :=
      ne_of_eq_of_ne (get_located (get_of_configured? h ho)) hv
    rw [ofVariables_of_configured? hoption, ofVariables_of_configured? hagent, located_put hs,
      settled_put hs hget]

theorem get_of_ofVariables (hv : v ≠ "") (h : Untold w env)
    (ho : ofVariables (env.insert w.ofAgent v) = .ok o) : w.get o = v := by
  have hagent := configured?_insert_ofAgent w env v
  cases hconfigured : configured? env with
  | none =>
    rw [ofVariables, hagent, hconfigured] at ho
    cases ho
  | some o' =>
    have hget : w.get (o'.located (env.insert w.ofAgent v)) = v :=
      get_located (get_of_configured? h hconfigured)
    rw [ofVariables_of_configured? (hagent.trans hconfigured)] at ho
    rw [get_settled (ne_of_eq_of_ne hget hv) ho, hget]

/-- Whatever else the environment has, an agent that is told where it runs by an option has the
settings of one that is told by a variable of its own, but for the text of the option itself.
That text is the same exactly if it is kept when it is taken for a value and written again. -/
theorem told_verbatim_iff (w : Whereabouts) (hv : v ≠ "") (henv : Untold w env)
    (h : ofVariables (env.insert w.ofAgent v) = .ok o) :
    w.get o = v ∧
      ∃ o', ofVariables (env.insert w.ofOption v) = .ok o' ∧
        o' = w.put o (VariableValue.ofText v).asText ∧
        (w.get o' = w.get o ↔ VariableValue.IsKept v) := by
  have hget := get_of_ofVariables hv henv h
  refine ⟨hget, _, ?_, rfl, ?_⟩
  · rw [ofVariables_insert hv henv, h]
    rfl
  · rw [Whereabouts.get_put, hget]
    exact VariableValue.asText_ofText_eq_iff

/-- The namespace of an agent on a known node. -/
theorem told_verbatim_monitoring :
    Untold .ns (.ofList [("NODE_NAME", "node-1")]) ∧
      ofVariables ((KeyMap.ofList [("NODE_NAME", "node-1")]).insert "POD_NAMESPACE"
          "monitoring") = .ok { nodeName := "node-1", ownNamespace := "monitoring" } ∧
      ∃ o, ofVariables ((KeyMap.ofList [("NODE_NAME", "node-1")]).insert "DISCOVERY_NAMESPACE"
          "monitoring") = .ok o ∧
        o.ownNamespace = "monitoring" := by
  have henv : Untold .ns (.ofList [("NODE_NAME", "node-1")]) := by decide +kernel
  have hagent : ofVariables ((KeyMap.ofList [("NODE_NAME", "node-1")]).insert "POD_NAMESPACE"
      "monitoring") = .ok { nodeName := "node-1", ownNamespace := "monitoring" } := by
    decide +kernel
  have hkept : VariableValue.IsKept "monitoring" :=
    VariableValue.asText_ofText_eq_iff.mp (by decide +kernel)
  obtain ⟨hget, o, ho, -, hiff⟩ := told_verbatim_iff .ns (by decide) henv hagent
  exact ⟨henv, hagent, o, ho, (hiff.mpr hkept).trans hget⟩

/-- A namespace whose name is a number is another one when an option tells it. -/
theorem told_otherwise_digits :
    (ofVariables (.ofList [("NODE_NAME", "node-1"), ("POD_NAMESPACE", "007")])).map
        (·.ownNamespace) = .ok "007" ∧
      (ofVariables (.ofList [("NODE_NAME", "node-1"), ("DISCOVERY_NAMESPACE", "007")])).map
        (·.ownNamespace) = .ok "7" := by
  decide +kernel

end AgentOptions

end ScrapeDiscovery
