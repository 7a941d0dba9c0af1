import ContentRules.Builtin.Definitions
import ContentRules.Proofs.Builtin.Triggers
import ContentRules.Proofs.Engine.Keeps

/-!
# What the built-in handlers do

The built-in behaviours and executors queue rules, defer the copying of rules, and edit the nodes
without removing anything (`Builtin.Does`).  They call on no routine and turn no switch.  This is so
for every directory: a rule type can only name a handler that is registered.

Only one of them defers the copying of rules, and only for the nodes that it was told of
(`RuleService.CopiesAlone`).
-/

namespace ContentRules

/-- The behaviour that copies rules with a node. -/
def Actionable.copyBehaviour : Behaviour where
  kind := .nodeCopied
  react := copyRulesWithNode

namespace Builtin

/-- What built-in handlers do. -/
def Does : Act → Prop
  | .edit change =>
    match change with
    | .createNode .. | .moveNode .. | .copyNode .. | .addAspect .. | .removeAspect ..
    | .setProperties .. | .createAssociation .. => True
    | .createStore .. | .deleteNode .. | .removeProperty .. | .removeAssociation .. => False
  | .enqueue _ | .deferCopy .. => True
  | .deliver | .runPending | .turn _ | .note _ => False

/-- The edits among what they do. -/
def Edits : Act → Prop
  | .edit change => Does (.edit change)
  | _ => False

/-- What they do, and rules are deferred for these nodes only. -/
def DoesFor (wanted : NodeRef × NodeRef → Prop) (act : Act) : Prop :=
  Does act ∧ act.DefersOnly wanted

open Script

/-! ## Behaviours -/

variable {wanted : NodeRef × NodeRef → Prop}

theorem doesFor_of_edits {act : Act} (hedits : Edits act) : DoesFor wanted act := by
  cases act with
  | edit change => exact ⟨hedits, trivial⟩
  | enqueue | deliver | runPending | turn | deferCopy | note => cases hedits

theorem edits_makeActionable (node : NodeRef) :
    (Actionable.makeActionable node).Uses Edits := by
  have hsystem (root : NodeRef) : (Actionable.systemFolder root).Uses Edits := by
    unfold Actionable.systemFolder
    refine Uses.bind (fun _ => trivial) fun nodes => Uses.bind (uses_ofExcept _) fun children => ?_
    split
    · trivial
    · exact Uses.bind (uses_apply trivial) fun _ => trivial
  unfold Actionable.makeActionable
  refine Uses.bind (fun _ => trivial) fun nodes => Uses.bind (uses_ofExcept _) fun folder? => ?_
  cases folder? with
  | some folder => trivial
  | none =>
      refine Uses.bind (uses_ofExcept _) fun root => (hsystem root).bind fun system =>
        Uses.bind (uses_apply trivial) fun assoc => Uses.bind (uses_apply trivial) fun _ => ?_
      exact (Uses.discard (uses_apply trivial)).bind fun _ => trivial

/-- Rules are deferred for the nodes that the event tells of, and the rest are edits. -/
theorem uses_copyRulesWithNode_of {allowed : Act → Prop} {event : NodeEvent}
    (hedits : ∀ act, Edits act → allowed act)
    (hdefers : ∀ source copy, event.Copies (source, copy) → allowed (.deferCopy source copy)) :
    (Actionable.copyRulesWithNode event).Uses allowed := by
  cases event with
  | copied source copy =>
      refine Uses.bind (fun _ => trivial) fun view => ?_
      split
      · exact ((edits_makeActionable _).mono hedits).discard.bind fun _ =>
          ⟨hdefers source copy.child ⟨copy, rfl, rfl⟩, trivial⟩
      · trivial
  | created | deleted | moved | propertiesUpdated | aspectAdded | aspectRemoved
    | associationCreated | associationRemoved => trivial

theorem uses_copyRulesWithNode (event : NodeEvent) :
    (Actionable.copyRulesWithNode event).Uses (DoesFor event.Copies) :=
  uses_copyRulesWithNode_of (fun _ => doesFor_of_edits) fun _ _ hcopies => ⟨trivial, hcopies⟩

theorem uses_react (trigger : Triggers.Trigger) (ruleType : String) (event : NodeEvent) :
    (Triggers.react trigger ruleType event).Uses (DoesFor wanted) := by
  unfold Triggers.react
  refine Uses.bind (fun _ => trivial) fun view => ?_
  split
  · trivial
  · split
    · generalize view.rules.getByType _ _ _ = list
      induction list with
      | nil => trivial
      | cons rule list ih =>
          refine Uses.bind (Uses.discard ?_) fun _ => ih
          exact ⟨⟨trivial, trivial⟩, fun _ => trivial⟩
    · trivial

/-! ## Executors -/

theorem uses_nameOf {allowed : Act → Prop} (node : NodeRef) :
    (Actions.nameOf node).Uses allowed := by
  unfold Actions.nameOf
  refine Uses.bind (fun _ => trivial) fun nodes => Uses.bind (uses_ofExcept _) fun place? => ?_
  cases place? <;> trivial

open Actions in
theorem registered_of_getElem?_executors {name : String} {make : Action → Except Error Executor}
    (hfound : handlers.executors[name]? = some make) :
    make ∈ [makeAddFeatures, makeRemoveFeatures, makeSetPropertyValue, makeCopy, makeMove] := by
  have hregistered : handlers.executors = (Actions.register .empty).executors := rfl
  rw [hregistered, Actions.register] at hfound
  simp only [HandlerRegistry.executors_addExecutor] at hfound
  split_ifs at hfound
  all_goals simp_all [HandlerRegistry.empty]

/-- Each executor does one edit of the node acted upon. -/
theorem edits_executor {action : Action} {executor : Executor}
    (hmade : handlers.executor action = .ok executor) (actionable actionedUpon : NodeRef) :
    (executor actionable actionedUpon).Uses Edits := by
  obtain ⟨make, hfound, hmake⟩ := HandlerRegistry.exists_make_of_executor hmade
  have hregistered := registered_of_getElem?_executors hfound
  simp only [List.mem_cons, List.not_mem_nil, or_false] at hregistered
  rcases hregistered with rfl | rfl | rfl | rfl | rfl
  · obtain ⟨aspect, -, hmake⟩ := exists_of_bind_eq_ok hmake
    obtain rfl := Except.ok.inj hmake
    exact uses_apply trivial
  · obtain ⟨aspect, -, hmake⟩ := exists_of_bind_eq_ok hmake
    obtain rfl := Except.ok.inj hmake
    exact Uses.discard (uses_apply trivial)
  · obtain ⟨property, -, hmake⟩ := exists_of_bind_eq_ok hmake
    obtain ⟨value, -, hmake⟩ := exists_of_bind_eq_ok hmake
    obtain rfl := Except.ok.inj hmake
    exact uses_apply trivial
  · obtain ⟨destination, -, hmake⟩ := exists_of_bind_eq_ok hmake
    obtain ⟨deep, -, hmake⟩ := exists_of_bind_eq_ok hmake
    obtain rfl := Except.ok.inj hmake
    exact (uses_nameOf _).bind fun name => Uses.discard (uses_apply trivial)
  · obtain ⟨destination, -, hmake⟩ := exists_of_bind_eq_ok hmake
    obtain rfl := Except.ok.inj hmake
    exact (uses_nameOf _).bind fun name => Uses.discard (uses_apply trivial)

theorem uses_executor {action : Action} {executor : Executor}
    (hmade : handlers.executor action = .ok executor) (actionable actionedUpon : NodeRef) :
    (executor actionable actionedUpon).Uses (DoesFor wanted) :=
  (edits_executor hmade actionable actionedUpon).mono fun _ => doesFor_of_edits

/-! ## Services -/

theorem exists_trigger_of_getElem?_adapters {name : String}
    {make : RuleType → Except Error Adapter} (hfound : handlers.adapters[name]? = some make) :
    ∃ trigger, make = Triggers.makeAdapter trigger := by
  have hnone : (Actions.register (Conditions.register .empty)).adapters[name]? = none := by
    show (∅ : Std.ExtTreeMap String (RuleType → Except Error Adapter))[name]? = none
    simp
  rw [handlers, Triggers.register] at hfound
  simp only [Triggers.adapters_addAdapter, hnone] at hfound
  split_ifs at hfound <;> exact ⟨_, (Option.some.inj hfound).symm⟩

/-- An adapter that is made listens with behaviours of one trigger. -/
theorem exists_trigger_of_adapter {ruleType : RuleType} {adapter : Adapter}
    (hmade : handlers.adapter ruleType = .ok (some adapter)) :
    ∃ trigger, adapter.behaviours = (Triggers.Trigger.kinds trigger).map fun kind =>
      { kind, react := Triggers.react trigger ruleType.name } := by
  unfold HandlerRegistry.adapter at hmade
  split at hmade
  · cases hmade
  · obtain ⟨make, hfound, hrest⟩ := exists_of_bind_eq_ok hmade
    obtain ⟨made, hmake, hsame⟩ := exists_of_bind_eq_ok hrest
    obtain rfl := Option.some.inj (Except.ok.inj hsame)
    obtain ⟨trigger, rfl⟩ :=
      exists_trigger_of_getElem?_adapters (HandlerRegistry.getElem?_of_lookUp hfound)
    obtain rfl := Except.ok.inj hmake
    exact ⟨trigger, rfl⟩

/-- Adapters that are made react as one of the triggers does. -/
theorem exists_trigger_of_mem_makeAdapters {ruleTypes : List RuleType} {adapters : List Adapter}
    (hmade : RuleService.makeAdapters handlers ruleTypes = .ok adapters) :
    ∀ adapter ∈ adapters, ∀ behaviour ∈ adapter.behaviours,
      ∃ trigger ruleType, behaviour.react = Triggers.react trigger ruleType := by
  induction ruleTypes generalizing adapters with
  | nil =>
      obtain rfl := Except.ok.inj hmade
      nofun
  | cons ruleType ruleTypes ih =>
      unfold RuleService.makeAdapters at hmade
      split at hmade
      · cases hmade
      · rename_i adapter? hadapter
        obtain ⟨rest, hrest, hmade⟩ := exists_of_bind_eq_ok hmade
        obtain rfl := Except.ok.inj hmade
        intro adapter hmem behaviour hbehaviour
        rcases List.mem_append.mp hmem with hfirst | hmem
        · rw [Option.mem_toList.mp hfirst] at hadapter
          obtain ⟨trigger, hbehaviours⟩ := exists_trigger_of_adapter hadapter
          rw [hbehaviours] at hbehaviour
          obtain ⟨kind, -, rfl⟩ := List.mem_map.mp hbehaviour
          exact ⟨trigger, ruleType.name, rfl⟩
        · exact ih hrest adapter hmem behaviour hbehaviour

end Builtin

/-- The built-in behaviour that copies rules with a node is the only one that defers this. -/
structure RuleService.CopiesAlone (service : RuleService) : Prop where
  react : ∀ behaviour ∈ service.behaviours, behaviour = Actionable.copyBehaviour ∨
    ∀ event : NodeEvent, (behaviour.react event).Uses (Act.DefersOnly fun _ => False)
  execute : ∀ {action : Action} {executor : Executor},
    service.handlers.executor action = .ok executor → ∀ actionable actionedUpon : NodeRef,
      (executor actionable actionedUpon).Uses (Act.DefersOnly fun _ => False)

namespace Builtin

section Create

variable {directory : RuleDirectory} {config : EngineConfig} {service : RuleService}
  (hservice : RuleService.create directory handlers config = .ok service)

include hservice

/-- The behaviours of a service with the built-in handlers are the one that copies rules, and those
that adapters listen with. -/
theorem behaviour_cases {behaviour : Behaviour} (hbehaviour : behaviour ∈ service.behaviours) :
    behaviour = Actionable.copyBehaviour ∨
      ∃ trigger ruleType, behaviour.react = Triggers.react trigger ruleType := by
  obtain ⟨adapters, hadapters, hmade⟩ := exists_of_bind_eq_ok hservice
  obtain rfl := Except.ok.inj hmade
  rcases List.mem_cons.mp hbehaviour with rfl | hlistener
  · exact .inl rfl
  · obtain ⟨adapter, hadapter, hbehaviour⟩ := List.mem_flatMap.mp hlistener
    exact .inr (exists_trigger_of_mem_makeAdapters hadapters adapter hadapter behaviour hbehaviour)

theorem handlers_of_create : service.handlers = handlers := by
  obtain ⟨adapters, -, hmade⟩ := exists_of_bind_eq_ok hservice
  obtain rfl := Except.ok.inj hmade
  rfl

theorem config_of_create : service.config = config := by
  obtain ⟨adapters, -, hmade⟩ := exists_of_bind_eq_ok hservice
  obtain rfl := Except.ok.inj hmade
  rfl

/-- A service with the built-in handlers does what they do, whatever its directory says. -/
theorem uses_of_create : service.Uses Does where
  react behaviour hbehaviour event := by
    rcases behaviour_cases hservice hbehaviour with rfl | ⟨trigger, ruleType, hreact⟩
    · exact (uses_copyRulesWithNode event).mono fun act hdoes => hdoes.1
    · rw [hreact]
      exact (uses_react trigger ruleType event).mono
        fun act (hdoes : DoesFor (fun _ => False) act) => hdoes.1
  execute hmade actionable actionedUpon := by
    rw [handlers_of_create hservice] at hmade
    exact (uses_executor hmade actionable actionedUpon).mono
      fun act (hdoes : DoesFor (fun _ => False) act) => hdoes.1

/-- The built-in handlers start no drain. -/
theorem neverDrains_of_create : service.NeverDrains :=
  (uses_of_create hservice).drainsOnlyIf id

theorem copiesAlone_of_create : service.CopiesAlone where
  react behaviour hbehaviour :=
    (behaviour_cases hservice hbehaviour).imp_right fun ⟨trigger, ruleType, hreact⟩ event =>
      hreact ▸ (uses_react trigger ruleType event).mono fun act hdoes => hdoes.2
  execute hmade actionable actionedUpon := by
    rw [handlers_of_create hservice] at hmade
    exact (uses_executor hmade actionable actionedUpon).mono fun act hdoes => hdoes.2

end Create

/-- What the built-in service does can be computed. -/
theorem exists_service_of_any {config : EngineConfig} {test : RuleService → Bool}
    (hany : (Builtin.service config).toOption.any test = true) :
    ∃ service, Builtin.service config = .ok service ∧ test service = true := by
  obtain ⟨service, hservice, htest⟩ := (Option.any_eq_true _ _).mp hany
  refine ⟨service, ?_, htest⟩
  cases hmade : Builtin.service config with
  | error => rw [hmade] at hservice; cases hservice
  | ok other =>
      rw [hmade] at hservice
      rw [Option.some.inj hservice]

end Builtin

end ContentRules
