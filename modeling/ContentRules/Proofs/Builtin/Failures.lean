import ContentRules.Proofs.Builtin.Handlers
import ContentRules.Proofs.Engine.Failures

/-!
# Why the built-in handlers fail

The built-in handlers pass on the errors of the nodes, and have errors of their own about parameters
that they cannot read.  None is about a ceiling (`Builtin.noCeiling_of_create`).
-/

namespace ContentRules

/-! ## Parameters -/

namespace ParameterValues

variable (parameters : ParameterValues) (definition name : String)

theorem noCeiling_typed {α : Type} (expected : String) (read : Value → Option α) :
    NoCeiling (parameters.typed expected read definition name) := by
  unfold typed
  split
  case h_1 | h_2 => trivial
  case h_3 =>
    split
    · trivial
    · exact .of_cause (by nofun)

theorem noCeiling_present {α : Type} (value : Option α) :
    NoCeiling (present definition name value) := by
  cases value with
  | none => exact .of_cause (by nofun)
  | some value => trivial

theorem noCeiling_requireName : NoCeiling (parameters.requireName definition name) :=
  (parameters.noCeiling_typed _ _ _ _).bind fun _ _ => noCeiling_present _ _ _

theorem noCeiling_requireNode : NoCeiling (parameters.requireNode definition name) :=
  (parameters.noCeiling_typed _ _ _ _).bind fun _ _ => noCeiling_present _ _ _

end ParameterValues

namespace Builtin

open Script

/-! ## Conditions -/

theorem noCeiling_parse (definition : String) (operation : Option String) :
    NoCeiling (Conditions.Comparison.parse definition operation) := by
  unfold Conditions.Comparison.parse
  dsimp only
  split
  · trivial
  · exact .of_cause (by nofun)

open Conditions in
theorem registered_of_getElem?_evaluators {name : String}
    {make : Condition → Except Error Evaluator} (hfound : handlers.evaluators[name]? = some make) :
    make ∈ [makeNoCondition, makeHasAspect, makeComparePropertyValue, makeIsSubtype] := by
  have hregistered : handlers.evaluators = (Conditions.register .empty).evaluators := rfl
  rw [hregistered, Conditions.register] at hfound
  simp only [HandlerRegistry.evaluators_addEvaluator] at hfound
  split_ifs at hfound
  all_goals simp_all [HandlerRegistry.empty]

/-- Neither to make an evaluator nor to ask it fails at a ceiling. -/
theorem noCeiling_evaluator (condition : Condition) :
    NoCeilingAnd (fun evaluator => ∀ (view : View) (actionable actionedUpon : NodeRef),
      NoCeiling (evaluator view actionable actionedUpon)) (handlers.evaluator condition) := by
  refine handlers.noCeiling_evaluator fun make hfound => ?_
  have hregistered := registered_of_getElem?_evaluators hfound
  simp only [List.mem_cons, List.not_mem_nil, or_false] at hregistered
  rcases hregistered with rfl | rfl | rfl | rfl
  · exact fun _ _ _ => trivial
  · refine (condition.parameters.noCeiling_requireName _ _).bind fun aspect _ => ?_
    exact fun view _ node => view.work.nodes.noCeiling_hasAspect node aspect
  · refine (condition.parameters.noCeiling_typed _ _ _ _).bind fun operation _ =>
      (condition.parameters.noCeiling_typed _ _ _ _).bind fun property _ =>
        (noCeiling_parse _ operation).bind fun comparison _ =>
          (ParameterValues.noCeiling_present _ _ _).bind fun expected _ => ?_
    exact fun view _ node => (view.work.nodes.noCeiling_property? node _).bind fun _ _ => trivial
  · refine (condition.parameters.noCeiling_requireName _ _).bind fun nodeType _ => ?_
    exact fun view _ node => (view.work.nodes.noCeiling_typeOf node).bind fun _ _ => trivial

/-! ## Actions -/

theorem noCeiling_nameOf (node : NodeRef) : (Actions.nameOf node).NoCeiling := by
  unfold Actions.nameOf
  refine NoCeiling.bind (fun _ => trivial) fun nodes =>
    (noCeiling_ofExcept (nodes.noCeiling_parentOf? node)).bind fun place? => ?_
  cases place? <;> trivial

/-- Neither to make an executor nor what it does fails at a ceiling. -/
theorem noCeiling_executor (action : Action) :
    NoCeilingAnd (fun executor => ∀ actionable actionedUpon : NodeRef,
      (executor actionable actionedUpon).NoCeiling) (handlers.executor action) := by
  refine handlers.noCeiling_executor fun make hfound => ?_
  have hregistered := registered_of_getElem?_executors hfound
  simp only [List.mem_cons, List.not_mem_nil, or_false] at hregistered
  rcases hregistered with rfl | rfl | rfl | rfl | rfl
  · refine (action.parameters.noCeiling_requireName _ _).bind fun aspect _ => ?_
    exact fun _ node => noCeiling_apply _
  · refine (action.parameters.noCeiling_requireName _ _).bind fun aspect _ => ?_
    exact fun _ node => (noCeiling_apply _).discard
  · refine (action.parameters.noCeiling_requireName _ _).bind fun property _ =>
      (ParameterValues.noCeiling_present _ _ _).bind fun value _ => ?_
    exact fun _ node => noCeiling_apply _
  · refine (action.parameters.noCeiling_requireNode _ _).bind fun destination _ =>
      (action.parameters.noCeiling_typed _ _ _ _).bind fun deep _ => ?_
    exact fun _ node => (noCeiling_nameOf node).bind fun name => (noCeiling_apply _).discard
  · refine (action.parameters.noCeiling_requireNode _ _).bind fun destination _ => ?_
    exact fun _ node => (noCeiling_nameOf node).bind fun name => (noCeiling_apply _).discard

/-! ## Services -/

theorem noCeiling_makeActionable (node : NodeRef) : (Actionable.makeActionable node).NoCeiling := by
  have hsystem (root : NodeRef) : (Actionable.systemFolder root).NoCeiling := by
    unfold Actionable.systemFolder
    refine NoCeiling.bind (fun _ => trivial) fun nodes =>
      (noCeiling_ofExcept (nodes.noCeiling_childrenOf root _)).bind fun children => ?_
    split
    · trivial
    · exact (noCeiling_apply _).bind fun _ => trivial
  unfold Actionable.makeActionable
  refine NoCeiling.bind (fun _ => trivial) fun nodes => ?_
  have hfolder : ContentRules.NoCeiling (Actionable.configurationFolder? nodes node) :=
    (nodes.noCeiling_targetsOf node _).bind fun _ _ => trivial
  refine (noCeiling_ofExcept hfolder).bind fun folder? => ?_
  cases folder? with
  | some folder => trivial
  | none =>
      refine (noCeiling_ofExcept (nodes.noCeiling_rootOf _)).bind fun root =>
        (hsystem root).bind fun system => (noCeiling_apply _).bind fun assoc =>
          (noCeiling_apply _).bind fun _ => ?_
      exact (noCeiling_apply _).discard.bind fun _ => trivial

theorem noCeiling_copyRulesWithNode (event : NodeEvent) :
    (Actionable.copyRulesWithNode event).NoCeiling := by
  cases event with
  | copied source copy =>
      refine NoCeiling.bind (fun _ => trivial) fun view => ?_
      split
      · exact (noCeiling_makeActionable _).discard.bind fun _ => trivial
      · trivial
  | created | deleted | moved | propertiesUpdated | aspectAdded | aspectRemoved
    | associationCreated | associationRemoved => trivial

/-- To queue rules cannot fail. -/
theorem noCeiling_react (trigger : Triggers.Trigger) (ruleType : String) (event : NodeEvent) :
    (Triggers.react trigger ruleType event).NoCeiling := by
  unfold Triggers.react
  refine NoCeiling.bind (fun _ => trivial) fun view => ?_
  split
  · trivial
  · split
    · generalize view.rules.getByType _ _ _ = list
      induction list with
      | nil => trivial
      | cons rule list ih => exact NoCeiling.bind (fun _ => trivial) fun _ => ih
    · trivial

theorem noCeiling_of_create {directory : RuleDirectory} {config : EngineConfig}
    {service : RuleService}
    (hservice : RuleService.create directory handlers config = .ok service) :
    service.NoCeiling where
  react behaviour hbehaviour event := by
    rcases behaviour_cases hservice hbehaviour with rfl | ⟨trigger, ruleType, hreact⟩
    · exact noCeiling_copyRulesWithNode event
    · rw [hreact]
      exact noCeiling_react trigger ruleType event
  evaluator condition := by
    rw [handlers_of_create hservice]
    exact noCeiling_evaluator condition
  executor action := by
    rw [handlers_of_create hservice]
    exact noCeiling_executor action

end Builtin

end ContentRules
