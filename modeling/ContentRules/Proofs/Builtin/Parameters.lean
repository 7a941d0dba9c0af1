import ContentRules.Proofs.Builtin.Failures
import ContentRules.Proofs.Rule.Parameters

/-!
# Valid parameters are those that handlers are made from

A definition declares parameters and can check values for them; its handler is made from values that
it reads in a way of its own.  For all that is built in these are the same: a handler is made exactly
if the values are valid, and the error says which declared parameter is at fault.  One condition
needs more: a comparison must name a known operation.

**Strategy.**  A handler is made after the values were checked, so what has to be shown is that
checked values are read without fail.  Each handler reads its parameters one after the other
(`ReadsDeclared`).  The comparison has an error of its own between two of its readings, so it keeps
its own argument (`madeFrom_makeComparePropertyValue`).
-/

namespace ContentRules.Builtin

open ParameterDefinition ParameterValues

/-! ## Faults -/

namespace Conditions

/-- The operations that a comparison knows. -/
def operations : List String :=
  ["equals", "contains", "begins", "ends"]

/-- If an operation is given, it is one of them. -/
def OperationKnown (values : ParameterValues) : Prop :=
  ∀ value, values.get? operationParameter = some value → value ≠ .null →
    ∃ operation ∈ operations, value = .text operation

theorem ofOperation?_eq_none_iff {operation : String} :
    Comparison.ofOperation? operation = none ↔ operation ∉ operations := by
  unfold Comparison.ofOperation?
  split <;> simp_all [operations]

end Conditions

open Conditions in
/-- What is wrong with a declared parameter when a handler is made: it is missing, it is null though
it is mandatory, it is of another kind, or it is an operation that a comparison does not know. -/
inductive Fault (definition : String) (declared : ParameterDefinition) :
    Option Value → ParameterFault → Prop
  | invalid {value? : Option Value} {fault : ParameterFault}
    (hfaulty : declared.Faulty value? fault) : Fault definition declared value? fault
  | unknownOperation {operation : String} (hdefinition : definition = comparePropertyValue)
    (hparameter : declared.name = operationParameter) (hunknown : operation ∉ operations) :
    Fault definition declared (some (.text operation)) (.unknownOperation operation)

/-- What is made from values, exactly if these are valid and fit.  If they are not, the error names
a declared parameter and what is wrong with it.  Other parameters do not matter. -/
structure MadeAsDeclared {α : Type} (definition : String) (declared : List ParameterDefinition)
    (validate : ParameterValues → Except Error Unit) (fits : ParameterValues → Prop)
    (make : ParameterValues → Except Error α) : Prop where
  made_iff : ∀ values, (∃ handler, make values = .ok handler) ↔
    validate values = .ok () ∧ fits values
  fault : ∀ values error, make values = .error error →
    ∃ parameter ∈ declared, ∃ fault,
      Fault definition parameter (values.get? parameter.name) fault ∧
      error = { cause := .invalidParameter definition parameter.name fault }
  congr : ∀ values others, AgreeOn declared values others → make values = make others

/-! ## What is made of checked values -/

/-- What is made from values that were checked, if they fit. -/
structure MadeFrom {α : Type} (definition : String) (declared : List ParameterDefinition)
    (fits : ParameterValues → Prop) (make : ParameterValues → Except Error α) : Prop where
  made : ∀ values, checkAll declared definition values = .ok () → fits values →
    ∃ handler, make values = .ok handler
  refused : ∀ values, checkAll declared definition values = .ok () → ¬ fits values →
    ∃ parameter ∈ declared, ∃ fault,
      Fault definition parameter (values.get? parameter.name) fault ∧
      make values = .error { cause := .invalidParameter definition parameter.name fault }
  congr : ∀ values others, AgreeOn declared values others → make values = make others

section Made

variable {α : Type} {definition : String} {declared : List ParameterDefinition}
  {fits : ParameterValues → Prop} {make : ParameterValues → Except Error α}

/-- What only reads declared parameters needs no more than that they are valid. -/
theorem MadeFrom.of_reads (hreads : ReadsDeclared definition declared make)
    (hfits : ∀ values, fits values) : MadeFrom definition declared fits make where
  made := fun values hchecked _ => hreads.exists_of_checked values hchecked
  refused := fun values _ hmisfit => absurd (hfits values) hmisfit
  congr := hreads.congr

/-- First the values are checked. -/
theorem MadeFrom.madeAsDeclared (hmade : MadeFrom definition declared fits make) :
    MadeAsDeclared definition declared (checkAll declared definition) fits
      fun values => do checkAll declared definition values; make values where
  made_iff := by
    intro values
    cases hchecked : checkAll declared definition values with
    | error error => exact iff_of_false nofun nofun
    | ok =>
        refine Iff.trans ?_ (and_iff_right rfl).symm
        constructor
        · rintro ⟨handler, hhandler⟩
          by_contra hmisfit
          obtain ⟨parameter, -, fault, -, hrefused⟩ := hmade.refused values hchecked hmisfit
          have hhandler : make values = .ok handler := hhandler
          rw [hrefused] at hhandler
          cases hhandler
        · exact hmade.made values hchecked
  fault := by
    intro values error hfailed
    cases hchecked : checkAll declared definition values with
    | error first =>
        rw [hchecked] at hfailed
        obtain rfl := Except.error.inj hfailed
        obtain ⟨parameter, hparameter, hfirst⟩ := exists_of_checkAll_eq_error hchecked
        obtain ⟨fault, hfault, herror⟩ := faulty_of_check hfirst
        exact ⟨parameter, hparameter, fault, .invalid hfault, herror⟩
    | ok =>
        rw [hchecked] at hfailed
        have hfailed : make values = .error error := hfailed
        have hmisfit : ¬ fits values := by
          intro hfits
          obtain ⟨handler, hhandler⟩ := hmade.made values hchecked hfits
          rw [hhandler] at hfailed
          cases hfailed
        obtain ⟨parameter, hparameter, fault, hfault, hrefused⟩ :=
          hmade.refused values hchecked hmisfit
        rw [hrefused] at hfailed
        exact ⟨parameter, hparameter, fault, hfault, (Except.error.inj hfailed).symm⟩
  congr := by
    intro values others hagree
    simp only [hagree.checkAll_eq, hmade.congr values others hagree]

end Made

/-! ## Conditions -/

namespace Conditions

theorem exists_of_parse {definition : String} {operation? : Option String}
    (hknown : ∀ operation, operation? = some operation → operation ∈ operations) :
    ∃ comparison, Comparison.parse definition operation? = .ok comparison := by
  have hmem : operation?.getD "equals" ∈ operations := by
    cases operation? with
    | none => exact List.mem_cons_self
    | some operation => exact hknown operation rfl
  unfold Comparison.parse
  dsimp only
  cases hcomparison : Comparison.ofOperation? (operation?.getD "equals") with
  | none => exact absurd hmem (ofOperation?_eq_none_iff.mp hcomparison)
  | some comparison => exact ⟨comparison, rfl⟩

theorem parse_of_unknown {definition operation : String} (hunknown : operation ∉ operations) :
    Comparison.parse definition (some operation) = .error
      { cause := .invalidParameter definition operationParameter (.unknownOperation operation) } := by
  unfold Comparison.parse
  dsimp only
  rw [Option.getD_some, ofOperation?_eq_none_iff.mpr hunknown]
  rfl

/-- An operation that is read is the one that was given. -/
theorem get?_of_optionalText {definition name operation : String} {values : ParameterValues}
    (hread : values.optionalText definition name = .ok (some operation)) :
    values.get? name = some (.text operation) := by
  unfold optionalText ParameterValues.typed at hread
  split at hread
  case h_1 | h_2 => cases hread
  case h_3 value _ hget =>
    rw [hget]
    cases value with
    | text text =>
        obtain rfl : text = operation := by simpa [Value.asText] using hread
        rfl
    | _ => cases hread

/-- Of checked values, only an unknown operation does not fit. -/
theorem exists_unknown_of_checked {definition label : String} {declared : List ParameterDefinition}
    {values : ParameterValues} (hoperation : ⟨operationParameter, .text, false, label⟩ ∈ declared)
    (hchecked : checkAll declared definition values = .ok ()) (hmisfit : ¬ OperationKnown values) :
    ∃ operation, values.get? operationParameter = some (.text operation) ∧
      operation ∉ operations := by
  unfold OperationKnown at hmisfit
  push Not at hmisfit
  obtain ⟨value, hget, hvalue, hunknown⟩ := hmisfit
  have hfirst := checkAll_eq_ok_iff.mp hchecked _ hoperation
  rw [hget] at hfirst
  have htext : value.asText.isSome := accepts_of_check hfirst hvalue
  cases value with
  | text operation => exact ⟨operation, hget, fun hknown => hunknown operation hknown rfl⟩
  | _ => cases htext

/-- A comparison is made from valid values, if their operation is known. -/
theorem madeFrom_makeComparePropertyValue {definition : ConditionDefinition} {label : String}
    (hname : definition.name = comparePropertyValue)
    (hproperty : ⟨propertyParameter, .name, false, label⟩ ∈ definition.parameters)
    (hoperation : ⟨operationParameter, .text, false, label⟩ ∈ definition.parameters)
    (hvalue : ⟨valueParameter, .any, true, label⟩ ∈ definition.parameters) :
    MadeFrom definition.name definition.parameters
      (fun values => definition.name = comparePropertyValue → OperationKnown values)
      fun values => makeComparePropertyValue { definition, parameters := values } := by
  have hreadsOperation : ReadsDeclared definition.name _ _ := .optionalText hoperation
  have hreadsProperty : ReadsDeclared definition.name _ _ := .optionalName hproperty
  have hreadsValue : ReadsDeclared definition.name _ _ := .requireValue hvalue
  constructor
  case made =>
    intro values hchecked hknown
    obtain ⟨operation?, hread⟩ := hreadsOperation.exists_of_checked values hchecked
    obtain ⟨property?, hproperty⟩ := hreadsProperty.exists_of_checked values hchecked
    obtain ⟨expected, hexpected⟩ := hreadsValue.exists_of_checked values hchecked
    obtain ⟨comparison, hcomparison⟩ : ∃ comparison,
        Comparison.parse definition.name operation? = .ok comparison := by
      refine exists_of_parse ?_
      rintro operation rfl
      obtain ⟨known, hknown, hsame⟩ := hknown hname _ (get?_of_optionalText hread) nofun
      obtain rfl := Value.text.inj hsame
      exact hknown
    simp only [makeComparePropertyValue, hread, hproperty, hexpected, bind, Except.bind,
      hcomparison]
    exact ⟨_, rfl⟩
  case refused =>
    intro values hchecked hmisfit
    obtain ⟨operation, hget, hunknown⟩ :=
      exists_unknown_of_checked hoperation hchecked fun hknown => hmisfit fun _ => hknown
    have hread : values.optionalText definition.name operationParameter = .ok (some operation) :=
      ReadsDeclared.typed_of_some hget nofun rfl
    obtain ⟨property?, hproperty⟩ := hreadsProperty.exists_of_checked values hchecked
    refine ⟨_, hoperation, .unknownOperation operation, ?_, ?_⟩
    · rw [hget]
      exact .unknownOperation hname rfl hunknown
    · simp only [makeComparePropertyValue, hread, hproperty, bind, Except.bind,
        parse_of_unknown hunknown]
  case congr =>
    intro values others hagree
    simp only [makeComparePropertyValue, hreadsOperation.congr values others hagree,
      hreadsProperty.congr values others hagree, hreadsValue.congr values others hagree]

end Conditions

/-! ## All that is built in -/

theorem madeAsDeclared_evaluator {definition : ConditionDefinition}
    {make : Condition → Except Error Evaluator} {fits : ParameterValues → Prop}
    (hfound : handlers.evaluators[definition.evaluator]? = some make)
    (hmade : MadeFrom definition.name definition.parameters fits fun values =>
      make { definition, parameters := values }) :
    MadeAsDeclared definition.name definition.parameters definition.validate fits
      fun values => handlers.evaluator { definition, parameters := values } := by
  have hmake (values : ParameterValues) : handlers.evaluator { definition, parameters := values } =
      (do definition.validate values; make { definition, parameters := values }) := by
    simp only [HandlerRegistry.evaluator, HandlerRegistry.lookUp, hfound]
    rfl
  simp only [hmake]
  exact hmade.madeAsDeclared

theorem madeAsDeclared_executor {definition : ActionDefinition}
    {make : Action → Except Error Executor} {fits : ParameterValues → Prop}
    (hfound : handlers.executors[definition.executor]? = some make)
    (hmade : MadeFrom definition.name definition.parameters fits fun values =>
      make { definition, parameters := values }) :
    MadeAsDeclared definition.name definition.parameters definition.validate fits
      fun values => handlers.executor { definition, parameters := values } := by
  have hmake (values : ParameterValues) : handlers.executor { definition, parameters := values } =
      (do definition.validate values; make { definition, parameters := values }) := by
    simp only [HandlerRegistry.executor, HandlerRegistry.lookUp, hfound]
    rfl
  simp only [hmake]
  exact hmade.madeAsDeclared

/-- **Handlers are made from valid parameters.**  For each condition and each action that is built
in, and whatever values are given: its handler is made exactly if the definition finds the values
valid, except that a comparison needs a known operation besides, if one is given.  If no handler is
made, the error blames the definition and names a parameter that it declares, and says what is wrong
with the value: it is missing, null or of another kind, or no known operation.  With the same values
for the declared parameters, the same comes out whatever else is given. -/
theorem built_iff_validated :
    (∀ definition ∈ config.conditions,
      MadeAsDeclared definition.name definition.parameters definition.validate
        (fun values => definition.name = Conditions.comparePropertyValue →
          Conditions.OperationKnown values)
        fun values => handlers.evaluator { definition, parameters := values }) ∧
    ∀ definition ∈ config.actions,
      MadeAsDeclared definition.name definition.parameters definition.validate
        (fun _ => True) fun values => handlers.executor { definition, parameters := values } := by
  constructor
  · intro definition hdefinition
    simp only [config, List.mem_cons, List.not_mem_nil, or_false] at hdefinition
    rcases hdefinition with rfl | rfl | rfl | rfl
    · exact madeAsDeclared_evaluator rfl (.of_reads (.pure _) fun _ => nofun)
    · refine madeAsDeclared_evaluator rfl (.of_reads ?_ fun _ => nofun)
      exact (ReadsDeclared.requireName (.head _)).bind fun _ => .pure _
    · refine madeAsDeclared_evaluator rfl ?_
      exact Conditions.madeFrom_makeComparePropertyValue rfl (.head _) (.tail _ (.head _))
        (.tail _ (.tail _ (.head _)))
    · refine madeAsDeclared_evaluator rfl (.of_reads ?_ fun _ => nofun)
      exact (ReadsDeclared.requireName (.head _)).bind fun _ => .pure _
  · intro definition hdefinition
    simp only [config, List.mem_cons, List.not_mem_nil, or_false] at hdefinition
    rcases hdefinition with rfl | rfl | rfl | rfl | rfl
    all_goals refine madeAsDeclared_executor rfl (.of_reads ?_ fun _ => trivial)
    · exact (ReadsDeclared.requireName (.head _)).bind fun _ => .pure _
    · exact (ReadsDeclared.requireName (.head _)).bind fun _ => .pure _
    · exact (ReadsDeclared.requireName (.head _)).bind fun _ =>
        (ReadsDeclared.requireValue (.tail _ (.head _))).bind fun _ => .pure _
    · exact (ReadsDeclared.requireNode (.head _)).bind fun _ =>
        (ReadsDeclared.optionalBool (.tail _ (.head _))).bind fun _ => .pure _
    · exact (ReadsDeclared.requireNode (.head _)).bind fun _ => .pure _

/-- A comparison is made from a value and a known operation, and not from one that is unknown; a
move is not made without its destination. -/
theorem built_comparison :
    let comparison : ConditionDefinition :=
      { name := Conditions.comparePropertyValue, title := "Items whose property matches a value"
        evaluator := Conditions.comparePropertyValue
        parameters := [{ name := Conditions.propertyParameter, kind := .name },
          { name := Conditions.operationParameter, kind := .text },
          { name := Conditions.valueParameter, kind := .any, mandatory := true }] }
    let move : ActionDefinition :=
      { name := Actions.move, title := "Move item to a folder", executor := Actions.move
        parameters :=
          [{ name := Actions.destinationFolderParameter, kind := .node, mandatory := true }] }
    let values (operation : String) : ParameterValues :=
      .ofList [(Conditions.operationParameter, .text operation),
        (Conditions.valueParameter, .bool true)]
    comparison ∈ config.conditions ∧ move ∈ config.actions ∧
      (∃ evaluator, handlers.evaluator { definition := comparison, parameters := values "ends" } =
        .ok evaluator) ∧
      (¬ ∃ evaluator, handlers.evaluator { definition := comparison, parameters := values "like" } =
        .ok evaluator) ∧
      ¬ ∃ executor, handlers.executor { definition := move, parameters := values "ends" } =
        .ok executor := by
  intro comparison move values
  have hcomparison : comparison ∈ config.conditions := by decide
  have hmove : move ∈ config.actions := by decide
  have hends : (values "ends").get? Conditions.operationParameter = some (.text "ends") := by
    decide +kernel
  have hlike : (values "like").get? Conditions.operationParameter = some (.text "like") := by
    decide +kernel
  have hmade := built_iff_validated.1 comparison hcomparison
  refine ⟨hcomparison, hmove, (hmade.made_iff _).mpr ⟨by decide +kernel, fun _ => ?_⟩, ?_, ?_⟩
  · intro value hvalue _
    rw [hends] at hvalue
    exact ⟨"ends", by decide, (Option.some.inj hvalue).symm⟩
  · intro hbuilt
    obtain ⟨operation, hknown, hsame⟩ := ((hmade.made_iff _).mp hbuilt).2 rfl _ hlike nofun
    obtain rfl := Value.text.inj hsame
    revert hknown
    decide
  · rw [(built_iff_validated.2 move hmove).made_iff]
    rintro ⟨hvalid, -⟩
    revert hvalid
    decide +kernel

end ContentRules.Builtin
