import ContentRules.Rule.Parameter

/-!
# Reading parameters that passed their checks

A definition says of which kind its parameters are, and a handler reads them in a way of its own.  A
parameter that passed the check of its declaration is read without fail, if the declaration has the
kind that the handler expects, and is mandatory if the handler needs it.

**Strategy.**  What a handler is made from is read parameter by parameter.  `ReadsDeclared` says of
such a reading that it does not fail on checked values, and that values of other parameters do not
matter.  It is kept if one reading follows another (`ReadsDeclared.bind`).
-/

namespace ContentRules

/-! ## Checks -/

namespace ParameterDefinition

/-- What is wrong with the value of a declared parameter: it must be there and is not, or is null,
or it is of another kind. -/
inductive Faulty (declared : ParameterDefinition) : Option Value → ParameterFault → Prop
  | absent (hmandatory : declared.mandatory) : Faulty declared none .missing
  | null (hmandatory : declared.mandatory) : Faulty declared (some .null) .missing
  | unexpected {value : Value} (hvalue : value ≠ .null) (hkind : ¬ declared.kind.accepts value) :
    Faulty declared (some value) (.unexpected declared.kind.inspect value)

variable {declared : ParameterDefinition} {definition : String} {value? : Option Value}

theorem check_some {value : Value} (hvalue : value ≠ .null) :
    declared.check definition (some value) =
      if declared.kind.accepts value then .ok ()
      else (Cause.invalidParameter definition declared.name
        (.unexpected declared.kind.inspect value)).raise := by
  cases value with
  | null => exact absurd rfl hvalue
  | _ => rfl

/-- A check fails for what is wrong with the value. -/
theorem faulty_of_check {error : Error} (hfailed : declared.check definition value? = .error error) :
    ∃ fault, declared.Faulty value? fault ∧
      error = { cause := .invalidParameter definition declared.name fault } := by
  have hmissing (hfailed : (if declared.mandatory then
      (Cause.invalidParameter definition declared.name .missing).raise else .ok () :
        Except Error Unit) = .error error) : declared.mandatory ∧
      error = { cause := .invalidParameter definition declared.name .missing } := by
    split at hfailed
    · exact ⟨‹_›, (Except.error.inj hfailed).symm⟩
    · cases hfailed
  cases value? with
  | none =>
      obtain ⟨hmandatory, herror⟩ := hmissing hfailed
      exact ⟨_, .absent hmandatory, herror⟩
  | some value =>
      by_cases hvalue : value = .null
      · subst hvalue
        obtain ⟨hmandatory, herror⟩ := hmissing hfailed
        exact ⟨_, .null hmandatory, herror⟩
      · rw [check_some hvalue] at hfailed
        split at hfailed
        · cases hfailed
        · exact ⟨_, .unexpected hvalue ‹_›, (Except.error.inj hfailed).symm⟩

/-- A value that passes the check is of the declared kind. -/
theorem accepts_of_check {value : Value}
    (hchecked : declared.check definition (some value) = .ok ()) (hvalue : value ≠ .null) :
    declared.kind.accepts value := by
  rw [check_some hvalue] at hchecked
  split at hchecked
  · assumption
  · cases hchecked

/-- What must be there is there if the check is passed. -/
theorem exists_of_check (hchecked : declared.check definition value? = .ok ())
    (hmandatory : declared.mandatory) : ∃ value ≠ .null, value? = some value := by
  have hrefused : (if declared.mandatory then
      (Cause.invalidParameter definition declared.name .missing).raise else .ok () :
        Except Error Unit) ≠ .ok () := by
    rw [if_pos hmandatory]
    nofun
  cases value? with
  | none => exact absurd hchecked hrefused
  | some value =>
      refine ⟨value, ?_, rfl⟩
      rintro rfl
      exact hrefused hchecked

variable {parameters : List ParameterDefinition} {values : ParameterValues}

theorem checkAll_cons (parameter : ParameterDefinition) :
    checkAll (parameter :: parameters) definition values =
      (parameter.check definition (values.get? parameter.name) >>= fun _ =>
        checkAll parameters definition values) :=
  rfl

/-- Parameters pass their checks if each does. -/
theorem checkAll_eq_ok_iff : checkAll parameters definition values = .ok () ↔
    ∀ parameter ∈ parameters,
      parameter.check definition (values.get? parameter.name) = .ok () := by
  induction parameters with
  | nil => exact iff_of_true rfl nofun
  | cons parameter parameters ih =>
      rw [checkAll_cons, List.forall_mem_cons, ← ih]
      cases parameter.check definition (values.get? parameter.name) with
      | error error => exact iff_of_false nofun nofun
      | ok => exact (and_iff_right rfl).symm

/-- If they do not, the error is that of one of them. -/
theorem exists_of_checkAll_eq_error {error : Error}
    (hfailed : checkAll parameters definition values = .error error) :
    ∃ parameter ∈ parameters,
      parameter.check definition (values.get? parameter.name) = .error error := by
  induction parameters with
  | nil => cases hfailed
  | cons parameter parameters ih =>
      rw [checkAll_cons] at hfailed
      cases hfirst : parameter.check definition (values.get? parameter.name) with
      | error first =>
          rw [hfirst] at hfailed
          obtain rfl := Except.error.inj hfailed
          exact ⟨parameter, List.mem_cons_self, hfirst⟩
      | ok =>
          rw [hfirst] at hfailed
          obtain ⟨other, hother, hchecked⟩ := ih hfailed
          exact ⟨other, List.mem_cons_of_mem parameter hother, hchecked⟩

end ParameterDefinition

/-! ## Readings -/

open ParameterDefinition ParameterValues

variable {α β : Type} {declared : List ParameterDefinition} {definition : String}

/-- Both give the declared parameters the same values. -/
def ParameterValues.AgreeOn (declared : List ParameterDefinition)
    (values others : ParameterValues) : Prop :=
  ∀ parameter ∈ declared, values.get? parameter.name = others.get? parameter.name

theorem ParameterValues.AgreeOn.checkAll_eq {values others : ParameterValues}
    (hagree : AgreeOn declared values others) :
    checkAll declared definition values = checkAll declared definition others := by
  induction declared with
  | nil => rfl
  | cons parameter declared ih =>
      obtain ⟨hfirst, hrest⟩ := List.forall_mem_cons.mp hagree
      rw [checkAll_cons, checkAll_cons, hfirst, ih hrest]

/-- A reading of declared parameters: it does not fail on values that pass their checks, and other
parameters do not matter. -/
structure ReadsDeclared (definition : String) (declared : List ParameterDefinition)
    (read : ParameterValues → Except Error α) : Prop where
  exists_of_checked : ∀ values : ParameterValues, checkAll declared definition values = .ok () →
    ∃ result, read values = .ok result
  congr : ∀ values others : ParameterValues, AgreeOn declared values others →
    read values = read others

namespace ReadsDeclared

theorem pure (result : α) : ReadsDeclared definition declared fun _ => .ok result where
  exists_of_checked := fun _ _ => ⟨result, rfl⟩
  congr := fun _ _ _ => rfl

theorem bind {read : ParameterValues → Except Error α}
    {next : α → ParameterValues → Except Error β} (hread : ReadsDeclared definition declared read)
    (hnext : ∀ result, ReadsDeclared definition declared (next result)) :
    ReadsDeclared definition declared fun values => do next (← read values) values where
  exists_of_checked := by
    intro values hchecked
    obtain ⟨first, hfirst⟩ := hread.exists_of_checked values hchecked
    obtain ⟨result, hresult⟩ := (hnext first).exists_of_checked values hchecked
    exact ⟨result, by rw [hfirst]; exact hresult⟩
  congr := by
    intro values others hagree
    simp only [hread.congr values others hagree, (hnext _).congr values others hagree]

variable {parameter : ParameterDefinition}

theorem typed_of_some {values : ParameterValues} {name expected : String} {value : Value}
    {read : Value → Option α} {result : α} (hget : values.get? name = some value)
    (hvalue : value ≠ .null) (hread : read value = some result) :
    values.typed expected read definition name = .ok (some result) := by
  unfold ParameterValues.typed
  rw [hget]
  split
  case h_1 hnone => cases hnone
  case h_2 hnull => exact absurd (Option.some.inj hnull) hvalue
  case h_3 other _ hother =>
    obtain rfl := Option.some.inj hother
    rw [hread]

theorem typed_of_null {values : ParameterValues} {name expected : String}
    {read : Value → Option α} (hget : values.get? name = some .null) :
    values.typed expected read definition name = .ok none := by
  unfold ParameterValues.typed
  rw [hget]

/-- A parameter is read by its type.  If it is mandatory, it is there. -/
theorem exists_of_typed {expected : String} {read : Value → Option α}
    (hkind : ∀ value, parameter.kind.accepts value = (read value).isSome)
    {values : ParameterValues}
    (hchecked : parameter.check definition (values.get? parameter.name) = .ok ()) :
    ∃ result?, values.typed expected read definition parameter.name = .ok result? ∧
      (parameter.mandatory → ∃ result, result? = some result) := by
  cases hget : values.get? parameter.name with
  | none =>
      refine ⟨none, by rw [ParameterValues.typed, hget], fun hmandatory => ?_⟩
      obtain ⟨value, -, hthere⟩ := exists_of_check hchecked hmandatory
      rw [hget] at hthere
      cases hthere
  | some value =>
      by_cases hvalue : value = .null
      · subst hvalue
        refine ⟨none, typed_of_null hget, fun hmandatory => ?_⟩
        obtain ⟨other, hother, hthere⟩ := exists_of_check hchecked hmandatory
        rw [hget] at hthere
        exact absurd (Option.some.inj hthere).symm hother
      · rw [hget] at hchecked
        have haccepted := accepts_of_check hchecked hvalue
        rw [hkind, Option.isSome_iff_exists] at haccepted
        obtain ⟨result, hresult⟩ := haccepted
        exact ⟨some result, typed_of_some hget hvalue hresult, fun _ => ⟨result, rfl⟩⟩

theorem typed {expected : String} {read : Value → Option α} (hparameter : parameter ∈ declared)
    (hkind : ∀ value, parameter.kind.accepts value = (read value).isSome) :
    ReadsDeclared definition declared fun values =>
      values.typed expected read definition parameter.name where
  exists_of_checked := by
    intro values hchecked
    obtain ⟨result, hresult, -⟩ :=
      exists_of_typed hkind (checkAll_eq_ok_iff.mp hchecked parameter hparameter)
    exact ⟨result, hresult⟩
  congr := by
    intro values others hagree
    simp only [ParameterValues.typed, hagree parameter hparameter]

/-- A mandatory parameter is there. -/
theorem required {expected : String} {read : Value → Option α} (hparameter : parameter ∈ declared)
    (hkind : ∀ value, parameter.kind.accepts value = (read value).isSome)
    (hmandatory : parameter.mandatory) :
    ReadsDeclared definition declared fun values => do
      present definition parameter.name
        (← values.typed expected read definition parameter.name) where
  exists_of_checked := by
    intro values hchecked
    obtain ⟨result?, hresult, hthere⟩ :=
      exists_of_typed hkind (checkAll_eq_ok_iff.mp hchecked parameter hparameter)
    obtain ⟨result, rfl⟩ := hthere hmandatory
    exact ⟨result, by rw [hresult]; rfl⟩
  congr := by
    intro values others hagree
    simp only [ParameterValues.typed, hagree parameter hparameter]

section ByName

/-! A handler knows a parameter by its name. -/

variable {name : String} {kind : ParameterKind} {label : String}

theorem requireName (hparameter : ⟨name, .name, true, label⟩ ∈ declared) :
    ReadsDeclared definition declared fun values => values.requireName definition name :=
  required hparameter (fun _ => rfl) rfl

theorem requireNode (hparameter : ⟨name, .node, true, label⟩ ∈ declared) :
    ReadsDeclared definition declared fun values => values.requireNode definition name :=
  required hparameter (fun _ => rfl) rfl

theorem optionalName {mandatory : Bool} (hparameter : ⟨name, .name, mandatory, label⟩ ∈ declared) :
    ReadsDeclared definition declared fun values => values.optionalName definition name :=
  typed hparameter fun _ => rfl

theorem optionalText {mandatory : Bool} (hparameter : ⟨name, .text, mandatory, label⟩ ∈ declared) :
    ReadsDeclared definition declared fun values => values.optionalText definition name :=
  typed hparameter fun _ => rfl

theorem optionalBool {mandatory : Bool} (hparameter : ⟨name, .bool, mandatory, label⟩ ∈ declared) :
    ReadsDeclared definition declared fun values => values.optionalBool definition name :=
  typed hparameter fun _ => rfl

/-- A mandatory parameter has a value other than null, of whatever kind it is. -/
theorem requireValue (hparameter : ⟨name, kind, true, label⟩ ∈ declared) :
    ReadsDeclared definition declared fun values => values.requireValue definition name where
  exists_of_checked := by
    intro values hchecked
    obtain ⟨value, hvalue, hget⟩ :=
      exists_of_check (checkAll_eq_ok_iff.mp hchecked _ hparameter) rfl
    refine ⟨value, ?_⟩
    rw [ParameterValues.requireValue, hget]
    cases value with
    | null => exact absurd rfl hvalue
    | _ => rfl
  congr := by
    intro values others hagree
    rw [ParameterValues.requireValue, ParameterValues.requireValue, hagree _ hparameter]

end ByName

end ReadsDeclared

end ContentRules
