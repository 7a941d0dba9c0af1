import ContentRules.Proofs.NodeStore.Outcome

/-!
# Why edits fail

No edit fails for the reason that a ceiling was reached: the nodes know of no ceilings.

**Strategy.**  Whether a change may fail so is a matter of its steps, and each step of a change
looks up a record, raises an error of its own or does not fail.
-/

namespace ContentRules

variable {α β : Type}

/-- The error says that a ceiling was reached. -/
def Error.IsCeiling (error : Error) : Prop :=
  ∃ ceiling, error.cause = .limitExceeded ceiling

/-- What was computed is a result with this property, or an error that says nothing of a ceiling. -/
def NoCeilingAnd (property : α → Prop) : Except Error α → Prop
  | .ok result => property result
  | .error error => ¬ error.IsCeiling

/-- If what was computed is an error, it says nothing of a ceiling. -/
abbrev NoCeiling (outcome : Except Error α) : Prop :=
  NoCeilingAnd (fun _ => True) outcome

namespace NoCeilingAnd

variable {property : α → Prop} {outcome : Except Error α}

theorem of_cause {cause : Cause} (hcause : ∀ ceiling, cause ≠ .limitExceeded ceiling) :
    NoCeilingAnd property (.error { cause }) :=
  fun ⟨ceiling, hceiling⟩ => hcause ceiling hceiling

theorem bind {next : α → Except Error β} {other : β → Prop}
    (houtcome : NoCeilingAnd property outcome)
    (hnext : ∀ result, property result → NoCeilingAnd other (next result)) :
    NoCeilingAnd other (outcome >>= next) := by
  cases outcome with
  | error error => exact houtcome
  | ok result => exact hnext result houtcome

theorem discard (houtcome : NoCeilingAnd property outcome) :
    NoCeiling (discard outcome : Except Error Unit) := by
  cases outcome with
  | error error => exact houtcome
  | ok result => trivial

end NoCeilingAnd

theorem noCeiling_forM {items : List α} {body : α → Except Error Unit}
    (hbody : ∀ item, NoCeiling (body item)) : NoCeiling (items.forM body) := by
  induction items with
  | nil => trivial
  | cons item items ih => exact (hbody item).bind fun _ _ => ih

/-! ## Looking at nodes -/

namespace NodeStore

variable (nodes : NodeStore) (node : NodeRef)

theorem noCeiling_recordOf : NoCeiling (nodes.recordOf node) := by
  unfold recordOf
  split
  · trivial
  · exact .of_cause nofun

theorem noCeiling_rootOf (store : StoreRef) : NoCeiling (nodes.rootOf store) := by
  unfold rootOf
  split
  · trivial
  · exact .of_cause nofun

theorem noCeiling_typeOf : NoCeiling (nodes.typeOf node) :=
  (nodes.noCeiling_recordOf node).bind fun _ _ => trivial

theorem noCeiling_hasAspect (aspect : QualifiedName) : NoCeiling (nodes.hasAspect node aspect) :=
  (nodes.noCeiling_recordOf node).bind fun _ _ => trivial

theorem noCeiling_property? (name : QualifiedName) : NoCeiling (nodes.property? node name) :=
  (nodes.noCeiling_recordOf node).bind fun _ _ => trivial

theorem noCeiling_parentOf? : NoCeiling (nodes.parentOf? node) :=
  (nodes.noCeiling_recordOf node).discard.bind fun _ _ => trivial

theorem noCeiling_childrenOf (name : Option QualifiedName) :
    NoCeiling (nodes.childrenOf node name) :=
  (nodes.noCeiling_recordOf node).discard.bind fun _ _ => trivial

theorem noCeiling_ancestorsOf : NoCeiling (nodes.ancestorsOf node) :=
  (nodes.noCeiling_recordOf node).discard.bind fun _ _ => trivial

theorem noCeiling_targetsOf (relation : Option QualifiedName) :
    NoCeiling (nodes.targetsOf node relation) :=
  (nodes.noCeiling_recordOf node).discard.bind fun _ _ => trivial

end NodeStore

/-! ## Changes -/

namespace Change

/-- Whatever nodes it is made to, the change does not fail at a ceiling. -/
def NoCeiling (change : Change α) : Prop :=
  ∀ state, ContentRules.NoCeiling (change.outcome state).1

theorem NoCeiling.bind {change : Change α} {next : α → Change β} (hchange : change.NoCeiling)
    (hnext : ∀ result, (next result).NoCeiling) : (change >>= next).NoCeiling := by
  intro state
  rw [outcome_bind]
  rcases houtcome : change.outcome state with ⟨error | result, after⟩
  · have herror := hchange state
    rw [houtcome] at herror
    exact herror
  · exact hnext result after

theorem noCeiling_pure (result : α) : (pure result : Change α).NoCeiling :=
  fun _ => trivial

theorem NoCeiling.discard {change : Change α} (hchange : change.NoCeiling) :
    (discard change : Change Unit).NoCeiling := by
  intro state
  rw [outcome_discard]
  exact (hchange state).discard

theorem noCeiling_raise {cause : Cause} (hcause : ∀ ceiling, cause ≠ .limitExceeded ceiling) :
    (cause.raise : Change α).NoCeiling :=
  fun _ => .of_cause hcause

theorem noCeiling_lift {outcome : Except Error α} (houtcome : ContentRules.NoCeiling outcome) :
    (liftM outcome : Change α).NoCeiling := by
  intro state
  rw [outcome_lift]
  exact houtcome

theorem noCeiling_nodes : nodes.NoCeiling :=
  fun _ => trivial

theorem noCeiling_update (f : NodeStore → NodeStore) : (update f).NoCeiling :=
  fun _ => trivial

theorem noCeiling_drawNode (store : StoreRef) : (drawNode store).NoCeiling :=
  fun _ => trivial

theorem noCeiling_recordOf (node : NodeRef) : (recordOf node).NoCeiling :=
  noCeiling_nodes.bind fun nodes => noCeiling_lift (nodes.noCeiling_recordOf node)

theorem noCeiling_forM {items : List α} {body : α → Change Unit}
    (hbody : ∀ item, (body item).NoCeiling) : (items.forM body).NoCeiling := by
  induction items with
  | nil => exact noCeiling_pure ()
  | cons item items ih => exact (hbody item).bind fun _ => ih

theorem noCeiling_unless {condition : Prop} [Decidable condition] {change : Change PUnit}
    (hchange : change.NoCeiling) : (unless condition do change : Change PUnit).NoCeiling := by
  split
  · exact noCeiling_pure _
  · exact hchange

/-- A change does not fail at a ceiling if it only checks a condition before it goes on. -/
theorem noCeiling_guarded {condition : Prop} [Decidable condition] {cause : Cause}
    {rest : Change α} (hcause : ∀ ceiling, cause ≠ .limitExceeded ceiling)
    (hrest : rest.NoCeiling) :
    (if condition then cause.raise >>= fun _ : PUnit => rest else rest).NoCeiling := by
  split
  · exact (noCeiling_raise hcause).bind fun _ => hrest
  · exact hrest

/-! ### The changes of the store -/

theorem noCeiling_createStore (protocol identifier : String) :
    (createStore protocol identifier).NoCeiling := by
  unfold createStore
  refine noCeiling_nodes.bind fun nodes => ?_
  exact noCeiling_guarded (by nofun) ((noCeiling_drawNode _).bind fun _ =>
    (noCeiling_update _).bind fun _ => noCeiling_pure _)

theorem noCeiling_createNode (parent : NodeRef) (relation name nodeType : QualifiedName)
    (properties : List (QualifiedName × Value)) :
    (createNode parent relation name nodeType properties).NoCeiling :=
  (noCeiling_recordOf parent).discard.bind fun _ => (noCeiling_drawNode _).bind fun _ =>
    (noCeiling_update _).bind fun _ => noCeiling_pure _

theorem noCeiling_deleteNode (node : NodeRef) : (deleteNode node).NoCeiling := by
  unfold deleteNode
  refine (noCeiling_recordOf node).discard.bind fun _ => noCeiling_nodes.bind fun nodes => ?_
  exact noCeiling_guarded (by nofun) (noCeiling_update _)

theorem noCeiling_moveNode (node parent : NodeRef) (relation name : QualifiedName) :
    (moveNode node parent relation name).NoCeiling := by
  unfold moveNode
  refine (noCeiling_recordOf node).discard.bind fun _ =>
    (noCeiling_recordOf parent).discard.bind fun _ => noCeiling_nodes.bind fun nodes =>
      (noCeiling_lift (nodes.noCeiling_ancestorsOf parent)).bind fun path => ?_
  refine noCeiling_guarded (by nofun) ?_
  split
  · exact noCeiling_raise (by nofun)
  · exact (noCeiling_update _).bind fun _ => noCeiling_pure _

theorem noCeiling_copyAlone (source parent : NodeRef) (relation name : QualifiedName)
    (deep : Bool) : (copyAlone source parent relation name deep).NoCeiling := by
  unfold copyAlone
  refine (noCeiling_recordOf source).bind fun record =>
    (noCeiling_recordOf parent).discard.bind fun _ => noCeiling_nodes.bind fun nodes =>
      (noCeiling_lift (nodes.noCeiling_ancestorsOf parent)).bind fun path => ?_
  exact noCeiling_guarded (by nofun) ((noCeiling_drawNode _).bind fun _ =>
    (noCeiling_update _).bind fun _ => noCeiling_pure _)

theorem noCeiling_copyLevels (levels : Nat) (source parent : NodeRef)
    (relation name : QualifiedName) :
    (copyLevels levels source parent relation name).NoCeiling := by
  induction levels generalizing source parent relation name with
  | zero => exact noCeiling_copyAlone source parent relation name false
  | succ levels ih =>
      refine noCeiling_nodes.bind fun nodes => (noCeiling_copyAlone _ _ _ _ _).bind fun copy => ?_
      exact (noCeiling_forM fun child => (ih _ _ _ _).discard).bind fun _ => noCeiling_pure _

theorem noCeiling_addAspect (node : NodeRef) (aspect : QualifiedName)
    (properties : List (QualifiedName × Value)) : (addAspect node aspect properties).NoCeiling := by
  unfold addAspect
  refine (noCeiling_recordOf node).bind fun record => ?_
  dsimp only
  refine (noCeiling_update _).bind fun _ => ?_
  have hlast (changed : List QualifiedName) : (unless changed.isEmpty do
      update fun nodes => nodes.note (.propertiesUpdated node changed) : Change PUnit).NoCeiling :=
    noCeiling_unless (noCeiling_update _)
  split
  · exact hlast _
  · exact (noCeiling_update _).bind fun _ => hlast _

theorem noCeiling_setProperties (node : NodeRef) (properties : List (QualifiedName × Value)) :
    (setProperties node properties).NoCeiling := by
  unfold setProperties
  refine (noCeiling_recordOf node).bind fun record => (noCeiling_update _).bind fun _ => ?_
  exact noCeiling_unless (noCeiling_update _)

theorem noCeiling_removeAspect (node : NodeRef) (aspect : QualifiedName) :
    (removeAspect node aspect).NoCeiling := by
  unfold removeAspect
  refine (noCeiling_recordOf node).bind fun record => ?_
  split
  · exact (noCeiling_update _).bind fun _ => noCeiling_pure _
  · exact noCeiling_pure _

theorem noCeiling_removeProperty (node : NodeRef) (name : QualifiedName) :
    (removeProperty node name).NoCeiling := by
  unfold removeProperty
  refine (noCeiling_recordOf node).bind fun record => ?_
  dsimp only
  split
  · exact (noCeiling_update _).bind fun _ => noCeiling_pure _
  · exact noCeiling_pure _

theorem noCeiling_createAssociation (source target : NodeRef) (relation : QualifiedName) :
    (createAssociation source target relation).NoCeiling := by
  unfold createAssociation
  refine (noCeiling_recordOf source).discard.bind fun _ =>
    (noCeiling_recordOf target).discard.bind fun _ => ?_
  dsimp only
  refine noCeiling_nodes.bind fun nodes => ?_
  split
  · exact noCeiling_pure _
  · exact (noCeiling_update _).bind fun _ => noCeiling_pure _

theorem noCeiling_removeAssociation (source target : NodeRef) (relation : QualifiedName) :
    (removeAssociation source target relation).NoCeiling := by
  unfold removeAssociation
  dsimp only
  refine noCeiling_nodes.bind fun nodes => ?_
  split
  · exact noCeiling_update _
  · exact (noCeiling_raise (by nofun)).bind fun _ => noCeiling_update _

end Change

/-- No edit fails at a ceiling. -/
theorem Edit.noCeiling_run (change : Edit) (state : StoreState) :
    NoCeiling (change.run state).1 := by
  have hperform : change.perform.NoCeiling := by
    cases change with
    | createStore => exact Change.noCeiling_createStore _ _
    | createNode => exact Change.noCeiling_createNode _ _ _ _ _
    | deleteNode => exact Change.noCeiling_deleteNode _
    | moveNode => exact Change.noCeiling_moveNode _ _ _ _
    | copyNode => exact Change.noCeiling_nodes.bind fun _ => Change.noCeiling_copyLevels _ _ _ _ _
    | addAspect => exact Change.noCeiling_addAspect _ _ _
    | removeAspect => exact Change.noCeiling_removeAspect _ _
    | setProperties => exact Change.noCeiling_setProperties _ _
    | removeProperty => exact Change.noCeiling_removeProperty _ _
    | createAssociation => exact Change.noCeiling_createAssociation _ _ _
    | removeAssociation => exact Change.noCeiling_removeAssociation _ _ _
  exact hperform state

end ContentRules
