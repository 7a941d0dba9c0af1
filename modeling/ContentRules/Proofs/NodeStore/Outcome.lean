import ContentRules.NodeStore.Edit

/-!
# What a change comes to

A change is a function of the state that it is run on: `outcome` is what it answers and the state
that it leaves.  The equations below take a change apart along its steps, so that what is said of
the changes of the store is said of a composition of functions on states.
-/

namespace ContentRules.Change

variable {α β : Type}

/-- What a change answers, and the state that it leaves. -/
def outcome (change : Change α) (state : StoreState) : Except Error α × StoreState :=
  change.run.run state

/-! ## Compositions -/

@[simp] theorem outcome_pure (result : α) (state : StoreState) :
    outcome (pure result) state = (.ok result, state) := rfl

/-- An error ends a sequence of changes; what was done before it stays done. -/
theorem outcome_bind (change : Change α) (next : α → Change β) (state : StoreState) :
    outcome (change >>= next) state =
      match change.outcome state with
      | (.ok result, after) => (next result).outcome after
      | (.error error, after) => (.error error, after) := by
  rcases hchange : change.outcome state with ⟨answer, after⟩
  unfold outcome at hchange ⊢
  rw [ExceptT.run_bind, StateT.run_bind, hchange]
  cases answer <;> rfl

@[simp] theorem outcome_map (f : α → β) (change : Change α) (state : StoreState) :
    outcome (f <$> change) state =
      ((change.outcome state).1.map f, (change.outcome state).2) := by
  rcases hchange : change.outcome state with ⟨answer, after⟩
  unfold outcome at hchange ⊢
  rw [ExceptT.run_map, StateT.run_map, hchange]
  cases answer <;> rfl

@[simp] theorem outcome_discard (change : Change α) (state : StoreState) :
    outcome (discard change) state =
      ((change.outcome state).1.map fun _ => (), (change.outcome state).2) :=
  outcome_map _ change state

theorem outcome_ite (condition : Prop) [Decidable condition] (first second : Change α)
    (state : StoreState) :
    outcome (if condition then first else second) state =
      if condition then first.outcome state else second.outcome state := by
  split <;> rfl

/-! ## Single steps -/

@[simp] theorem outcome_raise (cause : Cause) (state : StoreState) :
    outcome (cause.raise : Change α) state = (.error { cause }, state) := rfl

@[simp] theorem outcome_lift (answer : Except Error α) (state : StoreState) :
    outcome (liftM answer : Change α) state = (answer, state) := by
  cases answer <;> rfl

@[simp] theorem outcome_nodes (state : StoreState) :
    nodes.outcome state = (.ok state.nodes, state) := rfl

@[simp] theorem outcome_update (f : NodeStore → NodeStore) (state : StoreState) :
    (update f).outcome state = (.ok (), { state with nodes := f state.nodes }) := rfl

@[simp] theorem outcome_drawNode (store : StoreRef) (state : StoreState) :
    (drawNode store).outcome state =
      (.ok ⟨store, state.ids.draw.1⟩, { state with ids := state.ids.draw.2 }) := rfl

@[simp] theorem outcome_recordOf (node : NodeRef) (state : StoreState) :
    (recordOf node).outcome state = (state.nodes.recordOf node, state) := by
  simp [recordOf, outcome_bind]

end ContentRules.Change

namespace ContentRules.Edit

theorem run_eq_outcome (edit : Edit) (state : StoreState) :
    edit.run state = edit.perform.outcome state := rfl

end ContentRules.Edit
