import ContentRules.Proofs.NodeStore.Recorded

/-!
# Changes with the events that record them

A change checks its nodes before it does anything, and its events tell of all that it does.  `Logs`
lists what is done to the nodes together with the event that records it, and `Logged` is a sequence
of such doings with their events.  `Change.AllOrNothing` says of a change on a state that it fails
and leaves the state, or succeeds and leaves one that is reached by such a sequence.
-/

namespace ContentRules

/-! ## Recorded changes -/

/-- The event is about what a node holds, and not about where nodes are or how they are joined. -/
def NodeEvent.isContent : NodeEvent → Bool
  | propertiesUpdated .. | aspectAdded .. | aspectRemoved .. => true
  | _ => false

/-- What is done to the nodes, with the event that records it. -/
inductive StoreState.Logs : StoreState → NodeEvent → StoreState → Prop
  | attach {state : StoreState} (assoc : ChildAssociation) (record : NodeRecord) {event : NodeEvent}
      (hparent : state.nodes.hasNode assoc.parent)
      (hchild : assoc.child = ⟨assoc.parent.store, state.ids.draw.1⟩)
      (hevent : event = .created assoc ∨ ∃ source, event = .copied source assoc) :
      Logs state event
        { ids := state.ids.draw.2
          nodes := ((state.nodes.putRecord assoc.child record).link assoc).note event }
  | remove {state : StoreState} {node : NodeRef} (hnode : state.nodes.hasNode node)
      (hroot : ¬ state.nodes.isRoot node) :
      Logs state (.deleted node state.nodes.parents[node]?)
        { state with
          nodes := (state.nodes.removeTree node).note (.deleted node state.nodes.parents[node]?) }
  | move {state : StoreState} (destination : ChildAssociation) {origin : ChildAssociation}
      (hnode : state.nodes.hasNode destination.child)
      (hparent : state.nodes.hasNode destination.parent)
      (hout : destination.child ∉
        destination.parent :: state.nodes.climb state.nodes.size destination.parent)
      (horigin : state.nodes.parents[destination.child]? = some origin) :
      Logs state (.moved origin destination)
        { state with
          nodes :=
            ((state.nodes.unlink origin).link destination).note (.moved origin destination) }
  | amend {state : StoreState} (node : NodeRef) (record : NodeRecord) (event : NodeEvent)
      (hnode : state.nodes.hasNode node) (habout : event.node = node)
      (hevent : event.isContent) :
      Logs state event { state with nodes := (state.nodes.putRecord node record).note event }
  | join {state : StoreState} {assoc : PeerAssociation}
      (hsource : state.nodes.hasNode assoc.source) (htarget : state.nodes.hasNode assoc.target)
      (hapart : assoc ∉ state.nodes.targets.itemsOf assoc.source) :
      Logs state (.associationCreated assoc)
        { state with
          nodes :=
            { state.nodes with
              targets := state.nodes.targets.push assoc.source assoc
              sources := state.nodes.sources.push assoc.target assoc }.note
                (.associationCreated assoc) }
  | part {state : StoreState} {assoc : PeerAssociation}
      (hjoined : assoc ∈ state.nodes.targets.itemsOf assoc.source) :
      Logs state (.associationRemoved assoc)
        { state with
          nodes :=
            { state.nodes with
              targets := state.nodes.targets.removeWhere assoc.source (· = assoc)
              sources := state.nodes.sources.removeWhere assoc.target (· = assoc) }.note
                (.associationRemoved assoc) }

/-- A number of recorded changes, with their events in order. -/
inductive StoreState.Logged : StoreState → List NodeEvent → StoreState → Prop
  | nil (state : StoreState) : Logged state [] state
  | cons {state middle after : StoreState} {event : NodeEvent} {events : List NodeEvent}
      (hfirst : state.Logs event middle) (hrest : Logged middle events after) :
      Logged state (event :: events) after

namespace StoreState

variable {state middle after : StoreState} {event : NodeEvent} {events more : List NodeEvent}

theorem Logs.steps (hlogs : state.Logs event after) : state.Steps after := by
  cases hlogs with
  | attach assoc record hparent hchild hevent =>
      exact .single (.attach assoc record hparent hchild hevent)
  | remove hnode hroot => exact .single (.remove hnode hroot)
  | move destination hnode hparent hout horigin =>
      exact .single (.move destination hnode hparent hout horigin)
  | amend node record event hnode habout hevent =>
      have hkept : (state.nodes.putRecord node record).hasNode event.node :=
        (NodeStore.hasNode_putRecord ..).mpr (.inl habout.symm)
      have hnew : event.newNode? = none := by
        cases event with
        | propertiesUpdated | aspectAdded | aspectRemoved => rfl
        | _ => cases hevent
      exact .head (.amend hnode) (.single (.tell hkept hnew))
  | join hsource htarget hapart => exact .single (.join hsource htarget hapart)
  | part hjoined => exact .single (.part hjoined)

theorem Logs.events_eq (hlogs : state.Logs event after) :
    after.nodes.events = state.nodes.events ++ [event] := by
  cases hlogs with
  | remove => exact congrArg (· ++ [_]) (state.nodes.events_removeTree _)
  | attach | move | amend | join | part => rfl

namespace Logged

theorem single (hlogs : state.Logs event after) : state.Logged [event] after :=
  .cons hlogs (.nil after)

theorem append (hfirst : state.Logged events middle) (hrest : middle.Logged more after) :
    state.Logged (events ++ more) after := by
  induction hfirst with
  | nil => exact hrest
  | cons hlogs _ ih => exact .cons hlogs (ih hrest)

theorem steps (hlogged : state.Logged events after) : state.Steps after := by
  induction hlogged with
  | nil => exact .refl
  | cons hlogs _ ih => exact hlogs.steps.trans ih

theorem events_eq (hlogged : state.Logged events after) :
    after.nodes.events = state.nodes.events ++ events := by
  induction hlogged with
  | nil => exact (List.append_nil _).symm
  | cons hlogs _ ih => rw [ih, hlogs.events_eq, List.append_assoc, List.singleton_append]

/-- Without an event, nothing was done. -/
theorem eq_of_events_eq (hlogged : state.Logged events after)
    (hevents : after.nodes.events = state.nodes.events) : after = state := by
  have hnone : events = [] := by
    rw [hlogged.events_eq] at hevents
    exact List.append_right_eq_self.mp hevents
  subst hnone
  cases hlogged
  rfl

end Logged

end StoreState

/-! ## Changes -/

namespace Change

open StoreState

variable {α : Type} {state : StoreState}

/-- The change fails and leaves the state as it is, or it succeeds, and events record all that it
does. -/
def AllOrNothing (change : Change α) (state : StoreState) : Prop :=
  (∃ error, change.outcome state = (.error error, state)) ∨
    ∃ result events after, change.outcome state = (.ok result, after) ∧ state.Logged events after

theorem AllOrNothing.failed {change : Change α} (error : Error)
    (houtcome : change.outcome state = (.error error, state)) : change.AllOrNothing state :=
  .inl ⟨error, houtcome⟩

/-- Nothing was to be done. -/
theorem AllOrNothing.idle {change : Change α} (result : α)
    (houtcome : change.outcome state = (.ok result, state)) : change.AllOrNothing state :=
  .inr ⟨result, [], state, houtcome, .nil state⟩

theorem AllOrNothing.logged {change : Change α} {event : NodeEvent} {after : StoreState}
    (result : α) (houtcome : change.outcome state = (.ok result, after))
    (hlogs : state.Logs event after) : change.AllOrNothing state :=
  .inr ⟨result, [event], after, houtcome, .single hlogs⟩

theorem AllOrNothing.of_recordOf {node : NodeRef} {next : NodeRecord → Change α}
    (hnext : ∀ record, state.nodes.recordOf node = .ok record → (next record).AllOrNothing state) :
    (recordOf node >>= next).AllOrNothing state := by
  rcases outcome_recordOf_bind node next state with ⟨error, houtcome⟩ | ⟨record, hrecord, houtcome⟩
  · exact .failed error houtcome
  · unfold AllOrNothing
    rw [houtcome]
    exact hnext record hrecord

theorem AllOrNothing.of_check {node : NodeRef} {next : Unit → Change α}
    (hnext : state.nodes.hasNode node → (next ()).AllOrNothing state) :
    (discard (recordOf node) >>= next).AllOrNothing state := by
  rcases outcome_check_bind node next state with ⟨error, houtcome⟩ | ⟨hnode, houtcome⟩
  · exact .failed error houtcome
  · unfold AllOrNothing
    rw [houtcome]
    exact hnext hnode

end Change

end ContentRules
