import Mathlib.Data.Finset.Basic
import ContentRules.Proofs.NodeStore.Peers

/-!
# Replayed events

The events that edits record tell of every change of a place and of a peer association.  Whoever
knew all places and all associations before, and reads the events in order, knows them afterwards
(`StoreState.replay_of_reachable`), though the removal of a whole tree is told in one event and a
copy of it in many.

**Strategy.**  `Arrangement` holds what such a reader knows, and `Arrangement.replay` what it makes of an
event.  A removal is the only event that tells of less than was done: which nodes lay beneath the
one removed is read off the places known at that moment.  In a linked store the places settle it,
and as many steps up as there are places are enough (`Linked.isBeneath_iff`).  So each recorded
change takes the arrangement before it to the one after it (`Logs.replay`), and the rest is an induction
on the changes.
-/

namespace ContentRules

/-- Where nodes are, and how they are joined: the place of each node that has one, and all peer
associations. -/
@[ext]
structure Arrangement where
  parents : Std.ExtTreeMap NodeRef ChildAssociation
  peers : Finset PeerAssociation

namespace Arrangement

/-- The node and those met on the way up from it, at most `steps` of them. -/
def upward (arrangement : Arrangement) : Nat → NodeRef → List NodeRef
  | 0, node => [node]
  | steps + 1, node =>
    match arrangement.parents[node]? with
    | some place => node :: arrangement.upward steps place.parent
    | none => [node]

/-- The node is `top`, or lies somewhere beneath it. -/
def isBeneath (arrangement : Arrangement) (top node : NodeRef) : Bool :=
  top ∈ arrangement.upward arrangement.parents.size node

/-- What is known after an event.  An event of a node that came, was copied or was moved tells its
place; one of a removed node tells that it and all nodes beneath it are gone, with every association
from or to one of them. -/
def replay (arrangement : Arrangement) : NodeEvent → Arrangement
  | .created place | .copied _ place | .moved _ place =>
    { arrangement with parents := arrangement.parents.insert place.child place }
  | .deleted node _ =>
    { parents := arrangement.parents.filter fun other _ => !arrangement.isBeneath node other
      peers := arrangement.peers.filter fun assoc =>
        !arrangement.isBeneath node assoc.source ∧ !arrangement.isBeneath node assoc.target }
  | .associationCreated assoc => { arrangement with peers := insert assoc arrangement.peers }
  | .associationRemoved assoc => { arrangement with peers := arrangement.peers.erase assoc }
  | .propertiesUpdated .. | .aspectAdded .. | .aspectRemoved .. => arrangement

end Arrangement

namespace NodeStore

variable {nodes : NodeStore}

/-- Where the nodes are now, and how they are joined. -/
def arrangement (nodes : NodeStore) : Arrangement where
  parents := nodes.parents
  peers := (nodes.targets.toList.flatMap Prod.snd).toFinset

/-! ## What is read off places -/

/-- A way up has no more steps than there are places. -/
theorem Climbs.length_le_places {node : NodeRef} {path : List NodeRef}
    (hclimbs : nodes.Climbs node path) : path.length ≤ nodes.parents.size := by
  -- All nodes on the way have places, but the one where it ends.
  have hplaced : (node :: path).dropLast ⊆ nodes.parents.keys := by
    induction hclimbs with
    | top => simp
    | up hplace _ ih =>
        rw [List.dropLast_cons_of_ne_nil (List.cons_ne_nil _ _), List.cons_subset]
        refine ⟨?_, ih⟩
        rw [Std.ExtTreeMap.mem_keys, Std.ExtTreeMap.mem_iff_isSome_getElem?, hplace]
        rfl
  have hnodup : (node :: path).Nodup := List.nodup_cons.mpr ⟨hclimbs.not_mem, hclimbs.nodup⟩
  calc path.length = (node :: path).dropLast.length := by simp
    _ ≤ nodes.parents.keys.length :=
        (hnodup.sublist (List.dropLast_sublist _)).length_le_of_subset hplaced
    _ = nodes.parents.size := Std.ExtTreeMap.length_keys

theorem Climbs.upward_eq {node : NodeRef} {path : List NodeRef} (hclimbs : nodes.Climbs node path) :
    ∀ {steps : Nat}, path.length ≤ steps → nodes.arrangement.upward steps node = node :: path := by
  induction hclimbs with
  | @top node hplace =>
      intro steps _
      have hnone : nodes.arrangement.parents[node]? = none := hplace
      cases steps with
      | zero => rfl
      | succ steps => simp [Arrangement.upward, hnone]
  | @up node place path hplace _ ih =>
      intro steps hsteps
      have hsome : nodes.arrangement.parents[node]? = some place := hplace
      cases steps with
      | zero => simp at hsteps
      | succ steps =>
          simp only [Arrangement.upward, hsome]
          rw [ih (Nat.le_of_succ_le_succ hsteps)]

/-- Every node has a way up, also one that does not exist, which has no place. -/
theorem Linked.exists_climbs_of_any (hlinked : nodes.Linked) (node : NodeRef) :
    ∃ path, nodes.Climbs node path := by
  by_cases hnode : nodes.hasNode node
  · exact hlinked.exists_climbs hnode
  · exact ⟨[], .top (hlinked.parents_of_not_hasNode hnode)⟩

/-- The places settle what lies beneath a node. -/
theorem Linked.isBeneath_iff (hlinked : nodes.Linked) {top node : NodeRef} :
    nodes.arrangement.isBeneath top node ↔ nodes.Within top node := by
  obtain ⟨path, hclimbs⟩ := hlinked.exists_climbs_of_any node
  have hupward : nodes.arrangement.upward nodes.parents.size node = node :: path :=
    hclimbs.upward_eq hclimbs.length_le_places
  have hway : (∃ other, nodes.Climbs node other ∧ top ∈ other) ↔ top ∈ path := by
    constructor
    · rintro ⟨other, hother, hmem⟩
      rwa [hclimbs.unique hother]
    · intro hmem
      exact ⟨path, hclimbs, hmem⟩
  rw [Arrangement.isBeneath, decide_eq_true_iff, Within, hway]
  show top ∈ nodes.arrangement.upward nodes.parents.size node ↔ _
  rw [hupward, List.mem_cons, eq_comm]

theorem Paired.mem_peers_iff (hpaired : nodes.Paired) {assoc : PeerAssociation} :
    assoc ∈ nodes.arrangement.peers ↔ assoc ∈ nodes.targets.itemsOf assoc.source := by
  simp only [arrangement, List.mem_toFinset, List.mem_flatMap]
  constructor
  · rintro ⟨⟨node, found⟩, hstored, hmem⟩
    rw [Std.ExtTreeMap.mem_toList_iff_getElem?_eq_some] at hstored
    obtain ⟨rfl, -⟩ := hpaired.targets.of_getElem? hstored
    exact (hpaired.mem_targets_iff.mp hmem).2
  · intro hmem
    obtain ⟨found, hstored⟩ : ∃ found, nodes.targets[assoc.source]? = some found := by
      rw [← Option.isSome_iff_exists]
      by_contra hnone
      rw [NodeIndex.itemsOf_eq, Option.not_isSome_iff_eq_none.mp hnone] at hmem
      cases hmem
    refine ⟨⟨assoc.source, found⟩, Std.ExtTreeMap.mem_toList_iff_getElem?_eq_some.mpr hstored, ?_⟩
    rwa [(hpaired.targets.of_getElem? hstored).1] at hmem

end NodeStore

/-! ## Changes and their events -/

namespace StoreState

variable {state after : StoreState} {event : NodeEvent} {events : List NodeEvent}

/-- A change is known from its event. -/
theorem Logs.replay (hlogs : state.Logs event after) (hsound : state.Sound)
    (hpaired : state.nodes.Paired) :
    state.nodes.arrangement.replay event = after.nodes.arrangement := by
  have hlinked := hsound.wellFormed
  have hlater := hlogs.steps.paired hpaired
  cases hlogs with
  | attach assoc record hparent hchild hevent =>
      rcases hevent with rfl | ⟨source, rfl⟩ <;> rfl
  | @remove node hnode hroot =>
      have hbeneath (other : NodeRef) (hother : state.nodes.hasNode other) :
          state.nodes.arrangement.isBeneath node other = false ↔
            (state.nodes.removeTree node).hasNode other := by
        rw [hlinked.hasNode_removeTree hnode, and_iff_right hother, ← hlinked.isBeneath_iff,
          Bool.not_eq_true]
      refine Arrangement.ext (Std.ExtTreeMap.ext_getElem? ?_) (Finset.ext ?_)
      · intro other
        show (Std.ExtTreeMap.filter _ state.nodes.parents)[other]? =
          (state.nodes.removeTree node).parents[other]?
        rw [Std.ExtTreeMap.getElem?_filter', hlinked.parents_removeTree hnode]
        by_cases hwithin : state.nodes.Within node other
        · simp [hwithin, hlinked.isBeneath_iff.mpr hwithin]
        · rw [if_neg hwithin]
          cases state.nodes.parents[other]? with
          | none => rfl
          | some place => simp [mt hlinked.isBeneath_iff.mp hwithin]
      · intro assoc
        have hleft : assoc ∈ (state.nodes.removeTree node).targets.itemsOf assoc.source ↔
            assoc ∈ state.nodes.targets.itemsOf assoc.source ∧
              (state.nodes.removeTree node).hasEnds assoc := by
          rw [(hpaired.itemsOf_removeTree node assoc.source).1, List.mem_filter]
        rw [hlater.mem_peers_iff, Arrangement.replay, Finset.mem_filter, hpaired.mem_peers_iff]
        refine Iff.trans (and_congr_right fun hjoined => ?_) hleft.symm
        obtain ⟨hsource, htarget⟩ := hpaired.hasNode hjoined
        simp [NodeStore.hasEnds, ← hbeneath _ hsource, ← hbeneath _ htarget]
  | @move destination origin hnode hparent hout horigin =>
      refine Arrangement.ext (Std.ExtTreeMap.ext_getElem? ?_) rfl
      intro other
      show (state.nodes.parents.insert destination.child destination)[other]? =
        ((state.nodes.unlink origin).link destination).parents[other]?
      rw [NodeStore.parents_link, NodeStore.parents_unlink, hlinked.place_child horigin,
        Std.ExtTreeMap.getElem?_insert]
      by_cases hother : destination.child = other <;> simp [hother]
  | amend node record event hnode habout hevent =>
      cases event with
      | propertiesUpdated | aspectAdded | aspectRemoved => rfl
      | _ => cases hevent
  | @join assoc hsource htarget hapart =>
      refine Arrangement.ext rfl (Finset.ext ?_)
      intro other
      have hmore : other ∈ (state.nodes.targets.push assoc.source assoc).itemsOf other.source ↔
          other = assoc ∨ other ∈ state.nodes.targets.itemsOf other.source := by
        rw [NodeIndex.itemsOf_push]
        by_cases hother : other = assoc
        · simp [hother]
        · split <;> simp [hother]
      rw [hlater.mem_peers_iff, Arrangement.replay, Finset.mem_insert, hpaired.mem_peers_iff]
      exact hmore.symm
  | @part assoc hjoined =>
      refine Arrangement.ext rfl (Finset.ext ?_)
      intro other
      have hless : other ∈ (state.nodes.targets.removeWhere assoc.source (· = assoc)).itemsOf
          other.source ↔ other ≠ assoc ∧ other ∈ state.nodes.targets.itemsOf other.source := by
        rw [hpaired.targets.itemsOf_removeWhere_eq, List.mem_filter, decide_eq_true_iff, and_comm]
      rw [hlater.mem_peers_iff, Arrangement.replay, Finset.mem_erase, hpaired.mem_peers_iff]
      exact hless.symm

/-- Changes are known from their events. -/
theorem Logged.replay (hlogged : state.Logged events after) (hsound : state.Sound)
    (hpaired : state.nodes.Paired) :
    events.foldl Arrangement.replay state.nodes.arrangement = after.nodes.arrangement := by
  induction hlogged with
  | nil => rfl
  | cons hlogs _ ih =>
      rw [List.foldl_cons, hlogs.replay hsound hpaired]
      exact ih (hsound.steps hlogs.steps) (hlogs.steps.paired hpaired)

/-- The state after edits that follow one another, some of which may fail. -/
def edited (state : StoreState) (edits : List Edit) : StoreState :=
  edits.foldl (fun state edit => (edit.run state).2) state

theorem Sound.logged_edited (hsound : state.Sound) {edits : List Edit}
    (hedits : ∀ edit ∈ edits, ¬ edit.foundsStore) :
    ∃ events, state.Logged events (state.edited edits) := by
  induction edits generalizing state with
  | nil => exact ⟨[], .nil state⟩
  | cons edit edits ih =>
      obtain ⟨hfirst, hrest⟩ := List.forall_mem_cons.mp hedits
      obtain ⟨events, hlogged⟩ := hsound.logged_run hfirst
      obtain ⟨more, hothers⟩ := ih (hsound.steps hlogged.steps) hrest
      exact ⟨events ++ more, hlogged.append hothers⟩

/-- **The events tell all about places and associations.**  Let no events wait in a state that
edits led to, and let any edits follow that make no stores, whichever of them fail.  Then reading
the events recorded, in order, takes the places and the associations before them to those after
them. -/
theorem replay_of_reachable (hreachable : state.Reachable) (hnone : state.nodes.events = [])
    {edits : List Edit} (hedits : ∀ edit ∈ edits, ¬ edit.foundsStore) :
    (state.edited edits).nodes.events.foldl Arrangement.replay state.nodes.arrangement =
      (state.edited edits).nodes.arrangement := by
  obtain ⟨events, hlogged⟩ := hreachable.sound.logged_edited hedits
  rw [hlogged.events_eq, hnone, List.nil_append]
  exact hlogged.replay hreachable.sound hreachable.paired

/-- Where five associations joined the nodes, a tree is copied and then removed, a copy is moved and
joined with itself, and the root is not removed.  Two associations are left, and five events tell of
it all. -/
theorem replay_joined :
    let node (id : String) : NodeRef := ⟨⟨"workspace", "main"⟩, id⟩
    let name : QualifiedName := { space := "model", localName := "contains" }
    let start : StoreState := { joined with nodes := joined.nodes.takeEvents.2 }
    let edits : List Edit :=
      [.copyNode (node "u2") (node "u4") name name true, .deleteNode (node "u2"),
        .moveNode (node "u5") (node "u1") name name,
        .createAssociation (node "u5") (node "u5") name, .deleteNode (node "u1")]
    start.Reachable ∧ start.nodes.events = [] ∧ (∀ edit ∈ edits, ¬ edit.foundsStore) ∧
      (start.edited edits).nodes.events.map NodeEvent.kind =
        [.nodeCopied, .nodeCopied, .nodeDeleted, .nodeMoved, .associationCreated] ∧
      (start.edited edits).nodes.arrangement.peers =
        {⟨node "u4", node "u1", name⟩, ⟨node "u5", node "u5", name⟩} ∧
      (start.edited edits).nodes.events.foldl Arrangement.replay start.nodes.arrangement =
        (start.edited edits).nodes.arrangement := by
  intro node name start edits
  have hreachable : start.Reachable := ((Reachable.empty _).edits _).takeEvents
  have hedits : ∀ edit ∈ edits, ¬ edit.foundsStore := by simp [edits, Edit.foundsStore]
  have hnone : start.nodes.events = [] := rfl
  have hkinds : (start.edited edits).nodes.events.map NodeEvent.kind =
      [.nodeCopied, .nodeCopied, .nodeDeleted, .nodeMoved, .associationCreated] := by
    decide +kernel
  have hpeers : (start.edited edits).nodes.arrangement.peers =
      {⟨node "u4", node "u1", name⟩, ⟨node "u5", node "u5", name⟩} := by
    decide +kernel
  have hreplay := replay_of_reachable hreachable hnone hedits
  exact ⟨hreachable, hnone, hedits, hkinds, hpeers, hreplay⟩

end StoreState

end ContentRules
