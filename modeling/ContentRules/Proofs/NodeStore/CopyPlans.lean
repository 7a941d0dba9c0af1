import ContentRules.Proofs.NodeStore.Atomic
import ContentRules.Proofs.NodeStore.Preorder

/-!
# Copying according to a plan

A copy of a tree is made node by node, and each step reads the store that the steps before it have
written.  A `CopyPlan` says beforehand where the copy of each node will stand and what it will hold.
Copying the tree is then nothing but carrying out the plan for its nodes in preorder
(`CopyPlan.Fits.foresees`).

**Strategy.**  The tree to copy stays what it is while the copies are made, since they are new and
stand outside it (`KeepsTree`).  So each step reads what was there at the beginning.  The induction
is on the number of levels, and beneath one node on its children; the ids that are left to be drawn
are split as the preorder is split.  What a store holds when a plan has been carried out is told
node by node then: see the lemmas on `carryOut`.
-/

namespace ContentRules

/-- The supply after so many more ids have been drawn. -/
def IdSupply.skip (ids : IdSupply) (count : Nat) : IdSupply :=
  { ids with drawn := ids.drawn + count }

/-- The next nodes of a store for which ids are drawn. -/
def IdSupply.upcoming (ids : IdSupply) (store : StoreRef) (count : Nat) : List NodeRef :=
  (List.range' ids.drawn count).map fun number => ⟨store, ids.idAt number⟩

/-- What a copy of a node with this record holds. -/
def NodeRecord.copiedFrom (record : NodeRecord) (source : NodeRef) : NodeRecord :=
  { record with
    aspects := record.aspects.insert Vocabulary.copiedFromAspect
    properties := record.properties.insert Vocabulary.copyReferenceProperty (.node source) }

/-- For each node the place of its copy and what the copy holds. -/
structure CopyPlan where
  place : NodeRef → ChildAssociation
  record : NodeRef → NodeRecord

namespace CopyPlan

/-- The copy of a node. -/
def copyOf (plan : CopyPlan) (source : NodeRef) : NodeRef :=
  (plan.place source).child

/-- Makes the copy of one node. -/
def attach (plan : CopyPlan) (state : StoreState) (source : NodeRef) : StoreState :=
  { ids := state.ids.draw.2
    nodes :=
      ((state.nodes.putRecord (plan.copyOf source) (plan.record source)).link
        (plan.place source)).note (.copied source (plan.place source)) }

/-- Makes the copies of nodes in order. -/
def carryOut (plan : CopyPlan) (state : StoreState) (sources : List NodeRef) : StoreState :=
  sources.foldl plan.attach state

end CopyPlan

namespace IdSupply

variable (ids : IdSupply) (store : StoreRef)

theorem skip_succ (count : Nat) : ids.skip (count + 1) = ids.draw.2.skip count := by
  simp only [skip, draw, Nat.add_assoc, Nat.add_comm count]

@[simp] theorem length_upcoming (count : Nat) : (ids.upcoming store count).length = count := by
  simp [upcoming]

theorem upcoming_succ (count : Nat) :
    ids.upcoming store (count + 1) = ⟨store, ids.draw.1⟩ :: ids.draw.2.upcoming store count := rfl

theorem upcoming_add (first rest : Nat) :
    ids.upcoming store (first + rest) =
      ids.upcoming store first ++ (ids.skip first).upcoming store rest := by
  simp only [upcoming, skip]
  rw [← List.map_append, List.range'_append_1]

theorem nodup_upcoming (count : Nat) : (ids.upcoming store count).Nodup := by
  refine List.Nodup.map ?_ List.nodup_range'
  intro first second hsame
  have hids : ids.idAt first = ids.idAt second := congrArg NodeRef.id hsame
  exact ids.fresh hids

end IdSupply

namespace CopyPlan

variable (plan : CopyPlan) (state : StoreState) (sources : List NodeRef)

/-! ## What is left of a plan -/

@[simp] theorem carryOut_nil : plan.carryOut state [] = state := rfl

theorem carryOut_cons (source : NodeRef) :
    plan.carryOut state (source :: sources) =
      plan.carryOut (plan.attach state source) sources := rfl

theorem carryOut_append (more : List NodeRef) :
    plan.carryOut state (sources ++ more) = plan.carryOut (plan.carryOut state sources) more :=
  List.foldl_append

@[simp] theorem ids_carryOut :
    (plan.carryOut state sources).ids = state.ids.skip sources.length := by
  induction sources generalizing state with
  | nil => rfl
  | cons source sources ih =>
      rw [carryOut_cons, ih, List.length_cons, IdSupply.skip_succ]
      rfl

@[simp] theorem roots_carryOut :
    (plan.carryOut state sources).nodes.roots = state.nodes.roots := by
  induction sources generalizing state with
  | nil => rfl
  | cons source sources ih => exact ih (plan.attach state source)

@[simp] theorem targets_carryOut :
    (plan.carryOut state sources).nodes.targets = state.nodes.targets := by
  induction sources generalizing state with
  | nil => rfl
  | cons source sources ih => exact ih (plan.attach state source)

@[simp] theorem sources_carryOut :
    (plan.carryOut state sources).nodes.sources = state.nodes.sources := by
  induction sources generalizing state with
  | nil => rfl
  | cons source sources ih => exact ih (plan.attach state source)

theorem events_carryOut :
    (plan.carryOut state sources).nodes.events =
      state.nodes.events ++ sources.map fun source => .copied source (plan.place source) := by
  induction sources generalizing state with
  | nil => simp
  | cons source sources ih =>
      rw [carryOut_cons, ih]
      simp [attach, NodeStore.note, NodeStore.link, NodeStore.putRecord]

theorem itemsOf_carryOut (node : NodeRef) :
    (plan.carryOut state sources).nodes.children.itemsOf node =
      state.nodes.children.itemsOf node ++
        (sources.map plan.place).filter fun place => place.parent = node := by
  induction sources generalizing state with
  | nil => simp
  | cons source sources ih =>
      have hattach : (plan.attach state source).nodes.children.itemsOf node =
          if (plan.place source).parent = node then
            state.nodes.children.itemsOf node ++ [plan.place source]
          else state.nodes.children.itemsOf node := NodeStore.itemsOf_link ..
      rw [carryOut_cons, ih, hattach, List.map_cons, List.filter_cons]
      split <;> simp_all

/-- What is looked up of a node when a plan has been carried out, if each step gives it to the copy
alone. -/
private theorem lookUp_carryOut {α : Type} (lookUp : NodeStore → NodeRef → Option α)
    (given : NodeRef → α)
    (hattach : ∀ (state : StoreState) (source node : NodeRef),
      lookUp (plan.attach state source).nodes node =
        if plan.copyOf source = node then some (given source) else lookUp state.nodes node) :
    (∀ node ∉ sources.map plan.copyOf,
      lookUp (plan.carryOut state sources).nodes node = lookUp state.nodes node) ∧
    ((sources.map plan.copyOf).Nodup → ∀ source ∈ sources,
      lookUp (plan.carryOut state sources).nodes (plan.copyOf source) = some (given source)) := by
  induction sources generalizing state with
  | nil => simp
  | cons first sources ih =>
      obtain ⟨hothers, hcopies⟩ := ih (plan.attach state first)
      constructor
      · intro node hnode
        rw [List.map_cons, List.mem_cons, not_or] at hnode
        rw [carryOut_cons, hothers node hnode.2, hattach, if_neg (Ne.symm hnode.1)]
      · intro hnodup source hsource
        obtain ⟨hnew, hrest⟩ := List.nodup_cons.mp hnodup
        rcases List.mem_cons.mp hsource with rfl | hsource
        · rw [carryOut_cons, hothers _ hnew, hattach, if_pos rfl]
        · exact hcopies hrest source hsource

theorem records_carryOut_of_not_mem {node : NodeRef} (hnode : node ∉ sources.map plan.copyOf) :
    (plan.carryOut state sources).nodes.records[node]? = state.nodes.records[node]? :=
  (plan.lookUp_carryOut state sources (fun nodes node => nodes.records[node]?) plan.record
    (by simp [attach, NodeStore.note, NodeStore.link, NodeStore.putRecord,
      Std.ExtTreeMap.getElem?_insert])).1 node hnode

theorem records_carryOut_copyOf (hnodup : (sources.map plan.copyOf).Nodup) {source : NodeRef}
    (hsource : source ∈ sources) :
    (plan.carryOut state sources).nodes.records[plan.copyOf source]? =
      some (plan.record source) :=
  (plan.lookUp_carryOut state sources (fun nodes node => nodes.records[node]?) plan.record
    (by simp [attach, NodeStore.note, NodeStore.link, NodeStore.putRecord,
      Std.ExtTreeMap.getElem?_insert])).2 hnodup source hsource

theorem parents_carryOut_of_not_mem {node : NodeRef} (hnode : node ∉ sources.map plan.copyOf) :
    (plan.carryOut state sources).nodes.parents[node]? = state.nodes.parents[node]? :=
  (plan.lookUp_carryOut state sources (fun nodes node => nodes.parents[node]?) plan.place
    fun _ _ _ => NodeStore.parents_link ..).1 node hnode

theorem parents_carryOut_copyOf (hnodup : (sources.map plan.copyOf).Nodup) {source : NodeRef}
    (hsource : source ∈ sources) :
    (plan.carryOut state sources).nodes.parents[plan.copyOf source]? = some (plan.place source) :=
  (plan.lookUp_carryOut state sources (fun nodes node => nodes.parents[node]?) plan.place
    fun _ _ _ => NodeStore.parents_link ..).2 hnodup source hsource

end CopyPlan

/-! ## Trees that stay what they are -/

/-- The tree of a node is the same in two stores: its nodes have the same records and the same
children. -/
def NodeStore.KeepsTree (before after : NodeStore) (top : NodeRef) : Prop :=
  ∀ node, before.Within top node →
    after.records[node]? = before.records[node]? ∧
      after.children.itemsOf node = before.children.itemsOf node

namespace CopyPlan

/-- The plan is one for copying the tree of a node: each copy holds what its source holds and stands
beneath the copy of the parent, and all copies stand outside the tree. -/
structure Fits (plan : CopyPlan) (nodes : NodeStore) (top : NodeRef) : Prop where
  record : ∀ {node : NodeRef} {record : NodeRecord}, nodes.Within top node →
    nodes.records[node]? = some record → plan.record node = record.copiedFrom node
  place : ∀ {node : NodeRef} {entry : ChildAssociation}, nodes.Within top node →
    entry ∈ nodes.children.itemsOf node → plan.place entry.child =
      ⟨entry.relation, plan.copyOf node, entry.name, plan.copyOf entry.child⟩
  outside : ∀ {node : NodeRef}, nodes.Within top node →
    ¬ nodes.Within top (plan.copyOf node) ∧ ¬ nodes.Within top (plan.place node).parent

variable {plan : CopyPlan} {nodes : NodeStore} {top : NodeRef} {state after : StoreState}

theorem Fits.keepsTree_attach (hfits : plan.Fits nodes top)
    (hkept : nodes.KeepsTree state.nodes top) {source : NodeRef}
    (hsource : nodes.Within top source) :
    nodes.KeepsTree (plan.attach state source).nodes top := by
  intro node hnode
  obtain ⟨hcopy, hparent⟩ := hfits.outside hsource
  obtain ⟨hrecords, hchildren⟩ := hkept node hnode
  constructor
  · rw [← hrecords]
    refine plan.records_carryOut_of_not_mem state [source] ?_
    rw [List.map_singleton, List.mem_singleton]
    rintro rfl
    exact hcopy hnode
  · rw [← hchildren]
    refine (NodeStore.itemsOf_link ..).trans (if_neg ?_)
    rintro rfl
    exact hparent hnode

theorem Fits.keepsTree_carryOut (hfits : plan.Fits nodes top)
    (hkept : nodes.KeepsTree state.nodes top) {sources : List NodeRef}
    (hsources : ∀ source ∈ sources, nodes.Within top source) :
    nodes.KeepsTree (plan.carryOut state sources).nodes top := by
  induction sources generalizing state with
  | nil => exact hkept
  | cons source sources ih =>
      obtain ⟨hsource, hrest⟩ := List.forall_mem_cons.mp hsources
      exact ih (hfits.keepsTree_attach hkept hsource) hrest

end CopyPlan

/-! ## Copies as they are made -/

namespace Change

variable {state after : StoreState} {source parent copy : NodeRef} {relation name : QualifiedName}

/-- A copy of a single node that is made is the next node, with a record made of that of its
source. -/
theorem of_copyAlone {deep : Bool}
    (houtcome : (copyAlone source parent relation name deep).outcome state = (.ok copy, after)) :
    copy = ⟨parent.store, state.ids.draw.1⟩ ∧
      ∃ record, state.nodes.records[source]? = some record ∧
        after =
          { ids := state.ids.draw.2
            nodes := ((state.nodes.putRecord copy (record.copiedFrom source)).link
              ⟨relation, parent, name, copy⟩).note
                (.copied source ⟨relation, parent, name, copy⟩) } := by
  cases hrecord : state.nodes.recordOf source with
  | error error => simp [copyAlone, outcome_bind, hrecord] at houtcome
  | ok record =>
  cases hparent : state.nodes.recordOf parent with
  | error error => simp [copyAlone, outcome_bind, hrecord, hparent, Except.map] at houtcome
  | ok parentRecord =>
  simp only [copyAlone, outcome_bind, outcome_discard, outcome_recordOf, hrecord, hparent,
    Except.map, outcome_nodes, outcome_lift, NodeStore.ancestorsOf_eq hparent, outcome_ite,
    outcome_update, outcome_drawNode, outcome_pure, outcome_raise] at houtcome
  split at houtcome
  · cases congrArg Prod.fst houtcome
  · obtain ⟨hcopy, rfl⟩ := Prod.mk.inj houtcome
    obtain rfl := Except.ok.inj hcopy
    exact ⟨rfl, record, NodeStore.getElem?_of_recordOf hrecord, rfl⟩

/-- A sequence of changes that succeeds begins with one that does. -/
theorem of_bind {α β : Type} {change : Change α} {next : α → Change β} {result : β}
    (houtcome : (change >>= next).outcome state = (.ok result, after)) :
    ∃ first middle, change.outcome state = (.ok first, middle) ∧
      (next first).outcome middle = (.ok result, after) := by
  rw [outcome_bind] at houtcome
  split at houtcome
  · rename_i first middle hfirst
    exact ⟨first, middle, hfirst, houtcome⟩
  · cases congrArg Prod.fst houtcome

theorem of_discard {α : Type} {change : Change α}
    (houtcome : (discard change).outcome state = (.ok (), after)) :
    ∃ result, change.outcome state = (.ok result, after) := by
  rw [outcome_discard] at houtcome
  rcases hchange : change.outcome state with ⟨answer, later⟩
  rw [hchange] at houtcome
  cases answer with
  | error error => cases congrArg Prod.fst houtcome
  | ok result => exact ⟨result, by rw [← (Prod.mk.inj houtcome).2]⟩

end Change

namespace CopyPlan

open Change

variable {plan : CopyPlan} {nodes : NodeStore} {top source : NodeRef} {state after : StoreState}
  {levels : Nat}

/-- The plan says what comes of copying a node with all that is beneath it: where the tree is still
what it was, and the next ids are those of the plan, the copies that are made are the ones
planned. -/
def Foresees (plan : CopyPlan) (nodes : NodeStore) (top : NodeRef) (levels : Nat)
    (source : NodeRef) : Prop :=
  ∀ ⦃state after : StoreState⦄ ⦃copy : NodeRef⦄, nodes.KeepsTree state.nodes top →
    (nodes.preorder source).map plan.copyOf =
      state.ids.upcoming (plan.place source).parent.store (nodes.preorder source).length →
    (copyLevels levels source (plan.place source).parent (plan.place source).relation
      (plan.place source).name).outcome state = (.ok copy, after) →
    copy = plan.copyOf source ∧ after = plan.carryOut state (nodes.preorder source)

theorem Fits.of_copyAlone (hfits : plan.Fits nodes top) (hkept : nodes.KeepsTree state.nodes top)
    (hsource : nodes.Within top source)
    (hid : plan.copyOf source = ⟨(plan.place source).parent.store, state.ids.draw.1⟩)
    {deep : Bool} {copy : NodeRef}
    (houtcome : (copyAlone source (plan.place source).parent (plan.place source).relation
      (plan.place source).name deep).outcome state = (.ok copy, after)) :
    copy = plan.copyOf source ∧ after = plan.attach state source := by
  obtain ⟨hcopy, record, hrecord, rfl⟩ := Change.of_copyAlone houtcome
  obtain rfl := hcopy.trans hid.symm
  rw [(hkept source hsource).1] at hrecord
  refine ⟨rfl, ?_⟩
  rw [attach, hfits.record hsource hrecord]
  rfl

/-- Children of a node are copied one after the other, each with its tree. -/
theorem Fits.of_copyChildren (hfits : plan.Fits nodes top) (hlinked : nodes.Linked)
    {entries : List ChildAssociation} (hkept : nodes.KeepsTree state.nodes top)
    (hsource : nodes.Within top source)
    (hentries : ∀ entry ∈ entries, entry ∈ nodes.children.itemsOf source)
    (hforesees : ∀ entry ∈ entries, plan.Foresees nodes top levels entry.child)
    (hids : (entries.flatMap fun entry => nodes.preorder entry.child).map plan.copyOf =
      state.ids.upcoming (plan.copyOf source).store
        (entries.flatMap fun entry => nodes.preorder entry.child).length)
    (houtcome : outcome (entries.forM fun entry => discard <|
      copyLevels levels entry.child (plan.copyOf source) entry.relation entry.name) state =
        (.ok (), after)) :
    after = plan.carryOut state (entries.flatMap fun entry => nodes.preorder entry.child) := by
  induction entries generalizing state with
  | nil => exact (Prod.mk.inj houtcome).2.symm
  | cons entry entries ih =>
      obtain ⟨hentry, hothers⟩ := List.forall_mem_cons.mp hentries
      obtain ⟨hfirst, hrest⟩ := List.forall_mem_cons.mp hforesees
      have hplace := hfits.place hsource hentry
      rw [List.flatMap_cons, List.map_append, List.length_append, IdSupply.upcoming_add] at hids
      obtain ⟨hidsFirst, hidsRest⟩ := List.append_inj hids (by simp)
      obtain ⟨⟨⟩, middle, hcopied, hcontinued⟩ := of_bind houtcome
      obtain ⟨copy, hcopied⟩ := of_discard hcopied
      obtain ⟨-, rfl⟩ := hfirst hkept (by rwa [hplace]) (by rwa [hplace])
      have hwithin : ∀ node ∈ nodes.preorder entry.child, nodes.Within top node := by
        intro node hnode
        obtain ⟨hparent, hplaced⟩ := hlinked.mem_itemsOf_iff.mp hentry
        have hchild : nodes.Within top entry.child := by
          refine hlinked.within_of_parent hplaced ?_
          rwa [hparent]
        exact hlinked.within_trans hchild (hlinked.within_of_mem_preorderFrom hnode)
      rw [List.flatMap_cons, carryOut_append]
      refine ih (hfits.keepsTree_carryOut hkept hwithin) hothers hrest ?_ hcontinued
      rwa [ids_carryOut]

/-- **Copies are made in preorder.**  A plan that fits a tree foresees what comes of copying a part
of it, if the levels are as many as the nodes above leave. -/
theorem Fits.foresees (hfits : plan.Fits nodes top) (hlinked : nodes.Linked)
    (htop : nodes.hasNode top) (hsource : nodes.Within top source) {path : List NodeRef}
    (hclimbs : nodes.Climbs source path) (hlevels : nodes.size ≤ path.length + levels) :
    plan.Foresees nodes top levels source := by
  have hexists := hlinked.hasNode_of_within htop hsource
  have hlength := hlinked.length_lt_size hexists hclimbs
  induction levels generalizing source path with
  | zero => omega
  | succ levels ih =>
      intro state after copy hkept hids houtcome
      rw [hlinked.preorder_eq hexists] at hids ⊢
      set beneath := (nodes.children.itemsOf source).flatMap fun entry =>
        nodes.preorder entry.child with hbeneath
      rw [List.map_cons, List.length_cons, IdSupply.upcoming_succ] at hids
      obtain ⟨hid, hids⟩ := List.cons.inj hids
      unfold copyLevels at houtcome
      obtain ⟨current, before, hcurrent, houtcome⟩ := of_bind houtcome
      rw [outcome_nodes] at hcurrent
      obtain ⟨hanswer, rfl⟩ := Prod.mk.inj hcurrent
      obtain rfl := Except.ok.inj hanswer
      obtain ⟨first, middle, hfirst, houtcome⟩ := of_bind houtcome
      obtain ⟨rfl, rfl⟩ := hfits.of_copyAlone hkept hsource hid hfirst
      obtain ⟨⟨⟩, later, hchildren, hlast⟩ := of_bind houtcome
      rw [outcome_pure] at hlast
      obtain ⟨hcopy, rfl⟩ := Prod.mk.inj hlast
      refine ⟨(Except.ok.inj hcopy).symm, ?_⟩
      rw [(hkept source hsource).2] at hchildren
      refine hfits.of_copyChildren hlinked (hfits.keepsTree_attach hkept hsource) hsource
        (fun _ hentry => hentry) ?_ ?_ hchildren
      · intro entry hentry
        obtain ⟨hparent, hplaced⟩ := hlinked.mem_itemsOf_iff.mp hentry
        have hchild := hlinked.hasNode_child hplaced
        have hway := hlinked.climbs_child hclimbs hentry
        refine ih ?_ hway ?_ hchild (hlinked.length_lt_size hchild hway)
        · refine hlinked.within_of_parent hplaced ?_
          rwa [hparent]
        · rw [List.length_cons]
          omega
      · rw [hids, hid]
        rfl

end CopyPlan

end ContentRules
