import ContentRules.Proofs.Engine.Actionable
import ContentRules.Proofs.Engine.Undo

/-!
# Nodes that are made actionable

A node that has a configuration folder keeps it.  For any other node that exists one is made, in the
system folder of the store, and the node is given the aspect and joined to the folder.  This never
fails, a second time nothing is done, and however many nodes of a store are made actionable one
after the other, all that comes into being lies in one system folder.

**Strategy.**  `MakesConfiguration` says what the edits do for a node without a folder, and
`LeavesOthers` what they leave alone; both are read off the stores between the edits (`AddsFor`,
`FindsSystem`, `MakesFolder`).  What is new after one node was made actionable is told by the system
folder of the store, which stays the same (`SharesSystem`), and so also after many.
-/

namespace ContentRules

open Vocabulary Actionable

/-! ## Looking for the folder and the aspect -/

namespace NodeStore

variable {nodes : NodeStore} {node : NodeRef}

/-- The first association of a node to a configuration folder. -/
def configurations? (nodes : NodeStore) (node : NodeRef) : Option PeerAssociation :=
  (nodes.targets.itemsOf node).find? (·.relation = configurationsRelation)

theorem configurationFolder?_eq {record : NodeRecord}
    (hrecord : nodes.records[node]? = some record) :
    configurationFolder? nodes node =
      .ok ((nodes.configurations? node).map PeerAssociation.target) := by
  have hfound : nodes.recordOf node = .ok record := by rw [recordOf, hrecord]
  simp only [configurationFolder?, targetsOf, hfound]
  show Except.ok _ = Except.ok _
  rw [List.head?_filter]
  simp [configurations?]

/-- Of a node that does not exist nothing is found. -/
theorem configurationFolder?_eq_error (hnode : ¬ nodes.hasNode node) :
    configurationFolder? nodes node = .error { cause := .nodeNotFound node } := by
  rw [configurationFolder?, targetsOf, recordOf_of_not_hasNode hnode]
  rfl

theorem configurationFolder?_eq_some_iff {folder : NodeRef} :
    configurationFolder? nodes node = .ok (some folder) ↔
      nodes.hasNode node ∧ ∃ assoc, nodes.configurations? node = some assoc ∧
        assoc.target = folder := by
  by_cases hnode : nodes.hasNode node
  · obtain ⟨record, hrecord⟩ := hasNode_iff_getElem?.mp hnode
    rw [configurationFolder?_eq hrecord, Except.ok.injEq, Option.map_eq_some_iff]
    simp only [hnode, true_and]
  · rw [configurationFolder?_eq_error hnode]
    simp [hnode]

/-- The configuration folder of a node exists. -/
theorem Paired.hasNode_of_configurationFolder? (hpaired : nodes.Paired) {folder : NodeRef}
    (hfolder : configurationFolder? nodes node = .ok (some folder)) : nodes.hasNode folder := by
  obtain ⟨-, assoc, hassoc, rfl⟩ := configurationFolder?_eq_some_iff.mp hfolder
  obtain ⟨-, hmem⟩ := hpaired.mem_targets_iff.mp (List.mem_of_find?_eq_some hassoc)
  exact (hpaired.hasNode hmem).2

theorem isActionable_eq {record : NodeRecord} (hrecord : nodes.records[node]? = some record) :
    isActionable nodes node = .ok (record.aspects.contains actionableAspect) := by
  unfold isActionable hasAspect recordOf
  rw [hrecord]
  rfl

/-- A configuration folder in this system folder. -/
structure ConfigurationIn (nodes : NodeStore) (system folder : NodeRef) : Prop where
  typeOf : nodes.typeOf folder = .ok configurationsType
  place : nodes.parents[folder]? = some ⟨containsRelation, system, configurationsChild, folder⟩

end NodeStore

namespace StoreState

variable {before after last : StoreState} {owner system folder : NodeRef} {store : StoreRef}

/-! ## What is left alone -/

/-- The nodes that existed are where they were, with the associations that lead to them, and further
children of theirs are new.  But for the owner, they have the records and the associations that they
had. -/
structure LeavesOthers (owner : NodeRef) (before after : StoreState) : Prop where
  roots : after.nodes.roots = before.nodes.roots
  hasNode : ∀ {node : NodeRef}, before.nodes.hasNode node → after.nodes.hasNode node
  parents : ∀ {node : NodeRef}, before.nodes.hasNode node →
    after.nodes.parents[node]? = before.nodes.parents[node]?
  children : ∀ node : NodeRef, ∃ added,
    after.nodes.children.itemsOf node = before.nodes.children.itemsOf node ++ added ∧
      ∀ place ∈ added, ¬ before.nodes.hasNode place.child
  sources : ∀ {node : NodeRef}, before.nodes.hasNode node →
    after.nodes.sources.itemsOf node = before.nodes.sources.itemsOf node
  records : ∀ {node : NodeRef}, before.nodes.hasNode node → node ≠ owner →
    after.nodes.records[node]? = before.nodes.records[node]?
  targets : ∀ {node : NodeRef}, node ≠ owner →
    after.nodes.targets.itemsOf node = before.nodes.targets.itemsOf node

theorem AddsFor.leavesOthers (hadds : before.AddsFor (· = owner) after) (hbefore : before.Sound)
    (hafter : after.nodes.Paired) : before.LeavesOthers owner after := by
  refine ⟨hadds.roots, fun hnode => ?_, fun hnode => hadds.parents (hbefore.hasDrawn hnode),
    fun node => ?_, fun {node} hnode => ?_, fun {node} hnode hother => ?_,
    fun {node} hother => ?_⟩
  · exact (hadds.hasNode_iff (hbefore.hasDrawn hnode)).mpr hnode
  · obtain ⟨added, hadded, hnew⟩ := hadds.children node
    exact ⟨added, hadded, fun place hplace hnode => hnew place hplace (hbefore.hasDrawn hnode)⟩
  · obtain ⟨added, hadded, hjoins⟩ := hadds.sources node
    rw [hadded, List.append_right_eq_self]
    refine List.eq_nil_iff_forall_not_mem.mpr fun assoc hassoc => ?_
    -- An association that was added leads to a node that is new.
    have htarget : assoc.target = node :=
      hafter.sources.key_eq (hadded ▸ List.mem_append_right _ hassoc)
    exact (hjoins assoc hassoc).target (htarget ▸ hbefore.hasDrawn hnode)
  · obtain ⟨record, hrecord⟩ := NodeStore.hasNode_iff_getElem?.mp hnode
    rw [hrecord]
    exact (hadds.records hrecord).resolve_right fun hmarked => hother hmarked.1
  · obtain ⟨added, hadded, hjoins⟩ := hadds.targets node
    rw [hadded, List.append_right_eq_self]
    refine List.eq_nil_iff_forall_not_mem.mpr fun assoc hassoc => hother ?_
    have hsource : assoc.source = node :=
      hafter.targets.key_eq (hadded ▸ List.mem_append_right _ hassoc)
    exact hsource ▸ (hjoins assoc hassoc).source

/-- A configuration folder that a node had is still the one that is found. -/
theorem AddsFor.configurationFolder? {owners : NodeRef → Prop}
    (hadds : before.AddsFor owners after) (hbefore : before.Sound)
    (hfolder : configurationFolder? before.nodes owner = .ok (some folder)) :
    configurationFolder? after.nodes owner = .ok (some folder) := by
  obtain ⟨howner, assoc, hassoc, htarget⟩ := NodeStore.configurationFolder?_eq_some_iff.mp hfolder
  obtain ⟨added, hadded, -⟩ := hadds.targets owner
  refine NodeStore.configurationFolder?_eq_some_iff.mpr
    ⟨(hadds.hasNode_iff (hbefore.hasDrawn howner)).mpr howner, assoc, ?_, htarget⟩
  rw [NodeStore.configurations?] at hassoc ⊢
  rw [hadded, List.find?_append, hassoc, Option.some_or]

/-! ## What is made -/

/-- The owner had no configuration folder and has this one, which is new. -/
structure MakesConfiguration (owner folder : NodeRef) (before after : StoreState) : Prop where
  missing : configurationFolder? before.nodes owner = .ok none
  fresh : ¬ before.nodes.hasNode folder
  lies : ∃ system, after.nodes.systemFolder? owner.store = some system ∧
    after.nodes.ConfigurationIn system folder
  marked : ∀ {record : NodeRecord}, before.nodes.records[owner]? = some record →
    after.nodes.records[owner]? = some record.marked
  joined : after.nodes.targets.itemsOf owner =
    before.nodes.targets.itemsOf owner ++ [⟨owner, folder, configurationsRelation⟩]
  /-- The system folder may be new as well. -/
  new : ∀ {node : NodeRef}, after.nodes.hasNode node → ¬ before.nodes.hasNode node →
    node = folder ∨ before.nodes.systemFolder? owner.store = none ∧
      after.nodes.systemFolder? owner.store = some node ∧
      after.nodes.typeOf node = .ok systemFolderType

/-- The edits for a node without a configuration folder: the system folder is found, then the folder
is made in it. -/
theorem MakesFolder.makesConfiguration {first : StoreState}
    (hmade : first.MakesFolder owner system folder after) (hbefore : before.Sound)
    (hfirst : first.Sound) (hadds : before.AddsFor (· = owner) first)
    (hfinds : before.FindsSystem owner.store system first)
    (hnone : configurationFolder? before.nodes owner = .ok none) :
    before.MakesConfiguration owner folder after := by
  have hsystem := hmade.toAddsFor.systemFolder? hfinds.found
  refine ⟨hnone, fun hnode => ?_, ⟨system, hsystem, hmade.made, hmade.place⟩,
    fun {record} hrecord => ?_, ?_, fun {node} hnode hmissing => ?_⟩
  · exact hmade.fresh ((hbefore.hasDrawn hnode).mono hadds.ids_le)
  · rcases hadds.records hrecord with hsame | ⟨-, hmarked⟩
    · exact hmade.marked hsame
    · rw [hmade.marked hmarked, record.marked_marked]
  · rw [hmade.joined, hfinds.targets]
  · refine ((hmade.nodes_iff node).mp hnode).imp Eq.symm fun hbetween => ?_
    obtain ⟨rfl, hnosystem, htype⟩ := hfinds.new hbetween hmissing
    exact ⟨hnosystem, hsystem, (hmade.typeOf (hfirst.hasDrawn hbetween)).trans htype⟩

/-- Asked for its configuration folder, the owner now has the one that was made. -/
theorem MakesConfiguration.configurationFolder?
    (hmakes : before.MakesConfiguration owner folder after) (howner : before.nodes.hasNode owner) :
    configurationFolder? after.nodes owner = .ok (some folder) := by
  obtain ⟨record, hrecord⟩ := NodeStore.hasNode_iff_getElem?.mp howner
  have hnone := hmakes.missing
  rw [NodeStore.configurationFolder?_eq hrecord] at hnone
  have hmissing : before.nodes.configurations? owner = none :=
    Option.map_eq_none_iff.mp (Except.ok.inj hnone)
  refine NodeStore.configurationFolder?_eq_some_iff.mpr
    ⟨NodeStore.hasNode_iff_getElem?.mpr ⟨_, hmakes.marked hrecord⟩,
      ⟨owner, folder, configurationsRelation⟩, ?_, rfl⟩
  rw [NodeStore.configurations?] at hmissing ⊢
  rw [hmakes.joined, List.find?_append, hmissing, Option.none_or]
  exact List.find?_cons_of_pos (by simp)

/-! ## One system folder for all -/

/-- A system folder that the store had is still its system folder, and whatever is new is the system
folder, if the store had none, or a configuration folder in it. -/
structure SharesSystem (store : StoreRef) (before after : StoreState) : Prop where
  kept : ∀ {system : NodeRef}, before.nodes.systemFolder? store = some system →
    after.nodes.systemFolder? store = some system
  new : ∀ {node : NodeRef}, after.nodes.hasNode node → ¬ before.nodes.hasNode node →
    ∃ system, after.nodes.systemFolder? store = some system ∧
      (before.nodes.systemFolder? store = none ∧ node = system ∧
          after.nodes.typeOf node = .ok systemFolderType ∨
        after.nodes.ConfigurationIn system node)

theorem SharesSystem.refl (store : StoreRef) (state : StoreState) :
    state.SharesSystem store state :=
  ⟨id, fun hnode hmissing => absurd hnode hmissing⟩

theorem MakesConfiguration.sharesSystem (hmakes : before.MakesConfiguration owner folder after)
    (hadds : before.AddsFor (· = owner) after) : before.SharesSystem owner.store after := by
  refine ⟨hadds.systemFolder?, fun {node} hnode hmissing => ?_⟩
  obtain ⟨system, hsystem, hfolder⟩ := hmakes.lies
  refine ⟨system, hsystem, ?_⟩
  rcases hmakes.new hnode hmissing with rfl | ⟨hnone, hsome, htype⟩
  · exact .inr hfolder
  · exact .inl ⟨hnone, Option.some.inj (hsome.symm.trans hsystem), htype⟩

theorem SharesSystem.trans (hafter : before.SharesSystem store after)
    (hlast : after.SharesSystem store last) (hsound : after.Sound) (hadds : after.Adds last) :
    before.SharesSystem store last := by
  refine ⟨fun hsystem => hlast.kept (hafter.kept hsystem), fun {node} hnode hmissing => ?_⟩
  by_cases hbetween : after.nodes.hasNode node
  · have hdrawn := hsound.hasDrawn hbetween
    obtain ⟨system, hsystem, hkind⟩ := hafter.new hbetween hmissing
    refine ⟨system, hlast.kept hsystem, hkind.imp (fun hmade => ?_) fun hfolder => ?_⟩
    · exact ⟨hmade.1, hmade.2.1, (hadds.typeOf hdrawn).trans hmade.2.2⟩
    · exact ⟨(hadds.typeOf hdrawn).trans hfolder.typeOf, (hadds.parents hdrawn).trans hfolder.place⟩
  · obtain ⟨system, hsystem, hkind⟩ := hlast.new hnode hbetween
    refine ⟨system, hsystem, hkind.imp_left fun hmade => ⟨?_, hmade.2⟩⟩
    -- A store that had a system folder at first has one in between.
    refine Option.eq_none_iff_forall_ne_some.mpr fun former hformer => ?_
    exact absurd (hmade.1.symm.trans (hafter.kept hformer)) nofun

end StoreState

namespace Actionable

open Script WorkState

variable {rules : RuleStore} {engine : Engine} {state : WorkState} {node folder : NodeRef}

/-! ## Runs -/

/-- A node that does not exist is not made actionable. -/
theorem runs_makeActionable_of_not (hnode : ¬ state.work.nodes.hasNode node) :
    ((makeActionable node).run rules engine).Runs state
      (.error { cause := .nodeNotFound node }) state := by
  unfold makeActionable
  rw [runs_bind_of_runs runs_nodes]
  exact runs_lift_bind_of_error (NodeStore.configurationFolder?_eq_error hnode)

/-- A node that exists has its configuration folder, or it is made. -/
theorem runs_makeActionable_cases (hreachable : state.store.Reachable)
    (hnode : state.work.nodes.hasNode node) :
    ∃ folder after, ((makeActionable node).run rules engine).Runs state (.ok folder) after ∧
      state.Furnishes (· = node) after ∧
      configurationFolder? after.work.nodes node = .ok (some folder) ∧
      (configurationFolder? state.work.nodes node = .ok (some folder) ∧ after = state ∨
        state.store.MakesConfiguration node folder after.store) := by
  obtain ⟨_ | folder, hfolder⟩ := exists_configurationFolder? hnode
  case some =>
    exact ⟨folder, state, runs_makeActionable_of_folder rules engine hfolder, .refl hreachable,
      hfolder, .inl ⟨hfolder, rfl⟩⟩
  case none =>
    obtain ⟨system, folder, first, after, hruns, hfirst, hfinds, hmade, hafter⟩ :=
      runs_makeActionable_of_none rules engine hreachable hnode hfolder
    have hmakes := hmade.makesConfiguration hreachable.sound hfirst.reachable.sound
      hfirst.furnishes.toAddsFor hfinds hfolder
    exact ⟨folder, after, hruns, hfirst.trans hafter, hmakes.configurationFolder? hnode,
      .inr hmakes⟩

/-- **A node that is made actionable has its configuration folder.**  It succeeds for every node
that exists; the folder that is returned exists, and is the one found when the node is asked for it.
The node has the aspect then if it had it before, or if the folder was made for it. -/
theorem isActionable_makeActionable (rules : RuleStore) (engine : Engine)
    (hreachable : state.store.Reachable) (hnode : state.work.nodes.hasNode node) :
    ∃ folder after, ((makeActionable node).run rules engine).Runs state (.ok folder) after ∧
      after.work.nodes.hasNode folder ∧
      configurationFolder? after.work.nodes node = .ok (some folder) ∧
      ∃ marked former, isActionable state.work.nodes node = .ok marked ∧
        configurationFolder? state.work.nodes node = .ok former ∧
        isActionable after.work.nodes node = .ok (marked || former.isNone) := by
  obtain ⟨folder, after, hruns, hafter, hfound, hcases⟩ :=
    runs_makeActionable_cases hreachable hnode
  obtain ⟨record, hrecord⟩ := NodeStore.hasNode_iff_getElem?.mp hnode
  have hmarked := NodeStore.isActionable_eq hrecord
  refine ⟨folder, after, hruns, hafter.reachable.paired.hasNode_of_configurationFolder? hfound,
    hfound, ?_⟩
  rcases hcases with ⟨hfolder, rfl⟩ | hmakes
  · refine ⟨_, _, hmarked, hfolder, ?_⟩
    rw [hmarked, Option.isNone_some, Bool.or_false]
  · refine ⟨_, _, hmarked, hmakes.missing, ?_⟩
    have hlater : after.work.nodes.records[node]? = some record.marked := hmakes.marked hrecord
    rw [NodeStore.isActionable_eq hlater]
    simp [NodeRecord.marked]

end Actionable

namespace Trial

def node (id : String) : NodeRef :=
  { store := { protocol := "workspace", identifier := "main" }, id }

/-- A folder beneath the root was made actionable, and the aspect was taken away from it. -/
def unmarked : WorkState :=
  let name : QualifiedName := { space := "model", localName := "shelf" }
  let edits : List Edit :=
    [.createStore "workspace" "main",
      .createNode (node "u1") containsRelation name folderType [],
      .createNode (node "u1") childrenRelation systemConfigurationChild systemFolderType [],
      .createNode (node "u3") containsRelation configurationsChild configurationsType [],
      .addAspect (node "u2") actionableAspect [],
      .createAssociation (node "u2") (node "u4") configurationsRelation,
      .removeAspect (node "u2") actionableAspect]
  let store := edits.foldl (fun state edit => (edit.run state).2) { ids := {}, nodes := .empty }
  { ids := store.ids, work := { nodes := store.nodes, baseVersion := 0 } }

theorem reachable_unmarked : unmarked.store.Reachable :=
  (StoreState.Reachable.empty _).edits _

theorem hasNode_unmarked : unmarked.work.nodes.hasNode (node "u1") := by
  decide +kernel

theorem configurationFolder?_unmarked :
    configurationFolder? unmarked.work.nodes (node "u1") = .ok none := by
  rfl

end Trial

namespace Actionable

open Trial

/-- The root has no folder yet, and is marked when it gets one. -/
theorem isActionable_makeActionable_root :
    unmarked.store.Reachable ∧ unmarked.work.nodes.hasNode (node "u1") ∧
      ∃ folder after, ((makeActionable (node "u1")).run {} (service.engine {} 5)).Runs unmarked
          (.ok folder) after ∧
        after.work.nodes.hasNode folder ∧
        configurationFolder? after.work.nodes (node "u1") = .ok (some folder) ∧
        isActionable unmarked.work.nodes (node "u1") = .ok false ∧
        isActionable after.work.nodes (node "u1") = .ok true := by
  obtain ⟨folder, after, hruns, hfolder, hfound, marked, former, hmarked, hformer, hlast⟩ :=
    isActionable_makeActionable {} (service.engine {} 5) reachable_unmarked hasNode_unmarked
  have hfalse : isActionable unmarked.work.nodes (node "u1") = .ok false := by rfl
  obtain rfl := Except.ok.inj (hformer.symm.trans configurationFolder?_unmarked)
  exact ⟨reachable_unmarked, hasNode_unmarked, folder, after, hruns, hfolder, hfound, hfalse, by
    rw [hlast, Option.isNone_none, Bool.or_true]⟩

/-- The folder beneath the root has a configuration folder, which is returned, and nothing is done:
it still lacks the aspect. -/
theorem not_isActionable_makeActionable :
    unmarked.store.Reachable ∧ unmarked.work.nodes.hasNode (node "u2") ∧
      ((makeActionable (node "u2")).run {} (service.engine {} 5)).Runs unmarked
        (.ok (node "u4")) unmarked ∧
      isActionable unmarked.work.nodes (node "u2") = .ok false := by
  refine ⟨reachable_unmarked, by decide +kernel, ?_, by rfl⟩
  exact runs_makeActionable_of_folder _ _ (by rfl)

/-! ## Many nodes -/

/-- Makes nodes actionable one after the other, also after it failed for some. -/
def makeEachActionable (rules : RuleStore) (engine : Engine) (owners : List NodeRef) :
    Routine (List (Except Error NodeRef)) :=
  owners.mapM fun owner => ((makeActionable owner).run rules engine).attempt

/-- Whether or not the node exists, what is new lies in the system folder of its store. -/
theorem runs_makeActionable_shares (hreachable : state.store.Reachable) (node : NodeRef) :
    ∃ answer after, ((makeActionable node).run rules engine).Runs state answer after ∧
      (state.work.nodes.hasNode node → ∃ folder,
        answer = .ok folder ∧ configurationFolder? after.work.nodes node = .ok (some folder)) ∧
      state.Furnishes (·.store = node.store) after ∧
      state.store.SharesSystem node.store after.store := by
  by_cases hnode : state.work.nodes.hasNode node
  · obtain ⟨folder, after, hruns, hafter, hfound, hcases⟩ :=
      runs_makeActionable_cases hreachable hnode
    refine ⟨_, after, hruns, fun _ => ⟨folder, rfl, hfound⟩,
      hafter.mono fun _ howner => congrArg NodeRef.store howner, ?_⟩
    rcases hcases with ⟨-, rfl⟩ | hmakes
    · exact .refl ..
    · exact hmakes.sharesSystem hafter.furnishes.toAddsFor
  · exact ⟨_, state, runs_makeActionable_of_not hnode, fun hexists => absurd hexists hnode,
      .refl hreachable, .refl ..⟩

theorem runs_makeEachActionable (hreachable : state.store.Reachable) {store : StoreRef}
    {owners : List NodeRef} (howners : ∀ owner ∈ owners, owner.store = store) :
    ∃ answers after, (makeEachActionable rules engine owners).Runs state (.ok answers) after ∧
      List.Forall₂ (fun owner answer => state.work.nodes.hasNode owner → ∃ folder,
        answer = .ok folder ∧ configurationFolder? after.work.nodes owner = .ok (some folder))
        owners answers ∧
      state.Furnishes (·.store = store) after ∧ state.store.SharesSystem store after.store := by
  induction owners generalizing state with
  | nil => exact ⟨[], state, Routine.runs_pure.mpr ⟨rfl, rfl⟩, .nil, .refl hreachable, .refl ..⟩
  | cons owner owners ih =>
      obtain ⟨rfl, howners⟩ := List.forall_mem_cons.mp howners
      obtain ⟨answer, middle, hruns, hanswer, hmiddle, hshares⟩ :=
        runs_makeActionable_shares hreachable owner
      obtain ⟨answers, after, hrest, hanswers, hafter, hlast⟩ := ih hmiddle.reachable howners
      have hsound := hreachable.sound
      refine ⟨answer :: answers, after, ?_, .cons (fun howner => ?_) ?_, hmiddle.trans hafter,
        hshares.trans hlast hmiddle.reachable.sound hafter.adds⟩
      · unfold makeEachActionable at hrest ⊢
        rw [List.mapM_cons]
        refine (Routine.runs_bind_of_runs (Routine.runs_attempt.mpr ⟨answer, rfl, hruns⟩)).mpr ?_
        exact (Routine.runs_bind_of_runs hrest).mpr (Routine.runs_pure.mpr ⟨rfl, rfl⟩)
      · obtain ⟨folder, hanswered, hfolder⟩ := hanswer howner
        exact ⟨folder, hanswered, hafter.furnishes.toAddsFor.configurationFolder?
          hmiddle.reachable.sound hfolder⟩
      · refine hanswers.imp fun other answer hother hexists => hother ?_
        exact (hmiddle.adds.hasNode_iff (hsound.hasDrawn hexists)).mpr hexists

/-- **Making nodes actionable never fails and is done once.**  For a node that does not exist there
is an error, and nothing is changed.  For a node that exists there is none, and a second run returns
the same folder and changes nothing; nor does the first one, unless the node had no configuration
folder.  Then the folder is made, in the system folder of the node's store, which is made only if
the root has no child that stands for it, and the nodes that existed are left alone, but that the
node bears the aspect and is joined to the folder.  However many nodes of one store are made
actionable one after the other, whatever is new is the store's system folder, if it had none, or a
configuration folder in it. -/
theorem makeActionable_furnishes (rules : RuleStore) (engine : Engine)
    (hreachable : state.store.Reachable) :
    (∀ node, ¬ state.work.nodes.hasNode node →
      ((makeActionable node).run rules engine).Runs state
        (.error { cause := .nodeNotFound node }) state) ∧
    (∀ node, state.work.nodes.hasNode node → ∃ folder after,
      ((makeActionable node).run rules engine).Runs state (.ok folder) after ∧
      ((makeActionable node).run rules engine).Runs after (.ok folder) after ∧
      state.store.LeavesOthers node after.store ∧
      (configurationFolder? state.work.nodes node = .ok (some folder) ∧ after = state ∨
        state.store.MakesConfiguration node folder after.store)) ∧
    ∀ (store : StoreRef) (owners : List NodeRef), (∀ owner ∈ owners, owner.store = store) →
      ∃ answers after, (makeEachActionable rules engine owners).Runs state (.ok answers) after ∧
        List.Forall₂ (fun owner answer => state.work.nodes.hasNode owner → ∃ folder,
          answer = .ok folder ∧ configurationFolder? after.work.nodes owner = .ok (some folder))
          owners answers ∧
        state.store.SharesSystem store after.store := by
  refine ⟨fun node => runs_makeActionable_of_not, fun node hnode => ?_,
    fun store owners howners => ?_⟩
  · obtain ⟨folder, after, hruns, hafter, hfound, hcases⟩ :=
      runs_makeActionable_cases hreachable hnode
    exact ⟨folder, after, hruns, runs_makeActionable_of_folder rules engine hfound,
      hafter.furnishes.toAddsFor.leavesOthers hreachable.sound hafter.reachable.paired, hcases⟩
  · obtain ⟨answers, after, hruns, hanswers, -, hshares⟩ :=
      runs_makeEachActionable hreachable howners
    exact ⟨answers, after, hruns, hanswers, hshares⟩

/-- Three nodes are made actionable, one of which does not exist and one of which has its folder:
a folder is made for the other one, in the system folder that was there. -/
theorem makeActionable_furnishes_unmarked :
    unmarked.store.Reachable ∧
      ((makeActionable (node "u9")).run {} (service.engine {} 5)).Runs unmarked
        (.error { cause := .nodeNotFound (node "u9") }) unmarked ∧
      (∃ folder after, ((makeActionable (node "u1")).run {} (service.engine {} 5)).Runs unmarked
          (.ok folder) after ∧
        unmarked.store.LeavesOthers (node "u1") after.store ∧
        unmarked.store.MakesConfiguration (node "u1") folder after.store) ∧
      ∃ answers after, (makeEachActionable {} (service.engine {} 5)
          [node "u9", node "u1", node "u2"]).Runs unmarked (.ok answers) after ∧
        unmarked.store.SharesSystem ⟨"workspace", "main"⟩ after.store ∧
        unmarked.work.nodes.systemFolder? ⟨"workspace", "main"⟩ = some (node "u3") ∧
        unmarked.work.nodes.size = 4 ∧ after.work.nodes.size = 5 := by
  obtain ⟨hmissing, hexisting, hall⟩ :=
    makeActionable_furnishes {} (service.engine {} 5) reachable_unmarked
  obtain ⟨folder, made, hmade, -, hothers, hcases⟩ := hexisting (node "u1") hasNode_unmarked
  obtain ⟨answers, after, hruns, -, hshares⟩ :=
    hall ⟨"workspace", "main"⟩ [node "u9", node "u1", node "u2"] (by decide)
  have hsize : ((makeEachActionable {} (service.engine {} 5)
      [node "u9", node "u1", node "u2"]).run.run unmarked).any
        fun (_, after) => after.work.nodes.size = 5 := by
    decide +kernel
  obtain ⟨_, last, hlast, hcount⟩ := Routine.exists_runs_of_any hsize
  obtain ⟨-, rfl⟩ := hruns.unique hlast
  refine ⟨reachable_unmarked, hmissing _ (by decide +kernel), ⟨folder, made, hmade, hothers, ?_⟩,
    answers, after, hruns, hshares, by decide +kernel, by decide +kernel, of_decide_eq_true hcount⟩
  exact hcases.resolve_left fun hkept => by
    cases hkept.1.symm.trans configurationFolder?_unmarked

end Actionable

end ContentRules
