import ContentRules.Engine.Actionable
import ContentRules.Proofs.Engine.Scripts
import ContentRules.Proofs.NodeStore.Atomic
import ContentRules.Proofs.NodeStore.Furnishing

/-!
# Making nodes actionable

The behaviour that has rules copied with a node first makes the copy actionable, which may take
several edits.  On reachable nodes none of them fails, and they only furnish the copy: all that is
then asked of the nodes that were there, and of the rest of the unit of work, is answered as before.
-/

namespace ContentRules

/-- The event tells of a node that was copied, and of the copy. -/
def NodeEvent.Copies (event : NodeEvent) (pair : NodeRef × NodeRef) : Prop :=
  ∃ copy, event = .copied pair.1 copy ∧ copy.child = pair.2

/-- The event tells of the copy of a node with rules. -/
def RuleStore.FollowedBy (rules : RuleStore) (event : NodeEvent) (copy : NodeRef) : Prop :=
  ∃ source, event.Copies (source, copy) ∧ rules.hasRules source

namespace WorkState

/-- Nodes were made actionable, and no event tells of a copy. -/
structure FurnishesNodes (owners : NodeRef → Prop) (state after : WorkState) : Prop where
  furnishes : state.store.Furnishes owners after.store
  reachable : after.store.Reachable
  recorded : state.store.RecordsNoCopy after.store

/-- Besides, rule copies were deferred, and the rest of the unit of work was not changed. -/
structure Furnishes (owners : NodeRef → Prop) (state after : WorkState) : Prop
    extends state.FurnishesNodes owners after where
  work : ∃ copies, after.work =
    { state.work with nodes := after.work.nodes, ruleCopies := state.work.ruleCopies ++ copies }

variable {owners : NodeRef → Prop} {state after last : WorkState}

namespace FurnishesNodes

theorem of_store_eq (hreachable : state.store.Reachable) (hstore : after.store = state.store) :
    state.FurnishesNodes owners after := by
  refine ⟨?_, ?_, ?_⟩ <;> rw [hstore]
  · exact .refl _
  · exact hreachable
  · exact .refl _

theorem trans (hafter : state.FurnishesNodes owners after)
    (hlast : after.FurnishesNodes owners last) : state.FurnishesNodes owners last where
  furnishes := hafter.furnishes.trans hafter.reachable.sound hlast.furnishes
  reachable := hlast.reachable
  recorded := hafter.recorded.trans hlast.recorded

theorem mono {others : NodeRef → Prop} (hafter : state.FurnishesNodes owners after)
    (howners : ∀ node, owners node → others node) : state.FurnishesNodes others after :=
  { hafter with furnishes := hafter.furnishes.mono howners }

end FurnishesNodes

namespace Furnishes

theorem refl (hreachable : state.store.Reachable) : state.Furnishes owners state :=
  ⟨.of_store_eq hreachable rfl, [], by rw [List.append_nil]⟩

theorem trans (hafter : state.Furnishes owners after) (hlast : after.Furnishes owners last) :
    state.Furnishes owners last where
  toFurnishesNodes := hafter.toFurnishesNodes.trans hlast.toFurnishesNodes
  work := by
    obtain ⟨copies, hcopies⟩ := hafter.work
    obtain ⟨more, hmore⟩ := hlast.work
    exact ⟨copies ++ more, by rw [hmore, hcopies, List.append_assoc]⟩

theorem mono {others : NodeRef → Prop} (hafter : state.Furnishes owners after)
    (howners : ∀ node, owners node → others node) : state.Furnishes others after :=
  { hafter with toFurnishesNodes := hafter.toFurnishesNodes.mono howners }

theorem adds (hafter : state.Furnishes owners after) : state.store.Adds after.store :=
  hafter.furnishes.toAdds

theorem deferCopy (hreachable : state.store.Reachable) (source copy : NodeRef) :
    state.Furnishes owners { state with work := state.work.deferCopy source copy } :=
  ⟨.of_store_eq hreachable rfl, [(source, copy)], rfl⟩

end Furnishes

end WorkState

namespace Actionable

open Script WorkState Vocabulary

variable (rules : RuleStore) (engine : Engine) {state : WorkState}

/-- An edit that succeeds, as a step of a script. -/
theorem runs_apply_of_ok (state : WorkState) {change : Edit} {result : change.Answer}
    (hanswer : (change.run state.store).1 = .ok result) :
    ((Script.apply change).run rules engine).Runs state (.ok result)
      (Routine.edited state change) := by
  have hruns : ((Script.apply change).run rules engine).Runs state _ _ := Script.runs_apply change
  rwa [hanswer] at hruns

/-- The system folder of a store is found, or made beneath the root. -/
theorem runs_systemFolder (hreachable : state.store.Reachable) {owner root : NodeRef}
    (hroot : state.store.nodes.roots[owner.store]? = some root) :
    ∃ system after, ((systemFolder root).run rules engine).Runs state (.ok system) after ∧
      state.Furnishes (· = owner) after ∧
      state.store.FindsSystem owner.store system after.store := by
  have hparent := hreachable.sound.wellFormed.hasNode_root hroot
  obtain ⟨record, hrecord⟩ := NodeStore.hasNode_iff_recordOf.mp hparent
  unfold systemFolder
  have hchildren : state.work.nodes.childrenOf root (some systemConfigurationChild) =
      .ok ((state.work.nodes.children.itemsOf root).filter fun assoc =>
        (some systemConfigurationChild).all (assoc.name = ·)) := by
    unfold NodeStore.childrenOf
    rw [show state.work.nodes.recordOf root = .ok record from hrecord]
    rfl
  have hfind : ((state.work.nodes.children.itemsOf root).filter fun assoc =>
      (some systemConfigurationChild).all (assoc.name = ·)).find? (·.relation = childrenRelation) =
        state.store.nodes.systemPlace? root := by
    rw [List.find?_filter]
    simp [NodeStore.systemPlace?, WorkState.store]
  simp only [runs_bind_of_runs runs_nodes, runs_lift_bind hchildren, hfind]
  cases hplace : state.store.nodes.systemPlace? root with
  | some place =>
      have hsystem : state.store.nodes.systemFolder? owner.store = some place.child :=
        NodeStore.systemFolder?_eq_some_iff.mpr ⟨root, hroot, place, hplace, rfl⟩
      exact ⟨_, state, runs_pure.mpr ⟨rfl, rfl⟩, .refl hreachable, .of_found hsystem⟩
  | none =>
      obtain ⟨hfurnishes, hrecorded, hsystem⟩ :=
        StoreState.furnishes_system hreachable.sound hroot hplace
      have hruns := runs_apply_of_ok rules engine state
        (congrArg Prod.fst (Edit.run_createNode hparent childrenRelation systemConfigurationChild
          systemFolderType []))
      exact ⟨_, _, (runs_bind_of_runs hruns).mpr (runs_pure.mpr ⟨rfl, rfl⟩),
        ⟨⟨hfurnishes, hreachable.edit _, hrecorded⟩, [], by rw [List.append_nil]; rfl⟩, hsystem⟩

/-- A node that has a configuration folder keeps it, and nothing is done. -/
theorem runs_makeActionable_of_folder {node folder : NodeRef}
    (hfolder : configurationFolder? state.work.nodes node = .ok (some folder)) :
    ((makeActionable node).run rules engine).Runs state (.ok folder) state := by
  unfold makeActionable
  simp only [runs_bind_of_runs runs_nodes, runs_lift_bind hfolder]
  exact runs_pure.mpr ⟨rfl, rfl⟩

/-- For a node without one the system folder is found, and the configuration folder made in it. -/
theorem runs_makeActionable_of_none (hreachable : state.store.Reachable) {node : NodeRef}
    (hnode : state.work.nodes.hasNode node)
    (hnone : configurationFolder? state.work.nodes node = .ok none) :
    ∃ system folder first after,
      ((makeActionable node).run rules engine).Runs state (.ok folder) after ∧
      state.Furnishes (· = node) first ∧
      state.store.FindsSystem node.store system first.store ∧
      first.store.MakesFolder node system folder after.store ∧
      first.Furnishes (· = node) after := by
  obtain ⟨record, hrecord⟩ := NodeStore.hasNode_iff_recordOf.mp hnode
  unfold makeActionable
  simp only [runs_bind_of_runs runs_nodes, runs_lift_bind hnone]
  obtain ⟨root, hroot⟩ := hreachable.sound.wellFormed.exists_root hnode
  have hrootOf : state.work.nodes.rootOf node.store = .ok root := by
    unfold NodeStore.rootOf
    rw [show state.work.nodes.roots[node.store]? = some root from hroot]
  simp only [runs_lift_bind hrootOf]
  obtain ⟨system, first, hsystem, hfirst, hfinds⟩ :=
    runs_systemFolder rules engine hreachable hroot
  simp only [runs_bind_of_runs hsystem]
  -- The folder is made, the node is marked, and the two are joined.
  obtain ⟨kept, hkept⟩ : ∃ kept, first.store.nodes.records[node]? = some kept :=
    (hfirst.furnishes.records (NodeStore.getElem?_of_recordOf hrecord)).elim
      (fun hsame => ⟨_, hsame⟩) fun hmarked => ⟨_, hmarked.2⟩
  have hplace := hfirst.reachable.sound.wellFormed.systemPlace hfinds.found
  have hparent : first.store.nodes.hasNode system := by
    obtain ⟨root, -, hplace⟩ := hplace
    exact hfirst.reachable.sound.wellFormed.hasNode_child hplace
  obtain ⟨hmade, hmarked, hjoined, hfolder, hrecorded⟩ :=
    StoreState.makes_folder hfirst.reachable hkept hparent
  have hcreate := runs_apply_of_ok rules engine first hmade
  have hmark := runs_apply_of_ok rules engine (Routine.edited first _) hmarked
  have hjoin := runs_apply_of_ok rules engine
    (Routine.edited (Routine.edited first _) _) hjoined
  simp only [runs_bind_of_runs hcreate, runs_bind_of_runs hmark]
  refine ⟨system, _, first, _,
    (runs_bind_of_runs (runs_discard hjoin)).mpr (runs_pure.mpr ⟨rfl, rfl⟩), hfirst, hfinds,
    hfolder, ⟨hfolder.furnishes hfirst.reachable.sound hplace,
      ((hfirst.reachable.edit _).edit _).edit _, hrecorded⟩, [], ?_⟩
  rw [List.append_nil]
  rfl

/-- Whether a node that exists has a configuration folder can be asked. -/
theorem exists_configurationFolder? {nodes : NodeStore} {node : NodeRef}
    (hnode : nodes.hasNode node) : ∃ folder?, configurationFolder? nodes node = .ok folder? := by
  obtain ⟨record, hrecord⟩ := NodeStore.hasNode_iff_recordOf.mp hnode
  unfold configurationFolder? NodeStore.targetsOf
  rw [hrecord]
  exact ⟨_, rfl⟩

/-- A node that exists can be made actionable. -/
theorem runs_makeActionable (hreachable : state.store.Reachable) {node : NodeRef}
    (hnode : state.work.nodes.hasNode node) :
    ∃ folder after, ((makeActionable node).run rules engine).Runs state (.ok folder) after ∧
      state.Furnishes (· = node) after := by
  obtain ⟨folder? | folder, hfolder⟩ := exists_configurationFolder? hnode
  case some => exact ⟨folder, state, runs_makeActionable_of_folder rules engine hfolder,
    .refl hreachable⟩
  case none =>
    obtain ⟨-, folder, first, after, hruns, hfirst, -, -, hafter⟩ :=
      runs_makeActionable_of_none rules engine hreachable hnode hfolder
    exact ⟨folder, after, hruns, hfirst.trans hafter⟩

/-- Told of the copy of a node with rules, the behaviour makes the copy actionable and defers the
rules. -/
theorem runs_copyRulesWithNode_of_rules (hreachable : state.store.Reachable) {source : NodeRef}
    {copy : ChildAssociation} (hrules : rules.hasRules source)
    (hcopy : state.work.nodes.hasNode copy.child) :
    ∃ after,
      ((copyRulesWithNode (.copied source copy)).run rules engine).Runs state (.ok ()) after ∧
      state.Furnishes (· = copy.child) after ∧ (source, copy.child) ∈ after.work.ruleCopies := by
  obtain ⟨folder, after, hruns, hafter⟩ := runs_makeActionable rules engine hreachable hcopy
  refine ⟨{ after with work := after.work.deferCopy source copy.child }, ?_,
    hafter.trans (.deferCopy hafter.reachable source copy.child),
    List.mem_append_right _ (List.mem_singleton_self _)⟩
  simp only [copyRulesWithNode, runs_bind_of_runs runs_view]
  rw [if_pos (Bool.and_eq_true_iff.mpr ⟨hrules, hcopy⟩), runs_bind_of_runs (runs_discard hruns)]
  exact runs_copyRulesAtCommit _ _

/-- Without rules, or if the copy is gone, the behaviour does nothing. -/
theorem runs_copyRulesWithNode_of_not {source : NodeRef} {copy : ChildAssociation}
    (hnot : ¬ (rules.hasRules source && state.work.nodes.hasNode copy.child)) :
    ((copyRulesWithNode (.copied source copy)).run rules engine).Runs state (.ok ()) state := by
  simp only [copyRulesWithNode, runs_bind_of_runs runs_view]
  rw [if_neg hnot]
  exact runs_pure.mpr ⟨rfl, rfl⟩

/-- Told of any event, the behaviour that copies rules with a node ends well. -/
theorem runs_copyRulesWithNode (hreachable : state.store.Reachable) (event : NodeEvent) :
    ∃ after, ((copyRulesWithNode event).run rules engine).Runs state (.ok ()) after ∧
      state.Furnishes (rules.FollowedBy event) after := by
  cases event with
  | copied source copy =>
      by_cases hcopied : rules.hasRules source && state.work.nodes.hasNode copy.child
      · obtain ⟨hrules, hcopy⟩ := Bool.and_eq_true_iff.mp hcopied
        obtain ⟨after, hruns, hafter, -⟩ :=
          runs_copyRulesWithNode_of_rules rules engine hreachable hrules hcopy
        refine ⟨after, hruns, hafter.mono ?_⟩
        rintro _ rfl
        exact ⟨source, ⟨copy, rfl, rfl⟩, hrules⟩
      · exact ⟨state, runs_copyRulesWithNode_of_not rules engine hcopied, .refl hreachable⟩
  | created | deleted | moved | propertiesUpdated | aspectAdded | aspectRemoved
    | associationCreated | associationRemoved =>
      exact ⟨state, runs_pure.mpr ⟨rfl, rfl⟩, .refl hreachable⟩

end Actionable

end ContentRules
