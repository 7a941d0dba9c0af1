import ContentRules.Proofs.NodeStore.Additions
import ContentRules.Proofs.NodeStore.Peers

/-!
# Configuration folders

A node that is made actionable gets a configuration folder, beneath a system folder that is made for
its store if there is none.  `Furnishes` says what becomes of a store in which some nodes, the
owners, are made actionable: what was there stays as it was, except that owners bear the aspect and
are joined to new nodes, and whatever is new is a system folder or a configuration folder.

**Strategy.**  A configuration folder is made in three edits, and only the last one joins it to its
owner.  So what stays is followed from the store that they began with, one edit after the other
(`AddsFor`), and what is new is looked at when they are done (`makes_folder`).
-/

namespace ContentRules

open Vocabulary

/-! ## Lists that grow -/

/-- The lists of the index have grown, by items of this kind. -/
def NodeIndex.GrowsBy {α : Type} (index later : NodeIndex α) (new : α → Prop) : Prop :=
  ∀ node, ∃ added, later.itemsOf node = index.itemsOf node ++ added ∧ ∀ item ∈ added, new item

namespace NodeIndex.GrowsBy

variable {α : Type} {index later last : NodeIndex α} {new other : α → Prop}

theorem refl (index : NodeIndex α) : index.GrowsBy index new :=
  fun _ => ⟨[], (List.append_nil _).symm, nofun⟩

theorem mono (hlater : index.GrowsBy later new) (hnew : ∀ item, new item → other item) :
    index.GrowsBy later other := by
  intro node
  obtain ⟨added, hadded, hall⟩ := hlater node
  exact ⟨added, hadded, fun item hitem => hnew item (hall item hitem)⟩

theorem trans (hlater : index.GrowsBy later new) (hlast : later.GrowsBy last new) :
    index.GrowsBy last new := by
  intro node
  obtain ⟨added, hadded, hall⟩ := hlater node
  obtain ⟨more, hmore, hrest⟩ := hlast node
  exact ⟨added ++ more, by rw [hmore, hadded, List.append_assoc],
    List.forall_mem_append.mpr ⟨hall, hrest⟩⟩

theorem push (index : NodeIndex α) (node : NodeRef) {item : α} (hitem : new item) :
    index.GrowsBy (index.push node item) new := by
  intro other
  rw [itemsOf_push]
  split
  · exact ⟨[item], rfl, List.forall_mem_singleton.mpr hitem⟩
  · exact ⟨[], (List.append_nil _).symm, nofun⟩

end NodeIndex.GrowsBy

/-! ## Folders -/

/-- The record of a node that is made actionable. -/
def NodeRecord.marked (record : NodeRecord) : NodeRecord :=
  { record with aspects := record.aspects.insert actionableAspect }

theorem NodeRecord.marked_marked (record : NodeRecord) : record.marked.marked = record.marked := by
  have hsame : (record.aspects.insert actionableAspect).insert actionableAspect =
      record.aspects.insert actionableAspect := by
    refine Std.ExtTreeSet.ext_mem fun aspect => ?_
    simp only [Std.ExtTreeSet.mem_insert, or_self_left]
  unfold marked
  rw [hsame]

namespace NodeStore

/-- The node stands beneath the root of the owner's store, where the system folder is looked for. -/
def SystemPlace (nodes : NodeStore) (owner system : NodeRef) : Prop :=
  ∃ root, nodes.roots[owner.store]? = some root ∧
    nodes.parents[system]? = some ⟨childrenRelation, root, systemConfigurationChild, system⟩

/-- The place of the first child of a root that stands where a system folder does. -/
def systemPlace? (nodes : NodeStore) (root : NodeRef) : Option ChildAssociation :=
  (nodes.children.itemsOf root).find? fun place =>
    place.name = systemConfigurationChild ∧ place.relation = childrenRelation

/-- The system folder that a store has, if it has one. -/
def systemFolder? (nodes : NodeStore) (store : StoreRef) : Option NodeRef :=
  nodes.roots[store]?.bind fun root => (nodes.systemPlace? root).map ChildAssociation.child

theorem systemFolder?_eq_some_iff {nodes : NodeStore} {store : StoreRef} {system : NodeRef} :
    nodes.systemFolder? store = some system ↔
      ∃ root, nodes.roots[store]? = some root ∧
        ∃ place, nodes.systemPlace? root = some place ∧ place.child = system := by
  simp only [systemFolder?, Option.bind_eq_some_iff, Option.map_eq_some_iff]

theorem WellFormed.systemPlace {nodes : NodeStore} (hnodes : nodes.WellFormed)
    {owner system : NodeRef} (hsystem : nodes.systemFolder? owner.store = some system) :
    nodes.SystemPlace owner system := by
  obtain ⟨root, hroot, place, hplace, rfl⟩ := systemFolder?_eq_some_iff.mp hsystem
  obtain ⟨hname, hrelation⟩ : place.name = systemConfigurationChild ∧
      place.relation = childrenRelation := by simpa using List.find?_some hplace
  obtain ⟨hbeneath, hparent⟩ := hnodes.mem_itemsOf_iff.mp (List.mem_of_find?_eq_some hplace)
  refine ⟨root, hroot, ?_⟩
  rw [hparent, ← hname, ← hrelation, ← hbeneath]

/-- The system folder of the owner's store. -/
structure SystemFolder (nodes : NodeStore) (owner folder : NodeRef) : Prop where
  place : nodes.SystemPlace owner folder
  typeOf : nodes.typeOf folder = .ok systemFolderType

/-- The folder that holds the configuration of its owner. -/
structure ConfigurationFolder (nodes : NodeStore) (owner folder : NodeRef) : Prop where
  place : ∃ system, nodes.SystemPlace owner system ∧
    nodes.parents[folder]? = some ⟨containsRelation, system, configurationsChild, folder⟩
  typeOf : nodes.typeOf folder = .ok configurationsType
  joined : ⟨owner, folder, configurationsRelation⟩ ∈ nodes.targets.itemsOf owner

end NodeStore

namespace StoreState

variable {owners : NodeRef → Prop} {before state after last : StoreState} {owner : NodeRef}

/-- The association joins an owner to a node that was not there before. -/
structure JoinsOwner (owners : NodeRef → Prop) (before : StoreState) (assoc : PeerAssociation) :
    Prop where
  source : owners assoc.source
  relation : assoc.relation = configurationsRelation
  target : ¬ before.ids.HasDrawn assoc.target.id

/-- What was there is as before, except that owners may bear the aspect and be joined to new nodes,
and that there may be new children. -/
structure AddsFor (owners : NodeRef → Prop) (before after : StoreState) : Prop
    extends before.Adds after where
  roots : after.nodes.roots = before.nodes.roots
  records : ∀ {node : NodeRef} {record : NodeRecord}, before.nodes.records[node]? = some record →
    after.nodes.records[node]? = some record ∨
      owners node ∧ after.nodes.records[node]? = some record.marked
  children : before.nodes.children.GrowsBy after.nodes.children fun place =>
    ¬ before.ids.HasDrawn place.child.id
  targets : before.nodes.targets.GrowsBy after.nodes.targets (before.JoinsOwner owners)
  sources : before.nodes.sources.GrowsBy after.nodes.sources (before.JoinsOwner owners)

/-- Owners were given configuration folders, and their stores system folders; nothing else was
done. -/
structure Furnishes (owners : NodeRef → Prop) (before after : StoreState) : Prop
    extends before.AddsFor owners after where
  new : ∀ {node : NodeRef}, after.nodes.hasNode node → ¬ before.nodes.hasNode node →
    ∃ owner, owners owner ∧
      (after.nodes.SystemFolder owner node ∨ after.nodes.ConfigurationFolder owner node)

theorem JoinsOwner.of_le {assoc : PeerAssociation} (hjoins : state.JoinsOwner owners assoc)
    (hlater : before.ids ≤ state.ids) : before.JoinsOwner owners assoc :=
  ⟨hjoins.source, hjoins.relation, fun hdrawn => hjoins.target (hdrawn.mono hlater)⟩

namespace AddsFor

theorem refl (state : StoreState) : state.AddsFor owners state :=
  ⟨.refl state, rfl, .inl, .refl _, .refl _, .refl _⟩

theorem trans (hafter : before.AddsFor owners after) (hlast : after.AddsFor owners last) :
    before.AddsFor owners last := by
  refine ⟨hafter.toAdds.trans hlast.toAdds, hlast.roots.trans hafter.roots, ?_,
    hafter.children.trans (hlast.children.mono fun place hnew hdrawn => ?_),
    hafter.targets.trans (hlast.targets.mono fun assoc hjoins => ?_),
    hafter.sources.trans (hlast.sources.mono fun assoc hjoins => ?_)⟩
  · intro node record hrecord
    rcases hafter.records hrecord with hsame | ⟨howner, hmarked⟩
    · exact hlast.records hsame
    · -- The aspect is given once, or for a second time.
      refine .inr ⟨howner, ?_⟩
      rcases hlast.records hmarked with hsame | ⟨-, htwice⟩
      · exact hsame
      · rw [htwice, record.marked_marked]
  · exact hnew (hdrawn.mono hafter.ids_le)
  · exact hjoins.of_le hafter.ids_le
  · exact hjoins.of_le hafter.ids_le

theorem mono {others : NodeRef → Prop} (hafter : before.AddsFor owners after)
    (howners : ∀ node, owners node → others node) : before.AddsFor others after where
  toAdds := hafter.toAdds
  roots := hafter.roots
  records hrecord := (hafter.records hrecord).imp_right fun hmarked =>
    ⟨howners _ hmarked.1, hmarked.2⟩
  children := hafter.children
  targets := hafter.targets.mono fun _ hjoins => { hjoins with source := howners _ hjoins.source }
  sources := hafter.sources.mono fun _ hjoins => { hjoins with source := howners _ hjoins.source }

/-! ### What is said of folders stays true -/

theorem systemPlace (hafter : before.AddsFor owners after) (hsound : before.Sound)
    {system : NodeRef} (hplace : before.nodes.SystemPlace owner system) :
    after.nodes.SystemPlace owner system := by
  obtain ⟨root, hroot, hparent⟩ := hplace
  have hdrawn := hsound.hasDrawn (hsound.wellFormed.hasNode_child hparent)
  exact ⟨root, by rw [hafter.roots, hroot], by rw [hafter.parents hdrawn, hparent]⟩

theorem systemFolder (hafter : before.AddsFor owners after) (hsound : before.Sound)
    {folder : NodeRef} (hfolder : before.nodes.SystemFolder owner folder) :
    after.nodes.SystemFolder owner folder := by
  have hnode := NodeStore.hasNode_iff_typeOf.mpr ⟨_, hfolder.typeOf⟩
  exact ⟨hafter.systemPlace hsound hfolder.place,
    (hafter.typeOf (hsound.hasDrawn hnode)).trans hfolder.typeOf⟩

theorem configurationFolder (hafter : before.AddsFor owners after) (hsound : before.Sound)
    {folder : NodeRef} (hfolder : before.nodes.ConfigurationFolder owner folder) :
    after.nodes.ConfigurationFolder owner folder := by
  have hnode := NodeStore.hasNode_iff_typeOf.mpr ⟨_, hfolder.typeOf⟩
  have hdrawn := hsound.hasDrawn hnode
  obtain ⟨system, hsystem, hparent⟩ := hfolder.place
  obtain ⟨added, hadded, -⟩ := hafter.targets owner
  exact ⟨⟨system, hafter.systemPlace hsound hsystem, by rw [hafter.parents hdrawn, hparent]⟩,
    (hafter.typeOf hdrawn).trans hfolder.typeOf,
    hadded ▸ List.mem_append_left added hfolder.joined⟩

/-! ### Single edits -/

theorem createNode {parent : NodeRef} (hbefore : before.AddsFor owners state)
    (hsound : state.Sound) (hparent : state.nodes.hasNode parent)
    (relation name nodeType : QualifiedName) :
    before.AddsFor owners ((Edit.createNode parent relation name nodeType []).run state).2 := by
  refine hbefore.trans ?_
  have hadds := Edit.adds_createNode hparent relation name nodeType []
  rw [Edit.run_createNode hparent] at hadds ⊢
  refine ⟨hadds, rfl, ?_, .push _ _ state.ids.not_hasDrawn_draw, .refl _, .refl _⟩
  intro node record hrecord
  have hne : (⟨parent.store, state.ids.draw.1⟩ : NodeRef) ≠ node := by
    rintro rfl
    exact hsound.not_hasNode_draw rfl (NodeStore.hasNode_iff_getElem?.mpr ⟨record, hrecord⟩)
  refine .inl ?_
  simpa [NodeStore.note, NodeStore.link, NodeStore.putRecord, Std.ExtTreeMap.getElem?_insert, hne]
    using hrecord

theorem addAspect (hbefore : before.AddsFor owners state) (howner : owners owner)
    {record : NodeRecord} (hrecord : state.nodes.records[owner]? = some record) :
    before.AddsFor owners ((Edit.addAspect owner actionableAspect []).run state).2 := by
  refine hbefore.trans ?_
  have hadds := Edit.adds_addAspect hrecord actionableAspect
  obtain ⟨events, -, hrun⟩ := Edit.run_addAspect hrecord actionableAspect
  rw [hrun] at hadds ⊢
  refine ⟨hadds, rfl, ?_, .refl _, .refl _, .refl _⟩
  intro node other hother
  by_cases hsame : owner = node
  · subst hsame
    obtain rfl := Option.some.inj (hrecord.symm.trans hother)
    exact .inr ⟨howner, by simp [NodeStore.putRecord, NodeRecord.marked]⟩
  · refine .inl ?_
    simpa [NodeStore.putRecord, Std.ExtTreeMap.getElem?_insert, hsame] using hother

/-- The new node may have come into being in the meantime. -/
theorem createAssociation {folder : NodeRef} (hbefore : before.AddsFor owners state)
    (howner : owners owner) (hnew : ¬ before.ids.HasDrawn folder.id)
    (hsource : state.nodes.hasNode owner) (htarget : state.nodes.hasNode folder) :
    before.AddsFor owners
      ((Edit.createAssociation owner folder configurationsRelation).run state).2 := by
  have hadds := Edit.adds_createAssociation hsource htarget configurationsRelation
  rw [Edit.run_createAssociation hsource htarget] at hadds ⊢
  dsimp only at hadds ⊢
  split
  · exact hbefore
  · rw [if_neg ‹_›] at hadds
    exact ⟨hbefore.toAdds.trans hadds, hbefore.roots, hbefore.records, hbefore.children,
      hbefore.targets.trans (.push _ _ ⟨howner, rfl, hnew⟩),
      hbefore.sources.trans (.push _ _ ⟨howner, rfl, hnew⟩)⟩

end AddsFor

/-! ## Events -/

/-- Events were recorded, and none of them tells of a copy. -/
def RecordsNoCopy (before after : StoreState) : Prop :=
  ∃ recorded, after.nodes.events = before.nodes.events ++ recorded ∧
    ∀ event ∈ recorded, event.kind ≠ .nodeCopied

namespace RecordsNoCopy

theorem refl (state : StoreState) : state.RecordsNoCopy state :=
  ⟨[], (List.append_nil _).symm, nofun⟩

theorem trans (hafter : before.RecordsNoCopy after) (hlast : after.RecordsNoCopy last) :
    before.RecordsNoCopy last := by
  obtain ⟨recorded, hrecorded, hall⟩ := hafter
  obtain ⟨more, hmore, hrest⟩ := hlast
  exact ⟨recorded ++ more, by rw [hmore, hrecorded, List.append_assoc],
    List.forall_mem_append.mpr ⟨hall, hrest⟩⟩

theorem createNode {parent : NodeRef} (hparent : state.nodes.hasNode parent)
    (relation name nodeType : QualifiedName) :
    state.RecordsNoCopy ((Edit.createNode parent relation name nodeType []).run state).2 := by
  rw [Edit.run_createNode hparent]
  exact ⟨[_], rfl, List.forall_mem_singleton.mpr nofun⟩

theorem addAspect {record : NodeRecord} (hrecord : state.nodes.records[owner]? = some record)
    (aspect : QualifiedName) :
    state.RecordsNoCopy ((Edit.addAspect owner aspect []).run state).2 := by
  obtain ⟨events, hevents, hrun⟩ := Edit.run_addAspect hrecord aspect
  rw [hrun]
  refine ⟨events, rfl, fun event hevent => ?_⟩
  rw [hevents event hevent]
  nofun

theorem createAssociation {source target : NodeRef} (hsource : state.nodes.hasNode source)
    (htarget : state.nodes.hasNode target) (relation : QualifiedName) :
    state.RecordsNoCopy ((Edit.createAssociation source target relation).run state).2 := by
  rw [Edit.run_createAssociation hsource htarget]
  dsimp only
  split
  · exact .refl state
  · exact ⟨[_], rfl, List.forall_mem_singleton.mpr nofun⟩

end RecordsNoCopy

/-! ## Furnishing -/

namespace Furnishes

theorem refl (state : StoreState) : state.Furnishes owners state :=
  ⟨.refl state, fun hnode hnone => absurd hnode hnone⟩

theorem trans (hafter : before.Furnishes owners after) (hsound : after.Sound)
    (hlast : after.Furnishes owners last) : before.Furnishes owners last := by
  refine ⟨hafter.toAddsFor.trans hlast.toAddsFor, ?_⟩
  intro node hnode hnone
  by_cases hbetween : after.nodes.hasNode node
  · obtain ⟨owner, howner, hfolder⟩ := hafter.new hbetween hnone
    exact ⟨owner, howner, hfolder.imp (hlast.systemFolder hsound)
      (hlast.configurationFolder hsound)⟩
  · exact hlast.new hnode hbetween

theorem mono {others : NodeRef → Prop} (hafter : before.Furnishes owners after)
    (howners : ∀ node, owners node → others node) : before.Furnishes others after where
  toAddsFor := hafter.toAddsFor.mono howners
  new hnode hnone := by
    obtain ⟨owner, howner, hfolder⟩ := hafter.new hnode hnone
    exact ⟨owner, howners owner howner, hfolder⟩

end Furnishes

/-- Nodes are the same when only the events were taken. -/
theorem Furnishes.takeEvents (state : StoreState) :
    state.Furnishes owners { state with nodes := state.nodes.takeEvents.2 } :=
  ⟨⟨⟨le_rfl, fun _ => rfl, fun _ => rfl⟩, rfl, .inl, .refl _, .refl _, .refl _⟩,
    fun hnode hnone => absurd hnode hnone⟩

/-! ## System folders -/

theorem AddsFor.systemFolder? (hafter : before.AddsFor owners after) {store : StoreRef}
    {system : NodeRef} (hsystem : before.nodes.systemFolder? store = some system) :
    after.nodes.systemFolder? store = some system := by
  obtain ⟨root, hroot, place, hplace, rfl⟩ := NodeStore.systemFolder?_eq_some_iff.mp hsystem
  obtain ⟨added, hadded, -⟩ := hafter.children root
  refine NodeStore.systemFolder?_eq_some_iff.mpr ⟨root, hafter.roots ▸ hroot, place, ?_, rfl⟩
  rw [NodeStore.systemPlace?] at hplace ⊢
  rw [hadded, List.find?_append, hplace, Option.some_or]

/-- The system folder of the store was found, or it was made because there was none. -/
structure FindsSystem (store : StoreRef) (system : NodeRef) (before after : StoreState) :
    Prop where
  found : after.nodes.systemFolder? store = some system
  new : ∀ {node : NodeRef}, after.nodes.hasNode node → ¬ before.nodes.hasNode node →
    node = system ∧ before.nodes.systemFolder? store = none ∧
      after.nodes.typeOf node = .ok systemFolderType
  targets : after.nodes.targets = before.nodes.targets

theorem FindsSystem.of_found {store : StoreRef} {system : NodeRef}
    (hsystem : state.nodes.systemFolder? store = some system) :
    state.FindsSystem store system state :=
  ⟨hsystem, fun hnode hnone => absurd hnode hnone, rfl⟩

/-- A system folder is made for the store of an owner. -/
theorem furnishes_system (hsound : state.Sound) {root : NodeRef}
    (hroot : state.nodes.roots[owner.store]? = some root)
    (hnone : state.nodes.systemPlace? root = none) :
    let after := ((Edit.createNode root childrenRelation systemConfigurationChild systemFolderType
      []).run state).2
    state.Furnishes (· = owner) after ∧ state.RecordsNoCopy after ∧
      state.FindsSystem owner.store ⟨root.store, state.ids.draw.1⟩ after := by
  intro after
  have hparent := hsound.wellFormed.hasNode_root hroot
  have hadds : state.AddsFor (· = owner) after := (AddsFor.refl state).createNode hsound hparent ..
  obtain ⟨htype, hplace, hnodes⟩ := Edit.made_of_createNode hparent childrenRelation
    systemConfigurationChild systemFolderType []
  have hafterRoot : after.nodes.roots[owner.store]? = some root := by rw [hadds.roots, hroot]
  refine ⟨⟨hadds, fun hnode hmissing => ?_⟩, .createNode hparent .., ⟨?_, ?_, ?_⟩⟩
  · rcases (hnodes _).mp hnode with rfl | hnode
    · exact ⟨owner, rfl, .inl ⟨⟨root, hafterRoot, hplace⟩, htype⟩⟩
    · exact absurd hnode hmissing
  · let system : NodeRef := ⟨root.store, state.ids.draw.1⟩
    have hmade : after.nodes.systemPlace? root =
        some ⟨childrenRelation, root, systemConfigurationChild, system⟩ := by
      rw [NodeStore.systemPlace?] at hnone ⊢
      rw [Edit.children_createNode hparent, List.find?_append, hnone, Option.none_or]
      exact List.find?_cons_of_pos (by simp)
    exact NodeStore.systemFolder?_eq_some_iff.mpr ⟨root, hafterRoot, _, hmade, rfl⟩
  · intro node hnode hmissing
    obtain rfl := ((hnodes node).mp hnode).resolve_right hmissing
    refine ⟨rfl, ?_, htype⟩
    rw [NodeStore.systemFolder?, hroot, Option.bind_some, hnone, Option.map_none]
  · exact Edit.targets_createNode hparent ..

/-! ## Configuration folders -/

/-- A configuration folder was made for an owner, which was marked and joined to it. -/
structure MakesFolder (owner system folder : NodeRef) (before after : StoreState) : Prop
    extends before.AddsFor (· = owner) after where
  fresh : ¬ before.ids.HasDrawn folder.id
  nodes_iff : ∀ node, after.nodes.hasNode node ↔ folder = node ∨ before.nodes.hasNode node
  made : after.nodes.typeOf folder = .ok configurationsType
  place : after.nodes.parents[folder]? =
    some ⟨containsRelation, system, configurationsChild, folder⟩
  marked : ∀ {record : NodeRecord}, before.nodes.records[owner]? = some record →
    after.nodes.records[owner]? = some record.marked
  joined : after.nodes.targets.itemsOf owner =
    before.nodes.targets.itemsOf owner ++ [⟨owner, folder, configurationsRelation⟩]

theorem MakesFolder.furnishes {system folder : NodeRef}
    (hmade : before.MakesFolder owner system folder after) (hsound : before.Sound)
    (hsystem : before.nodes.SystemPlace owner system) : before.Furnishes (· = owner) after := by
  refine ⟨hmade.toAddsFor, fun {node} hnode hnone => ?_⟩
  obtain rfl := ((hmade.nodes_iff node).mp hnode).resolve_right hnone
  refine ⟨owner, rfl, .inr ⟨⟨system, hmade.systemPlace hsound hsystem, hmade.place⟩,
    hmade.made, ?_⟩⟩
  rw [hmade.joined]
  exact List.mem_append_right _ (List.mem_singleton_self _)

/-- An owner is given the aspect and joined to a folder that is new. -/
theorem marks_and_joins {made : StoreState} {folder : NodeRef}
    (hmade : state.AddsFor (· = owner) made) (hnew : ¬ state.ids.HasDrawn folder.id)
    (hdrawn : made.ids.HasDrawn folder.id) (hfolder : made.nodes.hasNode folder)
    {record : NodeRecord} (hrecord : made.nodes.records[owner]? = some record)
    (hapart : ⟨owner, folder, configurationsRelation⟩ ∉ made.nodes.targets.itemsOf owner) :
    let marked := (Edit.addAspect owner actionableAspect []).run made
    let joined := (Edit.createAssociation owner folder configurationsRelation).run marked.2
    (marked.1 = .ok () ∧ joined.1 = .ok ⟨owner, folder, configurationsRelation⟩) ∧
      state.AddsFor (· = owner) joined.2 ∧ made.RecordsNoCopy joined.2 ∧ made.Adds joined.2 ∧
      joined.2.ids = made.ids ∧ joined.2.nodes.records[owner]? = some record.marked ∧
      joined.2.nodes.targets.itemsOf owner =
        made.nodes.targets.itemsOf owner ++ [⟨owner, folder, configurationsRelation⟩] := by
  intro marked joined
  have hmarked : made.AddsFor (· = owner) marked.2 := (AddsFor.refl made).addAspect rfl hrecord
  have howner : marked.2.nodes.hasNode owner :=
    NodeStore.hasNode_iff_getElem?.mpr ⟨_, Edit.records_addAspect hrecord actionableAspect⟩
  have hkeptFolder := (hmarked.hasNode_iff hdrawn).mpr hfolder
  obtain ⟨events, -, hmarkedRun⟩ := Edit.run_addAspect hrecord actionableAspect
  have htargets : marked.2.nodes.targets = made.nodes.targets :=
    Edit.targets_addAspect hrecord actionableAspect
  have hjoinedRun := Edit.run_createAssociation howner hkeptFolder configurationsRelation
  refine ⟨⟨congrArg Prod.fst hmarkedRun, congrArg Prod.fst hjoinedRun⟩,
    (hmade.trans hmarked).createAssociation rfl hnew howner hkeptFolder,
    (RecordsNoCopy.addAspect hrecord _).trans (.createAssociation howner hkeptFolder _),
    hmarked.toAdds.trans (Edit.adds_createAssociation howner hkeptFolder _),
    (Edit.ids_createAssociation howner hkeptFolder _).trans (Edit.ids_addAspect hrecord _), ?_, ?_⟩
  · rw [Edit.records_createAssociation howner hkeptFolder]
    exact Edit.records_addAspect hrecord actionableAspect
  · rw [Edit.targets_createAssociation howner hkeptFolder (htargets ▸ hapart), htargets]

/-- A configuration folder is made for an owner: it comes into being beneath the system folder, the
owner is given the aspect, and the two are joined. -/
theorem makes_folder (hreachable : state.Reachable) {record : NodeRecord}
    (hrecord : state.nodes.records[owner]? = some record) {system : NodeRef}
    (hsystem : state.nodes.hasNode system) :
    let folder : NodeRef := ⟨system.store, state.ids.draw.1⟩
    let made := (Edit.createNode system containsRelation configurationsChild configurationsType
      []).run state
    let marked := (Edit.addAspect owner actionableAspect []).run made.2
    let joined := (Edit.createAssociation owner folder configurationsRelation).run marked.2
    made.1 = .ok ⟨containsRelation, system, configurationsChild, folder⟩ ∧ marked.1 = .ok () ∧
      joined.1 = .ok ⟨owner, folder, configurationsRelation⟩ ∧
      state.MakesFolder owner system folder joined.2 ∧ state.RecordsNoCopy joined.2 := by
  intro folder made marked joined
  have hsound := hreachable.sound
  have hplain : state.AddsFor (fun _ => False) made.2 :=
    (AddsFor.refl state).createNode hsound hsystem ..
  have hmade : state.AddsFor (· = owner) made.2 := hplain.mono fun _ => False.elim
  have hmadeSound : made.2.Sound := hsound.steps (Edit.steps_run _ _)
  obtain ⟨htype, hplace, hnodes⟩ := Edit.made_of_createNode hsystem containsRelation
    configurationsChild configurationsType []
  have hfolder : made.2.nodes.hasNode folder := (hnodes folder).mpr (.inl rfl)
  have hdrawn : made.2.ids.HasDrawn folder.id := hmadeSound.hasDrawn hfolder
  have hkept {record : NodeRecord} (hrecord : state.nodes.records[owner]? = some record) :
      made.2.nodes.records[owner]? = some record :=
    (hplain.records hrecord).resolve_right (·.1)
  have hmadeTargets : made.2.nodes.targets = state.nodes.targets :=
    Edit.targets_createNode hsystem ..
  -- No association leads to a node that does not exist.
  have hapart : ⟨owner, folder, configurationsRelation⟩ ∉ made.2.nodes.targets.itemsOf owner := by
    rw [hmadeTargets]
    intro hmem
    exact hsound.not_hasNode_draw rfl (hreachable.paired.hasNode hmem).2
  obtain ⟨⟨hmarkedOk, hjoinedOk⟩, hjoined, hquiet, hadds, hids, hmarked, htargets⟩ :=
    marks_and_joins hmade state.ids.not_hasDrawn_draw hdrawn hfolder (hkept hrecord) hapart
  refine ⟨congrArg Prod.fst (Edit.run_createNode hsystem ..), hmarkedOk, hjoinedOk,
    ⟨hjoined, state.ids.not_hasDrawn_draw, fun node => ?_, (hadds.typeOf hdrawn).trans htype,
      (hadds.parents hdrawn).trans hplace, fun {other} hother => ?_, hmadeTargets ▸ htargets⟩,
    (RecordsNoCopy.createNode hsystem ..).trans hquiet⟩
  · have hjoinedSound : joined.2.Sound :=
      (hmadeSound.steps (Edit.steps_run _ _)).steps (Edit.steps_run _ _)
    refine Iff.trans ⟨fun hnode => ?_, fun hnode => ?_⟩ (hnodes node)
    · exact (hadds.hasNode_iff (hids ▸ hjoinedSound.hasDrawn hnode)).mp hnode
    · exact (hadds.hasNode_iff (hmadeSound.hasDrawn hnode)).mpr hnode
  · obtain rfl := Option.some.inj (hrecord.symm.trans hother)
    exact hmarked

end StoreState

end ContentRules
