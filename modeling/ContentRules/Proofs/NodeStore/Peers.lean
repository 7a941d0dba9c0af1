import ContentRules.Proofs.NodeStore.Atomic

/-!
# Peer associations are kept in pairs

A peer association is kept twice, with its source and with its target.  Both indexes file their
items by one end of them, hold each item once, and have no empty list (`NodeIndex.Files`).

**Strategy.**  `Paired` says that the two indexes hold the same associations, all between existing
nodes.  Joining and parting change both indexes alike.  The delicate step is a removal, which goes
through nodes one after the other and edits both indexes by what they hold at that moment.  But each
single removal takes away just the associations that touch its node (`Paired.targets_removeNode`,
`Paired.sources_removeNode`), also those from the node to itself, and so leaves a paired store again.
-/

namespace ContentRules

/-! ## Indexes that file items by a key -/

namespace NodeIndex

variable {α : Type} {keyOf : α → NodeRef} {index : NodeIndex α}

/-- Each item stands once in the list of its key and in no other, and no list is empty. -/
structure Files (index : NodeIndex α) (keyOf : α → NodeRef) : Prop where
  key_eq : ∀ {node : NodeRef} {item : α}, item ∈ index.itemsOf node → keyOf item = node
  nodup : ∀ node : NodeRef, (index.itemsOf node).Nodup
  ne_nil : ∀ node : NodeRef, index[node]? ≠ some []

namespace Files

theorem empty : (∅ : NodeIndex α).Files keyOf where
  key_eq := by simp
  nodup := by simp
  ne_nil := by simp

/-- An item may be pushed that is not there. -/
theorem push (hindex : index.Files keyOf) {item : α} (hnew : item ∉ index.itemsOf (keyOf item)) :
    (index.push (keyOf item) item).Files keyOf where
  key_eq := by
    intro node other hmem
    rw [itemsOf_push] at hmem
    split at hmem
    · rename_i hnode
      rcases List.mem_append.mp hmem with hmem | hmem
      · exact hindex.key_eq hmem
      · rw [List.mem_singleton.mp hmem, hnode]
    · exact hindex.key_eq hmem
  nodup := by
    intro node
    rw [itemsOf_push]
    split
    · rename_i hnode
      subst hnode
      exact List.nodup_append.mpr ⟨hindex.nodup _, List.nodup_singleton item, by
        rintro other hother _ hlast rfl
        rw [List.mem_singleton.mp hlast] at hother
        exact hnew hother⟩
    · exact hindex.nodup node
  ne_nil := push_ne_nil hindex.ne_nil (keyOf item) item

/-- The list of a node with fewer items. -/
private theorem of_filter (hindex : index.Files keyOf) {other : NodeIndex α}
    (hitems : ∀ node : NodeRef, ∃ kept : α → Bool,
      other.itemsOf node = (index.itemsOf node).filter kept)
    (hne : ∀ node : NodeRef, other[node]? ≠ some []) : other.Files keyOf where
  key_eq := by
    intro node item hmem
    obtain ⟨kept, hkept⟩ := hitems node
    rw [hkept] at hmem
    exact hindex.key_eq (List.mem_filter.mp hmem).1
  nodup := by
    intro node
    obtain ⟨kept, hkept⟩ := hitems node
    rw [hkept]
    exact (hindex.nodup node).filter kept
  ne_nil := hne

theorem removeWhere (hindex : index.Files keyOf) (node : NodeRef) (dropped : α → Bool) :
    (index.removeWhere node dropped).Files keyOf := by
  refine hindex.of_filter ?_ (removeWhere_ne_nil hindex.ne_nil node dropped)
  intro other
  rw [itemsOf_removeWhere]
  split
  · exact ⟨_, rfl⟩
  · exact ⟨fun _ => true, by simp⟩

theorem erase (hindex : index.Files keyOf) (node : NodeRef) :
    Files (index.erase node) keyOf := by
  refine hindex.of_filter ?_ ?_
  · intro other
    rw [itemsOf_erase]
    split
    · exact ⟨fun _ => false, by simp⟩
    · exact ⟨fun _ => true, by simp⟩
  · intro other
    rw [Std.ExtTreeMap.getElem?_erase]
    split
    · simp
    · exact hindex.ne_nil other

/-- A list that is kept is what is looked up. -/
theorem of_getElem? (hindex : index.Files keyOf) {node : NodeRef} {found : List α}
    (hstored : index[node]? = some found) :
    index.itemsOf node = found ∧ found ≠ [] ∧ found.Nodup := by
  have hitems : index.itemsOf node = found := by
    rw [itemsOf_eq, hstored, Option.getD_some]
  refine ⟨hitems, ?_, hitems ▸ hindex.nodup node⟩
  rintro rfl
  exact hindex.ne_nil node hstored

variable [DecidableEq α]

/-- An item is removed wherever it stands if it is removed from the list of its key. -/
theorem itemsOf_removeWhere_eq (hindex : index.Files keyOf) (item : α) (node : NodeRef) :
    (index.removeWhere (keyOf item) (· = item)).itemsOf node =
      (index.itemsOf node).filter (· ≠ item) := by
  rw [itemsOf_removeWhere]
  split
  · simp
  · rename_i hnode
    refine (List.filter_eq_self.mpr ?_).symm
    intro other hother
    have hkey : keyOf other = node := hindex.key_eq hother
    have hne : other ≠ item := by
      rintro rfl
      exact hnode hkey
    simpa using hne

/-- Items are removed one after the other from the lists of their keys. -/
theorem removeItems (hindex : index.Files keyOf) (items : List α) :
    (items.foldl (fun index item => NodeIndex.removeWhere index (keyOf item) (· = item))
      index).Files keyOf := by
  induction items generalizing index with
  | nil => exact hindex
  | cons item items ih => exact ih (hindex.removeWhere (keyOf item) (· = item))

theorem itemsOf_removeItems (hindex : index.Files keyOf) (items : List α) (node : NodeRef) :
    itemsOf (items.foldl (fun index item => NodeIndex.removeWhere index (keyOf item) (· = item))
      index) node = (index.itemsOf node).filter (· ∉ items) := by
  induction items generalizing index with
  | nil => simp
  | cons item items ih =>
      rw [List.foldl_cons, ih (hindex.removeWhere (keyOf item) (· = item)),
        hindex.itemsOf_removeWhere_eq, List.filter_filter]
      refine List.filter_congr fun other _ => ?_
      simp [Bool.and_comm]

end Files

end NodeIndex

/-- The association touches none of these nodes. -/
def PeerAssociation.avoids (assoc : PeerAssociation) (removed : List NodeRef) : Bool :=
  assoc.source ∉ removed ∧ assoc.target ∉ removed

namespace NodeStore

variable {nodes : NodeStore}

@[simp] theorem targets_detach (nodes : NodeStore) (node : NodeRef) :
    (nodes.detach node).targets = nodes.targets := by
  unfold detach
  split <;> rfl

@[simp] theorem sources_detach (nodes : NodeStore) (node : NodeRef) :
    (nodes.detach node).sources = nodes.sources := by
  unfold detach
  split <;> rfl

/-! ## Paired stores -/

/-- Both indexes hold the same associations, all of them between existing nodes. -/
structure Paired (nodes : NodeStore) : Prop where
  targets : nodes.targets.Files PeerAssociation.source
  sources : nodes.sources.Files PeerAssociation.target
  mem_iff : ∀ assoc : PeerAssociation,
    assoc ∈ nodes.targets.itemsOf assoc.source ↔ assoc ∈ nodes.sources.itemsOf assoc.target
  hasNode : ∀ {assoc : PeerAssociation}, assoc ∈ nodes.targets.itemsOf assoc.source →
    nodes.hasNode assoc.source ∧ nodes.hasNode assoc.target

namespace Paired

theorem empty : NodeStore.empty.Paired where
  targets := .empty
  sources := .empty
  mem_iff := by simp [NodeStore.empty]
  hasNode := by simp [NodeStore.empty]

/-- Being paired is a matter of the two indexes and of which nodes exist. -/
theorem congr (hpaired : nodes.Paired) {other : NodeStore} (htargets : other.targets = nodes.targets)
    (hsources : other.sources = nodes.sources)
    (hnodes : ∀ node, nodes.hasNode node → other.hasNode node) : other.Paired where
  targets := by
    rw [htargets]
    exact hpaired.targets
  sources := by
    rw [hsources]
    exact hpaired.sources
  mem_iff := by
    rw [htargets, hsources]
    exact hpaired.mem_iff
  hasNode := by
    intro assoc hmem
    rw [htargets] at hmem
    obtain ⟨hsource, htarget⟩ := hpaired.hasNode hmem
    exact ⟨hnodes _ hsource, hnodes _ htarget⟩

theorem mem_targets_iff (hpaired : nodes.Paired) {node : NodeRef} {assoc : PeerAssociation} :
    assoc ∈ nodes.targets.itemsOf node ↔
      assoc.source = node ∧ assoc ∈ nodes.targets.itemsOf assoc.source := by
  constructor
  · intro hmem
    have hsource := hpaired.targets.key_eq hmem
    exact ⟨hsource, by rwa [hsource]⟩
  · rintro ⟨rfl, hmem⟩
    exact hmem

theorem mem_sources_iff (hpaired : nodes.Paired) {node : NodeRef} {assoc : PeerAssociation} :
    assoc ∈ nodes.sources.itemsOf node ↔
      assoc.target = node ∧ assoc ∈ nodes.targets.itemsOf assoc.source := by
  rw [hpaired.mem_iff]
  constructor
  · intro hmem
    have htarget := hpaired.sources.key_eq hmem
    exact ⟨htarget, by rwa [htarget]⟩
  · rintro ⟨rfl, hmem⟩
    exact hmem

/-! ### Joining and parting -/

/-- Two existing nodes may be joined. -/
theorem join (hpaired : nodes.Paired) {assoc : PeerAssociation} (hsource : nodes.hasNode assoc.source)
    (htarget : nodes.hasNode assoc.target) (hapart : assoc ∉ nodes.targets.itemsOf assoc.source) :
    { nodes with
      targets := nodes.targets.push assoc.source assoc
      sources := nodes.sources.push assoc.target assoc }.Paired where
  targets := hpaired.targets.push hapart
  sources := hpaired.sources.push (by rwa [← hpaired.mem_iff])
  mem_iff := by
    intro other
    have hother := hpaired.mem_iff other
    by_cases hsame : other = assoc
    · subst hsame
      simp [NodeIndex.itemsOf_push]
    · simp only [NodeIndex.itemsOf_push]
      split <;> split <;> simp [hsame, hother]
  hasNode := by
    intro other hmem
    rw [NodeIndex.itemsOf_push] at hmem
    by_cases hsame : other = assoc
    · subst hsame
      exact ⟨hsource, htarget⟩
    · refine hpaired.hasNode ?_
      split at hmem
      · simpa [hsame] using hmem
      · exact hmem

theorem part (hpaired : nodes.Paired) (assoc : PeerAssociation) :
    { nodes with
      targets := nodes.targets.removeWhere assoc.source (· = assoc)
      sources := nodes.sources.removeWhere assoc.target (· = assoc) }.Paired where
  targets := hpaired.targets.removeWhere assoc.source _
  sources := hpaired.sources.removeWhere assoc.target _
  mem_iff := by
    intro other
    show other ∈ NodeIndex.itemsOf (nodes.targets.removeWhere assoc.source (· = assoc)) _ ↔
      other ∈ NodeIndex.itemsOf (nodes.sources.removeWhere assoc.target (· = assoc)) _
    rw [hpaired.targets.itemsOf_removeWhere_eq, hpaired.sources.itemsOf_removeWhere_eq,
      List.mem_filter, List.mem_filter, hpaired.mem_iff]
  hasNode := by
    intro other hmem
    have hmem : other ∈ NodeIndex.itemsOf (nodes.targets.removeWhere assoc.source (· = assoc))
        other.source := hmem
    rw [hpaired.targets.itemsOf_removeWhere_eq] at hmem
    exact hpaired.hasNode (List.mem_filter.mp hmem).1

/-! ### Removing nodes -/

/-- What is left with the targets after the associations from a removed node were taken away. -/
theorem itemsOf_withoutSources (hpaired : nodes.Paired) (node other : NodeRef) :
    NodeIndex.itemsOf ((nodes.targets.itemsOf node).foldl
        (fun sources assoc => NodeIndex.removeWhere sources assoc.target (· = assoc))
        nodes.sources) other =
      (nodes.sources.itemsOf other).filter (·.source ≠ node) := by
  rw [hpaired.sources.itemsOf_removeItems]
  refine List.filter_congr fun assoc hmem => ?_
  have hjoined := (hpaired.mem_sources_iff.mp hmem).2
  have hfrom : assoc ∈ nodes.targets.itemsOf node ↔ assoc.source = node := by
    rw [hpaired.mem_targets_iff, and_iff_left hjoined]
  simp [hfrom]

/-- A node that is removed takes the associations that touch it from the lists of targets. -/
theorem sources_removeNode (hpaired : nodes.Paired) (node other : NodeRef) :
    (nodes.removeNode node).sources.itemsOf other =
      (nodes.sources.itemsOf other).filter (·.avoids [node]) := by
  show NodeIndex.itemsOf (Std.ExtTreeMap.erase _ node) other = _
  rw [NodeIndex.itemsOf_erase, hpaired.itemsOf_withoutSources]
  split
  · rename_i hsame
    refine (List.filter_eq_nil_iff.mpr ?_).symm
    intro assoc hmem
    have htarget := hpaired.sources.key_eq hmem
    simp [PeerAssociation.avoids, htarget, hsame]
  · rename_i hother
    refine List.filter_congr fun assoc hmem => ?_
    have htarget := hpaired.sources.key_eq hmem
    simp [PeerAssociation.avoids, htarget, Ne.symm hother]

/-- A node that is removed takes the associations that touch it from the lists of sources. -/
theorem targets_removeNode (hpaired : nodes.Paired) (node other : NodeRef) :
    (nodes.removeNode node).targets.itemsOf other =
      (nodes.targets.itemsOf other).filter (·.avoids [node]) := by
  -- The list of the node itself is gone by now, so an association from the node to itself is not
  -- looked for any more.
  have herased := hpaired.targets.erase node
  show NodeIndex.itemsOf (List.foldl _ (nodes.targets.erase node) _) other = _
  rw [herased.itemsOf_removeItems, NodeIndex.itemsOf_erase, hpaired.itemsOf_withoutSources]
  split
  · rename_i hsame
    refine (List.filter_eq_nil_iff.mpr ?_).symm
    intro assoc hmem
    have hsource := hpaired.targets.key_eq hmem
    simp [PeerAssociation.avoids, hsource, hsame]
  · rename_i hother
    refine List.filter_congr fun assoc hmem => ?_
    have hsource := hpaired.targets.key_eq hmem
    have hto : assoc ∈ nodes.sources.itemsOf node ↔ assoc.target = node := by
      rw [hpaired.mem_sources_iff, and_iff_left (by rwa [hsource])]
    simp [PeerAssociation.avoids, hsource, Ne.symm hother, hto]

/-- A single node may be removed. -/
theorem removeNode (hpaired : nodes.Paired) (node : NodeRef) : (nodes.removeNode node).Paired where
  targets := (hpaired.targets.erase node).removeItems _
  sources := (hpaired.sources.removeItems _).erase node
  mem_iff := by
    intro assoc
    rw [hpaired.targets_removeNode, hpaired.sources_removeNode, List.mem_filter, List.mem_filter,
      hpaired.mem_iff]
  hasNode := by
    intro assoc hmem
    rw [hpaired.targets_removeNode, List.mem_filter] at hmem
    obtain ⟨hjoined, havoids⟩ := hmem
    obtain ⟨hsource, htarget⟩ := hpaired.hasNode hjoined
    have hapart : assoc.source ∉ [node] ∧ assoc.target ∉ [node] := of_decide_eq_true havoids
    exact ⟨(hasNode_removeAll nodes [node] _).mpr ⟨hapart.1, hsource⟩,
      (hasNode_removeAll nodes [node] _).mpr ⟨hapart.2, htarget⟩⟩

/-- Nodes that are removed one after the other take away the associations that touch any of them,
and no other ones. -/
theorem removeAll (hpaired : nodes.Paired) (removed : List NodeRef) :
    (removed.foldl NodeStore.removeNode nodes).Paired ∧
      (∀ other : NodeRef, (removed.foldl NodeStore.removeNode nodes).targets.itemsOf other =
        (nodes.targets.itemsOf other).filter (·.avoids removed)) ∧
      ∀ other : NodeRef, (removed.foldl NodeStore.removeNode nodes).sources.itemsOf other =
        (nodes.sources.itemsOf other).filter (·.avoids removed) := by
  induction removed generalizing nodes with
  | nil => exact ⟨hpaired, by simp [PeerAssociation.avoids], by simp [PeerAssociation.avoids]⟩
  | cons node removed ih =>
      obtain ⟨hleft, htargets, hsources⟩ := ih (hpaired.removeNode node)
      -- What avoids the first node and the others avoids all of them.
      have hfilter (list : List PeerAssociation) :
          (list.filter (·.avoids [node])).filter (·.avoids removed) =
            list.filter (·.avoids (node :: removed)) := by
        rw [List.filter_filter]
        refine List.filter_congr fun assoc _ => ?_
        rw [Bool.eq_iff_iff]
        simp only [PeerAssociation.avoids, Bool.and_eq_true, decide_eq_true_eq, List.mem_cons,
          not_or]
        tauto
      refine ⟨hleft, fun other => ?_, fun other => ?_⟩
      · rw [List.foldl_cons, htargets, hpaired.targets_removeNode, hfilter]
      · rw [List.foldl_cons, hsources, hpaired.sources_removeNode, hfilter]

/-- A tree is removed with the associations that touch one of its nodes. -/
theorem removeTree (hpaired : nodes.Paired) (top : NodeRef) :
    (nodes.removeTree top).Paired ∧
      (∀ other : NodeRef, (nodes.removeTree top).targets.itemsOf other =
        (nodes.targets.itemsOf other).filter (·.avoids ((nodes.detach top).subtree top))) ∧
      ∀ other : NodeRef, (nodes.removeTree top).sources.itemsOf other =
        (nodes.sources.itemsOf other).filter (·.avoids ((nodes.detach top).subtree top)) := by
  have hdetached : (nodes.detach top).Paired :=
    hpaired.congr (nodes.targets_detach top) (nodes.sources_detach top) (by simp)
  have hremoved := hdetached.removeAll ((nodes.detach top).subtree top)
  rwa [targets_detach, sources_detach] at hremoved

end Paired

/-! ## What stays after a removal -/

/-- Both ends of the association exist. -/
def hasEnds (nodes : NodeStore) (assoc : PeerAssociation) : Bool :=
  nodes.hasNode assoc.source && nodes.hasNode assoc.target

theorem Paired.hasEnds_of_mem_targets (hpaired : nodes.Paired) {node : NodeRef}
    {assoc : PeerAssociation} (hmem : assoc ∈ nodes.targets.itemsOf node) : nodes.hasEnds assoc := by
  rw [hasEnds, Bool.and_eq_true]
  exact hpaired.hasNode (hpaired.mem_targets_iff.mp hmem).2

theorem Paired.hasEnds_of_mem_sources (hpaired : nodes.Paired) {node : NodeRef}
    {assoc : PeerAssociation} (hmem : assoc ∈ nodes.sources.itemsOf node) : nodes.hasEnds assoc := by
  rw [hasEnds, Bool.and_eq_true]
  exact hpaired.hasNode (hpaired.mem_sources_iff.mp hmem).2

/-- The associations of existing nodes that touch no removed node are those whose ends are left. -/
theorem avoids_subtree_eq (top : NodeRef) {assoc : PeerAssociation} (hends : nodes.hasEnds assoc) :
    assoc.avoids ((nodes.detach top).subtree top) = (nodes.removeTree top).hasEnds assoc := by
  rw [hasEnds, Bool.and_eq_true] at hends
  rw [Bool.eq_iff_iff, hasEnds, Bool.and_eq_true]
  unfold removeTree
  simp [hasNode_removeAll, PeerAssociation.avoids, hends]

/-- The associations left after a removal are those whose ends are left, in the order in which they
stood. -/
theorem Paired.itemsOf_removeTree (hpaired : nodes.Paired) (top other : NodeRef) :
    (nodes.removeTree top).targets.itemsOf other =
        (nodes.targets.itemsOf other).filter (nodes.removeTree top).hasEnds ∧
      (nodes.removeTree top).sources.itemsOf other =
        (nodes.sources.itemsOf other).filter (nodes.removeTree top).hasEnds := by
  obtain ⟨-, htargets, hsources⟩ := hpaired.removeTree top
  rw [htargets, hsources]
  constructor
  · refine List.filter_congr fun assoc hmem => ?_
    exact avoids_subtree_eq top (hpaired.hasEnds_of_mem_targets hmem)
  · refine List.filter_congr fun assoc hmem => ?_
    exact avoids_subtree_eq top (hpaired.hasEnds_of_mem_sources hmem)

/-! ## What can be looked up -/

/-- Of a node that exists anything may be answered, and of no other. -/
private theorem answer_eq_ok_iff {α : Type} {node : NodeRef} {answer found : α} :
    (do discard <| nodes.recordOf node; return answer : Except Error α) = .ok found ↔
      nodes.hasNode node ∧ answer = found := by
  rw [hasNode_iff_recordOf]
  cases nodes.recordOf node with
  | error error =>
      refine iff_of_false ?_ (by simp)
      intro hanswer
      cases hanswer
  | ok record =>
      exact ⟨fun hanswer => ⟨⟨record, rfl⟩, Except.ok.inj hanswer⟩,
        fun hexists => congrArg Except.ok hexists.2⟩

theorem targetsOf_eq_ok_iff {node : NodeRef} {found : List PeerAssociation} :
    nodes.targetsOf node = .ok found ↔ nodes.hasNode node ∧ nodes.targets.itemsOf node = found := by
  rw [targetsOf, answer_eq_ok_iff]
  simp

theorem sourcesOf_eq_ok_iff {node : NodeRef} {found : List PeerAssociation} :
    nodes.sourcesOf node = .ok found ↔ nodes.hasNode node ∧ nodes.sources.itemsOf node = found := by
  rw [sourcesOf, answer_eq_ok_iff]
  simp

/-- The two indexes agree.  An association is found with its source if and only if it is found with
its target, and a list that is kept of a node is what is found with it: it is not empty, holds no
association twice, and each association in it has the node at the one end, and existing nodes at
both. -/
structure PeersAgree (nodes : NodeStore) : Prop where
  joined_iff : ∀ assoc : PeerAssociation,
    (∃ found, nodes.targetsOf assoc.source = .ok found ∧ assoc ∈ found) ↔
      ∃ found, nodes.sourcesOf assoc.target = .ok found ∧ assoc ∈ found
  targets : ∀ {node : NodeRef} {found : List PeerAssociation}, nodes.targets[node]? = some found →
    nodes.targetsOf node = .ok found ∧ found ≠ [] ∧ found.Nodup ∧
      ∀ assoc ∈ found, assoc.source = node ∧ nodes.hasEnds assoc
  sources : ∀ {node : NodeRef} {found : List PeerAssociation}, nodes.sources[node]? = some found →
    nodes.sourcesOf node = .ok found ∧ found ≠ [] ∧ found.Nodup ∧
      ∀ assoc ∈ found, assoc.target = node ∧ nodes.hasEnds assoc

theorem Paired.peersAgree (hpaired : nodes.Paired) : nodes.PeersAgree where
  joined_iff := by
    intro assoc
    simp only [targetsOf_eq_ok_iff, sourcesOf_eq_ok_iff]
    constructor
    · rintro ⟨_, ⟨-, rfl⟩, hmem⟩
      exact ⟨_, ⟨(hpaired.hasNode hmem).2, rfl⟩, (hpaired.mem_iff assoc).mp hmem⟩
    · rintro ⟨_, ⟨-, rfl⟩, hmem⟩
      have hmem := (hpaired.mem_iff assoc).mpr hmem
      exact ⟨_, ⟨(hpaired.hasNode hmem).1, rfl⟩, hmem⟩
  targets := by
    intro node found hstored
    obtain ⟨rfl, hne, hnodup⟩ := hpaired.targets.of_getElem? hstored
    obtain ⟨first, hfirst⟩ := List.exists_mem_of_ne_nil _ hne
    have hnode : nodes.hasNode node := by
      rw [← hpaired.targets.key_eq hfirst]
      exact (Bool.and_eq_true_iff.mp (hpaired.hasEnds_of_mem_targets hfirst)).1
    exact ⟨targetsOf_eq_ok_iff.mpr ⟨hnode, rfl⟩, hne, hnodup, fun assoc hmem =>
      ⟨hpaired.targets.key_eq hmem, hpaired.hasEnds_of_mem_targets hmem⟩⟩
  sources := by
    intro node found hstored
    obtain ⟨rfl, hne, hnodup⟩ := hpaired.sources.of_getElem? hstored
    obtain ⟨first, hfirst⟩ := List.exists_mem_of_ne_nil _ hne
    have hnode : nodes.hasNode node := by
      rw [← hpaired.sources.key_eq hfirst]
      exact (Bool.and_eq_true_iff.mp (hpaired.hasEnds_of_mem_sources hfirst)).2
    exact ⟨sourcesOf_eq_ok_iff.mpr ⟨hnode, rfl⟩, hne, hnodup, fun assoc hmem =>
      ⟨hpaired.sources.key_eq hmem, hpaired.hasEnds_of_mem_sources hmem⟩⟩

end NodeStore

/-! ## Reachable states -/

namespace StoreState

variable {state after : StoreState}

/-- Each step of an edit keeps associations in pairs. -/
theorem Step.paired (hstep : state.Step after) (hpaired : state.nodes.Paired) :
    after.nodes.Paired := by
  have hput (node : NodeRef) (record : NodeRecord) {other : NodeRef}
      (hother : state.nodes.hasNode other) : (state.nodes.putRecord node record).hasNode other :=
    (NodeStore.hasNode_putRecord ..).mpr (.inr hother)
  cases hstep with
  | found | attach | amend => exact hpaired.congr rfl rfl fun _ => hput _ _
  | move | tell => exact hpaired.congr rfl rfl fun _ => id
  | @remove node => exact (hpaired.removeTree node).1.congr rfl rfl fun _ => id
  | join hsource htarget hapart =>
      exact (hpaired.join hsource htarget hapart).congr rfl rfl fun _ => id
  | @part assoc => exact (hpaired.part assoc).congr rfl rfl fun _ => id

theorem Steps.paired (hsteps : state.Steps after) (hpaired : state.nodes.Paired) :
    after.nodes.Paired := by
  induction hsteps with
  | refl => exact hpaired
  | tail _ hstep ih => exact hstep.paired ih

theorem Reachable.paired (hreachable : state.Reachable) : state.nodes.Paired := by
  induction hreachable with
  | empty => exact .empty
  | edit _ edit ih => exact (edit.steps_run _).paired ih
  | takeEvents _ ih => exact ih.congr rfl rfl fun _ => id
  | drawn _ _ ih => exact ih

/-- **Peer associations are kept in pairs.**  Whatever edits follow one another, beginning with no
nodes at all, the two indexes of peer associations agree.  A node that is no root can be removed.
With it go all nodes of its tree, and with them just the associations that have one of them at an
end, however they join the nodes of the tree with themselves, with one another and with other
nodes: what is left of each list are the associations with both ends left, in the order in which
they stood. -/
theorem peers_of_reachable (hreachable : state.Reachable) :
    state.nodes.PeersAgree ∧
    ∀ node : NodeRef, state.nodes.hasNode node → ¬ state.nodes.isRoot node →
      ∃ after, (Edit.deleteNode node).run state = (.ok (), after) ∧ after.nodes.PeersAgree ∧
        (∀ other, after.nodes.hasNode other ↔
          state.nodes.hasNode other ∧ ¬ state.nodes.Within node other) ∧
        ∀ other,
          after.nodes.targets.itemsOf other =
            (state.nodes.targets.itemsOf other).filter after.nodes.hasEnds ∧
          after.nodes.sources.itemsOf other =
            (state.nodes.sources.itemsOf other).filter after.nodes.hasEnds := by
  refine ⟨hreachable.paired.peersAgree, ?_⟩
  intro node hnode hroot
  have hdeleted : (Edit.deleteNode node).run state = _ := Change.outcome_deleteNode hnode hroot
  have hafter := hreachable.edit (.deleteNode node)
  rw [hdeleted] at hafter
  refine ⟨_, hdeleted, hafter.paired.peersAgree, ?_, ?_⟩
  · intro other
    exact hreachable.sound.wellFormed.hasNode_removeTree hnode
  · exact hreachable.paired.itemsOf_removeTree node

/-- Two nodes, one beneath the other, and a third beside them.  The lower one is joined with itself,
with the upper one and with the one outside, and that one with the upper one and with the root. -/
def joined : StoreState :=
  let node (id : String) : NodeRef := ⟨⟨"workspace", "main"⟩, id⟩
  let name : QualifiedName := { space := "model", localName := "contains" }
  let edits : List Edit :=
    [.createStore "workspace" "main", .createNode (node "u1") name name name [],
      .createNode (node "u2") name name name [], .createNode (node "u1") name name name [],
      .createAssociation (node "u3") (node "u3") name,
      .createAssociation (node "u2") (node "u3") name,
      .createAssociation (node "u3") (node "u4") name,
      .createAssociation (node "u4") (node "u2") name,
      .createAssociation (node "u4") (node "u1") name]
  edits.foldl (fun state edit => (edit.run state).2) { ids := {}, nodes := .empty }

/-- When the upper node is removed, just the association of the node outside with the root is
left. -/
theorem peers_joined :
    let node (id : String) : NodeRef := ⟨⟨"workspace", "main"⟩, id⟩
    let name : QualifiedName := { space := "model", localName := "contains" }
    joined.Reachable ∧ joined.nodes.hasNode (node "u2") ∧ ¬ joined.nodes.isRoot (node "u2") ∧
      ∃ after, (Edit.deleteNode (node "u2")).run joined = (.ok (), after) ∧
        after.nodes.PeersAgree ∧
        joined.nodes.targets.itemsOf (node "u4") =
          [⟨node "u4", node "u2", name⟩, ⟨node "u4", node "u1", name⟩] ∧
        after.nodes.targets.itemsOf (node "u4") = [⟨node "u4", node "u1", name⟩] ∧
        after.nodes.sources.itemsOf (node "u4") = [] := by
  intro node name
  have hreachable : joined.Reachable := (Reachable.empty _).edits _
  have hnode : joined.nodes.hasNode (node "u2") := by decide +kernel
  have hroot : ¬ joined.nodes.isRoot (node "u2") := by decide +kernel
  obtain ⟨after, hdeleted, hagree, -⟩ :=
    (peers_of_reachable hreachable).2 (node "u2") hnode hroot
  have hstored : joined.nodes.targets.itemsOf (node "u4") =
      [⟨node "u4", node "u2", name⟩, ⟨node "u4", node "u1", name⟩] := by decide +kernel
  have hleft : ((Edit.deleteNode (node "u2")).run joined).2.nodes.targets.itemsOf (node "u4") =
      [⟨node "u4", node "u1", name⟩] := by decide +kernel
  have hnone : ((Edit.deleteNode (node "u2")).run joined).2.nodes.sources.itemsOf (node "u4") =
      [] := by decide +kernel
  rw [hdeleted] at hleft hnone
  exact ⟨hreachable, hnode, hroot, after, hdeleted, hagree, hstored, hleft, hnone⟩

end StoreState

end ContentRules
