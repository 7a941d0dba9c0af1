import ContentRules.Proofs.NodeStore.Additions
import ContentRules.Proofs.NodeStore.Logs
import ContentRules.Proofs.NodeStore.Removal

/-!
# Copies are made as a whole

A copy is made of many nodes, and the checks that are made for the first are made again for each
node beneath it.  They hold there, so a copy that was begun is finished (`outcome_copyLevels`).

**Strategy.**  What is to be copied does not lie above the place of its copy (`MayCopy`).  That is so
for the children of the source when its copy has been made, since the copy is new and stands where
the source may be copied to.  It stays so while other nodes are copied in between, since that only
adds (`Grown`, `StoreState.Adds`).
-/

namespace ContentRules.Change

open StoreState

variable {state : StoreState}

/-! ## What may be copied -/

/-- What is checked before a node is copied: both nodes exist, and what is copied with all that is
beneath it does not lie above the place of its copy. -/
structure MayCopy (state : StoreState) (source parent : NodeRef) (deep : Bool) : Prop where
  hasNode_source : state.nodes.hasNode source
  hasNode_parent : state.nodes.hasNode parent
  not_within : deep → ¬ state.nodes.Within source parent

/-- What copying leaves, with the events that record it. -/
structure Grown (state : StoreState) (events : List NodeEvent) (after : StoreState) : Prop where
  logged : state.Logged events after
  sound : after.Sound
  adds : state.Adds after

theorem Grown.trans {middle after : StoreState} {events more : List NodeEvent}
    (hfirst : Grown state events middle) (hrest : Grown middle more after) :
    Grown state (events ++ more) after where
  logged := hfirst.logged.append hrest.logged
  sound := hrest.sound
  adds := hfirst.adds.trans hrest.adds

theorem Grown.hasNode {after : StoreState} {events : List NodeEvent} {node : NodeRef}
    (hgrown : Grown state events after) (hsound : state.Sound) (hnode : state.nodes.hasNode node) :
    after.nodes.hasNode node :=
  (hgrown.adds.hasNode_iff (hsound.hasDrawn hnode)).mpr hnode

/-- Trees of existing nodes stay what they are. -/
theorem Grown.within_iff {after : StoreState} {events : List NodeEvent} {top node : NodeRef}
    (hgrown : Grown state events after) (hsound : state.Sound) (hnode : state.nodes.hasNode node) :
    after.nodes.Within top node ↔ state.nodes.Within top node := by
  have hexists := hgrown.hasNode hsound hnode
  rw [hgrown.sound.wellFormed.within_iff_mem_climb hexists,
    hsound.wellFormed.within_iff_mem_climb hnode, hgrown.adds.climb_eq hsound hgrown.sound hnode]

theorem MayCopy.mono {after : StoreState} {events : List NodeEvent} {source parent : NodeRef}
    {deep : Bool} (hmay : MayCopy state source parent deep) (hgrown : Grown state events after)
    (hsound : state.Sound) : MayCopy after source parent deep where
  hasNode_source := hgrown.hasNode hsound hmay.hasNode_source
  hasNode_parent := hgrown.hasNode hsound hmay.hasNode_parent
  not_within := by
    rw [hgrown.within_iff hsound hmay.hasNode_parent]
    exact hmay.not_within

/-- A new node that is attached leaves the others where they are. -/
theorem grown_attach (hsound : state.Sound) (assoc : ChildAssociation) (record : NodeRecord)
    {event : NodeEvent} (hparent : state.nodes.hasNode assoc.parent)
    (hchild : assoc.child = ⟨assoc.parent.store, state.ids.draw.1⟩)
    (hevent : event = .created assoc ∨ ∃ source, event = .copied source assoc) :
    Grown state [event]
      { ids := state.ids.draw.2
        nodes := ((state.nodes.putRecord assoc.child record).link assoc).note event } := by
  have hlogs := StoreState.Logs.attach assoc record hparent hchild hevent
  exact ⟨.single hlogs, hsound.steps hlogs.steps, adds_attach assoc record event hchild⟩

/-! ## A single node -/

theorem outcome_copyAlone_of_not (hsound : state.Sound) {source parent : NodeRef} {deep : Bool}
    (hrefused : ¬ MayCopy state source parent deep) (relation name : QualifiedName) :
    ∃ error, (copyAlone source parent relation name deep).outcome state = (.error error, state) := by
  cases hsource : state.nodes.recordOf source with
  | error error => exact ⟨error, by simp [copyAlone, outcome_bind, hsource]⟩
  | ok record =>
  cases hparent : state.nodes.recordOf parent with
  | error error => exact ⟨error, by simp [copyAlone, outcome_bind, hsource, hparent, Except.map]⟩
  | ok parentRecord =>
  have hexists := NodeStore.hasNode_of_recordOf hparent
  have hwithin : deep ∧ state.nodes.Within source parent := by
    by_contra hout
    exact hrefused ⟨NodeStore.hasNode_of_recordOf hsource, hexists,
      fun hdeep hwithin => hout ⟨hdeep, hwithin⟩⟩
  rw [hsound.wellFormed.within_iff_mem_climb hexists] at hwithin
  refine ⟨{ cause := .invalidOperation (.copiesBeneathItself source) }, ?_⟩
  simp [copyAlone, outcome_bind, hsource, hparent, NodeStore.ancestorsOf_eq hparent, hwithin,
    Except.map]

/-- One node is copied, and whatever exists and does not lie above the parent may be copied beneath
the copy then. -/
theorem outcome_copyAlone (hsound : state.Sound) {source parent : NodeRef} {deep : Bool}
    (hmay : MayCopy state source parent deep) (relation name : QualifiedName) :
    ∃ copy event after, (copyAlone source parent relation name deep).outcome state =
        (.ok copy, after) ∧ Grown state [event] after ∧
      ∀ node deep, state.nodes.hasNode node → ¬ state.nodes.Within node parent →
        MayCopy after node copy deep := by
  obtain ⟨hsource, hparent, hout⟩ := hmay
  obtain ⟨record, hrecord⟩ := NodeStore.hasNode_iff_recordOf.mp hsource
  obtain ⟨parentRecord, hparentRecord⟩ := NodeStore.hasNode_iff_recordOf.mp hparent
  have hallowed : ¬ (deep ∧ (parent = source ∨
      source ∈ state.nodes.climb state.nodes.size parent)) := by
    rw [← hsound.wellFormed.within_iff_mem_climb hparent]
    exact fun hwithin => hout hwithin.1 hwithin.2
  let assoc : ChildAssociation :=
    { relation, parent, name, child := ⟨parent.store, state.ids.draw.1⟩ }
  let copied : NodeRecord := { record with
    aspects := record.aspects.insert Vocabulary.copiedFromAspect
    properties := record.properties.insert Vocabulary.copyReferenceProperty (.node source) }
  have hgrown := grown_attach hsound assoc copied hparent rfl (.inr ⟨source, rfl⟩)
  refine ⟨assoc.child, _, _, ?_, hgrown, ?_⟩
  · simp only [copyAlone, outcome_bind, outcome_discard, outcome_recordOf, hrecord, hparentRecord,
      Except.map, outcome_nodes, outcome_lift, NodeStore.ancestorsOf_eq hparentRecord,
      if_neg hallowed, outcome_update, outcome_drawNode, outcome_pure, assoc, copied]
  · intro node deep hnode houtside
    have hplace : ((state.nodes.putRecord assoc.child copied).link assoc).parents[assoc.child]? =
        some assoc := (NodeStore.parents_link ..).trans (if_pos rfl)
    refine ⟨hgrown.hasNode hsound hnode, (NodeStore.hasNode_putRecord ..).mpr (.inl rfl), ?_⟩
    -- The copy lies within the trees that hold its parent, and within its own.
    intro _ hwithin
    rcases (hgrown.sound.wellFormed.within_iff_of_parent hplace).mp hwithin with hsame | hwithin
    · have hid : node.id = state.ids.draw.1 := by rw [← hsame]
      exact hsound.not_hasNode_draw hid hnode
    · rw [hgrown.within_iff hsound hparent] at hwithin
      exact houtside hwithin

/-! ## A node with all beneath it -/

/-- Children are copied one after the other beneath the same copy. -/
theorem outcome_copyChildren (levels : Nat)
    (hlevels : ∀ {source parent : NodeRef} {state : StoreState} (relation name : QualifiedName),
      state.Sound → MayCopy state source parent (levels != 0) →
        ∃ copy events after, (copyLevels levels source parent relation name).outcome state =
          (.ok copy, after) ∧ Grown state events after)
    {copy : NodeRef} {children : List ChildAssociation} (hsound : state.Sound)
    (hchildren : ∀ child ∈ children, MayCopy state child.child copy (levels != 0)) :
    ∃ events after,
      outcome (children.forM fun child =>
        discard <| copyLevels levels child.child copy child.relation child.name) state =
          (.ok (), after) ∧ Grown state events after := by
  induction children generalizing state with
  | nil => exact ⟨[], state, rfl, .nil state, hsound, .refl state⟩
  | cons child children ih =>
      obtain ⟨hfirst, hrest⟩ := List.forall_mem_cons.mp hchildren
      obtain ⟨_, events, middle, hcopied, hgrown⟩ :=
        hlevels child.relation child.name hsound hfirst
      obtain ⟨more, after, hothers, hlast⟩ :=
        ih hgrown.sound fun other hother => (hrest other hother).mono hgrown hsound
      refine ⟨events ++ more, after, ?_, hgrown.trans hlast⟩
      rw [List.forM, outcome_bind, outcome_discard, hcopied]
      exact hothers

/-- A copy that was begun is finished: where the first node may be copied, all may. -/
theorem outcome_copyLevels (levels : Nat) (hsound : state.Sound) {source parent : NodeRef}
    (hmay : MayCopy state source parent (levels != 0)) (relation name : QualifiedName) :
    ∃ copy events after, (copyLevels levels source parent relation name).outcome state =
      (.ok copy, after) ∧ Grown state events after := by
  induction levels generalizing source parent relation name state with
  | zero =>
      obtain ⟨copy, event, after, houtcome, hgrown, -⟩ :=
        outcome_copyAlone hsound hmay relation name
      exact ⟨copy, [event], after, houtcome, hgrown⟩
  | succ levels ih =>
      obtain ⟨copy, event, middle, hfirst, hgrown, hbeneathCopy⟩ :=
        outcome_copyAlone hsound hmay relation name
      have hchildren : ∀ child ∈ state.nodes.children.itemsOf source,
          MayCopy middle child.child copy (levels != 0) := by
        intro child hchild
        obtain ⟨hfrom, hplace⟩ := hsound.wellFormed.mem_itemsOf_iff.mp hchild
        refine hbeneathCopy child.child _ (hsound.wellFormed.hasNode_child hplace) ?_
        -- A child above the parent would have the source above the parent too.
        intro hwithin
        have hbeneath : state.nodes.Within source child.child :=
          hsound.wellFormed.within_of_parent hplace (.inl hfrom)
        exact hmay.not_within rfl (hsound.wellFormed.within_trans hbeneath hwithin)
      obtain ⟨events, after, hothers, hlast⟩ := outcome_copyChildren levels
        (fun relation name hsound hmay => ih hsound hmay relation name) hgrown.sound hchildren
      refine ⟨copy, event :: events, after, ?_, hgrown.trans hlast⟩
      have hfirst : (copyAlone source parent relation name true).outcome state =
        (.ok copy, middle) := hfirst
      simp only [copyLevels, outcome_bind, outcome_nodes, hfirst, hothers, outcome_pure]

/-- Where the first node is not copied, none is. -/
theorem outcome_copyLevels_of_error (levels : Nat) {source parent : NodeRef}
    {relation name : QualifiedName} {error : Error} {after : StoreState}
    (hfirst : (copyAlone source parent relation name (levels != 0)).outcome state =
      (.error error, after)) :
    (copyLevels levels source parent relation name).outcome state = (.error error, after) := by
  cases levels with
  | zero => exact hfirst
  | succ levels =>
      have hfirst : (copyAlone source parent relation name true).outcome state =
        (.error error, after) := hfirst
      simp only [copyLevels, outcome_bind, outcome_nodes, hfirst]

theorem outcome_copyLevels_of_not (levels : Nat) (hsound : state.Sound) {source parent : NodeRef}
    (hrefused : ¬ MayCopy state source parent (levels != 0)) (relation name : QualifiedName) :
    ∃ error, (copyLevels levels source parent relation name).outcome state =
      (.error error, state) := by
  obtain ⟨error, hfirst⟩ := outcome_copyAlone_of_not hsound hrefused relation name
  exact ⟨error, outcome_copyLevels_of_error levels hfirst⟩

/-- The number of nodes is no restriction on how deep a copy goes. -/
theorem mayCopy_size_iff {source parent : NodeRef} {deep : Bool} :
    MayCopy state source parent ((if deep then state.nodes.size else 0) != 0) ↔
      MayCopy state source parent deep := by
  have hsize (hsource : state.nodes.hasNode source) :
      ((if deep then state.nodes.size else 0) != 0) = deep := by
    have hpositive : 0 < state.nodes.size :=
      NodeStore.length_le_size (List.nodup_singleton source)
        (List.forall_mem_singleton.mpr hsource)
    cases deep with
    | false => rfl
    | true => simpa using Nat.pos_iff_ne_zero.mp hpositive
  constructor
  · intro hmay
    rwa [hsize hmay.hasNode_source] at hmay
  · intro hmay
    rwa [hsize hmay.hasNode_source]

theorem outcome_copyNode (hsound : state.Sound) {source parent : NodeRef} {deep : Bool}
    (hmay : MayCopy state source parent deep) (relation name : QualifiedName) :
    ∃ copy events after, (copyNode source parent relation name deep).outcome state =
      (.ok copy, after) ∧ Grown state events after := by
  rw [copyNode, outcome_bind, outcome_nodes]
  exact outcome_copyLevels _ hsound (mayCopy_size_iff.mpr hmay) relation name

theorem outcome_copyNode_of_not (hsound : state.Sound) {source parent : NodeRef} {deep : Bool}
    (hrefused : ¬ MayCopy state source parent deep) (relation name : QualifiedName) :
    ∃ error, (copyNode source parent relation name deep).outcome state = (.error error, state) := by
  rw [copyNode, outcome_bind, outcome_nodes]
  exact outcome_copyLevels_of_not _ hsound (mt mayCopy_size_iff.mp hrefused) relation name

theorem allOrNothing_copyNode (hsound : state.Sound) (source parent : NodeRef)
    (relation name : QualifiedName) (deep : Bool) :
    (copyNode source parent relation name deep).AllOrNothing state := by
  by_cases hmay : MayCopy state source parent deep
  · obtain ⟨copy, events, after, houtcome, hgrown⟩ := outcome_copyNode hsound hmay relation name
    exact .inr ⟨copy, events, after, houtcome, hgrown.logged⟩
  · obtain ⟨error, houtcome⟩ := outcome_copyNode_of_not hsound hmay relation name
    exact .failed error houtcome

end ContentRules.Change
