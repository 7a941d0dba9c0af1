import ContentRules.Proofs.Rule.Lookup
import ContentRules.Proofs.Rule.Tables

/-!
# Inherited rules

The rules in force at a node come from its ancestors and from the node itself.  An ancestor passes
on those of its rules that apply to children, unless one above it passes on a rule with the same id.
What is passed down comes first, from the root-most ancestor down and in the order in which the
rules of each were attached, and then come the rules of the node whose ids nobody passes on.

**Strategy.**  The rules of a list are in force as far as no list before it has their ids
(`firstById_append`).  The rules of one node have ids that differ, so an induction on the ancestors
tells what is passed down (`firstById_flatMap`), and the list in force is determined
(`get_eq_passedDown`).  What else is to be known of it is read off from there (`InForce`).
-/

namespace ContentRules

namespace RuleStore

/-! ## What ancestors pass on -/

/-- A node has a rule with this id for its children. -/
def passes (rules : RuleStore) (ancestor : NodeRef) (id : String) : Bool :=
  (rules.own ancestor).any fun rule => rule.appliesToChildren && rule.id = id

/-- The rules that come down from ancestors, which are given from the nearest to the root-most: each
ancestor adds those of its rules for children that none above it passes on. -/
def passedDown (rules : RuleStore) : List NodeRef → List Rule
  | [] => []
  | ancestor :: above =>
    rules.passedDown above ++ (rules.own ancestor).filter fun rule =>
      rule.appliesToChildren && !above.any (rules.passes · rule.id)

variable {rules : RuleStore} {node : NodeRef} {ancestors : List NodeRef}

/-- The ids among the rules for children of some nodes are those that one of them passes on. -/
theorem any_id_flatMap (nodes : List NodeRef) (id : String) :
    (nodes.flatMap fun ancestor => (rules.own ancestor).filter Rule.appliesToChildren).any
      (·.id = id) = nodes.any (rules.passes · id) := by
  rw [List.any_flatMap]
  refine congrArg nodes.any (funext fun ancestor => ?_)
  rw [List.any_filter]
  rfl

/-- The rules for children of some nodes, from the root-most down, are in force as they are passed
down. -/
theorem firstById_flatMap (hnodup : ∀ node, ((rules.own node).map Rule.id).Nodup)
    (ancestors : List NodeRef) :
    firstById (ancestors.reverse.flatMap fun ancestor =>
      (rules.own ancestor).filter Rule.appliesToChildren) = rules.passedDown ancestors := by
  induction ancestors with
  | nil => rfl
  | cons ancestor above ih =>
      have hown : (((rules.own ancestor).filter Rule.appliesToChildren).map Rule.id).Nodup :=
        (hnodup ancestor).sublist (List.filter_sublist.map Rule.id)
      rw [List.reverse_cons, List.flatMap_append, List.flatMap_singleton, firstById_append, ih,
        firstById_of_nodup hown, List.filter_filter]
      simp only [any_id_flatMap, List.any_reverse, Bool.and_comm, passedDown]

/-! ## What is in force -/

/-- What is to be known of the rules in force at a node with these ancestors, which are given from
the nearest to the root-most. -/
structure InForce (rules : RuleStore) (node : NodeRef) (ancestors : List NodeRef)
    (list : List Rule) : Prop where
  nodup : (list.map Rule.id).Nodup
  /-- An id is in force if the node has it or an ancestor passes it on. -/
  id_mem_iff : ∀ id, id ∈ list.map Rule.id ↔
    rules.isAttached node id ∨ ∃ ancestor ∈ ancestors, rules.passes ancestor id
  /-- What comes down is first, and then comes what only the node has. -/
  eq_append : list = rules.passedDown ancestors ++
    (rules.own node).filter fun rule => !ancestors.any (rules.passes · rule.id)
  /-- Of several rules with one id, that of the root-most ancestor that passes it on is in force. -/
  rootMost : ∀ below ancestor above id, ancestors = below ++ ancestor :: above →
    rules.passes ancestor id → (∀ higher ∈ above, ¬ rules.passes higher id) →
    ∃ rule ∈ list, rule ∈ rules.own ancestor ∧ rule.appliesToChildren ∧ rule.id = id
  /-- A rule of the node is in force if no ancestor passes on its id. -/
  own : ∀ rule ∈ rules.own node, (∀ ancestor ∈ ancestors, ¬ rules.passes ancestor rule.id) →
    rule ∈ list

/-- An ancestor's rule comes down if none above it passes on its id. -/
theorem mem_passedDown {below above : List NodeRef} {ancestor : NodeRef} {rule : Rule}
    (hmem : rule ∈ rules.own ancestor) (happlies : rule.appliesToChildren)
    (habove : ∀ higher ∈ above, ¬ rules.passes higher rule.id) :
    rule ∈ rules.passedDown (below ++ ancestor :: above) := by
  induction below with
  | nil =>
      refine List.mem_append_right _ (List.mem_filter.mpr ⟨hmem, ?_⟩)
      simpa [happlies] using habove
  | cons nearer below ih => exact List.mem_append_left _ ih

/-- **The list in force.** -/
theorem get_eq_passedDown (hnodup : ∀ node, ((rules.own node).map Rule.id).Nodup)
    {nodes : NodeStore} (hnode : nodes.hasNode node) :
    rules.get nodes node true = rules.passedDown (nodes.climb nodes.size node) ++
      (rules.own node).filter fun rule =>
        !(nodes.climb nodes.size node).any (rules.passes · rule.id) := by
  rw [get, if_pos rfl, inherited, if_pos hnode, firstById_append, firstById_flatMap hnodup,
    firstById_of_nodup (hnodup node)]
  simp only [any_id_flatMap, List.any_reverse]

theorem inForce_get (hnodup : ∀ node, ((rules.own node).map Rule.id).Nodup)
    {nodes : NodeStore} (hnode : nodes.hasNode node) :
    rules.InForce node (nodes.climb nodes.size node) (rules.get nodes node true) := by
  have heq := get_eq_passedDown hnodup hnode
  refine ⟨nodup_firstById _, fun id => ?_, heq, ?_, ?_⟩
  · -- The ids in force are those of all rules that apply.
    have hids : (rules.get nodes node true).any (·.id = id) =
        ((nodes.climb nodes.size node).any (rules.passes · id) || rules.isAttached node id) := by
      rw [get, if_pos rfl, inherited, if_pos hnode, any_id_firstById, List.any_append,
        any_id_flatMap, List.any_reverse]
      rfl
    have hmem : id ∈ (rules.get nodes node true).map Rule.id ↔
        (rules.get nodes node true).any (·.id = id) := by simp
    rw [hmem, hids, Bool.or_eq_true, List.any_eq_true, or_comm]
  · intro below ancestor above id hancestors hpasses habove
    obtain ⟨rule, hrule, hid⟩ := List.any_eq_true.mp hpasses
    obtain ⟨happlies, hid⟩ := Bool.and_eq_true_iff.mp hid
    obtain rfl := of_decide_eq_true hid
    refine ⟨rule, ?_, hrule, happlies, rfl⟩
    rw [heq, hancestors]
    exact List.mem_append_left _ (mem_passedDown hrule happlies habove)
  · intro rule hrule hancestors
    rw [heq]
    refine List.mem_append_right _ (List.mem_filter.mpr ⟨hrule, ?_⟩)
    simpa using hancestors

/-- **Which rules are in force.**  Whatever rules were attached, removed and copied, the rules read
at a node without inherited ones are its own, and so they are at a node that does not exist.  At a
node that exists, its ancestors and its own rules determine the rules in force: their ids differ; an
id is in force if the node has it or an ancestor passes it on; what comes down stands first, from
the root-most ancestor down and in the order of attachment; and of several rules with one id the
root-most is in force. -/
theorem get_ofEdits (edits : List RuleEdit) {nodes : NodeStore} (hnodes : nodes.WellFormed)
    (node : NodeRef) :
    (ofEdits edits).get nodes node false = (ofEdits edits).own node ∧
    (¬ nodes.hasNode node →
      (ofEdits edits).get nodes node true = (ofEdits edits).own node) ∧
    (nodes.hasNode node → ∃ ancestors, nodes.ancestorsOf node = .ok ancestors ∧
      nodes.Climbs node ancestors ∧
      (ofEdits edits).InForce node ancestors ((ofEdits edits).get nodes node true)) := by
  have hnodup := (tabled_ofEdits edits).nodup
  refine ⟨?_, fun hnone => ?_, fun hnode => ?_⟩
  · exact firstById_of_nodup (hnodup node)
  · rw [get, if_pos rfl, inherited, if_neg hnone, List.nil_append]
    exact firstById_of_nodup (hnodup node)
  · obtain ⟨record, hrecord⟩ := NodeStore.hasNode_iff_recordOf.mp hnode
    exact ⟨_, NodeStore.ancestorsOf_eq hrecord, hnodes.climbs_climb hnode, inForce_get hnodup hnode⟩

/-- A folder with rules "r" and "t" of its own, beneath a root with a rule "r" for its children and
a rule "s" for itself. -/
def folderEdits : List RuleEdit :=
  [.put (folderNode "u2") { id := "r", ruleType := "inbound", title := "of the folder" },
    .put (folderNode "u2") { id := "t", ruleType := "inbound" },
    .put (folderNode "u1")
      { id := "r", ruleType := "inbound", title := "of the root", appliesToChildren := true },
    .put (folderNode "u1") { id := "s", ruleType := "inbound" }]

/-- The root's rule "r" comes before the folder's rule "t", and the folder's rule "r" is not in
force. -/
theorem get_ofEdits_folder :
    folderStore.nodes.WellFormed ∧ folderStore.nodes.hasNode (folderNode "u2") ∧
      (ofEdits folderEdits).InForce (folderNode "u2") [folderNode "u1"]
        ((ofEdits folderEdits).get folderStore.nodes (folderNode "u2") true) ∧
      ((ofEdits folderEdits).get folderStore.nodes (folderNode "u2") true).map
        (fun rule => (rule.id, rule.title)) = [("r", "of the root"), ("t", "")] := by
  have hnodes := reachable_folderStore.sound.wellFormed
  have hnode : folderStore.nodes.hasNode (folderNode "u2") := by decide +kernel
  have hclimb : folderStore.nodes.climb folderStore.nodes.size (folderNode "u2") =
      [folderNode "u1"] := by decide +kernel
  obtain ⟨-, -, hread⟩ := get_ofEdits folderEdits hnodes (folderNode "u2")
  obtain ⟨ancestors, -, hclimbs, hinForce⟩ := hread hnode
  rw [hclimbs.unique (hnodes.climbs_climb hnode), hclimb] at hinForce
  exact ⟨hnodes, hnode, hinForce, by decide +kernel⟩

end RuleStore

end ContentRules
