import Mathlib.Data.List.Induction
import ContentRules.Proofs.NodeStore.Forest
import ContentRules.Proofs.Rule.Copies

/-!
# Reading a rule that was written

Rules are told apart by their ids, and a rule that is written to a node may have the id of one that
the node has from an ancestor.  Both are attached then, and only one of them is in force.

**Strategy.**  To look for an id among the rules in force is to look for it among all that apply,
the inherited ones first (`find?_firstById`).  What is written to a node is found among the node's
own rules (`find?_place`), and since no node is its own ancestor it changes none that the node
inherits (`inherited_put`).  So a rule that was written is read again, unless an inherited rule
shadows its id.
-/

namespace ContentRules

namespace RuleStore

variable {rules : RuleStore} {node : NodeRef} {rule : Rule} {list : List Rule}

/-! ## Rules in force -/

/-- No two rules in force have one id. -/
theorem nodup_firstById (list : List Rule) : ((firstById list).map Rule.id).Nodup := by
  unfold firstById
  suffices h : ∀ (kept : List Rule), (kept.map Rule.id).Nodup →
      ((list.foldl (fun kept rule => if kept.any (·.id = rule.id) then kept else kept ++ [rule])
        kept).map Rule.id).Nodup from h [] List.nodup_nil
  induction list with
  | nil => exact fun _ hkept => hkept
  | cons rule list ih =>
      intro kept hkept
      rw [List.foldl_cons]
      split
      · exact ih kept hkept
      · rename_i hnew
        refine ih _ ?_
        rw [List.map_append, List.map_singleton, List.nodup_append]
        refine ⟨hkept, List.nodup_singleton _, ?_⟩
        intro id hid other hother hsame
        obtain ⟨former, hformer, rfl⟩ := List.mem_map.mp hid
        rw [List.mem_singleton.mp hother] at hsame
        exact hnew (List.any_eq_true.mpr ⟨former, hformer, decide_eq_true hsame⟩)

/-- Of several rules with one id, the first is in force. -/
theorem find?_firstById (list : List Rule) (id : String) :
    (firstById list).find? (·.id = id) = list.find? (·.id = id) := by
  unfold firstById
  suffices h : ∀ (kept : List Rule),
      (list.foldl (fun kept rule => if kept.any (·.id = rule.id) then kept else kept ++ [rule])
        kept).find? (·.id = id) = (kept ++ list).find? (·.id = id) from h []
  induction list with
  | nil => simp
  | cons rule list ih =>
      intro kept
      rw [List.foldl_cons, ih]
      split
      · rename_i hkept
        -- The rule is passed over, and one of its id is found before it.
        obtain ⟨former, hformer, hid⟩ := List.any_eq_true.mp hkept
        simp only [List.find?_append, List.find?_cons]
        by_cases hsought : rule.id = id
        · have hfound : (kept.find? (·.id = id)).isSome := by
            rw [List.find?_isSome]
            exact ⟨former, hformer, by simpa [hsought] using hid⟩
          rw [Option.or_of_isSome hfound, Option.or_of_isSome hfound]
        · simp [hsought]
      · rw [List.append_assoc, List.singleton_append]

/-- A rule is in force if it is what is found for its id. -/
theorem mem_firstById_iff :
    rule ∈ firstById list ↔ list.find? (·.id = rule.id) = some rule := by
  rw [← find?_firstById]
  constructor
  · intro hmem
    have hsome : ((firstById list).find? (·.id = rule.id)).isSome :=
      List.find?_isSome.mpr ⟨rule, hmem, by simp⟩
    obtain ⟨found, hfound⟩ := Option.isSome_iff_exists.mp hsome
    have hid : found.id = rule.id := by simpa using List.find?_some hfound
    rw [hfound, List.inj_on_of_nodup_map (nodup_firstById list) (List.mem_of_find?_eq_some hfound)
      hmem hid]
  · exact List.mem_of_find?_eq_some

/-- Passing over the rules whose ids are kept already, a list adds its rules in force that have
other ids. -/
theorem foldl_firstById (kept list : List Rule) :
    list.foldl (fun kept rule => if kept.any (·.id = rule.id) then kept else kept ++ [rule]) kept =
      kept ++ (firstById list).filter fun rule => !kept.any (·.id = rule.id) := by
  induction list using List.reverseRecOn with
  | nil => exact (List.append_nil kept).symm
  | append_singleton list rule ih =>
      have hlast : firstById (list ++ [rule]) =
          if (firstById list).any (·.id = rule.id) then firstById list
          else firstById list ++ [rule] := List.foldl_append
      rw [List.foldl_append, List.foldl_cons, List.foldl_nil, ih, hlast]
      by_cases hkept : kept.any (·.id = rule.id)
      · -- The rule is passed over on both sides, in the list itself or for what is kept.
        rw [if_pos (by rw [List.any_append, hkept, Bool.true_or])]
        split
        · rfl
        · rw [List.filter_append, List.filter_cons_of_neg (by simpa using hkept), List.filter_nil,
            List.append_nil]
      · have hsame : (kept ++ (firstById list).filter fun rule => !kept.any (·.id = rule.id)).any
            (·.id = rule.id) = (firstById list).any (·.id = rule.id) := by
          rw [List.any_append, List.any_filter, Bool.eq_false_iff.mpr hkept, Bool.false_or]
          refine congrArg (List.any (firstById list)) (funext fun other => ?_)
          by_cases hid : other.id = rule.id
          · simp [hid, Bool.eq_false_iff.mpr hkept]
          · simp [hid]
        rw [hsame]
        split
        · rfl
        · rw [List.filter_append, List.filter_cons_of_pos (by simpa using hkept), List.filter_nil,
            List.append_assoc]

/-- The ids in force are those of the list. -/
theorem any_id_firstById (list : List Rule) (id : String) :
    (firstById list).any (·.id = id) = list.any (·.id = id) := by
  rw [Bool.eq_iff_iff, List.any_eq_true, List.any_eq_true, ← List.find?_isSome,
    ← List.find?_isSome, find?_firstById]

/-- After the rules in force of one list come those of the next one that have other ids. -/
theorem firstById_append (list next : List Rule) :
    firstById (list ++ next) =
      firstById list ++ (firstById next).filter fun rule => !list.any (·.id = rule.id) := by
  have hfold : firstById (list ++ next) = next.foldl
      (fun kept rule => if kept.any (·.id = rule.id) then kept else kept ++ [rule])
      (firstById list) := List.foldl_append
  rw [hfold, foldl_firstById]
  simp only [any_id_firstById]

/-- Rules with ids of their own are all in force. -/
theorem firstById_of_nodup (hnodup : (list.map Rule.id).Nodup) : firstById list = list := by
  induction list using List.reverseRecOn with
  | nil => rfl
  | append_singleton list rule ih =>
      rw [List.map_append, List.map_singleton, List.nodup_append] at hnodup
      obtain ⟨hlist, -, hother⟩ := hnodup
      have hnew : ¬ list.any (·.id = rule.id) := by
        intro hany
        obtain ⟨other, hmem, hid⟩ := List.any_eq_true.mp hany
        exact hother _ (List.mem_map_of_mem hmem) _ (List.mem_singleton_self _)
          (of_decide_eq_true hid)
      have hsingle : firstById [rule] = [rule] := rfl
      rw [firstById_append, ih hlist, hsingle, List.filter_cons_of_pos (by simpa using hnew),
        List.filter_nil]

/-- A rule that was placed is found. -/
theorem find?_place (rule : Rule) (list : List Rule) :
    (place rule list).find? (·.id = rule.id) = some rule := by
  induction list with
  | nil => simp [place]
  | cons other rest ih =>
      unfold place
      split
      · simp
      · rename_i hother
        rw [List.find?_cons_of_neg (by simpa using hother), ih]

/-! ## Writing and reading -/

/-- The inherited rule that comes before any of the node's own with this id. -/
def shadowing? (rules : RuleStore) (nodes : NodeStore) (node : NodeRef) (id : String) :
    Option Rule :=
  (rules.inherited nodes node).find? (·.id = id)

variable {state : StoreState}

/-- What is attached to a node is not inherited by it. -/
theorem inherited_put (hreachable : state.Reachable) (hnode : state.nodes.hasNode node)
    (rules : RuleStore) (rule : Rule) :
    (rules.put node rule).inherited state.nodes node = rules.inherited state.nodes node := by
  have hclimbs := hreachable.sound.wellFormed.climbs_climb hnode
  unfold inherited
  rw [if_pos hnode, if_pos hnode]
  refine List.flatMap_congr fun ancestor hancestor => ?_
  have hother : node ≠ ancestor := by
    rintro rfl
    exact hclimbs.not_mem (List.mem_reverse.mp hancestor)
  rw [own_put, if_neg hother]

/-- **What is read of a rule that was written.**  A rule that is attached to a node is among the
node's own rules.  Among the rules in force at the node, its id stands for the inherited rule that
shadows it, if there is one, and otherwise for the rule itself.  So the rule that was written is in
force just if no other rule shadows it. -/
theorem getById?_put (hreachable : state.Reachable) (hnode : state.nodes.hasNode node)
    (rules : RuleStore) (rule : Rule) :
    rule ∈ (rules.put node rule).get state.nodes node false ∧
    (rules.put node rule).getById? state.nodes node rule.id =
      some ((rules.shadowing? state.nodes node rule.id).getD rule) ∧
    (rule ∈ (rules.put node rule).get state.nodes node true ↔
      ∀ other, rules.shadowing? state.nodes node rule.id = some other → other = rule) := by
  have hown : ((rules.put node rule).own node).find? (·.id = rule.id) = some rule := by
    rw [own_put, if_pos rfl]
    exact find?_place rule _
  have hread : ((rules.put node rule).inherited state.nodes node ++
      (rules.put node rule).own node).find? (·.id = rule.id) =
        some ((rules.shadowing? state.nodes node rule.id).getD rule) := by
    rw [inherited_put hreachable hnode, List.find?_append, hown]
    unfold shadowing?
    cases (rules.inherited state.nodes node).find? (·.id = rule.id) <;> rfl
  refine ⟨mem_firstById_iff.mpr hown, (find?_firstById _ _).trans hread, ?_⟩
  rw [get, if_pos rfl, mem_firstById_iff, hread]
  cases rules.shadowing? state.nodes node rule.id <;> simp

/-! ## A rule of the root and one of a folder -/

/-- A folder beneath the root of a store. -/
def folderStore : StoreState :=
  let store : StoreRef := { protocol := "workspace", identifier := "main" }
  let name : QualifiedName := { space := "model", localName := "folder" }
  let edits : List Edit :=
    [.createStore "workspace" "main", .createNode { store, id := "u1" } name name name []]
  edits.foldl (fun state edit => (edit.run state).2) { ids := {}, nodes := .empty }

/-- The root of that store is "u1", and the folder "u2". -/
def folderNode (id : String) : NodeRef :=
  { store := { protocol := "workspace", identifier := "main" }, id }

/-- The root has a rule for all that is beneath it. -/
def rootRules : RuleStore :=
  ({} : RuleStore).put (folderNode "u1")
    { id := "r", ruleType := "inbound", title := "of the root", appliesToChildren := true }

theorem reachable_folderStore : folderStore.Reachable :=
  (StoreState.Reachable.empty _).edits _

/-- A rule with another id is read as it was written. -/
theorem getById?_put_folder :
    folderStore.Reachable ∧ folderStore.nodes.hasNode (folderNode "u2") ∧
      (rootRules.put (folderNode "u2") { id := "s", ruleType := "inbound" }).getById?
        folderStore.nodes (folderNode "u2") "s" = some { id := "s", ruleType := "inbound" } := by
  have hnode : folderStore.nodes.hasNode (folderNode "u2") := by decide +kernel
  have hnone : (rootRules.shadowing? folderStore.nodes (folderNode "u2") "s").isNone := by
    decide +kernel
  obtain ⟨-, hread, -⟩ := getById?_put reachable_folderStore hnode rootRules
    { id := "s", ruleType := "inbound" }
  rw [Option.isNone_iff_eq_none.mp hnone] at hread
  exact ⟨reachable_folderStore, hnode, hread⟩

/-- A rule with the id of the root's rule is attached to the folder, and the root's is read. -/
theorem getById?_put_shadowed :
    folderStore.Reachable ∧ folderStore.nodes.hasNode (folderNode "u2") ∧
      ∃ rule : Rule, rule.title = "of the folder" ∧
        rule ∈ (rootRules.put (folderNode "u2") rule).own (folderNode "u2") ∧
        rule ∉ (rootRules.put (folderNode "u2") rule).get folderStore.nodes (folderNode "u2") true ∧
        ((rootRules.put (folderNode "u2") rule).getById? folderStore.nodes (folderNode "u2")
          rule.id).map Rule.title = some "of the root" := by
  let rule : Rule := { id := "r", ruleType := "inbound", title := "of the folder" }
  have hnode : folderStore.nodes.hasNode (folderNode "u2") := by decide +kernel
  refine ⟨reachable_folderStore, hnode, rule, rfl, ?_, ?_, by decide +kernel⟩
  · rw [own_put, if_pos rfl]
    exact List.mem_of_find?_eq_some (find?_place rule _)
  · intro hmem
    have htitles : ((rootRules.put (folderNode "u2") rule).get folderStore.nodes
        (folderNode "u2") true).all (·.title ≠ "of the folder") = true := by decide +kernel
    simpa [rule] using List.all_eq_true.mp htitles rule hmem

end RuleStore

end ContentRules
