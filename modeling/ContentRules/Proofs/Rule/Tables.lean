import Mathlib.Data.List.Basic
import Mathlib.Logic.Function.Basic
import ContentRules.Proofs.Rule.Copies

/-!
# The rules of a node as a table

What is attached to a node is a table of rules by id.  A table remembers the order in which its ids
came: a rule with a known id takes the place of the former one, a new id comes last, and an id that
is removed leaves the others as they were.

**Strategy.**  `RuleTable` is such a table, with the order of the ids and the rule of each id kept
apart, and `RuleEdit` is what can be done to the rules of nodes.  Each edit is performed on a rule
store and on a family of tables (`RuleStore.Tabled`), and the lists in the one are those read off
the other (`RuleStore.Tabled.perform`).  A list read off a table names no id twice, which is what
makes copying for a second time do nothing.
-/

namespace ContentRules

/-! ## Tables -/

/-- Rules by id, and the ids in the order in which they came. -/
structure RuleTable where
  ids : List String := []
  rule? : String → Option Rule := fun _ => none
  nodup : ids.Nodup := by simp
  isSome_iff : ∀ id, (rule? id).isSome ↔ id ∈ ids := by simp
  id_eq : ∀ id rule, rule? id = some rule → rule.id = id := by simp

namespace RuleTable

/-- The rule for its id, which comes last if it is a new one. -/
def put (table : RuleTable) (rule : Rule) : RuleTable where
  ids := if rule.id ∈ table.ids then table.ids else table.ids ++ [rule.id]
  rule? := Function.update table.rule? rule.id (some rule)
  nodup := by
    split
    · exact table.nodup
    · rename_i hnew
      simpa [List.nodup_append, table.nodup] using fun id hid => (ne_of_mem_of_not_mem hid hnew)
  isSome_iff := by
    intro id
    by_cases hsame : id = rule.id
    · subst hsame
      split <;> simp_all
    · rw [Function.update_of_ne hsame, table.isSome_iff]
      split <;> simp [hsame]
  id_eq := by
    intro id other hother
    by_cases hsame : id = rule.id
    · subst hsame
      rw [Function.update_self] at hother
      rw [Option.some.inj hother]
    · rw [Function.update_of_ne hsame] at hother
      exact table.id_eq id other hother

/-- The table without an id. -/
def erase (table : RuleTable) (id : String) : RuleTable where
  ids := table.ids.filter fun other => other ≠ id
  rule? := Function.update table.rule? id none
  nodup := table.nodup.filter _
  isSome_iff := by
    intro other
    by_cases hsame : other = id
    · simp [hsame]
    · simp [table.isSome_iff, hsame]
  id_eq := by
    intro other rule hrule
    by_cases hsame : other = id
    · simp [hsame] at hrule
    · rw [Function.update_of_ne hsame] at hrule
      exact table.id_eq other rule hrule

/-- The rules in the order of their ids. -/
def rules (table : RuleTable) : List Rule :=
  table.ids.filterMap table.rule?

variable {table : RuleTable} {rule : Rule} {id : String}

/-! ### What is read off a table -/

theorem map_id_rules (table : RuleTable) : table.rules.map Rule.id = table.ids := by
  have hread : ∀ ids : List String, (∀ id ∈ ids, id ∈ table.ids) →
      (ids.filterMap table.rule?).map Rule.id = ids := by
    intro ids hids
    induction ids with
    | nil => rfl
    | cons id ids ih =>
        obtain ⟨hid, hids⟩ := List.forall_mem_cons.mp hids
        obtain ⟨rule, hrule⟩ := Option.isSome_iff_exists.mp ((table.isSome_iff id).mpr hid)
        rw [List.filterMap_cons_some hrule, List.map_cons, ih hids, table.id_eq id rule hrule]
  exact hread table.ids fun _ => id

theorem nodup_rules (table : RuleTable) : (table.rules.map Rule.id).Nodup :=
  table.map_id_rules ▸ table.nodup

/-- A new id comes last, with its rule. -/
theorem rules_put_of_not_mem (hnew : rule.id ∉ table.ids) :
    (table.put rule).rules = table.rules ++ [rule] := by
  have hothers : ∀ other ∈ table.ids, (table.put rule).rule? other = table.rule? other :=
    fun other hother => Function.update_of_ne (ne_of_mem_of_not_mem hother hnew) ..
  have hrule : (table.put rule).rule? rule.id = some rule := Function.update_self ..
  have hids : (table.put rule).ids = table.ids ++ [rule.id] := if_neg hnew
  unfold rules
  rw [hids, List.filterMap_append, List.filterMap_congr hothers, List.filterMap_cons_some hrule,
    List.filterMap_nil]

/-- The rule of a known id takes the place of the former one, and the others stay. -/
theorem rules_put_of_mem (hknown : rule.id ∈ table.ids) :
    (table.put rule).rules =
      table.rules.map fun other => if other.id = rule.id then rule else other := by
  have hids : (table.put rule).ids = table.ids := if_pos hknown
  unfold rules
  rw [hids, List.map_filterMap]
  refine List.filterMap_congr fun id hid => ?_
  obtain ⟨other, hother⟩ := Option.isSome_iff_exists.mp ((table.isSome_iff id).mpr hid)
  rw [hother, Option.map_some, table.id_eq id other hother]
  by_cases hsame : id = rule.id
  · rw [if_pos hsame, hsame]
    exact Function.update_self ..
  · rw [if_neg hsame, ← hother]
    exact Function.update_of_ne hsame ..

/-- The rule of a removed id is gone, and the others stay. -/
theorem rules_erase (table : RuleTable) (id : String) :
    (table.erase id).rules = table.rules.filter fun rule => rule.id ≠ id := by
  have hread : ∀ ids : List String, (∀ other ∈ ids, other ∈ table.ids) →
      (ids.filter fun other => other ≠ id).filterMap (table.erase id).rule? =
        (ids.filterMap table.rule?).filter fun rule => rule.id ≠ id := by
    intro ids hids
    induction ids with
    | nil => rfl
    | cons other ids ih =>
        obtain ⟨hother, hids⟩ := List.forall_mem_cons.mp hids
        obtain ⟨rule, hrule⟩ := Option.isSome_iff_exists.mp ((table.isSome_iff other).mpr hother)
        have hid := table.id_eq other rule hrule
        rw [List.filterMap_cons_some hrule]
        by_cases hsame : other = id
        · rw [List.filter_cons_of_neg (by simpa using hsame), ih hids,
            List.filter_cons_of_neg (by simpa [hid] using hsame)]
        · have hkept : (table.erase id).rule? other = some rule :=
            (Function.update_of_ne hsame ..).trans hrule
          rw [List.filter_cons_of_pos (by simpa using hsame), List.filterMap_cons_some hkept,
            ih hids, List.filter_cons_of_pos (by simpa [hid] using hsame)]
  exact hread table.ids fun _ hmem => hmem

end RuleTable

/-! ## Edits of the rules of nodes -/

/-- What can be done to the rules that are attached to nodes. -/
inductive RuleEdit where
  | put (node : NodeRef) (rule : Rule)
  | remove (node : NodeRef) (id : String)
  | copyRules (source target : NodeRef)

namespace RuleEdit

/-- The rule store after an edit. -/
def perform (rules : RuleStore) : RuleEdit → RuleStore
  | put node rule => rules.put node rule
  | remove node id => rules.remove node id
  | copyRules source target => rules.copyRules source target

/-- What an edit answers: whether a removal left the node fewer rules. -/
def answer (rules : RuleStore) : RuleEdit → Option Bool
  | put .. | copyRules .. => none
  | remove node id => some (rules.detach node id).1

/-- The tables of all nodes after an edit, which changes the table of one node only. -/
def performOn (tables : NodeRef → RuleTable) : RuleEdit → NodeRef → RuleTable
  | put node rule => Function.update tables node ((tables node).put rule)
  | remove node id => Function.update tables node ((tables node).erase id)
  | copyRules source target =>
    Function.update tables target ((tables source).rules.foldl RuleTable.put (tables target))

/-- What an edit of tables answers. -/
def answerOn (tables : NodeRef → RuleTable) : RuleEdit → Option Bool
  | put .. | copyRules .. => none
  | remove node id => some (id ∈ (tables node).ids)

end RuleEdit

/-- The rule store after edits that began with no rules. -/
def RuleStore.ofEdits (edits : List RuleEdit) : RuleStore :=
  edits.foldl RuleEdit.perform {}

/-- The tables after edits that began with no rules. -/
def RuleTable.ofEdits (edits : List RuleEdit) : NodeRef → RuleTable :=
  edits.foldl RuleEdit.performOn fun _ => {}

namespace RuleStore

/-- The rules of each node are those of its table, in their order. -/
def Tabled (rules : RuleStore) (tables : NodeRef → RuleTable) : Prop :=
  ∀ node, rules.own node = (tables node).rules

variable {rules : RuleStore} {tables : NodeRef → RuleTable} {table : RuleTable} {list : List Rule}

/-- A rule is placed in a list as it is put into a table. -/
theorem place_rules (table : RuleTable) (rule : Rule) :
    place rule table.rules = (table.put rule).rules := by
  by_cases hknown : rule.id ∈ table.ids
  · rw [table.rules_put_of_mem hknown]
    exact place_of_id_mem table.nodup_rules (table.map_id_rules.symm ▸ hknown)
  · rw [table.rules_put_of_not_mem hknown]
    exact place_of_notMem (table.map_id_rules.symm ▸ hknown)

theorem placeAll_rules (list : List Rule) (table : RuleTable) :
    placeAll list table.rules = (list.foldl RuleTable.put table).rules := by
  induction list generalizing table with
  | nil => rfl
  | cons rule list ih =>
      show placeAll list (place rule table.rules) = _
      rw [place_rules, ih]
      rfl

theorem own_remove (rules : RuleStore) (node other : NodeRef) (id : String) :
    (rules.remove node id).own other =
      if node = other then (rules.own other).filter (fun rule => rule.id ≠ id)
      else rules.own other := by
  unfold own remove
  rw [NodeIndex.itemsOf_removeWhere]
  simp only [decide_not]

/-- Fewer rules are left to the node if and only if the one to be detached was there. -/
theorem detach_fst (rules : RuleStore) (node : NodeRef) (id : String) :
    (rules.detach node id).1 = rules.isAttached node id := by
  have hkept : ((rules.remove node id).own node).length = (rules.own node).length ↔
      ∀ rule ∈ rules.own node, rule.id ≠ id := by
    rw [own_remove, if_pos rfl, List.length_filter_eq_length_iff]
    simp only [decide_eq_true_eq]
  unfold detach isAttached
  rw [Bool.eq_iff_iff, decide_eq_true_iff, ne_eq, hkept]
  simp

namespace Tabled

theorem nodup (htabled : rules.Tabled tables) (node : NodeRef) :
    ((rules.own node).map Rule.id).Nodup := by
  rw [htabled node]
  exact (tables node).nodup_rules

/-- An edit does to the lists of rules what it does to the tables. -/
theorem perform (htabled : rules.Tabled tables) (edit : RuleEdit) :
    (edit.perform rules).Tabled (edit.performOn tables) := by
  intro node
  cases edit with
  | put target rule =>
      show (rules.put target rule).own node = (Function.update tables target _ node).rules
      rw [own_put]
      by_cases hsame : target = node
      · subst hsame
        rw [if_pos rfl, Function.update_self, htabled target, place_rules]
      · rw [if_neg hsame, Function.update_of_ne (Ne.symm hsame), htabled node]
  | remove target id =>
      show (rules.remove target id).own node = (Function.update tables target _ node).rules
      rw [own_remove]
      by_cases hsame : target = node
      · subst hsame
        rw [if_pos rfl, Function.update_self, htabled target, RuleTable.rules_erase]
      · rw [if_neg hsame, Function.update_of_ne (Ne.symm hsame), htabled node]
  | copyRules source target =>
      show (rules.copyRules source target).own node = (Function.update tables target _ node).rules
      rw [own_copyRules]
      by_cases hsame : target = node
      · subst hsame
        rw [if_pos rfl, Function.update_self, htabled source, htabled target, placeAll_rules]
      · rw [if_neg hsame, Function.update_of_ne (Ne.symm hsame), htabled node]

/-- The answer can be read off the table. -/
theorem answer_eq (htabled : rules.Tabled tables) (edit : RuleEdit) :
    edit.answer rules = edit.answerOn tables := by
  cases edit with
  | put | copyRules => rfl
  | remove node id =>
      have hmem : id ∈ (tables node).ids ↔ rules.isAttached node id := by
        unfold isAttached
        rw [← (tables node).map_id_rules, htabled node]
        simp
      simp only [RuleEdit.answer, RuleEdit.answerOn, detach_fst, hmem, Bool.decide_eq_true]

/-- Rules that are copied once are all there, and find themselves when they are copied again. -/
theorem copyRules_copyRules (htabled : rules.Tabled tables) (source target : NodeRef) :
    (rules.copyRules source target).copyRules source target = rules.copyRules source target := by
  have hcopied : (rules.copyRules source target).Tabled _ :=
    htabled.perform (.copyRules source target)
  have hsource : (rules.copyRules source target).own source = rules.own source := by
    rw [own_copyRules]
    split
    · rename_i hsame
      rw [placeAll_of_subset (htabled.nodup source) (List.Subset.refl _)]
    · rfl
  have hall : rules.own source ⊆ (rules.copyRules source target).own target := by
    rw [own_copyRules, if_pos rfl]
    exact subset_placeAll (htabled.nodup source) _
  have hkept : ∀ list : List Rule, list ⊆ (rules.copyRules source target).own target →
      list.foldl (fun rules rule => rules.put target rule) (rules.copyRules source target) =
        rules.copyRules source target := by
    intro list hlist
    induction list with
    | nil => rfl
    | cons rule list ih =>
        obtain ⟨hrule, hlist⟩ := List.cons_subset.mp hlist
        rw [List.foldl_cons, put_of_mem (hcopied.nodup target) hrule, ih hlist]
  rw [copyRules, hsource]
  exact hkept _ hall

end Tabled

theorem tabled_ofEdits (edits : List RuleEdit) :
    (ofEdits edits).Tabled (RuleTable.ofEdits edits) := by
  have hall : ∀ (rules : RuleStore) (tables : NodeRef → RuleTable), rules.Tabled tables →
      (edits.foldl RuleEdit.perform rules).Tabled (edits.foldl RuleEdit.performOn tables) := by
    induction edits with
    | nil => exact fun _ _ htabled => htabled
    | cons edit edits ih => exact fun rules tables htabled => ih _ _ (htabled.perform edit)
  refine hall {} (fun _ => {}) fun node => ?_
  exact NodeIndex.itemsOf_empty node

/-- **The rules of each node are a table.**  Whatever rules are attached, removed and copied, a
node's own to itself among them, beginning with no rules: the rules of each node have ids that
differ, and are those of its table in the order of the table, and the node has rules if there are
any.  A removal answers whether fewer rules are left, and this is whether the rule was in the table.
Copying for a second time changes nothing. -/
theorem own_ofEdits (edits : List RuleEdit) :
    (∀ node, (((ofEdits edits).own node).map Rule.id).Nodup ∧
      (ofEdits edits).own node = (RuleTable.ofEdits edits node).rules ∧
      ((ofEdits edits).hasRules node ↔ (ofEdits edits).own node ≠ [])) ∧
    (∀ edit : RuleEdit, edit.answer (ofEdits edits) = edit.answerOn (RuleTable.ofEdits edits)) ∧
    ∀ source target, ((ofEdits edits).copyRules source target).copyRules source target =
      (ofEdits edits).copyRules source target := by
  have htabled := tabled_ofEdits edits
  refine ⟨fun node => ⟨htabled.nodup node, htabled node, ?_⟩, htabled.answer_eq,
    htabled.copyRules_copyRules⟩
  unfold hasRules
  simp

end RuleStore

end ContentRules
