import ContentRules.Rule.Store

/-!
# Copied rules

A rule that is attached to a node takes the place of the one with its id, and otherwise comes last.
So a node to which rules are copied keeps the ids that are attached to it, and has those of the node
that they are copied from as well.  A node without rules, to which only one node's are copied, has
exactly these, in their order.
-/

namespace ContentRules

namespace RuleStore

variable {rules : RuleStore} {source target node : NodeRef} {rule : Rule} {list kept : List Rule}

/-! ## Lists of rules -/

theorem any_id_place (id : String) :
    (place rule list).any (·.id = id) = (decide (rule.id = id) || list.any (·.id = id)) := by
  induction list with
  | nil => rfl
  | cons other rest ih =>
      unfold place
      split
      · rename_i hsame
        simp only [List.any_cons, hsame, ← Bool.or_assoc, Bool.or_self]
      · simp only [List.any_cons, ih, ← Bool.or_assoc, Bool.or_comm]

/-- A rule with a new id comes last. -/
theorem place_of_notMem (hnew : rule.id ∉ list.map Rule.id) : place rule list = list ++ [rule] := by
  induction list with
  | nil => rfl
  | cons other rest ih =>
      simp only [List.map_cons, List.mem_cons, not_or] at hnew
      unfold place
      rw [if_neg (Ne.symm hnew.1), ih hnew.2]
      rfl

/-- A rule takes its own place. -/
theorem place_of_mem (hnodup : (list.map Rule.id).Nodup) (hmem : rule ∈ list) :
    place rule list = list := by
  induction list with
  | nil => cases hmem
  | cons other rest ih =>
      obtain ⟨hother, hrest⟩ := List.nodup_cons.mp hnodup
      unfold place
      rcases List.mem_cons.mp hmem with rfl | hmem
      · rw [if_pos rfl]
      · have hne : other.id ≠ rule.id := by
          intro hsame
          rw [hsame] at hother
          exact hother (List.mem_map_of_mem hmem)
        rw [if_neg hne, ih hrest hmem]

/-- A rule with a known id takes the place of the one that has it. -/
theorem place_of_id_mem (hnodup : (list.map Rule.id).Nodup) (hknown : rule.id ∈ list.map Rule.id) :
    place rule list = list.map fun other => if other.id = rule.id then rule else other := by
  induction list with
  | nil => cases hknown
  | cons other rest ih =>
      obtain ⟨hother, hrest⟩ := List.nodup_cons.mp hnodup
      unfold place
      by_cases hsame : other.id = rule.id
      · -- No rule behind this one has the id.
        have hkept : ∀ later ∈ rest,
            (if later.id = rule.id then rule else later) = later := by
          intro later hlater
          refine if_neg fun hlaterId => hother ?_
          rw [hsame, ← hlaterId]
          exact List.mem_map_of_mem hlater
        rw [if_pos hsame, List.map_cons, if_pos hsame, List.map_congr_left hkept, List.map_id']
      · have hmem : rule.id ∈ rest.map Rule.id :=
          (List.mem_cons.mp hknown).resolve_left (Ne.symm hsame)
        rw [if_neg hsame, List.map_cons, if_neg hsame, ih hrest hmem]

theorem mem_place_self (rule : Rule) (list : List Rule) : rule ∈ place rule list := by
  induction list with
  | nil => exact List.mem_singleton_self rule
  | cons other rest ih =>
      unfold place
      split
      · exact List.mem_cons_self
      · exact List.mem_cons_of_mem other ih

/-- No rule is lost but one with the id of the one that is placed. -/
theorem mem_place_of_mem {other : Rule} (hother : other.id ≠ rule.id) (hmem : other ∈ list) :
    other ∈ place rule list := by
  induction list with
  | nil => cases hmem
  | cons first rest ih =>
      unfold place
      rcases List.mem_cons.mp hmem with rfl | hmem
      · rw [if_neg hother]
        exact List.mem_cons_self
      · split
        · exact List.mem_cons_of_mem rule hmem
        · exact List.mem_cons_of_mem first (ih hmem)

/-- Rules one after the other, each in the place of the one with its id. -/
def placeAll (list kept : List Rule) : List Rule :=
  list.foldl (fun kept rule => place rule kept) kept

theorem any_id_placeAll (id : String) :
    (placeAll list kept).any (·.id = id) = (list.any (·.id = id) || kept.any (·.id = id)) := by
  induction list generalizing kept with
  | nil => rfl
  | cons rule list ih =>
      show (placeAll list (place rule kept)).any _ = _
      rw [ih, any_id_place, List.any_cons, ← Bool.or_assoc, Bool.or_comm (list.any _)]

theorem placeAll_append (hnodup : ((kept ++ list).map Rule.id).Nodup) :
    placeAll list kept = kept ++ list := by
  induction list generalizing kept with
  | nil => exact (List.append_nil kept).symm
  | cons rule list ih =>
      have hnew : rule.id ∉ kept.map Rule.id := by
        intro hmem
        rw [List.map_append, List.nodup_append] at hnodup
        exact hnodup.2.2 _ hmem _ (List.mem_cons_self ..) rfl
      show placeAll list (place rule kept) = _
      rw [place_of_notMem hnew]
      rw [List.append_cons] at hnodup
      rw [ih hnodup, List.append_assoc, List.singleton_append]

theorem mem_placeAll_of_mem (hnew : rule.id ∉ list.map Rule.id) (hmem : rule ∈ kept) :
    rule ∈ placeAll list kept := by
  induction list generalizing kept with
  | nil => exact hmem
  | cons other list ih =>
      obtain ⟨hother, hlist⟩ := not_or.mp (mt List.mem_cons.mpr hnew)
      exact ih hlist (mem_place_of_mem hother hmem)

/-- Rules with ids of their own are all there after they were placed. -/
theorem subset_placeAll (hnodup : (list.map Rule.id).Nodup) (kept : List Rule) :
    list ⊆ placeAll list kept := by
  induction list generalizing kept with
  | nil => exact List.nil_subset _
  | cons rule list ih =>
      obtain ⟨hrule, hlist⟩ := List.nodup_cons.mp hnodup
      show rule :: list ⊆ placeAll list (place rule kept)
      exact List.cons_subset.mpr
        ⟨mem_placeAll_of_mem hrule (mem_place_self rule kept), ih hlist (place rule kept)⟩

theorem placeAll_of_subset (hnodup : (kept.map Rule.id).Nodup) (hsubset : list ⊆ kept) :
    placeAll list kept = kept := by
  induction list with
  | nil => rfl
  | cons rule list ih =>
      obtain ⟨hrule, hlist⟩ := List.cons_subset.mp hsubset
      show placeAll list (place rule kept) = kept
      rw [place_of_mem hnodup hrule, ih hlist]

/-! ## Rules of nodes -/

theorem own_put : (rules.put target rule).own node =
    if target = node then place rule (rules.own node) else rules.own node := by
  unfold own put
  rw [NodeIndex.itemsOf_eq, Std.ExtTreeMap.getElem?_insert]
  by_cases hsame : target = node
  · subst hsame
    simp [own]
  · simp [hsame, NodeIndex.itemsOf_eq]

/-- Attaching a rule that is attached already changes nothing. -/
theorem put_of_mem (hnodup : ((rules.own target).map Rule.id).Nodup)
    (hmem : rule ∈ rules.own target) : rules.put target rule = rules := by
  have hlist : rules.attached[target]? = some (rules.own target) := by
    unfold own at hmem ⊢
    rw [NodeIndex.itemsOf_eq] at hmem ⊢
    cases hfound : rules.attached[target]? with
    | none => simp [hfound] at hmem
    | some list => rfl
  have hsame : (rules.attached.insert target (rules.own target)) = rules.attached := by
    refine Std.ExtTreeMap.ext_getElem? fun {node} => ?_
    rw [Std.ExtTreeMap.getElem?_insert]
    split
    · rename_i hnode
      rw [← Std.compare_eq_iff_eq.mp hnode, hlist]
    · rfl
  unfold put
  rw [place_of_mem hnodup hmem, hsame]

/-- The rules of one node are placed among those of another one. -/
theorem own_copyRules : (rules.copyRules source target).own node =
    if target = node then placeAll (rules.own source) (rules.own node) else rules.own node := by
  unfold copyRules
  generalize rules.own source = list
  induction list generalizing rules with
  | nil => exact (ite_self _).symm
  | cons rule list ih =>
      rw [List.foldl_cons, ih, own_put]
      split
      · rfl
      · rfl

theorem isAttached_copyRules (id : String) : (rules.copyRules source target).isAttached node id =
    (rules.isAttached node id || decide (target = node) && rules.isAttached source id) := by
  unfold isAttached
  rw [own_copyRules]
  split
  · rename_i hsame
    rw [any_id_placeAll, decide_eq_true hsame, Bool.true_and, Bool.or_comm]
  · rename_i hother
    rw [decide_eq_false hother, Bool.false_and, Bool.or_false]

/-! ## Several copies -/

/-- Copies the rules of nodes to others, one pair after the other. -/
def copyAll (rules : RuleStore) (copies : List (NodeRef × NodeRef)) : RuleStore :=
  copies.foldl (fun rules (source, copy) => rules.copyRules source copy) rules

variable {copies : List (NodeRef × NodeRef)}

theorem isAttached_copyAll_of_isAttached {id : String} (hattached : rules.isAttached node id) :
    (rules.copyAll copies).isAttached node id := by
  induction copies generalizing rules with
  | nil => exact hattached
  | cons pair copies ih =>
      refine ih ?_
      rw [isAttached_copyRules, hattached, Bool.true_or]

/-- A node has the ids of the rules that are copied to it. -/
theorem isAttached_copyAll (hmem : (source, target) ∈ copies) {id : String}
    (hattached : rules.isAttached source id) : (rules.copyAll copies).isAttached target id := by
  induction copies generalizing rules with
  | nil => cases hmem
  | cons pair copies ih =>
      show ((rules.copyRules pair.1 pair.2).copyAll copies).isAttached target id
      rcases List.mem_cons.mp hmem with rfl | hmem
      · refine isAttached_copyAll_of_isAttached ?_
        rw [isAttached_copyRules, hattached, decide_eq_true rfl, Bool.and_true, Bool.or_true]
      · refine ih hmem ?_
        rw [isAttached_copyRules, hattached, Bool.true_or]

/-- Only nodes to which rules are copied have others than before. -/
theorem exists_copy_of_own_copyAll_ne (hchanged : (rules.copyAll copies).own node ≠ rules.own node) :
    ∃ source, (source, node) ∈ copies := by
  induction copies generalizing rules with
  | nil => exact absurd rfl hchanged
  | cons pair copies ih =>
      by_cases htarget : pair.2 = node
      · exact ⟨pair.1, htarget ▸ List.mem_cons_self ..⟩
      · have hkept : (rules.copyRules pair.1 pair.2).own node = rules.own node := by
          rw [own_copyRules, if_neg htarget]
        rw [← hkept] at hchanged
        obtain ⟨source, hmem⟩ := ih hchanged
        exact ⟨source, List.mem_cons_of_mem _ hmem⟩

/-- A node without rules has those of the node that they are copied from, if it is the only one and
nothing is copied to it in turn. -/
theorem own_copyAll (hnodup : ((rules.own source).map Rule.id).Nodup)
    (honly : ∀ pair ∈ copies, pair.2 ≠ source ∧ (pair.2 = target → pair.1 = source))
    (htarget : rules.own target = rules.own source ∨
      rules.own target = [] ∧ (source, target) ∈ copies) :
    (rules.copyAll copies).own target = rules.own source := by
  induction copies generalizing rules with
  | nil =>
      rcases htarget with hsame | ⟨-, hmem⟩
      · exact hsame
      · cases hmem
  | cons pair copies ih =>
      obtain ⟨⟨hsource, hfrom⟩, honly⟩ := List.forall_mem_cons.mp honly
      have hkept : (rules.copyRules pair.1 pair.2).own source = rules.own source := by
        rw [own_copyRules, if_neg hsource]
      show ((rules.copyRules pair.1 pair.2).copyAll copies).own target = _
      rw [← hkept]
      refine ih (by rwa [hkept]) honly ?_
      rw [hkept, own_copyRules]
      by_cases hpair : pair.2 = target
      · -- The rules come into an empty list, or each of them finds itself in its place.
        rw [if_pos hpair, hfrom hpair]
        refine .inl ?_
        rcases htarget with hsame | ⟨hnew, -⟩
        · rw [hsame]
          exact placeAll_of_subset hnodup (List.Subset.refl _)
        · rw [hnew]
          exact placeAll_append hnodup
      · rw [if_neg hpair]
        refine htarget.imp_right fun hnew => ⟨hnew.1, ?_⟩
        rcases List.mem_cons.mp hnew.2 with rfl | hmem
        · exact absurd rfl hpair
        · exact hmem

end RuleStore

end ContentRules
