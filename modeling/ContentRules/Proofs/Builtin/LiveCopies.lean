import ContentRules.Proofs.Builtin.RuleCopies
import ContentRules.Proofs.Engine.Removals

/-!
# Which nodes a commit attaches rules to

A commit attaches rules to copies of nodes, and to no other nodes.  Each of them existed when the
behaviour that copies rules was told of it; but rules are attached after the nodes were installed,
and nobody looks whether the copy is still among them.  A copy that was removed after the behaviour
was told of it has rules all the same, and nodes of this kind are the only ones that do not exist
and have rules attached by a commit.

**Strategy.**  The behaviour defers rules for the nodes that it is told of (`Defers`), after it has
looked whether the copy exists.  So each pair of nodes that is deferred leads back to such a telling
(`TellsCopies`), and from there on the copy is kept or its removal is recorded (`TellsRemovals`).
-/

namespace ContentRules

open Mark

variable {state left last : WorkState} {marks more : List Mark}

/-! ## What is deferred -/

theorem Act.mem_ruleCopies_effect {wanted : NodeRef × NodeRef → Prop} {act : Act}
    (hact : act.DefersOnly wanted) {pair : NodeRef × NodeRef}
    (hmem : pair ∈ (act.effect state).work.ruleCopies) :
    pair ∈ state.work.ruleCopies ∨ wanted pair := by
  cases act with
  | edit | deliver | runPending | note => exact .inl hmem
  | enqueue entry => exact .inl (state.work.ruleCopies_enqueue entry ▸ hmem)
  | turn switch => exact .inl (state.work.ruleCopies_turn switch ▸ hmem)
  | deferCopy source copy =>
      rcases List.mem_append.mp hmem with hmem | hmem
      · exact .inl hmem
      · obtain rfl := List.mem_singleton.mp hmem
        exact .inr hact

/-- What is said of a script that defers rules at most for the nodes wanted. -/
structure Defers (wanted : NodeRef × NodeRef → Prop) (state : WorkState) (marks : List Mark)
    (left : WorkState) : Prop extends TellsRemovals state marks left where
  deferred : ∀ pair ∈ left.work.ruleCopies, pair ∈ state.work.ruleCopies ∨ wanted pair

theorem keptByActs_defers {wanted : NodeRef × NodeRef → Prop} {allowed : Act → Prop}
    (hallowed : ∀ act, allowed act → act.DefersOnly wanted) :
    KeptByActsWithMarks allowed (Defers wanted) where
  refl state := ⟨(keptByDrains_tellsRemovals allowed).refl state, fun _ => .inl⟩
  trans hfirst hlast := by
    refine ⟨hfirst.toTellsRemovals.trans hlast.toTellsRemovals, fun pair hpair => ?_⟩
    rcases hlast.deferred pair hpair with hpair | hwanted
    · exact hfirst.deferred pair hpair
    · exact .inr hwanted
  act {act} hact state :=
    ⟨(keptByDrains_tellsRemovals allowed).act hact state,
      fun _ => act.mem_ruleCopies_effect (hallowed act hact)⟩

/-! ## Where it comes from -/

/-- The behaviour that copies rules was told of the copy when this existed and the node that it was
copied from had rules.  The copy still exists, or its removal was recorded since. -/
def CopyTold (marks : List Mark) (left : WorkState) (pair : NodeRef × NodeRef) : Prop :=
  ∃ before rules earlier copy later,
    marks = before ++ .told rules earlier (.copied pair.1 copy) Actionable.copyBehaviour :: later ∧
    copy.child = pair.2 ∧ rules.hasRules pair.1 ∧ earlier.work.nodes.hasNode pair.2 ∧
    earlier.Leads left ∧
    (left.work.nodes.hasNode pair.2 ∨ earlier.Removes (recordedIn later) pair.2)

namespace CopyTold

variable {pair : NodeRef × NodeRef}

theorem prepend (hcopy : CopyTold more left pair) (marks : List Mark) :
    CopyTold (marks ++ more) left pair := by
  obtain ⟨before, rules, earlier, copy, later, rfl, hcopy⟩ := hcopy
  exact ⟨marks ++ before, rules, earlier, copy, later, (List.append_assoc ..).symm, hcopy⟩

theorem append (hcopy : CopyTold marks left pair) (hreachable : left.store.Reachable)
    (hlast : TellsRemovals left more last) : CopyTold (marks ++ more) last pair := by
  obtain ⟨before, rules, earlier, copy, later, rfl, hchild, hrules, hexists, hleads, hkept⟩ := hcopy
  refine ⟨before, rules, earlier, copy, later ++ more, by simp, hchild, hrules, hexists,
    hleads.trans hlast.leads, ?_⟩
  rw [recordedIn_append]
  rcases hkept with hnode | hremoves
  · refine (hlast.kept hreachable hnode).imp_right fun hremoves => ?_
    exact hremoves.mono hleads (List.subset_append_right _ _)
  · exact .inr (hremoves.mono (.refl earlier) (List.subset_append_left _ _))

end CopyTold

/-- All rules that were deferred on the way from one state to another were those of nodes and copies
that the behaviour was told of. -/
structure TellsCopies (state : WorkState) (marks : List Mark) (left : WorkState) : Prop
    extends TellsRemovals state marks left where
  copied : state.store.Reachable → ∀ pair ∈ left.work.ruleCopies,
    pair ∈ state.work.ruleCopies ∨ CopyTold marks left pair

namespace TellsCopies

/-- Nothing was deferred. -/
theorem of_eq (htells : TellsRemovals state marks left)
    (hcopies : left.work.ruleCopies = state.work.ruleCopies) : TellsCopies state marks left :=
  ⟨htells, fun _ _ hpair => .inl (hcopies ▸ hpair)⟩

theorem trans (hfirst : TellsCopies state marks left) (hlast : TellsCopies left more last) :
    TellsCopies state (marks ++ more) last where
  toTellsRemovals := hfirst.toTellsRemovals.trans hlast.toTellsRemovals
  copied hreachable pair hpair := by
    have hmiddle := hfirst.leads.reachable hreachable
    rcases hlast.copied hmiddle pair hpair with hpair | hcopy
    · refine (hfirst.copied hreachable pair hpair).imp_right fun hcopy => ?_
      exact hcopy.append hmiddle hlast.toTellsRemovals
    · exact .inr (hcopy.prepend marks)

/-- Afterwards something was done of which there is nothing to be seen. -/
theorem afterwards (htells : TellsCopies state marks left) (hleads : left.Leads last)
    (hkept : ∀ {node : NodeRef}, left.work.nodes.hasNode node → last.work.nodes.hasNode node)
    (hcopies : last.work.ruleCopies = left.work.ruleCopies) : TellsCopies state marks last := by
  rw [← List.append_nil marks]
  exact htells.trans (.of_eq (.of_kept hleads hkept []) hcopies)

end TellsCopies

/-- The relation is kept where no rules are deferred, whatever else is done. -/
theorem keptByDrains_tellsCopies :
    KeptByDrainsWithMarks (Act.DefersOnly fun _ => False) TellsCopies := by
  have htells := keptByDrains_tellsRemovals (Act.DefersOnly fun _ => False)
  have hcomposes : Composes TellsCopies :=
    ⟨fun state => .of_eq (htells.refl state) rfl, TellsCopies.trans⟩
  exact {
    toComposes := hcomposes
    act := fun {act} hact state => ⟨htells.act hact state,
      fun _ _ hpair => .inl ((act.mem_ruleCopies_effect hact hpair).resolve_right id)⟩
    takeEvents := fun state => .of_eq (htells.takeEvents state) rfl
    noteNew := fun state event =>
      .of_eq (htells.noteNew state event) (state.work.ruleCopies_noteNew event)
    lost := fun state events => .of_eq (htells.lost state events) rfl
    refused := fun state => .of_eq (htells.refused state) rfl
    takePending := fun state => .of_eq (htells.takePending state) rfl
    executing := fun _ hinner => hcomposes.executing
      (fun state rule? => .of_eq (.of_kept (.executing state rule?) id []) rfl) hinner
    undo := fun {state failed} _ hfailed => by
      refine .of_eq (htells.undo hfailed.toTellsRemovals) ?_
      -- What was deferred before the entry is in front of what is cut off.
      show failed.work.ruleCopies.take state.work.ruleCopies.length = state.work.ruleCopies
      exact (List.prefix_iff_eq_take.mp hfailed.leads.retains.ruleCopies).symm
    failEntry := fun state failure => .of_eq (htells.failEntry state failure) rfl
    abort := fun state error => .of_eq (htells.abort state error) rfl }

/-! ## Services -/

namespace RuleService

open Actionable in
/-- The behaviour that copies rules defers them for the copy that it is told of, if it exists. -/
theorem tellsCopies_copyBehaviour {rules : RuleStore} {engine : ObservedEngine}
    (event : NodeEvent) : (observeTelling rules engine event copyBehaviour).Keeps TellsCopies := by
  intro state left answer hruns
  have hreacts : ((copyRulesWithNode event).observe rules engine).routine.Runs state answer left :=
    hruns
  have hdefers : Defers event.Copies state
      (((copyRulesWithNode event).observe rules engine).marks state) left :=
    (Builtin.uses_copyRulesWithNode event).observe_keeps (keptByActs_defers fun _ hdoes => hdoes.2)
      (fun hdoes => hdoes.1.elim) (fun hdoes => hdoes.1.elim) hreacts
  rw [Script.routine_observe] at hreacts
  have htold : TellsRemovals state [.told rules state event copyBehaviour] state :=
    .of_kept (.refl state) id _
  refine ⟨htold.trans hdefers.toTellsRemovals, fun hreachable pair hpair => ?_⟩
  rcases hdefers.deferred pair hpair with hbefore | ⟨copy, rfl, hchild⟩
  · exact .inl hbefore
  · by_cases hcopied : rules.hasRules pair.1 && state.work.nodes.hasNode copy.child
    · obtain ⟨hrules, hexists⟩ := Bool.and_eq_true_iff.mp hcopied
      rw [hchild] at hexists
      exact .inr ⟨[], rules, state, copy, _, rfl, hchild, hrules, hexists, hdefers.leads,
        hdefers.kept hreachable hexists⟩
    · obtain ⟨-, rfl⟩ :=
        (runs_copyRulesWithNode_of_not rules engine.engine hcopied).unique hreacts
      exact .inl hpair

variable {service : RuleService}

theorem CopiesAlone.tellsKeeping (hservice : service.CopiesAlone) :
    service.TellsKeeping (Act.DefersOnly fun _ => False) TellsCopies where
  react behaviour hbehaviour rules engine hflush hdrain event := by
    rcases hservice.react behaviour hbehaviour with rfl | hplain
    · exact tellsCopies_copyBehaviour event
    · intro state left answer hruns
      have hreacts : ((behaviour.react event).observe rules engine).routine.Runs state answer left :=
        hruns
      have htold : TellsCopies state [.told rules state event behaviour] state :=
        .of_eq (.of_kept (.refl state) id _) rfl
      exact htold.trans ((hplain event).observe_keeps
        keptByDrains_tellsCopies.toKeptByActsWithMarks (fun _ => hflush) (fun _ => hdrain) hreacts)
  execute := hservice.execute

/-- A unit of work that was begun on a repository, as in `Course`, where the scripts that were run
on it did only what is allowed. -/
inductive CourseOf (service : RuleService) (allowed : Act → Prop) (repository : Repository)
    (first : IdSupply) : List Mark → IdSupply → UnitOfWork → Prop
  | begin : CourseOf service allowed repository first [] first (.begin repository)
  | act {α : Type} {marks : List Mark} {ids later : IdSupply} {work : UnitOfWork}
      {script : Script α} {rules : RuleStore} {budget : Nat} {answer : Except Error α}
      {left : WorkState} (hcourse : CourseOf service allowed repository first marks ids work)
      (hscript : script.Uses allowed) (hlater : ids ≤ later)
      (hruns : (script.run rules (service.engine rules budget)).Runs { ids := later, work } answer
        left) :
      CourseOf service allowed repository first
        (marks ++ (service.observe rules budget script).marks { ids := later, work })
        left.ids left.work

variable {repository : Repository} {first ids : IdSupply} {work : UnitOfWork}

theorem CourseOf.tellsCopies (hservice : service.CopiesAlone)
    (hcourse : service.CourseOf (Act.DefersOnly fun _ => False) repository first marks ids work) :
    TellsCopies { ids := first, work := .begin repository } marks { ids, work } := by
  induction hcourse with
  | begin => exact keptByDrains_tellsCopies.refl _
  | @act _ marks ids later work script rules budget answer left _ hscript hlater hruns ih =>
      rw [← routine_observe] at hruns
      have hbegun := ih.afterwards (.drawn hlater work [] []) id rfl
      have hacted := hservice.tellsKeeping.observe_keeps keptByDrains_tellsCopies budget hscript hruns
      exact (hbegun.trans hacted).afterwards (.drawn le_rfl left.work _ []) id rfl

end RuleService

/-! ## Commits -/

namespace Session

variable {service : RuleService} {session after : Session} {budget : Nat} {work : UnitOfWork}
  {receipt : CommitReceipt} {repository : Repository} {first ids : IdSupply}

/-- **A commit attaches rules to copies that existed when their rules were deferred.**  Let only the
built-in behaviour defer rules, and let any scripts have been run on a unit of work, and the unit of
work be committed.  A node to which the commit attaches rules is the copy of a node with rules, has
those that this node has at the commit, and existed when the behaviour was told of it.  It exists in
what is committed, or it was removed after the behaviour was told of it, with a tree that it lay
in. -/
theorem live_or_removed_of_commit (hservice : service.CopiesAlone)
    (hreachable : StoreState.Reachable { ids := first, nodes := repository.nodes })
    (hcourse : service.CourseOf (Act.DefersOnly fun _ => False) repository first marks ids work)
    (hlater : ids ≤ session.ids)
    (hcommit : session.commit service budget work = some (.ok receipt, after)) {node : NodeRef}
    (hchanged : after.rules.own node ≠ session.rules.own node) :
    ∃ before rules earlier source copy later,
      marks ++ session.marksOfCommit service budget work =
        before ++ .told rules earlier (.copied source copy) Actionable.copyBehaviour :: later ∧
      copy.child = node ∧ rules.hasRules source ∧
      (∀ id, session.rules.isAttached source id → after.rules.isAttached node id) ∧
      earlier.work.nodes.hasNode node ∧
      (after.repository.nodes.hasNode node ∨ earlier.Removes (recordedIn later) node) := by
  obtain ⟨report, final, hdrain, -, hnodes, hrules⟩ := exists_drain_of_commit hcommit
  have hbegun := (hcourse.tellsCopies hservice).afterwards (.drawn hlater work [] []) id rfl
  have hdrained := (hservice.tellsKeeping.observed_keeps keptByDrains_tellsCopies _ budget).2 hdrain
  have hcopied : after.rules = session.rules.copyAll final.work.ruleCopies := hrules
  rw [hcopied] at hchanged ⊢
  obtain ⟨source, hpair⟩ := RuleStore.exists_copy_of_own_copyAll_ne hchanged
  rcases (hbegun.trans hdrained).copied hreachable _ hpair with hnone | hcopy
  · cases hnone
  · obtain ⟨before, rules, earlier, copy, later, hseen, hchild, hrules, hexists, -, hkept⟩ := hcopy
    refine ⟨before, rules, earlier, source, copy, later, hseen, hchild, hrules,
      fun _ => RuleStore.isAttached_copyAll hpair, hexists, ?_⟩
    rw [hnodes]
    exact hkept

end Session

/-! ### A copy that is removed -/

namespace Builtin

open Triggers Vocabulary

/-- The folder is copied, and its copy is removed after a flush. -/
def copyAndDrop : Script Unit := do
  let copy ← Script.apply (.copyNode (nodeOf "u2") (nodeOf "u1") containsRelation
    { space := "model", localName := "copy" } false)
  Script.flush
  Script.apply (.deleteNode copy)

theorem uses_copyAndDrop : copyAndDrop.Uses (Act.DefersOnly fun _ => False) :=
  (Script.uses_apply trivial).bind fun _ =>
    Script.Uses.bind ⟨trivial, fun outcome => Script.uses_ofExcept outcome⟩ fun _ =>
      Script.uses_apply trivial

/-- The copy is gone, and has a rule. -/
theorem exists_course_of_copyAndDrop :
    ∃ service, Builtin.service {} = .ok service ∧ ∃ marks ids work receipt after,
      service.CourseOf (Act.DefersOnly fun _ => False) shelf.repository shelf.ids marks ids work ∧
      { shelf with ids }.commit service 5 work = some (.ok receipt, after) ∧
      after.rules.own (nodeOf "u3") ≠ shelf.rules.own (nodeOf "u3") ∧
      ¬ after.repository.nodes.hasNode (nodeOf "u3") := by
  obtain ⟨service, hservice, htry⟩ :=
    exists_service_of_any (show ((Builtin.service {}).toOption.any fun service =>
      shelf.tryOut service copyAndDrop 5 fun _ _ after _ =>
        !(after.rules.own (nodeOf "u3")).isEmpty && (shelf.rules.own (nodeOf "u3")).isEmpty &&
          !after.repository.nodes.hasNode (nodeOf "u3")) = true by decide +kernel)
  obtain ⟨_, acted, receipt, after, hacted, hcommit, htest⟩ := Session.exists_runs_of_tryOut htry
  simp only [Bool.and_eq_true, Bool.not_eq_true'] at htest
  obtain ⟨⟨hattached, hnone⟩, hgone⟩ := htest
  refine ⟨service, hservice, _, acted.ids, acted.work, receipt, after,
    .act .begin uses_copyAndDrop le_rfl hacted, hcommit, fun hsame => ?_, ?_⟩
  · rw [hsame, hnone] at hattached
    cases hattached
  · rw [hgone]
    exact Bool.false_ne_true

end Builtin

open Builtin Triggers in
/-- The behaviour was told of the copy while it existed, and its removal was recorded since. -/
theorem Session.live_or_removed_of_commit_copyAndDrop :
    ∃ service, Builtin.service {} = .ok service ∧ ∃ marks ids work receipt after,
      service.CourseOf (Act.DefersOnly fun _ => False) shelf.repository shelf.ids marks ids work ∧
      { shelf with ids }.commit service 5 work = some (.ok receipt, after) ∧
      after.rules.own (nodeOf "u3") ≠ shelf.rules.own (nodeOf "u3") ∧
      ∃ before rules earlier source copy later,
        marks ++ { shelf with ids }.marksOfCommit service 5 work =
          before ++ .told rules earlier (.copied source copy) Actionable.copyBehaviour :: later ∧
        copy.child = nodeOf "u3" ∧ rules.hasRules source ∧
        (∀ id, shelf.rules.isAttached source id → after.rules.isAttached (nodeOf "u3") id) ∧
        earlier.work.nodes.hasNode (nodeOf "u3") ∧
        earlier.Removes (recordedIn later) (nodeOf "u3") := by
  obtain ⟨service, hservice, marks, ids, work, receipt, after, hcourse, hcommit, hchanged, hgone⟩ :=
    exists_course_of_copyAndDrop
  obtain ⟨before, rules, earlier, source, copy, later, hseen, hchild, hrules, hattached, hexists,
      hkept⟩ :=
    Session.live_or_removed_of_commit (copiesAlone_of_create hservice) reachable_shelf hcourse
      le_rfl hcommit hchanged
  exact ⟨service, hservice, marks, ids, work, receipt, after, hcourse, hcommit, hchanged, before,
    rules, earlier, source, copy, later, hseen, hchild, hrules, hattached, hexists,
    hkept.resolve_left hgone⟩

open Builtin Triggers in
/-- A commit succeeds and attaches a rule to a node that does not exist in what it commits. -/
theorem Session.not_hasNode_of_commit_copyAndDrop :
    ¬ ∀ (service : RuleService) (repository : Repository) (first ids : IdSupply)
      (marks : List Mark) (work : UnitOfWork) (session after : Session) (budget : Nat)
      (receipt : CommitReceipt) (node : NodeRef), Builtin.service {} = .ok service →
      StoreState.Reachable { ids := first, nodes := repository.nodes } →
      service.CourseOf (Act.DefersOnly fun _ => False) repository first marks ids work →
      ids ≤ session.ids →
      session.commit service budget work = some (.ok receipt, after) →
      after.rules.own node ≠ session.rules.own node → after.repository.nodes.hasNode node := by
  intro hclaim
  obtain ⟨service, hservice, marks, ids, work, receipt, after, hcourse, hcommit, hchanged, hgone⟩ :=
    exists_course_of_copyAndDrop
  exact hgone (hclaim service shelf.repository shelf.ids ids marks work { shelf with ids } after 5
    receipt (nodeOf "u3") hservice reachable_shelf hcourse le_rfl hcommit hchanged)

end ContentRules
