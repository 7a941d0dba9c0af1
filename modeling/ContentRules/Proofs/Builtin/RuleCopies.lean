import ContentRules.Proofs.Builtin.Handlers
import ContentRules.Proofs.Engine.Tellings
import ContentRules.Proofs.Rule.Copies

/-!
# Rules of copied nodes

When a unit of work is committed, a node that was copied in it has the rules of the node that it was
copied from, if these were attached when the behaviour that copies rules was told of the copy.  The
behaviour looks for them in the rule store, which knows nothing of the rules that are to be copied
at the commit: a copy of a copy gets none.

**Strategy.**  Since nothing is lost (`Session.account_of_drain`), the behaviour was told of the
copy.  Had the copy been gone by then, it would have been gone for good, since its id was drawn
before.  So the rules were deferred to the commit, and a pair of nodes that is deferred is never
forgotten.
-/

namespace ContentRules

open Mark

/-! ## The built-in behaviours -/

namespace Builtin

/-- The built-in behaviours neither flush nor drain, and one of them copies rules with a node. -/
theorem tellsOnly_service {config : EngineConfig} {service : RuleService}
    (hservice : Builtin.service config = .ok service) :
    service.TellsOnly ∧ Actionable.copyBehaviour ∈ service.behaviours := by
  obtain ⟨other, hother, hbehaviours⟩ := Triggers.exists_service config
  obtain rfl := Except.ok.inj (hother.symm.trans hservice)
  rw [hbehaviours]
  refine ⟨?_, List.mem_cons_self ..⟩
  intro behaviour hbehaviour event
  exact ((uses_of_create hservice).react behaviour hbehaviour event).callsOnlyIf id id

end Builtin

/-! ## Copies -/

namespace Session

/-- The nodes and their copies whose rules are copied when a unit of work is committed. -/
def copiesAtCommit (session : Session) (service : RuleService) (budget : Nat) (work : UnitOfWork) :
    List (NodeRef × NodeRef) :=
  match (service.engine session.rules budget).drain.run.run { ids := session.ids, work } with
  | some (_, final) => final.work.ruleCopies
  | none => []

open Actionable in
/-- A copy that exists at the end existed when behaviours were told of it, so what was attached to
the node that it was copied from is deferred to the commit. -/
theorem mem_ruleCopies_of_account {service : RuleService} {waiting : List NodeEvent}
    {state final : WorkState} {marks : List Mark} {rules : RuleStore} {earlier : WorkState}
    {source : NodeRef} {copy : ChildAssociation}
    (hreachable : state.store.Reachable) (hwaiting : ∀ event ∈ waiting, state.store.DrewPlace event)
    (haccount : Account service WorkState.Retains waiting state marks [] final)
    (htold : .told rules earlier (.copied source copy) copyBehaviour ∈ marks)
    (hrules : rules.hasRules source) (hexists : final.work.nodes.hasNode copy.child) :
    (source, copy.child) ∈ final.work.ruleCopies := by
  obtain ⟨⟨hearlier, hknown⟩, engine, answer, later, hruns, hlater⟩ := haccount.holds _ htold
  have hearlierReachable := hearlier.grows.reachable hreachable
  by_cases hcopy : earlier.work.nodes.hasNode copy.child
  · obtain ⟨told, htold, -, hmem⟩ :=
      runs_copyRulesWithNode_of_rules rules engine hearlierReachable hrules hcopy
    obtain ⟨-, rfl⟩ := htold.unique hruns
    exact hlater.ruleCopies.subset hmem
  · have hnot : ¬ (rules.hasRules source && earlier.work.nodes.hasNode copy.child) :=
      fun hcopied => hcopy (Bool.and_eq_true_iff.mp hcopied).2
    obtain ⟨-, rfl⟩ := (runs_copyRulesWithNode_of_not rules engine hnot).unique hruns
    have hdrawn : earlier.ids.HasDrawn copy.child.id := by
      rcases hknown with hmem | ⟨former, hformer, hmem, hbefore⟩
      · exact ((hwaiting _ hmem copy rfl).2).mono hearlier.grows.later.ids_le
      · have hrecorded := (hformer.grows.reachable hreachable).drewPlace _ hmem
        exact (hrecorded copy rfl).2.mono hbefore.grows.later.ids_le
    -- A node whose id had been drawn does not come into being later.
    rcases hlater.grows.later.hasNode hexists with hnode | ⟨-, hnew⟩
    · exact absurd hnode hcopy
    · exact absurd hdrawn hnew

variable {service : RuleService} {session after : Session} {budget : Nat} {work : UnitOfWork}
  {receipt : CommitReceipt} {repository : Repository} {first ids : IdSupply} {marks : List Mark}

/-- **A copy has the rules of its original when the unit of work is committed.**  Let a node be
copied in a unit of work that is committed, and no flush be refused.  If the node had rules of its
own whenever behaviours were told of the copy, and the copy still exists, then the rules that the
node has at the commit are attached to the copy.  If the copy has no others, nothing else is copied
to either of them, and ids are attached once, the copy has exactly these rules, in their order. -/
theorem rules_copied_of_commit (hservice : service.TellsOnly)
    (hbehaviour : Actionable.copyBehaviour ∈ service.behaviours)
    (hreachable : StoreState.Reachable { ids := first, nodes := repository.nodes })
    (hcourse : service.Course repository first marks ids work)
    (hlater : ids ≤ session.ids)
    (hcommit : session.commit service budget work = some (.ok receipt, after))
    (hrefused : .refused ∉ marks ++ session.marksOfCommit service budget work)
    {source : NodeRef} {copy : ChildAssociation}
    (hcopied : .copied source copy ∈
      recordedIn (marks ++ session.marksOfCommit service budget work))
    (hrules : ∀ {rules : RuleStore} {state : WorkState} {behaviour : Behaviour},
      .told rules state (.copied source copy) behaviour ∈
        marks ++ session.marksOfCommit service budget work → rules.hasRules source)
    (hexists : after.repository.nodes.hasNode copy.child) :
    (∀ id, session.rules.isAttached source id → after.rules.isAttached copy.child id) ∧
    (session.rules.own copy.child = [] → ((session.rules.own source).map Rule.id).Nodup →
      (∀ pair ∈ session.copiesAtCommit service budget work,
        pair.2 ≠ source ∧ (pair.2 = copy.child → pair.1 = source)) →
      after.rules.own copy.child = session.rules.own source) := by
  obtain ⟨report, final, hdrain, hclean, hnodes, hafter⟩ := exists_drain_of_commit hcommit
  obtain ⟨haccount, hlossless⟩ :=
    account_of_drain hservice hcourse hlater hdrain hclean hrefused
  -- The behaviour was told of the copy.
  have htelling : (NodeEvent.copied source copy, Actionable.copyBehaviour) ∈
      tellingsIn (marks ++ session.marksOfCommit service budget work) := by
    rw [haccount.tellings_eq hlossless]
    refine List.mem_flatMap.mpr ⟨_, List.mem_append_right _ hcopied, ?_⟩
    exact List.mem_map_of_mem (List.mem_filter.mpr ⟨hbehaviour, decide_eq_true rfl⟩)
  obtain ⟨rules, earlier, htold⟩ := mem_tellingsIn.mp htelling
  rw [hnodes] at hexists
  have hbegun : StoreState.Reachable
      (WorkState.store { ids := first, work := .begin repository }) := hreachable
  have hmem : (source, copy.child) ∈ final.work.ruleCopies :=
    mem_ruleCopies_of_account hbegun hbegun.drewPlace haccount htold (hrules htold) hexists
  have hcopies : session.copiesAtCommit service budget work = final.work.ruleCopies := by
    rw [RuleService.drain_observed] at hdrain
    unfold copiesAtCommit
    rw [show (service.engine session.rules budget).drain.run.run { ids := session.ids, work } =
      some (.ok report, final) from hdrain]
  rw [hcopies, show after.rules = session.rules.copyAll final.work.ruleCopies from hafter]
  exact ⟨fun _ => RuleStore.isAttached_copyAll hmem, fun hnew hnodup honly =>
    RuleStore.own_copyAll hnodup honly (.inr ⟨hnew, hmem⟩)⟩

end Session

/-! ### A copy of a copy -/

/-- The node that was copied, and the place of its copy. -/
def NodeEvent.copied? : NodeEvent → Option (NodeRef × ChildAssociation)
  | copied source copy => some (source, copy)
  | _ => none

theorem NodeEvent.copied?_eq_some_iff {event : NodeEvent} {pair : NodeRef × ChildAssociation} :
    event.copied? = some pair ↔ event = copied pair.1 pair.2 := by
  cases event <;> simp [copied?, Prod.ext_iff]

/-- The rules that were attached when a behaviour was told of an event. -/
def Mark.toldRules? : Mark → Option (RuleStore × NodeEvent)
  | told rules _ event _ => some (rules, event)
  | _ => none

theorem Mark.exists_copied_of_any {marks : List Mark} {test : NodeRef × ChildAssociation → Bool}
    (hany : ((recordedIn marks).any fun event => event.copied?.any test) = true) :
    ∃ source copy, .copied source copy ∈ recordedIn marks ∧ test (source, copy) = true := by
  obtain ⟨event, hevent, hany⟩ := List.any_eq_true.mp hany
  obtain ⟨⟨source, copy⟩, hpair, htest⟩ := (Option.any_eq_true _ _).mp hany
  rw [NodeEvent.copied?_eq_some_iff.mp hpair] at hevent
  exact ⟨source, copy, hevent, htest⟩

namespace Builtin

open Triggers Vocabulary

/-- A folder with a rule is committed. -/
def shelf : Session :=
  let name : QualifiedName := { space := "model", localName := "shelf" }
  let edits : List Edit :=
    [.createStore "workspace" "main", .createNode (nodeOf "u1") containsRelation name folderType []]
  let store := edits.foldl (fun state edit => (edit.run state).2) { ids := {}, nodes := .empty }
  { repository := { nodes := store.nodes.takeEvents.2, version := 1 }
    ids := store.ids
    rules := ({} : RuleStore).put (nodeOf "u2") { id := "r", ruleType := "inbound" } }

theorem reachable_shelf :
    StoreState.Reachable { ids := shelf.ids, nodes := shelf.repository.nodes } :=
  ((StoreState.Reachable.empty _).edits _).takeEvents

/-- The folder is copied, and then its copy is. -/
def copyTwice : Script Unit := do
  let name (localName : String) : QualifiedName := { space := "model", localName }
  let first ← Script.apply
    (.copyNode (nodeOf "u2") (nodeOf "u1") containsRelation (name "first") false)
  discard <| Script.apply (.copyNode first (nodeOf "u1") containsRelation (name "second") false)

/-- Runs the script with the built-in service, commits and tests what is seen. -/
theorem exists_course_of_copyTwice
    {test : RuleService → Session → UnitOfWork → Session → List Mark → Bool}
    (hany : ((Builtin.service {}).toOption.any fun service =>
      shelf.tryOut service copyTwice 5 (test service)) = true) :
    ∃ service, Builtin.service {} = .ok service ∧ ∃ marks ids work receipt after,
      service.Course shelf.repository shelf.ids marks ids work ∧
      { shelf with ids }.commit service 5 work = some (.ok receipt, after) ∧
      test service { shelf with ids } work after
        (marks ++ { shelf with ids }.marksOfCommit service 5 work) = true := by
  obtain ⟨service, hservice, htry⟩ := exists_service_of_any hany
  exact ⟨service, hservice, Session.exists_course_of_tryOut htry⟩

end Builtin

open Builtin Triggers in
/-- The copy of the folder has its rule. -/
theorem Session.rules_copied_of_commit_shelf :
    ∃ service, Builtin.service {} = .ok service ∧ ∃ marks ids work receipt after copy,
      service.Course shelf.repository shelf.ids marks ids work ∧
      { shelf with ids }.commit service 5 work = some (.ok receipt, after) ∧
      .copied (nodeOf "u2") copy ∈
        recordedIn (marks ++ { shelf with ids }.marksOfCommit service 5 work) ∧
      after.repository.nodes.hasNode copy.child ∧
      after.rules.isAttached copy.child "r" ∧
      after.rules.own copy.child = shelf.rules.own (nodeOf "u2") := by
  obtain ⟨service, hservice, marks, ids, work, receipt, after, hcourse, hcommit, htest⟩ :=
    exists_course_of_copyTwice (show ((Builtin.service {}).toOption.any fun service =>
      shelf.tryOut service copyTwice 5 fun before work after seen =>
        seen.all (!·.isRefused) &&
        seen.all (fun mark => mark.toldRules?.all fun (rules, event) => event.copied?.all
          fun (source, _) => source ≠ nodeOf "u2" || rules.hasRules source) &&
        (recordedIn seen).any fun event => event.copied?.any fun (source, copy) =>
          source = nodeOf "u2" && after.repository.nodes.hasNode copy.child &&
          (shelf.rules.own copy.child).isEmpty &&
          (before.copiesAtCommit service 5 work).all fun pair =>
            pair.2 ≠ nodeOf "u2" && (pair.2 ≠ copy.child || pair.1 = nodeOf "u2")) = true by
        decide +kernel)
  obtain ⟨htest, hcopied⟩ := Bool.and_eq_true_iff.mp htest
  obtain ⟨hflushes, htold⟩ := Bool.and_eq_true_iff.mp htest
  obtain ⟨source, copy, hcopied, htest⟩ := exists_copied_of_any hcopied
  obtain ⟨htest, hpairs⟩ := Bool.and_eq_true_iff.mp htest
  obtain ⟨htest, hnew⟩ := Bool.and_eq_true_iff.mp htest
  obtain ⟨hsource, hexists⟩ := Bool.and_eq_true_iff.mp htest
  obtain rfl := of_decide_eq_true hsource
  obtain ⟨htells, hbehaviour⟩ := tellsOnly_service hservice
  have hrefused : .refused ∉ marks ++ { shelf with ids }.marksOfCommit service 5 work := by
    intro hmark
    cases List.all_eq_true.mp hflushes _ hmark
  have hrules : ∀ {rules : RuleStore} {state : WorkState} {behaviour : Behaviour},
      .told rules state (.copied (nodeOf "u2") copy) behaviour ∈
        marks ++ { shelf with ids }.marksOfCommit service 5 work →
      rules.hasRules (nodeOf "u2") := by
    intro rules state behaviour hmark
    simpa [Mark.toldRules?, NodeEvent.copied?] using List.all_eq_true.mp htold _ hmark
  obtain ⟨hattached, hown⟩ := Session.rules_copied_of_commit htells hbehaviour reachable_shelf
    hcourse le_rfl hcommit hrefused hcopied hrules hexists
  have hrule : shelf.rules.isAttached (nodeOf "u2") "r" := by decide +kernel
  have hnodup : ((shelf.rules.own (nodeOf "u2")).map Rule.id).Nodup := by decide +kernel
  refine ⟨service, hservice, marks, ids, work, receipt, after, copy, hcourse, hcommit, hcopied,
    hexists, hattached "r" hrule, hown (List.isEmpty_iff.mp hnew) hnodup ?_⟩
  intro pair hpair
  have htest := List.all_eq_true.mp hpairs pair hpair
  simp only [Bool.and_eq_true, Bool.or_eq_true, decide_eq_true_eq] at htest
  exact ⟨htest.1, fun hcopy => htest.2.resolve_left fun hne => hne hcopy⟩

open Builtin Triggers in
/-- The copy of the copy exists in what is committed and has no rule, though the copy has. -/
theorem Session.commit_ok_of_copied_copy :
    ∃ service, Builtin.service {} = .ok service ∧ ∃ marks ids work receipt after first second,
      service.Course shelf.repository shelf.ids marks ids work ∧
      { shelf with ids }.commit service 5 work = some (.ok receipt, after) ∧
      let seen := marks ++ { shelf with ids }.marksOfCommit service 5 work
      .copied (nodeOf "u2") first ∈ recordedIn seen ∧ .copied first.child second ∈ recordedIn seen ∧
        shelf.rules.hasRules (nodeOf "u2") ∧ after.rules.hasRules first.child ∧
        after.repository.nodes.hasNode second.child ∧ ¬ after.rules.hasRules second.child := by
  obtain ⟨service, hservice, marks, ids, work, receipt, after, hcourse, hcommit, htest⟩ :=
    exists_course_of_copyTwice (show ((Builtin.service {}).toOption.any fun service =>
      shelf.tryOut service copyTwice 5 fun _ _ after seen =>
        (recordedIn seen).any fun event => event.copied?.any fun (source, first) =>
          (source = nodeOf "u2" && after.rules.hasRules first.child) &&
          (recordedIn seen).any fun event => event.copied?.any fun (source, second) =>
            (source = first.child && after.repository.nodes.hasNode second.child) &&
            !after.rules.hasRules second.child) = true by decide +kernel)
  obtain ⟨source, first, hfirst, hcopied⟩ := exists_copied_of_any htest
  obtain ⟨hcopied, hcopiedAgain⟩ := Bool.and_eq_true_iff.mp hcopied
  obtain ⟨hsource, hrules⟩ := Bool.and_eq_true_iff.mp hcopied
  obtain ⟨other, second, hsecond, hlost⟩ := exists_copied_of_any hcopiedAgain
  obtain ⟨hlost, hnone⟩ := Bool.and_eq_true_iff.mp hlost
  obtain ⟨hother, hexists⟩ := Bool.and_eq_true_iff.mp hlost
  rw [of_decide_eq_true hsource] at hfirst
  rw [of_decide_eq_true hother] at hsecond
  exact ⟨service, hservice, marks, ids, work, receipt, after, first, second, hcourse, hcommit,
    hfirst, hsecond, by decide +kernel, hrules, hexists, by simpa using hnone⟩

end ContentRules
