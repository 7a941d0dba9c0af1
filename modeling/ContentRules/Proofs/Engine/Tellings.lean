import ContentRules.Proofs.Engine.Deliveries
import ContentRules.Proofs.Engine.Growth

/-!
# What a committed unit of work has told

A unit of work that is committed has told the behaviours of all that happened in it, unless a script
flushed and the flush failed.  The script is told of the failure and may go on; the unit of work is
not told, and the events that waited behind the one that failed are gone.

**Strategy.**  `Course` is a unit of work with the marks made since it was begun, and it is balanced
along with each script that is run on it.  The last drain leaves no event, and if events had been
lost in a drain, the flag would have kept the unit of work from being committed.
-/

namespace ContentRules

/-! ## What a unit of work retains -/

/-- What stays as it is whatever is done to a unit of work: a flag that is set, the rule copies that
were deferred, and that new nodes have new ids. -/
structure WorkState.Retains (state after : WorkState) : Prop where
  aborted : state.work.aborted → after.work.aborted
  ruleCopies : state.work.ruleCopies <+: after.work.ruleCopies
  grows : state.Grows after

namespace WorkState.Retains

variable {state after : WorkState}

/-- Nothing of this was changed. -/
theorem of_eq (haborted : after.work.aborted = state.work.aborted)
    (hcopies : after.work.ruleCopies = state.work.ruleCopies) (hgrows : state.Grows after) :
    state.Retains after where
  aborted := by
    rw [haborted]
    exact id
  ruleCopies := hcopies ▸ List.prefix_rfl
  grows := hgrows

/-- A unit of work is as it was, but ids were drawn for others and another journal was begun. -/
theorem drawn {ids later : IdSupply} (hlater : ids ≤ later) (work : UnitOfWork)
    (journal others : List JournalLine) :
    Retains { ids, work, journal } { ids := later, work, journal := others } :=
  of_eq rfl rfl ⟨⟨hlater, .inl⟩, fun hreachable => hreachable.drawn hlater⟩

end WorkState.Retains

theorem enduring_retains : Enduring WorkState.Retains where
  refl state := .of_eq rfl rfl (keptByDrains_grows.refl state)
  trans hfirst hlast :=
    ⟨fun haborted => hlast.aborted (hfirst.aborted haborted),
      hfirst.ruleCopies.trans hlast.ruleCopies, keptByDrains_grows.trans hfirst.grows hlast.grows⟩
  step {state after} hstep := by
    have hgrows := keptByDrains_grows.step hstep
    cases hstep with
    | edit | note | takeEvents => exact .of_eq rfl rfl hgrows
    | enqueue entry =>
        obtain ⟨pending, hqueued⟩ := state.work.exists_enqueue_eq entry
        rw [hqueued] at hgrows ⊢
        exact .of_eq rfl rfl hgrows
    | turn switch =>
        obtain ⟨disabledNodes, rulesDisabled, hturned⟩ := state.work.exists_turn_eq switch
        rw [hturned] at hgrows ⊢
        exact .of_eq rfl rfl hgrows
    | deferCopy source copy => exact ⟨id, List.prefix_append _ _, hgrows⟩
    | noteNew event =>
        obtain ⟨newNodes, hnoted⟩ := state.work.exists_noteNew_eq event
        rw [hnoted] at hgrows ⊢
        exact .of_eq rfl rfl hgrows
  takePending state := .of_eq rfl rfl (keptByDrains_grows.takePending state)
  executing rule hinner :=
    ⟨hinner.aborted, hinner.ruleCopies, keptByDrains_grows.executing rule hinner.grows⟩
  restore {state failed} hfailed := by
    refine ⟨hfailed.aborted, ?_, keptByDrains_grows.restore hfailed.grows⟩
    -- What was deferred before the checkpoint is in front of what is cut off.
    show _ <+: failed.work.ruleCopies.take state.work.ruleCopies.length
    exact (List.prefix_iff_eq_take.mp hfailed.ruleCopies) ▸ List.prefix_rfl
  failEntry state failure := .of_eq rfl rfl (keptByDrains_grows.failEntry state failure)
  abort state error := ⟨fun _ => rfl, List.prefix_rfl, keptByDrains_grows.abort state error⟩
  mark state _ := .of_eq rfl rfl (.of_store_eq rfl)
  aborted hrelated := hrelated.aborted

/-! ## Courses -/

open Mark

namespace RuleService

variable {service : RuleService} {repository : Repository} {first ids : IdSupply}
  {marks : List Mark} {work : UnitOfWork}

/-- A unit of work that was begun on a repository, after scripts were run on it, with the marks made
meanwhile.  Rules may be attached, ids drawn and commits made by others between the scripts. -/
inductive Course (service : RuleService) (repository : Repository) (first : IdSupply) :
    List Mark → IdSupply → UnitOfWork → Prop
  | begin : Course service repository first [] first (.begin repository)
  | act {α : Type} {marks : List Mark} {ids later : IdSupply} {work : UnitOfWork}
      {script : Script α} {rules : RuleStore} {budget : Nat} {answer : Except Error α}
      {after : WorkState} (hcourse : Course service repository first marks ids work)
      (hlater : ids ≤ later)
      (hruns : (script.run rules (service.engine rules budget)).Runs { ids := later, work } answer
        after) :
      Course service repository first
        (marks ++ (service.observe rules budget script).marks { ids := later, work })
        after.ids after.work

/-- A unit of work is balanced whatever scripts were run on it. -/
theorem Course.balanced (hservice : service.TellsOnly)
    (hcourse : service.Course repository first marks ids work) :
    Balanced service WorkState.Retains { ids := first, work := .begin repository } marks
      { ids, work } := by
  induction hcourse with
  | begin => exact (keptWithMarks_balanced enduring_retains).refl _
  | @act _ marks ids later work script rules budget answer after _ hlater hruns ih =>
      rw [← routine_observe] at hruns
      have hbegun := ih.afterwards enduring_retains (.drawn hlater work [] []) rfl
      have hacted := balanced_observe enduring_retains hservice budget script hruns
      exact ((keptWithMarks_balanced enduring_retains).trans hbegun hacted).afterwards
        enduring_retains (.drawn le_rfl after.work _ []) rfl

end RuleService

/-! ## Commits -/

namespace Session

variable {service : RuleService} {session after : Session} {budget : Nat} {work : UnitOfWork}
  {receipt : CommitReceipt}

/-- The marks of the drain with which a unit of work is committed. -/
def marksOfCommit (session : Session) (service : RuleService) (budget : Nat) (work : UnitOfWork) :
    List Mark :=
  (service.observed session.rules budget).drain.marks { ids := session.ids, work }

/-- A commit that succeeds began with a drain that succeeded, and no drain had failed before. -/
theorem exists_drain_of_commit
    (hcommit : session.commit service budget work = some (.ok receipt, after)) :
    ∃ report final,
      (service.observed session.rules budget).drain.routine.Runs { ids := session.ids, work }
        (.ok report) final ∧
      final.work.aborted = false ∧
      after.repository.nodes = { final.work.nodes with events := [] } ∧
      after.rules = final.work.ruleCopies.foldl
        (fun rules (source, copy) => rules.copyRules source copy) session.rules := by
  rw [RuleService.drain_observed]
  cases hdrain : (service.engine session.rules budget).drain.run.run
      { ids := session.ids, work } with
  | none => simp [commit, within, hdrain] at hcommit
  | some result =>
      obtain ⟨answer, final⟩ := result
      rw [commit_eq hdrain] at hcommit
      by_cases hcommittable :
          (session.drained final).Committable service.config final.work answer
      · obtain ⟨report, rfl, hconclude⟩ := conclude_of_committable hcommittable
        rw [hconclude] at hcommit
        cases hcommit
        exact ⟨report, final, hdrain, (refusal?_eq_none_iff.mp hcommittable.2.1).1, rfl, rfl⟩
      · obtain ⟨error, hconclude⟩ := conclude_of_not_committable hcommittable
        rw [hconclude] at hcommit
        cases hcommit

section Course

variable {repository : Repository} {first ids : IdSupply} {marks : List Mark}

/-- All events are accounted for once the last drain has succeeded.  None was lost if no drain has
failed and no flush was refused. -/
theorem account_of_drain (hservice : service.TellsOnly)
    (hcourse : service.Course repository first marks ids work)
    (hlater : ids ≤ session.ids) {report : DrainReport} {final : WorkState}
    (hdrain : (service.observed session.rules budget).drain.routine.Runs
      { ids := session.ids, work } (.ok report) final)
    (hclean : final.work.aborted = false)
    (hrefused : .refused ∉ marks ++ session.marksOfCommit service budget work) :
    Account service WorkState.Retains repository.nodes.events
        { ids := first, work := .begin repository }
        (marks ++ session.marksOfCommit service budget work) [] final ∧
      Lossless (marks ++ session.marksOfCommit service budget work) := by
  have hbegun := (hcourse.balanced hservice).afterwards enduring_retains
    (.drawn hlater work [] []) rfl
  have hbalanced := (keptWithMarks_balanced enduring_retains).trans hbegun
    (balanced_drain enduring_retains hservice budget hdrain)
  have hevents : final.work.nodes.events = [] :=
    events_eq_nil_of_drain enduring_retains hservice hdrain
  constructor
  · rw [← hevents]
    exact hbalanced.account
  · rcases hbalanced.excused with haborted | hmark | hlossless
    · rw [hclean] at haborted
      cases haborted
    · exact absurd hmark hrefused
    · exact hlossless

/-- **A unit of work that is committed has told the behaviours of everything, unless a flush was
refused.**  Let no behaviour flush or drain, and let any scripts have been run on a unit of work,
and the unit of work be committed.  If no flush that a script started has failed, except in what was
undone, each behaviour was told once of each event of its kind that was recorded and not undone, in
the order in which the events were recorded.  Of the events that were undone with an entry,
behaviours were told in their order and at most once. -/
theorem tellings_of_commit (hservice : service.TellsOnly)
    (hcourse : service.Course repository first marks ids work)
    (hlater : ids ≤ session.ids)
    (hcommit : session.commit service budget work = some (.ok receipt, after))
    (hrefused : .refused ∉ marks ++ session.marksOfCommit service budget work) :
    tellingsIn (marks ++ session.marksOfCommit service budget work) =
      (repository.nodes.events ++
        recordedIn (marks ++ session.marksOfCommit service budget work)).flatMap
          service.tellingsOf ∧
    ∀ block, .undone block ∈ marks ++ session.marksOfCommit service budget work →
      SelfContained service block := by
  obtain ⟨report, final, hdrain, hclean, -⟩ := exists_drain_of_commit hcommit
  obtain ⟨haccount, hlossless⟩ :=
    account_of_drain hservice hcourse hlater hdrain hclean hrefused
  exact ⟨haccount.tellings_eq hlossless, fun block hmark => haccount.holds _ hmark⟩

end Course

end Session

/-! ### A behaviour that fails -/

namespace Mark

def isRefused : Mark → Bool
  | refused => true
  | _ => false

/-- What was undone. -/
def undone? : Mark → Option (List Mark)
  | undone block => some block
  | _ => none

theorem undone?_eq_some_iff {mark : Mark} {block : List Mark} :
    mark.undone? = some block ↔ mark = undone block := by
  cases mark <;> simp [undone?]

end Mark

namespace Echo

/-- The service of the two rules, but one behaviour does nothing when a node is created, and another
one fails when an aspect is added. -/
def listening (config : EngineConfig) : RuleService :=
  { service config with
    behaviours :=
      [{ kind := .nodeCreated, react := fun _ => return ()},
        { kind := .aspectAdded, react := fun _ => .fail { cause := .internal "no aspects" } }] }

theorem tellsOnly_listening (config : EngineConfig) : (listening config).TellsOnly := by
  intro behaviour hbehaviour event
  rcases List.mem_cons.mp hbehaviour with rfl | hbehaviour
  · trivial
  · obtain rfl := List.mem_singleton.mp hbehaviour
    trivial

/-- Makes a node and flushes, and then queues a rule that fails. -/
def visit : Script Unit := do
  let { actionable := root, rule, .. } := entry "bad" "spoil"
  add root root
  Script.flush
  discard <| Script.queue root root rule

/-- Adds an aspect, makes a node and flushes, whether or not that fails. -/
def shrug : Script Unit := do
  let { actionable := root, .. } := entry "ping" "add"
  Script.apply (.addAspect root { space := "model", localName := "aspect" } [])
  add root root
  .deliver fun _ => return ()

end Echo

namespace Session

/-- Runs a script on a new unit of work and commits it.  The test is of the session and the unit of
work before the commit, the session after it and all marks. -/
def tryOut (session : Session) (service : RuleService) (script : Script Unit) (budget : Nat)
    (test : Session → UnitOfWork → Session → List Mark → Bool) : Bool :=
  ((script.run session.rules (service.engine session.rules budget)).run.run
      { ids := session.ids, work := session.begin }).any fun (_, acted) =>
    let later := { session with ids := acted.ids }
    (later.commit service budget acted.work).any fun (outcome, after) =>
      outcome.isOk && test later acted.work after
        ((service.observe session.rules budget script).marks
          { ids := session.ids, work := session.begin } ++
            later.marksOfCommit service budget acted.work)

/-- What is seen of a script and of the commit after it can be computed. -/
theorem exists_runs_of_tryOut {service : RuleService} {session : Session} {script : Script Unit}
    {budget : Nat} {test : Session → UnitOfWork → Session → List Mark → Bool}
    (htry : session.tryOut service script budget test = true) :
    ∃ answer acted receipt after,
      (script.run session.rules (service.engine session.rules budget)).Runs
        { ids := session.ids, work := session.begin } answer acted ∧
      { session with ids := acted.ids }.commit service budget acted.work =
        some (.ok receipt, after) ∧
      test { session with ids := acted.ids } acted.work after
        ((service.observe session.rules budget script).marks
          { ids := session.ids, work := session.begin } ++
            { session with ids := acted.ids }.marksOfCommit service budget acted.work) = true := by
  obtain ⟨answer, acted, hacted, htest⟩ := Routine.exists_runs_of_any htry
  obtain ⟨⟨_ | receipt, after⟩, hcommit, htest⟩ := (Option.any_eq_true _ _).mp htest
  case error => cases htest
  exact ⟨answer, acted, receipt, after, hacted, hcommit, htest⟩

theorem exists_course_of_tryOut {service : RuleService} {session : Session} {script : Script Unit}
    {budget : Nat} {test : Session → UnitOfWork → Session → List Mark → Bool}
    (htry : session.tryOut service script budget test = true) :
    ∃ marks ids work receipt after,
      service.Course session.repository session.ids marks ids work ∧
      { session with ids }.commit service budget work = some (.ok receipt, after) ∧
      test { session with ids } work after
        (marks ++ { session with ids }.marksOfCommit service budget work) = true := by
  obtain ⟨_, acted, receipt, after, hacted, hcommit, htest⟩ := exists_runs_of_tryOut htry
  exact ⟨_, acted.ids, acted.work, receipt, after, .act .begin le_rfl hacted, hcommit,
    htest⟩

/-- A node is made and a flush tells of it; the other node is undone with the entry that failed. -/
theorem tellings_of_commit_listening :
    let service := Echo.listening .lenient
    service.TellsOnly ∧ ∃ marks ids work receipt after,
      service.Course Echo.session.repository Echo.session.ids marks ids work ∧
      { Echo.session with ids }.commit service 5 work = some (.ok receipt, after) ∧
      let seen := marks ++ { Echo.session with ids }.marksOfCommit service 5 work
      .refused ∉ seen ∧ (tellingsIn seen).length = 1 ∧
        tellingsIn seen = (recordedIn seen).flatMap service.tellingsOf ∧
        ∃ block, .undone block ∈ seen ∧ (tellingsIn block).length = 1 ∧
          SelfContained service block := by
  intro service
  have hservice : service.TellsOnly := Echo.tellsOnly_listening .lenient
  obtain ⟨marks, ids, work, receipt, after, hcourse, hcommit, htest⟩ :=
    exists_course_of_tryOut (show Echo.session.tryOut service Echo.visit 5 (fun _ _ _ seen =>
      seen.all (!·.isRefused) && (tellingsIn seen).length = 1 &&
        seen.any fun mark => mark.undone?.any fun block => (tellingsIn block).length = 1) = true by
          decide +kernel)
  obtain ⟨htest, hany⟩ := Bool.and_eq_true_iff.mp htest
  obtain ⟨hall, hlength⟩ := Bool.and_eq_true_iff.mp htest
  have hrefused : .refused ∉ marks ++ { Echo.session with ids }.marksOfCommit service 5 work := by
    intro hmark
    cases List.all_eq_true.mp hall _ hmark
  obtain ⟨htold, hundone⟩ :=
    tellings_of_commit hservice hcourse le_rfl hcommit hrefused
  obtain ⟨mark, hmark, hblock⟩ := List.any_eq_true.mp hany
  obtain ⟨block, hblock, hone⟩ := (Option.any_eq_true _ _).mp hblock
  rw [undone?_eq_some_iff.mp hblock] at hmark
  exact ⟨hservice, marks, ids, work, receipt, after, hcourse, hcommit, hrefused,
    of_decide_eq_true hlength, htold, block, hmark, of_decide_eq_true hone, hundone block hmark⟩

/-- A unit of work is committed although behaviours were not told of a node that was made in it: a
script flushed, and the flush failed at the event before. -/
theorem commit_ok_of_untold :
    let service := Echo.listening {}
    service.TellsOnly ∧ ∃ marks ids work receipt after event behaviour,
      service.Course Echo.session.repository Echo.session.ids marks ids work ∧
      { Echo.session with ids }.commit service 5 work = some (.ok receipt, after) ∧
      let seen := marks ++ { Echo.session with ids }.marksOfCommit service 5 work
      event ∈ recordedIn seen ∧ behaviour ∈ service.boundTo event.kind ∧
        (event, behaviour) ∉ tellingsIn seen := by
  intro service
  have hservice : service.TellsOnly := Echo.tellsOnly_listening {}
  obtain ⟨marks, ids, work, receipt, after, hcourse, hcommit, htest⟩ :=
    exists_course_of_tryOut (show Echo.session.tryOut service Echo.shrug 5 (fun _ _ _ seen =>
      (recordedIn seen).any (fun event => event.kind = .nodeCreated) &&
        (tellingsIn seen).all fun (event, _) => event.kind ≠ .nodeCreated) = true by decide +kernel)
  obtain ⟨hany, hall⟩ := Bool.and_eq_true_iff.mp htest
  obtain ⟨event, hevent, hkind⟩ := List.any_eq_true.mp hany
  have hcreated : event.kind = .nodeCreated := of_decide_eq_true hkind
  refine ⟨hservice, marks, ids, work, receipt, after, event,
    { kind := .nodeCreated, react := fun _ => return () }, hcourse, hcommit, hevent, ?_, ?_⟩
  · rw [hcreated]
    exact List.mem_cons_self ..
  · intro htold
    exact of_decide_eq_true (List.all_eq_true.mp hall _ htold) hcreated

end Session

end ContentRules
