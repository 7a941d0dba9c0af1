import ContentRules.Engine.Session
import ContentRules.Proofs.Engine.Undo

/-!
# When a unit of work is committed

Whether a unit of work may be committed depends on all that happened in it: on every drain, those
that handlers started among them, and on every entry.  A unit of work remembers this in a flag and a
counter; the journal has a line for each failure of a drain or of an entry.

**Strategy.**  `Accounts` says that the flag and the counter agree with the lines.  Each step of the
engine keeps it, and since neither what an entry undoes nor what follows a failed drain touches the
flag, the counter or the journal, no failure is forgotten.  `History` is a unit of work with the
lines written since it was begun, after any scripts run on it.
-/

namespace ContentRules

namespace JournalLine

/-- The line is on an entry that failed. -/
def isEntryFailed : JournalLine → Bool
  | entryFailed _ => true
  | _ => false

/-- The line is on a drain that failed. -/
def isDrainFailed : JournalLine → Bool
  | drainFailed _ => true
  | _ => false

end JournalLine

/-- The flag and the counter of a unit of work are what the lines say has happened since. -/
structure Accounts (lines : List JournalLine) (before after : UnitOfWork) : Prop where
  aborted : after.aborted = (before.aborted || lines.any JournalLine.isDrainFailed)
  failedEntries :
    after.failedEntries = before.failedEntries + lines.countP JournalLine.isEntryFailed
  baseVersion : after.baseVersion = before.baseVersion

namespace Accounts

variable {before after later : UnitOfWork} {lines more : List JournalLine}

theorem append (hafter : Accounts lines before after) (hlater : Accounts more after later) :
    Accounts (lines ++ more) before later where
  aborted := by rw [hlater.aborted, hafter.aborted, List.any_append, Bool.or_assoc]
  failedEntries := by
    rw [hlater.failedEntries, hafter.failedEntries, List.countP_append, Nat.add_assoc]
  baseVersion := hlater.baseVersion.trans hafter.baseVersion

/-- No lines account for a change of other things. -/
theorem nil (haborted : after.aborted = before.aborted)
    (hfailed : after.failedEntries = before.failedEntries)
    (hbase : after.baseVersion = before.baseVersion) : Accounts [] before after where
  aborted := by simp [haborted]
  failedEntries := by simp [hfailed]
  baseVersion := hbase

end Accounts

/-- What was written into the journal accounts for the change of the unit of work. -/
def WorkState.Accounted (state after : WorkState) : Prop :=
  ∃ lines, after.journal = state.journal ++ lines ∧ Accounts lines state.work after.work

/-- A step that writes nothing and leaves the account alone is accounted for. -/
theorem WorkState.Accounted.silent {state after : WorkState}
    (hjournal : after.journal = state.journal) (hwork : Accounts [] state.work after.work) :
    state.Accounted after :=
  ⟨[], by rw [hjournal, List.append_nil], hwork⟩

theorem keptByDrains_accounted : KeptByDrains WorkState.Accounted where
  refl state := .silent rfl (.nil rfl rfl rfl)
  trans := by
    intro first second third hfirst hlast
    obtain ⟨lines, hlines, hsecond⟩ := hfirst
    obtain ⟨more, hmore, hthird⟩ := hlast
    exact ⟨lines ++ more, by rw [hmore, hlines, List.append_assoc], hsecond.append hthird⟩
  step {state after} hstep := by
    cases hstep with
    | edit | deferCopy | takeEvents => exact .silent rfl (.nil rfl rfl rfl)
    | enqueue entry =>
        obtain ⟨pending, hqueued⟩ := state.work.exists_enqueue_eq entry
        rw [hqueued]
        exact .silent rfl (.nil rfl rfl rfl)
    | turn switch =>
        obtain ⟨disabledNodes, rulesDisabled, hturned⟩ := state.work.exists_turn_eq switch
        rw [hturned]
        exact .silent rfl (.nil rfl rfl rfl)
    | note line => exact ⟨[.written line], rfl, ⟨by simp [JournalLine.isDrainFailed], rfl, rfl⟩⟩
    | noteNew event =>
        obtain ⟨newNodes, hnoted⟩ := state.work.exists_noteNew_eq event
        rw [hnoted]
        exact .silent rfl (.nil rfl rfl rfl)
  takePending state := .silent rfl (.nil rfl rfl rfl)
  executing := by
    intro state after rule haccounted
    obtain ⟨lines, hlines, hafter⟩ := haccounted
    exact ⟨lines, hlines, ⟨hafter.aborted, hafter.failedEntries, hafter.baseVersion⟩⟩
  restore := by
    -- Neither the flag nor the counter is part of a checkpoint, nor is the journal.
    intro state failed haccounted
    obtain ⟨lines, hlines, hfailed⟩ := haccounted
    exact ⟨lines, hlines, ⟨hfailed.aborted, hfailed.failedEntries, hfailed.baseVersion⟩⟩
  failEntry state failure :=
    ⟨[.entryFailed failure], rfl,
      ⟨by simp [WorkState.failEntry, JournalLine.isDrainFailed], rfl, rfl⟩⟩
  abort state error :=
    ⟨[.drainFailed error], rfl, ⟨by simp [WorkState.abort, JournalLine.isDrainFailed], rfl, rfl⟩⟩

/-! ## Histories -/

namespace RuleService

open Routine

variable {service : RuleService} {lines : List JournalLine} {work : UnitOfWork}

/-- A unit of work after scripts were run on it, each of which may edit nodes, queue entries,
deliver events and drain, and the lines written meanwhile.  Rules may be attached, ids drawn and
commits made by others between the scripts. -/
inductive History (service : RuleService) : List JournalLine → UnitOfWork → Prop
  | begin (repository : Repository) : History service [] (.begin repository)
  | act {α : Type} {lines : List JournalLine} {work : UnitOfWork} {script : Script α}
      {rules : RuleStore} {budget : Nat} {ids : IdSupply} {answer : Except Error α}
      {after : WorkState} (hhistory : History service lines work)
      (hruns : (script.run rules (service.engine rules budget)).Runs { ids, work } answer after) :
      History service (lines ++ after.journal) after.work

/-- The flag and the counter of a unit of work are what the lines of its history say. -/
theorem History.accounts (hhistory : service.History lines work) :
    ∃ repository, Accounts lines (.begin repository) work := by
  induction hhistory with
  | begin repository => exact ⟨repository, .nil rfl rfl rfl⟩
  | act _ hruns ih =>
      obtain ⟨repository, hwork⟩ := ih
      obtain ⟨more, hmore, hafter⟩ := script_keeps keptByDrains_accounted _ _ hruns
      rw [List.nil_append] at hmore
      rw [hmore]
      exact ⟨repository, hwork.append hafter⟩

/-- A drain that fails has noted so. -/
theorem drainFailed_mem_journal {rules : RuleStore} {budget : Nat} {state after : WorkState}
    {error : Error} (hruns : (service.engine rules budget).drain.Runs state (.error error) after) :
    .drainFailed error ∈ after.journal := by
  cases budget with
  | zero => exact absurd hruns runs_exhausted
  | succ budget =>
      rcases runs_abortingOnError.mp hruns with ⟨_, -, ⟨⟩⟩ | ⟨_, failed, -, ⟨⟩, rfl⟩
      exact List.mem_append_right _ (List.mem_singleton_self _)

/-- The unit of work after its last drain, in terms of all lines of its history. -/
theorem History.after_drain (hhistory : service.History lines work) {rules : RuleStore}
    {budget : Nat} {ids : IdSupply} {answer : Except Error DrainReport} {final : WorkState}
    (hdrain : (service.engine rules budget).drain.Runs { ids, work } answer final) :
    final.work.aborted = (lines ++ final.journal).any JournalLine.isDrainFailed ∧
      final.work.failedEntries = (lines ++ final.journal).countP JournalLine.isEntryFailed ∧
      final.work.baseVersion = work.baseVersion := by
  obtain ⟨repository, hwork⟩ := hhistory.accounts
  obtain ⟨more, hmore, hfinal⟩ := (drain_keeps keptByDrains_accounted budget).2 hdrain
  rw [List.nil_append] at hmore
  have hall := hwork.append hfinal
  rw [hmore]
  refine ⟨?_, ?_, hfinal.baseVersion⟩
  · rw [hall.aborted]
    exact Bool.false_or _
  · rw [hall.failedEntries]
    exact Nat.zero_add _

end RuleService

/-! ## Commits -/

namespace JournalLine

variable {lines : List JournalLine}

theorem any_isDrainFailed_iff :
    lines.any isDrainFailed = true ↔ ∃ error, drainFailed error ∈ lines := by
  rw [List.any_eq_true]
  constructor
  · intro hany
    obtain ⟨line, hmem, hline⟩ := hany
    cases line with
    | drainFailed error => exact ⟨error, hmem⟩
    | written | entryFailed => cases hline
  · intro hexists
    obtain ⟨error, hmem⟩ := hexists
    exact ⟨_, hmem, rfl⟩

theorem countP_isEntryFailed_pos_iff :
    0 < lines.countP isEntryFailed ↔ ∃ failure, entryFailed failure ∈ lines := by
  rw [List.countP_pos_iff]
  constructor
  · intro hany
    obtain ⟨line, hmem, hline⟩ := hany
    cases line with
    | entryFailed failure => exact ⟨failure, hmem⟩
    | written | drainFailed => cases hline
  · intro hexists
    obtain ⟨failure, hmem⟩ := hexists
    exact ⟨_, hmem, rfl⟩

end JournalLine

namespace Session

open Routine

variable {service : RuleService} {session : Session} {budget : Nat} {work : UnitOfWork}

/-- The session after the drain of a commit, which changes the supply of ids and the journal. -/
def drained (session : Session) (final : WorkState) : Session :=
  { session with
    ids := final.ids
    journal := session.journal ++ final.journal.filterMap JournalLine.written? }

theorem commit_eq {answer : Except Error DrainReport} {final : WorkState}
    (hdrain : (service.engine session.rules budget).drain.Runs { ids := session.ids, work }
      answer final) :
    session.commit service budget work =
      some ((session.drained final).conclude service.config final.work answer) := by
  unfold commit within
  rw [show (service.engine session.rules budget).drain.run.run { ids := session.ids, work } =
    some (answer, final) from hdrain]
  rfl

theorem refusal?_eq_none_iff {config : EngineConfig} :
    refusal? config work = none ↔
      work.aborted = false ∧ (work.failedEntries = 0 ∨ config.commitOnRuleFailure) := by
  unfold refusal?
  cases work.aborted with
  | true => simp
  | false =>
      cases config.commitOnRuleFailure with
      | true => simp
      | false => simp [Nat.pos_iff_ne_zero]

/-! ### How a unit of work is concluded

Its drain has failed, it is refused, the repository has changed, or it is installed. -/

/-- The last drain succeeded, it is not refused, and nobody committed in between. -/
def Committable (session : Session) (config : EngineConfig) (work : UnitOfWork)
    (answer : Except Error DrainReport) : Prop :=
  (∃ report, answer = .ok report) ∧ refusal? config work = none ∧
    session.repository.version = work.baseVersion

variable {config : EngineConfig} {answer : Except Error DrainReport}

/-- What cannot be committed leaves the session as it was. -/
theorem conclude_of_not_committable (hrefused : ¬ session.Committable config work answer) :
    ∃ error, session.conclude config work answer = (.error error, session) := by
  cases answer with
  | error error => exact ⟨error, rfl⟩
  | ok report =>
      cases hrefusal : refusal? config work with
      | some cause => exact ⟨{ cause }, by simp only [conclude, hrefusal]⟩
      | none =>
          have hversion : session.repository.version ≠ work.baseVersion :=
            fun hcurrent => hrefused ⟨⟨report, rfl⟩, hrefusal, hcurrent⟩
          simp only [conclude, hrefusal, install, Repository.commit, if_neg hversion]
          exact ⟨_, rfl⟩

theorem conclude_of_committable (hcommittable : session.Committable config work answer) :
    ∃ report, answer = .ok report ∧ session.conclude config work answer =
      (.ok { version := work.baseVersion + 1, report },
        { session with
          repository :=
            { nodes := { work.nodes with events := [] }, version := work.baseVersion + 1 }
          rules := work.ruleCopies.foldl
            (fun rules (source, copy) => rules.copyRules source copy) session.rules }) := by
  obtain ⟨⟨report, rfl⟩, hrefusal, hversion⟩ := hcommittable
  refine ⟨report, rfl, ?_⟩
  simp only [conclude, hrefusal, install, Repository.commit, hversion]
  rfl

/-- In terms of the history of the unit of work, it can be committed if nothing in it failed. -/
theorem committable_iff {lines : List JournalLine} (hhistory : service.History lines work)
    {final : WorkState}
    (hdrain : (service.engine session.rules budget).drain.Runs { ids := session.ids, work }
      answer final) :
    session.Committable service.config final.work answer ↔
      (¬ ∃ error, .drainFailed error ∈ lines ++ final.journal) ∧
      ((¬ ∃ failure, .entryFailed failure ∈ lines ++ final.journal) ∨
        service.config.commitOnRuleFailure) ∧
      session.repository.version = work.baseVersion := by
  obtain ⟨haborted, hfailed, hbase⟩ := hhistory.after_drain hdrain
  unfold Committable
  rw [refusal?_eq_none_iff, ← JournalLine.any_isDrainFailed_iff,
    ← JournalLine.countP_isEntryFailed_pos_iff, ← haborted, ← hfailed, ← hbase,
    Bool.not_eq_true, Nat.not_lt, Nat.le_zero]
  constructor
  · intro hcommittable
    obtain ⟨-, ⟨hclean, hfailures⟩, hversion⟩ := hcommittable
    exact ⟨hclean, hfailures, hversion⟩
  · intro hclean
    refine ⟨?_, ⟨hclean.1, hclean.2.1⟩, hclean.2.2⟩
    -- The last drain has noted its failure in the flag, too.
    cases answer with
    | ok report => exact ⟨report, rfl⟩
    | error error =>
        have hnoted : (lines ++ final.journal).any JournalLine.isDrainFailed = true :=
          JournalLine.any_isDrainFailed_iff.mpr
            ⟨error, List.mem_append_right _ (RuleService.drainFailed_mem_journal hdrain)⟩
        rw [← haborted, hclean.1] at hnoted
        cases hnoted

/-- **A unit of work is committed if and only if nothing in it has failed.**  Let any scripts have
been run on a unit of work, and let its last drain end.  The commit succeeds just if no drain
failed, the last one included, no entry failed or failures are tolerated, and nobody committed in
between; `lines` are those written in the history of the unit of work.  If it succeeds, the nodes
are installed without their events under the next version, and the rules of copied nodes are copied
in order.  If not, neither the repository nor the rules have changed. -/
theorem commit_ok_iff {lines : List JournalLine} (hhistory : service.History lines work)
    {answer : Except Error DrainReport} {final : WorkState}
    (hdrain : (service.engine session.rules budget).drain.Runs { ids := session.ids, work }
      answer final) :
    ∃ outcome after, session.commit service budget work = some (outcome, after) ∧
      ((∃ receipt, outcome = .ok receipt) ↔
        (¬ ∃ error, .drainFailed error ∈ lines ++ final.journal) ∧
        ((¬ ∃ failure, .entryFailed failure ∈ lines ++ final.journal) ∨
          service.config.commitOnRuleFailure) ∧
        session.repository.version = work.baseVersion) ∧
      (∀ receipt, outcome = .ok receipt →
        receipt.version = work.baseVersion + 1 ∧ answer = .ok receipt.report ∧
        after.repository =
          { nodes := { final.work.nodes with events := [] }, version := work.baseVersion + 1 } ∧
        after.rules = final.work.ruleCopies.foldl
          (fun rules (source, copy) => rules.copyRules source copy) session.rules) ∧
      ∀ error, outcome = .error error →
        after.repository = session.repository ∧ after.rules = session.rules := by
  have hcommit := commit_eq hdrain
  have hbase := (hhistory.after_drain hdrain).2.2
  rw [← committable_iff hhistory hdrain]
  by_cases hcommittable : (session.drained final).Committable service.config final.work answer
  · obtain ⟨report, hanswer, hconclude⟩ := conclude_of_committable hcommittable
    rw [hconclude] at hcommit
    refine ⟨_, _, hcommit, ⟨fun _ => hcommittable, fun _ => ⟨_, rfl⟩⟩, ?_, ?_⟩
    · intro receipt hreceipt
      obtain rfl := Except.ok.inj hreceipt
      rw [hbase]
      exact ⟨rfl, hanswer, rfl, rfl⟩
    · intro error herror
      cases herror
  · obtain ⟨error, hconclude⟩ := conclude_of_not_committable hcommittable
    rw [hconclude] at hcommit
    refine ⟨_, _, hcommit, ⟨?_, fun hable => absurd hable hcommittable⟩, ?_, ?_⟩
    · intro hok
      obtain ⟨_, hok⟩ := hok
      cases hok
    · intro receipt hreceipt
      cases hreceipt
    · intro _ _
      exact ⟨rfl, rfl⟩

end Session

/-! ### A failure in an earlier drain -/

namespace Echo

/-- A session on the store that has a root only. -/
def session : Session where
  repository := { nodes := start.work.nodes }
  ids := start.ids

/-- Queues a rule that fails, and runs it. -/
def failing : Script DrainReport :=
  .enqueue (entry "bad" "spoil") fun _ => Script.drain

end Echo

/-- The last drain has nothing to run and is clean, but the commit is refused. -/
theorem Session.commit_ok_iff_failing :
    let service := Echo.service {}
    ∃ lines work, service.History lines work ∧ (∃ failure, .entryFailed failure ∈ lines) ∧
      ∃ report final error after,
        (service.engine Echo.session.rules 5).drain.Runs { ids := Echo.session.ids, work }
          (.ok report) final ∧
        Echo.session.commit service 5 work = some (.error error, after) ∧
        after.repository = Echo.session.repository ∧ after.rules = Echo.session.rules := by
  intro service
  have hends : (((Echo.failing.run {} (service.engine {} 5)).run.run
      { ids := Echo.session.ids, work := Echo.session.begin }).any fun (_, after) =>
        after.journal.any JournalLine.isEntryFailed &&
          ((service.engine Echo.session.rules 5).drain.run.run
            { ids := Echo.session.ids, work := after.work }).any fun (answer, final) =>
              answer.isOk && final.journal.isEmpty) = true := by
    decide +kernel
  -- The script ends with a failed entry, and the drain on what it leaves is clean.
  obtain ⟨_, acted, hacted, htest⟩ := Routine.exists_runs_of_any hends
  obtain ⟨hfailed, hdrain⟩ := Bool.and_eq_true_iff.mp htest
  obtain ⟨answer, final, hruns, hclean⟩ := Routine.exists_runs_of_any hdrain
  obtain ⟨hok, -⟩ := Bool.and_eq_true_iff.mp hclean
  have hfailure := JournalLine.countP_isEntryFailed_pos_iff.mp
    (List.countP_pos_iff.mpr (List.any_eq_true.mp hfailed))
  obtain ⟨failure, hmem⟩ := hfailure
  have hhistory : service.History ([] ++ acted.journal) acted.work :=
    .act (.begin Echo.session.repository) hacted
  obtain ⟨outcome, after, hcommit, hiff, -, herror⟩ := Session.commit_ok_iff hhistory hruns
  cases answer with
  | error => cases hok
  | ok report =>
      cases outcome with
      | ok receipt =>
          obtain ⟨-, hfailures, -⟩ := hiff.mp ⟨receipt, rfl⟩
          rcases hfailures with hnone | ⟨⟨⟩⟩
          exact absurd ⟨failure, List.mem_append_left _ hmem⟩ hnone
      | error error =>
          exact ⟨_, _, hhistory, ⟨failure, hmem⟩, report, final, error, after, hruns, hcommit,
            herror error rfl⟩

end ContentRules
