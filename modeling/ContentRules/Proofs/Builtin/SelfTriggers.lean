import ContentRules.Proofs.Builtin.Content
import ContentRules.Proofs.Builtin.Failures
import ContentRules.Proofs.Engine.SelfTriggers

/-!
# Rules of one id settle in one round

What the built-in handlers queue are rules that are attached to some node
(`Builtin.queuesOnly_of_create`).  If these all have one id, and whatever waits has it too, then a
drain has nothing left to do after its first round, for no rule is queued while one of its id is
run.
-/

namespace ContentRules

open Routine

/-! ## Attached rules -/

namespace RuleStore

variable {rules : RuleStore} {nodes : NodeStore} {node : NodeRef} {rule : Rule}

/-- The rule is attached to some node. -/
def Has (rules : RuleStore) (rule : Rule) : Prop :=
  ∃ node, rule ∈ rules.own node

/-- A rule in force is attached to the node or to one of its ancestors. -/
theorem has_of_mem_get {includeInherited : Bool}
    (hrule : rule ∈ rules.get nodes node includeInherited) : rules.Has rule := by
  have hlisted := List.mem_of_find?_eq_some (mem_firstById_iff.mp hrule)
  rcases List.mem_append.mp hlisted with hinherited | hown
  · cases includeInherited with
    | false => cases hinherited
    | true =>
        rw [if_pos rfl] at hinherited
        unfold inherited at hinherited
        split at hinherited
        · obtain ⟨ancestor, -, hrule⟩ := List.mem_flatMap.mp hinherited
          exact ⟨ancestor, (List.mem_filter.mp hrule).1⟩
        · cases hinherited
  · exact ⟨node, hown⟩

theorem mem_of_mem_place {list : List Rule} {other : Rule} (hother : other ∈ place rule list) :
    other = rule ∨ other ∈ list := by
  induction list with
  | nil => exact .inl (List.mem_singleton.mp hother)
  | cons first rest ih =>
      unfold place at hother
      split at hother
      · exact (List.mem_cons.mp hother).imp_right (.tail _)
      · rcases List.mem_cons.mp hother with rfl | hrest
        · exact .inr List.mem_cons_self
        · exact (ih hrest).imp_right (.tail _)

/-- To attach a rule adds no other one. -/
theorem has_of_has_put {other : Rule} (hother : (rules.put node rule).Has other) :
    other = rule ∨ rules.Has other := by
  obtain ⟨owner, hother⟩ := hother
  rw [own_put] at hother
  split at hother
  · exact (mem_of_mem_place hother).imp_right fun hold => ⟨owner, hold⟩
  · exact .inr ⟨owner, hother⟩

end RuleStore

namespace Builtin

variable {rules : RuleStore} {wanted : PendingEntry → Prop}

/-! ## What the built-in handlers queue -/

theorem queuesOnly_of_edits {act : Act} (hedits : Edits act) : act.QueuesOnly wanted := by
  cases act with
  | edit => trivial
  | enqueue | deliver | runPending | turn | deferCopy | note => cases hedits

theorem queuesOnly_enqueueAll {entries : List PendingEntry}
    (hwanted : ∀ entry ∈ entries, wanted entry) (state : WorkState) :
    state.QueuesOnly wanted { state with work := state.work.enqueueAll entries } := by
  induction entries generalizing state with
  | nil => exact .refl state
  | cons entry entries ih =>
      have hfirst : state.QueuesOnly wanted { state with work := (state.work.enqueue entry).2 } :=
        .enqueue fun _ => hwanted entry List.mem_cons_self
      exact hfirst.trans (ih (fun other hother => hwanted other (.tail _ hother)) _)

/-- What an adapter queues is attached. -/
theorem has_of_mem_entriesOf {work : UnitOfWork} {event : NodeEvent}
    {adapter : Triggers.Trigger × String} {entry : PendingEntry}
    (hentry : entry ∈ Triggers.entriesOf rules work event adapter) : rules.Has entry.rule := by
  obtain ⟨place, -, hentry⟩ := List.mem_flatMap.mp hentry
  unfold Triggers.entriesAt at hentry
  split at hentry
  · obtain ⟨rule, hrule, rfl⟩ := List.mem_map.mp hentry
    exact RuleStore.has_of_mem_get (List.mem_filter.mp hrule).1
  · cases hentry

theorem queuesOnly_of_create {directory : RuleDirectory} {config : EngineConfig}
    {service : RuleService} (hservice : RuleService.create directory handlers config = .ok service)
    (hwanted : ∀ entry : PendingEntry, rules.Has entry.rule → wanted entry) :
    service.QueuesOnly rules wanted := by
  intro engine hflush
  have hedits (script : Script Unit) (hscript : script.Uses (Act.QueuesOnly wanted)) :
      (script.run rules engine).Keeps (WorkState.QueuesOnly wanted) :=
    hscript.run_keeps (keptByActs_queuesOnly wanted) hflush False.elim
  constructor
  · intro behaviour hbehaviour event
    rcases behaviour_cases hservice hbehaviour with rfl | ⟨trigger, ruleType, hreact⟩
    · exact hedits _ (uses_copyRulesWithNode_of (fun _ => queuesOnly_of_edits) fun _ _ _ => trivial)
    · rw [hreact]
      intro state after answer hruns
      obtain ⟨-, rfl⟩ := (Triggers.runs_react trigger ruleType event).unique hruns
      exact queuesOnly_enqueueAll
        (fun entry hentry => hwanted entry (has_of_mem_entriesOf hentry)) state
  · intro action executor hmade actionable actionedUpon
    rw [handlers_of_create hservice] at hmade
    have hexecutor := edits_executor hmade actionable actionedUpon
    exact hedits _ (hexecutor.mono fun _ => queuesOnly_of_edits)

/-! ## No second round -/

/-- **Self-triggering is suppressed.**  Let no handler start a drain.  While an entry is run, with
the flush that follows its action, whatever is queued, for whatever nodes, has not the id of its
rule.

So let a service have the built-in handlers, and let all attached rules and all that waits have one
id.  However far a drain comes, it has taken one round at most.  If it succeeds, its report counts
one round at most, and if it may take a round, it never fails for having taken too many. -/
theorem selfTriggers_suppressed :
    (∀ (service : RuleService) (rules : RuleStore) (budget : Nat) (entry : PendingEntry)
        (state after : WorkState) (answer : Except Error RuleService.Outcome),
      service.NeverDrains →
      (RuleService.whileExecuting entry.rule
        (service.runRule rules (service.engine rules budget) entry)).Runs state answer after →
      ∃ pushed, state.Pushes pushed after ∧
        after.work.pending.entries = state.work.pending.entries ++ pushed ∧
        ∀ queued ∈ pushed, queued.rule.id ≠ entry.rule.id) ∧
    ∀ (directory : RuleDirectory) (config : EngineConfig) (service : RuleService)
        (rules : RuleStore) (id : String) (start : WorkState) (budget : Nat),
      RuleService.create directory handlers config = .ok service →
      (∀ rule, rules.Has rule → rule.id = id) →
      (∀ waiting ∈ start.work.pending.entries, waiting.rule.id = id) →
      (∀ progress reached,
        RuleService.Reaches service rules (service.engine rules budget) start progress reached →
        progress.batches.length ≤ 1) ∧
      ∀ answer final, (service.engine rules (budget + 1)).drain.Runs start answer final →
        (∀ report, answer = .ok report → report.rounds ≤ 1) ∧
        (1 ≤ config.maxDrainRounds → ∀ error, answer = .error error →
          ∀ limit pending, error.cause ≠ .limitExceeded (.rounds limit pending)) := by
  constructor
  · intro service rules budget entry state after answer hservice hruns
    obtain ⟨pushed, hway, hothers⟩ := hservice.suppresses_whileExecuting hruns
    exact ⟨pushed, hway, hway.entries_eq, hothers⟩
  · intro directory config service rules id start budget hcreated hrules hstart
    have hservice := neverDrains_of_create hcreated
    have hqueues : service.QueuesOnly rules (·.rule.id = id) :=
      queuesOnly_of_create hcreated fun entry => hrules entry.rule
    refine ⟨fun _ _ hreaches => (hreaches.oneRound hservice hqueues hstart).length_le, ?_⟩
    intro answer final hruns
    obtain ⟨progress, stopped, hended, hok, -⟩ := RuleService.ended_of_runs hruns
    have hrounds := hended.batches_le hservice hqueues hstart
    constructor
    · intro report hreport
      subst hreport
      rw [(hended.settled_of_ok hservice).rounds]
      exact hrounds
    · intro hceiling error herror limit pending hcause
      subst herror
      rw [← config_of_create hcreated] at hceiling
      have hreached := (hended.failed_of_error hservice).atCeiling (noCeiling_of_create hcreated)
        hcause
      exact hreached.ne_rounds hservice hqueues hstart hceiling limit pending rfl

/-! ## Two folders that send to each other -/

open Triggers

/-- The rule of a folder that sends to the other one. -/
def sender (folder : String) : Rule :=
  (pingPong.own (nodeOf folder)).headD { id := "none", ruleType := inbound }

/-- The same rule, with an id that both folders share. -/
def bouncer (folder : String) : Rule :=
  { sender folder with id := "bounce" }

/-- Both folders have a rule with this id. -/
def bouncing : RuleStore :=
  (({} : RuleStore).put (nodeOf "u2") (bouncer "u2")).put (nodeOf "u3") (bouncer "u3")

/-- A rule is to be run for the node that was moved. -/
def arrival (rule : Rule) : PendingEntry :=
  { actionable := nodeOf "u3", actionedUpon := nodeOf "u4", rule }

/-- The rule of the folder that the node was moved to waits. -/
def bounced : WorkState :=
  { removal with work := (removal.work.enqueue (arrival (bouncer "u3"))).2 }

theorem id_eq_of_has_bouncing {rule : Rule} (hrule : bouncing.Has rule) : rule.id = "bounce" := by
  rcases RuleStore.has_of_has_put hrule with rfl | hrule
  · rfl
  · rcases RuleStore.has_of_has_put hrule with rfl | ⟨_, hnone⟩
    · rfl
    · cases hnone

/-- With two ids, the rule of one folder queues that of the other one.  With one id, each folder
sends the node to the other one once, and that is all. -/
theorem selfTriggers_suppressed_bouncing :
    ∃ service, Builtin.service { maxDrainRounds := 1 } = .ok service ∧ service.NeverDrains ∧
      (∃ after pushed, (RuleService.whileExecuting (sender "u3")
          (service.runRule pingPong (service.engine pingPong 5) (arrival (sender "u3")))).Runs
            removal (.ok .executed) after ∧
        removal.Pushes pushed after ∧ pushed.map (·.rule.id) = ["there"] ∧
        ∀ queued ∈ pushed, queued.rule.id ≠ (sender "u3").id) ∧
      (∀ rule, bouncing.Has rule → rule.id = "bounce") ∧
      bounced.work.pending.entries.map (·.rule.id) = ["bounce"] ∧
      ∃ report final, (service.engine bouncing 5).drain.Runs bounced (.ok report) final ∧
        report.executed = 2 ∧ report.rounds ≤ 1 := by
  have hnone : removal.work.pending.entries = [] := by decide +kernel
  have hwaits : bounced.work.pending.entries.map (·.rule.id) = ["bounce"] := by decide +kernel
  obtain ⟨service, hcreated, hcomputed⟩ := exists_service_of_any
    (show ((Builtin.service { maxDrainRounds := 1 }).toOption.any fun service =>
      (((RuleService.whileExecuting (sender "u3") (service.runRule pingPong
          (service.engine pingPong 5) (arrival (sender "u3")))).run.run removal).any fun result =>
        result.1.toOption = some .executed ∧
          result.2.work.pending.entries.map (·.rule.id) = ["there"]) ∧
      ((service.engine bouncing 5).drain.run.run bounced).any fun result =>
        result.1.toOption.any (·.executed = 2)) = true by decide +kernel)
  obtain ⟨hentry, hdrain⟩ := of_decide_eq_true hcomputed
  have hservice := neverDrains_of_create hcreated
  obtain ⟨hsuppressed, honeRound⟩ := selfTriggers_suppressed
  refine ⟨service, hcreated, hservice, ?_, fun _ => id_eq_of_has_bouncing, hwaits, ?_⟩
  · obtain ⟨_ | outcome, after, hruns, hqueued⟩ := Routine.exists_runs_of_any hentry
    case error => cases (of_decide_eq_true hqueued).1
    obtain ⟨houtcome, hqueued⟩ := of_decide_eq_true hqueued
    obtain rfl := Option.some.inj houtcome
    obtain ⟨pushed, hway, hentries, hothers⟩ := hsuppressed service pingPong 5
      (arrival (sender "u3")) removal after _ hservice hruns
    rw [hentries, hnone, List.nil_append] at hqueued
    exact ⟨after, pushed, hruns, hway, hqueued, hothers⟩
  · obtain ⟨_ | report, final, hruns, hexecuted⟩ := Routine.exists_runs_of_any hdrain
    case error => cases hexecuted
    have hstart : ∀ waiting ∈ bounced.work.pending.entries, waiting.rule.id = "bounce" := by
      intro waiting hwaiting
      have hid := List.mem_map_of_mem (f := (·.rule.id)) hwaiting
      rw [hwaits] at hid
      exact List.mem_singleton.mp hid
    obtain ⟨-, hends⟩ := honeRound directory { maxDrainRounds := 1 } service bouncing "bounce"
      bounced 4 hcreated (fun _ => id_eq_of_has_bouncing) hstart
    exact ⟨report, final, hruns, of_decide_eq_true hexecuted, (hends _ _ hruns).1 report rfl⟩

end Builtin

end ContentRules
