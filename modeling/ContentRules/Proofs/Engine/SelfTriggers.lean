import ContentRules.Proofs.Engine.WorkList

/-!
# Rules that would trigger themselves

A rule that is being run is marked, and as long as it is, no entry with its id is queued.  So what a
rule does never queues the rule again, neither by its action nor by the events of what the action
did.  If all rules that can come up have one id, a drain takes no second round.

**Strategy.**  `WorkState.QueuesOnly` says of two states which entries were queued between them.
That the rule which is marked is none of them is kept by every step, together with the mark
(`keptByScripts_suppresses`).  If the entries that handlers queue have the id of the marked rule,
the two together say that nothing is queued at all, for what was queued on the way is determined by
its ends.  That leaves a drain two stages (`Progress.OneRound`): before the first
round, and after it with an empty queue.
-/

namespace ContentRules

open Routine

/-! ## What is queued -/

/-- Between the two states, no entries were queued but wanted ones. -/
def WorkState.QueuesOnly (wanted : PendingEntry → Prop) (state after : WorkState) : Prop :=
  ∃ pushed, state.Pushes pushed after ∧ ∀ queued ∈ pushed, wanted queued

/-- The act starts no drain, and if it queues an entry, that is a wanted one. -/
def Act.QueuesOnly (wanted : PendingEntry → Prop) : Act → Prop
  | enqueue entry => wanted entry
  | runPending => False
  | _ => True

/-- While the rule is marked, it stays marked and no entry with its id is queued. -/
def WorkState.Suppresses (rule : Rule) (state after : WorkState) : Prop :=
  state.work.executing = some rule →
    after.work.executing = some rule ∧
      state.QueuesOnly (fun queued => queued.rule.id ≠ rule.id) after

namespace WorkState.QueuesOnly

variable {wanted : PendingEntry → Prop} {state middle after : WorkState}

theorem refl (state : WorkState) : state.QueuesOnly wanted state :=
  ⟨[], .none, nofun⟩

theorem trans (hfirst : state.QueuesOnly wanted middle) (hrest : middle.QueuesOnly wanted after) :
    state.QueuesOnly wanted after := by
  obtain ⟨pushed, hway, hwanted⟩ := hfirst
  obtain ⟨more, hmore, hwantedMore⟩ := hrest
  refine ⟨pushed ++ more, hway.trans hmore, ?_⟩
  intro queued hqueued
  exact (List.mem_append.mp hqueued).elim (hwanted queued) (hwantedMore queued)

/-- A step that leaves the queue alone queues nothing. -/
theorem of_step (hstep : state.Step after) (hqueue : after.work.pending = state.work.pending) :
    state.QueuesOnly wanted after :=
  ⟨[], .pass .none hstep hqueue, nofun⟩

/-- An entry need be wanted only if it is not refused. -/
theorem enqueue {entry : PendingEntry}
    (hwanted : (state.work.enqueue entry).1 = true → wanted entry) :
    state.QueuesOnly wanted { state with work := (state.work.enqueue entry).2 } := by
  cases hqueued : (state.work.enqueue entry).1 with
  | true => exact ⟨[entry], .push .none hqueued, by simpa using hwanted hqueued⟩
  | false =>
      refine .of_step (.enqueue state entry) ?_
      exact congrArg _ (UnitOfWork.enqueue_of_refused hqueued)

/-- Nothing is queued that would have to meet two conditions at odds with each other. -/
theorem pending_eq {unwanted : PendingEntry → Prop} (hwanted : state.QueuesOnly wanted after)
    (hunwanted : state.QueuesOnly unwanted after)
    (hodds : ∀ queued, wanted queued → ¬ unwanted queued) :
    after.work.pending.entries = state.work.pending.entries := by
  obtain ⟨pushed, hway, hpushed⟩ := hwanted
  obtain ⟨same, hsame, hunwanted⟩ := hunwanted
  have hunique : pushed = same :=
    List.append_cancel_left (hway.entries_eq.symm.trans hsame.entries_eq)
  have hnone : pushed = [] := List.eq_nil_iff_forall_not_mem.mpr fun queued hqueued =>
    hodds queued (hpushed queued hqueued) (hunwanted queued (hunique ▸ hqueued))
  rw [hway.entries_eq, hnone, List.append_nil]

end WorkState.QueuesOnly

theorem keptByActs_queuesOnly (wanted : PendingEntry → Prop) :
    KeptByActs (Act.QueuesOnly wanted) (WorkState.QueuesOnly wanted) where
  refl := .refl
  trans := .trans
  act {act} hallowed state := by
    cases act with
    | enqueue entry => exact .enqueue fun _ => hallowed
    | edit change => exact .of_step (.edit state change) rfl
    | deliver => exact .refl state
    | runPending => exact hallowed.elim
    | turn switch => exact .of_step (.turn state switch) (state.work.pending_turn switch)
    | deferCopy source copy => exact .of_step (.deferCopy state source copy) rfl
    | note line => exact .of_step (.note state line) rfl
  takeEvents state := .of_step (.takeEvents state) rfl
  noteNew state event := .of_step (.noteNew state event) (state.work.pending_noteNew event)

/-! ## The rule that is marked -/

/-- An entry that is taken has not the id of the marked rule. -/
theorem UnitOfWork.id_ne_of_queued {work : UnitOfWork} {entry : PendingEntry} {rule : Rule}
    (hmark : work.executing = some rule) (hqueued : (work.enqueue entry).1 = true) :
    entry.rule.id ≠ rule.id := by
  intro hsame
  have hrefused : work.executing.any (·.sameAs entry.rule) = true := by
    simp [hmark, Rule.sameAs, hsame]
  simp [enqueue, hrefused] at hqueued

theorem keptByScripts_suppresses (rule : Rule) : KeptByScripts (WorkState.Suppresses rule) where
  refl state hmark := ⟨hmark, .refl state⟩
  trans {first second third} hfirst hsecond hmark := by
    obtain ⟨hmarked, hqueued⟩ := hfirst hmark
    obtain ⟨hlast, hmore⟩ := hsecond hmarked
    exact ⟨hlast, hqueued.trans hmore⟩
  step {state after} hstep hmark := by
    refine ⟨(keptByScripts_extends.step hstep).executing.trans hmark, ?_⟩
    cases hstep with
    | enqueue entry => exact .enqueue (UnitOfWork.id_ne_of_queued hmark)
    | edit change => exact .of_step (.edit state change) rfl
    | turn switch => exact .of_step (.turn state switch) (state.work.pending_turn switch)
    | deferCopy source copy => exact .of_step (.deferCopy state source copy) rfl
    | note line => exact .of_step (.note state line) rfl
    | takeEvents => exact .of_step (.takeEvents state) rfl
    | noteNew event => exact .of_step (.noteNew state event) (state.work.pending_noteNew event)

/-- How far a drain comes all of whose entries have one id: it has yet to take a round, or it has
taken one and nothing has been queued since. -/
inductive Progress.OneRound (id : String) (progress : Progress) (state : WorkState) : Prop
  | before (hbatches : progress.batches = []) (hwaiting : progress.waiting = [])
      (hpending : ∀ queued ∈ state.work.pending.entries, queued.rule.id = id)
  | within (hbatches : progress.batches.length = 1)
      (hwaiting : ∀ entry ∈ progress.waiting, entry.rule.id = id)
      (hpending : state.work.pending.entries = [])

theorem Progress.OneRound.length_le {id : String} {progress : Progress} {state : WorkState}
    (hround : progress.OneRound id state) : progress.batches.length ≤ 1 := by
  cases hround with
  | before hbatches => simp [hbatches]
  | within hbatches => exact Nat.le_of_eq hbatches

namespace RuleService

variable {service : RuleService} {rules : RuleStore} {budget : Nat} {state after : WorkState}

/-- The handlers queue no entries but wanted ones, if the flushes that they call on do not. -/
def QueuesOnly (service : RuleService) (rules : RuleStore) (wanted : PendingEntry → Prop) : Prop :=
  ∀ engine : Engine, engine.flush.Keeps (WorkState.QueuesOnly wanted) →
    service.HandlersKeep rules engine (WorkState.QueuesOnly wanted)

/-! ## Entries -/

section Entries

variable {entry : PendingEntry}

/-- While the rule of an entry is run, with the flush that follows its action, no entry with the id
of that rule is queued. -/
theorem NeverDrains.suppresses_whileExecuting (hservice : service.NeverDrains)
    {answer : Except Error Outcome}
    (hruns : (whileExecuting entry.rule
      (service.runRule rules (service.engine rules budget) entry)).Runs state answer after) :
    state.QueuesOnly (fun queued => queued.rule.id ≠ entry.rule.id) after := by
  obtain ⟨inner, hinner, rfl⟩ := runs_whileExecuting.mp hruns
  have hkept := keptByScripts_suppresses entry.rule
  have hsuppresses : (state.marking (some entry.rule)).Suppresses entry.rule inner :=
    runRule_keeps hservice (hservice.flush_keeps hkept budget) False.elim hkept entry hinner
  obtain ⟨-, pushed, hway, hothers⟩ := hsuppresses rfl
  have hmarked : state.Pushes [] (state.marking (some entry.rule)) := .mark .none _
  exact ⟨pushed, (hmarked.trans hway).mark state.work.executing, hothers⟩

variable {wanted : PendingEntry → Prop}

/-- A flush queues what the handlers do. -/
theorem QueuesOnly.flush (hqueues : service.QueuesOnly rules wanted) (budget : Nat) :
    (service.engine rules budget).flush.Keeps (WorkState.QueuesOnly wanted) :=
  flush_keeps_of_handlersKeep hqueues (keptByActs_queuesOnly wanted) budget

theorem QueuesOnly.whileExecuting (hqueues : service.QueuesOnly rules wanted)
    {answer : Except Error Outcome}
    (hruns : (RuleService.whileExecuting entry.rule
      (service.runRule rules (service.engine rules budget) entry)).Runs state answer after) :
    state.QueuesOnly wanted after := by
  obtain ⟨inner, hinner, rfl⟩ := runs_whileExecuting.mp hruns
  obtain ⟨pushed, hway, hwanted⟩ := (hqueues _ (hqueues.flush budget)).runRule_keeps
    (hqueues.flush budget) (keptByActs_queuesOnly wanted) entry hinner
  have hmarked : state.Pushes [] (state.marking (some entry.rule)) := .mark .none _
  exact ⟨pushed, (hmarked.trans hway).mark state.work.executing, hwanted⟩

variable {id : String}

/-- An entry leaves the queue alone if handlers only queue rules with its id. -/
theorem QueuesOnly.pending_runEntry (hqueues : service.QueuesOnly rules (·.rule.id = id))
    (hservice : service.NeverDrains) (hid : entry.rule.id = id) {answer : Except Error Outcome}
    (hruns : (service.runEntry rules (service.engine rules budget) entry).Runs state answer after) :
    after.work.pending.entries = state.work.pending.entries := by
  cases answer with
  | error error => rw [(hservice.pending_of_failed hruns).1]
  | ok outcome =>
      by_cases hskipped : isSkipped state.work entry
      · obtain ⟨-, rfl⟩ := (runs_runEntry_of_skipped hskipped).mp hruns
        rfl
      · rcases (runs_runEntry hskipped).mp hruns with ⟨_, hrule, -⟩ | ⟨_, _, -, ⟨⟩, -⟩
        refine (hqueues.whileExecuting hrule).pending_eq
          (hservice.suppresses_whileExecuting hrule) ?_
        intro queued hsame hother
        exact hother (hsame.trans hid.symm)

end Entries

/-! ## Drains -/

section Drains

variable {start stopped : WorkState} {progress : Progress} {id : String}

/-- However far a drain has come, it has taken one round at most. -/
theorem Reaches.oneRound (hservice : service.NeverDrains)
    (hqueues : service.QueuesOnly rules (·.rule.id = id))
    (hstart : ∀ queued ∈ start.work.pending.entries, queued.rule.id = id)
    (hreaches : Reaches service rules (service.engine rules budget) start progress state) :
    progress.OneRound id state := by
  induction hreaches with
  | flushed hflush =>
      obtain ⟨pushed, hway, hpushed⟩ := hqueues.flush budget hflush
      refine .before rfl rfl ?_
      intro queued hqueued
      rw [hway.entries_eq] at hqueued
      exact (List.mem_append.mp hqueued).elim (hstart queued) (hpushed queued)
  | round _ hbatch _ ih =>
      cases ih with
      | before hbatches _ hpending =>
          obtain rfl := hbatches
          rw [hbatch] at hpending
          exact .within rfl hpending rfl
      | within _ _ hpending => exact absurd (hbatch.symm.trans hpending) (List.cons_ne_nil _ _)
  | entry _ hceiling hruns ih =>
      cases ih with
      | before _ hwaiting => cases hwaiting
      | within hbatches hwaiting hpending =>
          have hid := hwaiting _ List.mem_cons_self
          refine .within hbatches (fun other hother => hwaiting other (.tail _ hother)) ?_
          rcases (runs_processEntry hceiling).mp hruns with
            ⟨_, hentry, -⟩ | ⟨_, failed, hentry, rfl, -⟩
          · exact (hqueues.pending_runEntry hservice hid hentry).trans hpending
          · exact (hqueues.pending_runEntry hservice hid hentry).trans hpending

theorem Ended.batches_le (hservice : service.NeverDrains)
    (hqueues : service.QueuesOnly rules (·.rule.id = id))
    (hstart : ∀ queued ∈ start.work.pending.entries, queued.rule.id = id)
    {answer : Except Error DrainReport}
    (hended : Ended service rules (service.engine rules budget) start progress answer stopped) :
    progress.batches.length ≤ 1 := by
  cases hended with
  | flushFailed => exact Nat.zero_le 1
  | settled hreaches | tooManyRounds hreaches | tooManyExecutions hreaches
    | entryFailed hreaches => exact (hreaches.oneRound hservice hqueues hstart).length_le

/-- If a drain may take a round, it does not come to the ceiling of rounds. -/
theorem AtCeiling.ne_rounds (hservice : service.NeverDrains)
    (hqueues : service.QueuesOnly rules (·.rule.id = id))
    (hstart : ∀ queued ∈ start.work.pending.entries, queued.rule.id = id)
    (hrounds : 1 ≤ service.config.maxDrainRounds) {ceiling : Ceiling}
    (hceiling : AtCeiling service rules (service.engine rules budget) start progress ceiling)
    (limit : Nat) (stillPending : Option String) : ceiling ≠ .rounds limit stillPending := by
  cases hceiling with
  | executions => exact nofun
  | rounds htaken hreaches hbatch =>
      exfalso
      cases hreaches.oneRound hservice hqueues hstart with
      | before hbatches =>
          rw [hbatches, List.length_nil] at htaken
          omega
      | within _ _ hpending => exact absurd (hbatch.symm.trans hpending) (List.cons_ne_nil _ _)

end Drains

end RuleService

end ContentRules
