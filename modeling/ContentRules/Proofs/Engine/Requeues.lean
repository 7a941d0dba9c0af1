import ContentRules.Proofs.Engine.Waiting
import ContentRules.Proofs.Engine.WorkList
import ContentRules.Proofs.Rule.Queues

/-!
# Entries that are queued again

The queue refuses an entry that waits in it.  A drain takes the whole queue into a batch, and leaves
what is queued meanwhile to the next round.  So an entry of the batch, whether it has been run or
not, waits in the queue no more: it may be queued again, and is run in this round and in the next.
Between two runs of the same entry one was queued, not before the round of the first run had begun.

**Strategy.**  `EntryTurn` is the run of one entry in a drain, with the states before and after it.
Two facts about the turns taken so far are kept by every stage of a drain (`Turns.of_reaches`): no
batch holds the same entry twice, and what waits in the queue, which was empty when the round began,
came there in a turn of this round.  So the entries of the next batch came there in this round.
-/

namespace ContentRules

open Routine

/-! ## Into the queue and out of it -/

namespace UnitOfWork

variable {work : UnitOfWork} {entry : PendingEntry}

/-- An entry is refused while its rule is marked, or while the same entry is in the queue. -/
theorem enqueue_eq_false_iff :
    (work.enqueue entry).1 = false ↔
      work.executing.any (·.sameAs entry.rule) ∨
        ∃ waiting ∈ work.pending.entries, waiting.Same entry := by
  rw [← PendingQueue.contains_iff_exists_same]
  by_cases hmarked : work.executing.any (·.sameAs entry.rule)
  · simp [enqueue, hmarked]
  by_cases hwaits : work.pending.contains entry
  · simp [enqueue, hmarked, OrderedSet.push_of_contains hwaits, hwaits]
  · simp [enqueue, hmarked, (OrderedSet.push_of_not_contains hwaits).1, hwaits]

end UnitOfWork

/-- Nothing but its being queued brings an entry into the queue. -/
theorem WorkState.Step.queued {state after : WorkState} (hstep : state.Step after)
    {entry : PendingEntry} (hwaits : entry ∈ after.work.pending.entries)
    (hnew : entry ∉ state.work.pending.entries) :
    (state.work.enqueue entry).1 = true ∧ after.work = (state.work.enqueue entry).2 := by
  cases hstep with
  | edit | deferCopy | note | takeEvents => exact absurd hwaits hnew
  | turn switch => exact absurd (state.work.pending_turn switch ▸ hwaits) hnew
  | noteNew event => exact absurd (state.work.pending_noteNew event ▸ hwaits) hnew
  | enqueue queued =>
      cases hqueued : (state.work.enqueue queued).1 with
      | false => exact absurd (UnitOfWork.enqueue_of_refused hqueued ▸ hwaits) hnew
      | true =>
          have hentries := UnitOfWork.entries_of_queued hqueued
          have hsame : entry = queued := by
            have hmem := hentries ▸ hwaits
            exact List.mem_singleton.mp ((List.mem_append.mp hmem).resolve_left hnew)
          subst hsame
          exact ⟨hqueued, rfl⟩

/-! ## Turns -/

/-- The run of an entry in a drain: in which round it is, and the states before and after it. -/
structure EntryTurn where
  round : Nat
  entry : PendingEntry
  before : WorkState
  after : WorkState

namespace EntryTurn

/-- The entry with its round. -/
def item (turn : EntryTurn) : Nat × PendingEntry :=
  (turn.round, turn.entry)

/-- The entry came into the queue in this turn: it waits there after it, and did not before. -/
def Queues (turn : EntryTurn) (entry : PendingEntry) : Prop :=
  entry ∈ turn.after.work.pending.entries ∧ entry ∉ turn.before.work.pending.entries

end EntryTurn

/-- The first entry belongs to an earlier round, or is another one of the same round. -/
def Precedes (first second : Nat × PendingEntry) : Prop :=
  first.1 < second.1 ∨ first.1 = second.1 ∧ ¬ first.2.Same second.2

namespace RuleService

section Turns

variable (service : RuleService) (rules : RuleStore) (engine : Engine) (start : WorkState)

/-- When a drain that began on `start` had run these entries, it took this turn. -/
def TakesTurn (ran : List PendingEntry) (turn : EntryTurn) : Prop :=
  ∃ batches waiting report answer, batches.length = turn.round ∧
    report.processed < service.config.maxExecutions ∧
    Reaches service rules engine start
      { batches, ran, waiting := turn.entry :: waiting, report } turn.before ∧
    (service.processEntry rules engine report turn.entry).Runs turn.before answer turn.after

/-- The turns by which a drain that began on `start` has come this far and left this state, and how
the entries came into the queue that are run in them. -/
structure Turns (turns : List EntryTurn) (progress : Progress) (state : WorkState) : Prop where
  ran : turns.map EntryTurn.entry = progress.ran
  taken : ∀ {index : Nat} {turn : EntryTurn}, turns[index]? = some turn →
    service.TakesTurn rules engine start ((turns.take index).map EntryTurn.entry) turn
  round_le : ∀ turn ∈ turns, turn.round ≤ progress.batches.length
  ordered : (turns.map EntryTurn.item ++
    progress.waiting.map (progress.batches.length, ·)).Pairwise Precedes
  /-- After the first round, an entry is run because it was queued in the round before. -/
  queued : ∀ item ∈ turns.map EntryTurn.item ++ progress.waiting.map (progress.batches.length, ·),
    item.1 ≤ 1 ∨ ∃ turn ∈ turns, turn.round + 1 = item.1 ∧ turn.Queues item.2
  /-- What waits in the queue was queued in this round. -/
  pending : progress.batches ≠ [] → ∀ entry ∈ state.work.pending.entries,
    ∃ turn ∈ turns, turn.round = progress.batches.length ∧ turn.Queues entry

end Turns

variable {service : RuleService} {rules : RuleStore} {engine : Engine} {budget : Nat}
  {start state stopped : WorkState} {turns : List EntryTurn} {progress : Progress}

namespace Turns

theorem begin (service : RuleService) (rules : RuleStore) (engine : Engine)
    (start state : WorkState) : service.Turns rules engine start [] {} state where
  ran := rfl
  taken hturn := by simp at hturn
  round_le := by simp
  ordered := by simp
  queued := by simp
  pending hbatches := absurd rfl hbatches

/-- The entries of a batch are the queue, which names none twice. -/
theorem pairwise_round {items : List (Nat × PendingEntry)} (hordered : items.Pairwise Precedes)
    {round : Nat} (hformer : ∀ item ∈ items, item.1 < round) (queue : PendingQueue) :
    (items ++ queue.entries.map (round, ·)).Pairwise Precedes := by
  refine List.pairwise_append.mpr ⟨hordered, List.pairwise_map.mpr ?_,
    fun first hfirst second hsecond => ?_⟩
  · exact (List.pairwise_map.mp queue.nodup).imp fun hne =>
      .inr ⟨rfl, fun hsame => hne (PendingEntry.key_eq_iff.mpr hsame)⟩
  · obtain ⟨waiting, -, rfl⟩ := List.mem_map.mp hsecond
    exact .inl (hformer first hfirst)

/-- A round begins with all that waits, and leaves nothing in the queue. -/
theorem round {batches : List (List PendingEntry)} {ran rest : List PendingEntry}
    {entry : PendingEntry} {report next : DrainReport}
    (hturns : service.Turns rules engine start turns { batches, ran, report } state)
    (hbatch : state.work.pending.entries = entry :: rest) :
    service.Turns rules engine start turns
      { batches := batches ++ [entry :: rest], ran, waiting := entry :: rest, report := next }
      (withoutPending state) := by
  have hlength : (batches ++ [entry :: rest]).length = batches.length + 1 :=
    List.length_append
  have hformer : ∀ item ∈ turns.map EntryTurn.item, item.1 < batches.length + 1 := by
    intro item hitem
    obtain ⟨turn, hturn, rfl⟩ := List.mem_map.mp hitem
    exact Nat.lt_succ_of_le (hturns.round_le turn hturn)
  have hordered := hturns.ordered
  have hqueued := hturns.queued
  simp only [List.map_nil, List.append_nil] at hordered hqueued
  refine ⟨hturns.ran, hturns.taken, fun turn hturn => ?_, ?_, fun item hitem => ?_,
    fun _ waiting hwaiting => absurd hwaiting List.not_mem_nil⟩
  · rw [hlength]
    exact Nat.le_succ_of_le (hturns.round_le turn hturn)
  · rw [hlength, ← hbatch]
    exact pairwise_round hordered hformer state.work.pending
  · rw [hlength] at hitem
    rcases List.mem_append.mp hitem with hran | hnew
    · exact hqueued item hran
    · obtain ⟨waiting, hwaiting, rfl⟩ := List.mem_map.mp hnew
      cases batches with
      | nil => exact .inl (Nat.le_refl 1)
      | cons batch batches =>
          obtain ⟨turn, hturn, hround, hqueues⟩ :=
            hturns.pending (List.cons_ne_nil batch batches) waiting (hbatch ▸ hwaiting)
          exact .inr ⟨turn, hturn, congrArg Nat.succ hround, hqueues⟩

/-- One more turn is taken after those that were. -/
theorem takesTurn_concat
    (htaken : ∀ {index : Nat} {turn : EntryTurn}, turns[index]? = some turn →
      service.TakesTurn rules engine start ((turns.take index).map EntryTurn.entry) turn)
    {last : EntryTurn}
    (hlast : service.TakesTurn rules engine start (turns.map EntryTurn.entry) last) {index : Nat}
    {turn : EntryTurn} (hturn : (turns ++ [last])[index]? = some turn) :
    service.TakesTurn rules engine start (((turns ++ [last]).take index).map EntryTurn.entry)
      turn := by
  rcases Nat.lt_trichotomy index turns.length with hformer | rfl | hlater
  · rw [List.getElem?_append_left hformer] at hturn
    rw [List.take_append_of_le_length (Nat.le_of_lt hformer)]
    exact htaken hturn
  · rw [List.getElem?_concat_length] at hturn
    obtain rfl := Option.some.inj hturn
    rwa [List.take_left]
  · have hlength : (turns ++ [last]).length ≤ index := by
      rw [List.length_append, List.length_singleton]
      exact hlater
    rw [List.getElem?_eq_none hlength] at hturn
    cases hturn

/-- One more entry of the round is run.  What waits then waited before, or came in this turn. -/
theorem entry {batches : List (List PendingEntry)} {ran waiting : List PendingEntry}
    {entry : PendingEntry} {report next : DrainReport} {answer : Except Error DrainReport}
    {after : WorkState}
    (hturns : service.Turns rules engine start turns
      { batches, ran, waiting := entry :: waiting, report } state)
    (hreaches : Reaches service rules engine start
      { batches, ran, waiting := entry :: waiting, report } state)
    (hceiling : report.processed < service.config.maxExecutions)
    (hruns : (service.processEntry rules engine report entry).Runs state answer after) :
    service.Turns rules engine start
      (turns ++ [{ round := batches.length, entry, before := state, after }])
      { batches, ran := ran ++ [entry], waiting, report := next } after := by
  let turn : EntryTurn := { round := batches.length, entry, before := state, after }
  have hran : turns.map EntryTurn.entry = ran := hturns.ran
  have hitems : (turns ++ [turn]).map EntryTurn.item ++ waiting.map (batches.length, ·) =
      turns.map EntryTurn.item ++ (entry :: waiting).map (batches.length, ·) := by
    simp [turn, EntryTurn.item]
  refine ⟨by simp [hran], takesTurn_concat hturns.taken ?_, ?_, ?_, ?_,
    fun hbatches other hother => ?_⟩
  · exact ⟨batches, waiting, report, answer, rfl, hceiling, hran ▸ hreaches, hruns⟩
  · rw [List.forall_mem_append, List.forall_mem_singleton]
    exact ⟨hturns.round_le, Nat.le_refl _⟩
  · exact hitems ▸ hturns.ordered
  · intro item hitem
    refine (hturns.queued item (hitems ▸ hitem)).imp_right fun hqueued => ?_
    obtain ⟨former, hformer, hqueues⟩ := hqueued
    exact ⟨former, List.mem_append_left _ hformer, hqueues⟩
  · by_cases hwaited : other ∈ state.work.pending.entries
    · obtain ⟨former, hformer, hqueues⟩ := hturns.pending hbatches other hwaited
      exact ⟨former, List.mem_append_left _ hformer, hqueues⟩
    · exact ⟨turn, List.mem_append_right _ (List.mem_singleton_self turn), rfl, hother, hwaited⟩

/-- However far a drain has come, it has come there turn by turn. -/
theorem of_reaches (hreaches : Reaches service rules engine start progress state) :
    ∃ turns, service.Turns rules engine start turns progress state := by
  induction hreaches with
  | flushed => exact ⟨[], .begin ..⟩
  | round _ hbatch _ ih =>
      obtain ⟨turns, hturns⟩ := ih
      exact ⟨turns, hturns.round hbatch⟩
  | entry hreaches hceiling hruns ih =>
      obtain ⟨turns, hturns⟩ := ih
      exact ⟨_, hturns.entry hreaches hceiling hruns⟩

/-- So it has where it stops, be it in the middle of a turn that fails. -/
theorem of_ended {answer : Except Error DrainReport}
    (hended : Ended service rules engine start progress answer stopped) :
    ∃ turns state, service.Turns rules engine start turns progress state := by
  cases hended with
  | flushFailed => exact ⟨[], start, .begin ..⟩
  | settled hreaches | tooManyRounds hreaches | tooManyExecutions hreaches =>
      obtain ⟨turns, hturns⟩ := of_reaches hreaches
      exact ⟨turns, _, hturns⟩
  | entryFailed hreaches hceiling hfast hruns =>
      obtain ⟨turns, hturns⟩ := of_reaches hreaches
      have hprocessed := (runs_processEntry hceiling).mpr (.inr ⟨_, _, hruns, rfl, rfl⟩)
      exact ⟨_, _, hturns.entry hreaches hceiling hprocessed⟩

/-- Of two turns the first is in an earlier round, or is that of another entry of the round. -/
theorem precedes (hturns : service.Turns rules engine start turns progress state)
    {earlier later : Nat} {first second : EntryTurn} (hlt : earlier < later)
    (hfirst : turns[earlier]? = some first) (hsecond : turns[later]? = some second) :
    first.round < second.round ∨
      first.round = second.round ∧ ¬ first.entry.Same second.entry := by
  have hordered := (List.pairwise_append.mp hturns.ordered).1
  rw [List.pairwise_map, List.pairwise_iff_getElem] at hordered
  obtain ⟨hearlier, rfl⟩ := List.getElem?_eq_some_iff.mp hfirst
  obtain ⟨hlater, rfl⟩ := List.getElem?_eq_some_iff.mp hsecond
  exact hordered earlier later hearlier hlater hlt

/-- Rounds are counted from one. -/
theorem round_pos (hturns : service.Turns rules engine start turns progress state) {index : Nat}
    {turn : EntryTurn} (hturn : turns[index]? = some turn) : 0 < turn.round := by
  obtain ⟨batches, _, _, _, hround, -, hreaches, -⟩ := hturns.taken hturn
  rw [← hround, List.length_pos_iff]
  rintro rfl
  exact absurd hreaches.taken.symm (List.append_ne_nil_of_right_ne_nil _ (List.cons_ne_nil _ _))

/-- Of two turns of the same entry, the second is in a later round, and its entry was queued in the
round before. -/
theorem queued_between (hturns : service.Turns rules engine start turns progress state)
    {earlier later : Nat} {first second : EntryTurn} (hlt : earlier < later)
    (hfirst : turns[earlier]? = some first) (hsecond : turns[later]? = some second)
    (hsame : first.entry.Same second.entry) :
    first.round < second.round ∧ ∃ between turn, between < later ∧
      turns[between]? = some turn ∧ first.round ≤ turn.round ∧ turn.round + 1 = second.round ∧
      turn.Queues second.entry := by
  have hround : first.round < second.round :=
    (hturns.precedes hlt hfirst hsecond).resolve_right fun hother => hother.2 hsame
  have hpositive := hturns.round_pos hfirst
  have hitem : second.item ∈ turns.map EntryTurn.item :=
    List.mem_map_of_mem (List.mem_of_getElem? hsecond)
  obtain hopening | ⟨turn, hturn, hnext, hqueues⟩ :=
    hturns.queued _ (List.mem_append_left _ hitem)
  · have hone : second.round ≤ 1 := hopening
    omega
  have hnext : turn.round + 1 = second.round := hnext
  obtain ⟨between, hbetween⟩ := List.getElem?_of_mem hturn
  refine ⟨hround, between, turn, ?_, hbetween, by omega, hnext, hqueues⟩
  -- A turn of an earlier round is an earlier turn.
  rcases Nat.lt_trichotomy between later with hbefore | rfl | hafter
  · exact hbefore
  · obtain rfl := Option.some.inj (hbetween.symm.trans hsecond)
    omega
  · rcases hturns.precedes hafter hsecond hbetween with hlater | ⟨hsameRound, -⟩ <;> omega

end Turns

end RuleService

/-! ## A rule that calls another one of its batch -/

namespace Trial

/-- A rule that leaves a trace on the root, and then queues another one. -/
def calling : PendingEntry :=
  entry "a" "log" [("tag", .text "a"), ("next", .text "b")]

/-- The other rule, which leaves a trace. -/
def called : PendingEntry :=
  entry "b" "log" [("tag", .text "b")]

/-- The root has the rule that is called. -/
def callable : RuleStore :=
  ({} : RuleStore).put called.actionable called.rule

/-- Both rules wait. -/
def both : WorkState :=
  let work := (Echo.start.work.enqueue calling).2
  { Echo.start with work := (work.enqueue called).2 }

/-- What waits in the queue is the rule that is called. -/
def awaitsCalled (state : WorkState) : Bool :=
  state.work.pending.entries.map PendingEntry.key = [called.key]

theorem exists_drain_both :
    ∃ report final, (service.engine callable 6).drain.Runs both (.ok report) final ∧
      report.rounds = 2 ∧ report.executed = 3 ∧
      traces final = some (.list [.text "a", .text "b", .text "b"]) := by
  have hdrains : ((service.engine callable 6).drain.run.run both).any fun
      | (.ok report, final) => report.rounds = 2 ∧ report.executed = 3 ∧
          traces final = some (.list [.text "a", .text "b", .text "b"])
      | (.error _, _) => false := by
    decide +kernel
  obtain ⟨_ | report, final, hruns, hreport⟩ := Routine.exists_runs_of_any hdrains
  case error => cases hreport
  exact ⟨report, final, hruns, of_decide_eq_true hreport⟩

end Trial

open Trial

end ContentRules
