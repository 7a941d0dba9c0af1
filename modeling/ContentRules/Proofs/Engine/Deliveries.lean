import ContentRules.Proofs.Engine.Accounts
import ContentRules.Proofs.Engine.ObservedEngine
import ContentRules.Proofs.Engine.Rounds

/-!
# Which events a drain delivers

Edits record events, flushes take them and tell the behaviours of them, and entries that fail are
undone with the events that they recorded.

**Strategy.**  A flush takes all events that are recorded and delivers them in their order, each to
the behaviours bound to its kind, until one of these fails (`Dispatched`).  An entry is begun when
no event waits, and undone to that point if it fails.  So what scripts keep (`Balanced`) is kept by
flushes first, then by entries, rounds and drains.
-/

namespace ContentRules

open Mark

variable {α : Type} {service : RuleService} {R : WorkState → WorkState → Prop}
  {state after last : WorkState} {marks : List Mark}

/-! ## Deliveries -/

section Deliveries

open RuleService

variable {rules : RuleStore} {engine : ObservedEngine}

/-- What is said of telling behaviours of an event: each is told once, until one fails. -/
structure Dispatched (service : RuleService) (R : WorkState → WorkState → Prop) (event : NodeEvent)
    (behaviours : List Behaviour) (state : WorkState) (marks : List Mark)
    (answer : Except Error Unit) (after : WorkState) : Prop where
  related : R state after
  holds : ∀ mark ∈ marks, mark.Holds service R [event] state after
  events : after.work.nodes.events = state.work.nodes.events ++ recordedIn marks
  tellings : ∃ reached, reached <+: behaviours ∧
    tellingsIn marks = reached.map (fun behaviour => (event, behaviour)) ∧
    ∀ result, answer = .ok result → reached = behaviours
  lossless : Lossless marks

theorem dispatched_observeTelling (service : RuleService) (hR : Enduring R) {event : NodeEvent}
    {behaviour : Behaviour}
    (hplain : (behaviour.react event).CallsOnlyIf False) {answer : Except Error Unit}
    (hruns : (observeTelling rules engine event behaviour).routine.Runs state answer after) :
    Dispatched service R event [behaviour] state
      ((observeTelling rules engine event behaviour).marks state) answer after := by
  have hreacts : ((behaviour.react event).observe rules engine).routine.Runs state answer after :=
    hruns
  have hrecords := Script.observe_keeps (keptWithMarks_records hR) False.elim False.elim hplain
    hreacts
  have hmarks : (observeTelling rules engine event behaviour).marks state =
      .told rules state event behaviour ::
        ((behaviour.react event).observe rules engine).marks state := rfl
  rw [hmarks]
  constructor
  case related => exact hrecords.related
  case holds =>
    rw [List.forall_mem_cons]
    rw [Script.routine_observe] at hreacts
    exact ⟨⟨.of_mem hR (List.mem_singleton_self event) state, _, _, _, hreacts, hR.refl after⟩,
      fun mark hmark => hrecords.holds hR hmark⟩
  case events => exact hrecords.events
  case tellings =>
    refine ⟨[behaviour], List.prefix_rfl, ?_, fun _ _ => rfl⟩
    exact congrArg ((event, behaviour) :: ·) hrecords.tellings_eq
  case lossless =>
    intro events hmark
    rcases List.mem_cons.mp hmark with ⟨⟨⟩⟩ | hmark
    exact hrecords.lossless events hmark

/-- The behaviours are told of the event one after the other. -/
theorem dispatched_forM (service : RuleService) (hR : Enduring R) {event : NodeEvent}
    {behaviours : List Behaviour}
    (hplain : ∀ behaviour ∈ behaviours, (behaviour.react event).CallsOnlyIf False)
    {answer : Except Error Unit}
    (hruns : (behaviours.forM (observeTelling rules engine event)).routine.Runs state answer
      after) :
    Dispatched service R event behaviours state
      ((behaviours.forM (observeTelling rules engine event)).marks state) answer after := by
  induction behaviours generalizing state with
  | nil =>
      obtain ⟨-, rfl⟩ := Routine.runs_pure.mp hruns
      exact {
        related := hR.refl _
        holds := List.forall_mem_nil _
        events := (List.append_nil _).symm
        tellings := ⟨[], List.prefix_rfl, rfl, fun _ _ => rfl⟩
        lossless := lossless_nil }
  | cons behaviour behaviours ih =>
      obtain ⟨hfirst, hothers⟩ := List.forall_mem_cons.mp hplain
      unfold List.forM at hruns ⊢
      rcases Observed.runs_bind hruns with
        ⟨_, middle, htelling, hrest, hmarks⟩ | ⟨error, htelling, rfl, hmarks⟩
      · have htold := dispatched_observeTelling service hR hfirst htelling
        have hlast := ih hothers hrest
        rw [hmarks]
        constructor
        case related => exact hR.trans htold.related hlast.related
        case holds =>
          refine List.forall_mem_append.mpr
            ⟨fun mark hmark => (htold.holds mark hmark).mono hR hlast.related, ?_⟩
          exact fun mark hmark => (hlast.holds mark hmark).trans hR
            (fun _ hmem => (KnownSince.of_mem hR hmem state).mono hR htold.related) htold.related
        case events =>
          rw [hlast.events, htold.events, recordedIn_append, List.append_assoc]
        case tellings =>
          obtain ⟨first, -, htellings, hall⟩ := htold.tellings
          obtain ⟨reached, hprefix, hreached, hok⟩ := hlast.tellings
          rw [hall () rfl] at htellings
          refine ⟨behaviour :: reached, (List.prefix_cons_inj behaviour).mpr hprefix, ?_, ?_⟩
          · rw [tellingsIn_append, htellings, hreached]
            rfl
          · intro result hresult
            rw [hok result hresult]
        case lossless => exact lossless_append.mpr ⟨htold.lossless, hlast.lossless⟩
      · have htold := dispatched_observeTelling service hR hfirst htelling
        rw [hmarks]
        obtain ⟨reached, hprefix, hreached, -⟩ := htold.tellings
        exact { htold with
          tellings := ⟨reached, hprefix.trans ⟨behaviours, rfl⟩, hreached, by simp⟩ }

/-- What behaviours were told of the first of the events that waited. -/
theorem Dispatched.holds_cons (hR : Enduring R) {event : NodeEvent} {behaviours : List Behaviour}
    {answer : Except Error Unit}
    (hdispatched : Dispatched service R event behaviours state marks answer after) {mark : Mark}
    (hmark : mark ∈ marks) {waiting : List NodeEvent} :
    mark.Holds service R (event :: waiting) state after := by
  refine (hdispatched.holds mark hmark).trans hR ?_ (hR.refl state)
  exact List.forall_mem_singleton.mpr (.of_mem hR (List.mem_cons_self ..) state)

/-- An event of which all behaviours were told is the first of those delivered. -/
theorem Dispatched.account (hR : Enduring R) {event : NodeEvent}
    (hdispatched :
      Dispatched service R event (service.boundTo event.kind) state marks (.ok ()) after)
    (waiting : List NodeEvent) :
    Account service R (event :: waiting ++ state.work.nodes.events) state marks
      (waiting ++ after.work.nodes.events) after := by
  obtain ⟨reached, -, htellings, hall⟩ := hdispatched.tellings
  have hdelivered : tellingsIn marks = [event].flatMap service.tellingsOf := by
    rw [htellings, hall () rfl, List.flatMap_singleton]
    rfl
  refine ⟨hdispatched.related, fun mark hmark => hdispatched.holds_cons hR hmark, [event], ?_, ?_,
    fun _ => hdelivered⟩
  · rw [hdispatched.events]
    simp
  · rw [hdelivered]

/-- If a behaviour failed, the events that waited are lost. -/
theorem Dispatched.account_lost (hR : Enduring R) {event : NodeEvent} {answer : Except Error Unit}
    (hdispatched : Dispatched service R event (service.boundTo event.kind) state marks answer after)
    (waiting : List NodeEvent) :
    Account service R (event :: waiting ++ state.work.nodes.events) state
      (marks ++ [.lost (event :: waiting)]) after.work.nodes.events after := by
  obtain ⟨reached, hprefix, htellings, -⟩ := hdispatched.tellings
  constructor
  case related => exact hdispatched.related
  case holds =>
    exact List.forall_mem_append.mpr ⟨fun mark hmark => hdispatched.holds_cons hR hmark,
      List.forall_mem_singleton.mpr trivial⟩
  case delivered =>
    refine ⟨event :: waiting, ?_, ?_, fun hlossless => ?_⟩
    · rw [hdispatched.events]
      simp [recordedIn, recorded?]
    · -- The behaviours that were reached are some of those bound to the first event.
      have hreached : (tellingsIn marks).Sublist (service.tellingsOf event) := by
        rw [htellings]
        exact hprefix.sublist.map _
      have hnone : tellingsIn (marks ++ [.lost (event :: waiting)]) = tellingsIn marks := by
        simp [tellingsIn, telling?]
      rw [hnone, List.flatMap_cons]
      exact hreached.trans (List.sublist_append_left _ _)
    · exact absurd (List.mem_append_right _ (List.mem_singleton_self _)) (hlossless _)

end Deliveries

/-! ## Flushes -/

/-- No behaviour flushes or drains. -/
def RuleService.TellsOnly (service : RuleService) : Prop :=
  ∀ behaviour ∈ service.behaviours, ∀ event, (behaviour.react event).CallsOnlyIf False

section Flushes

open RuleService

variable {rules : RuleStore} {engine : ObservedEngine} {answer : Except Error Unit}

/-- Events are delivered before those that are recorded meanwhile. -/
theorem account_observeDeliveries (hR : Enduring R) (hservice : service.TellsOnly)
    {events : List NodeEvent}
    (hruns : (service.observeDeliveries rules engine events).routine.Runs state answer after) :
    Account service R (events ++ state.work.nodes.events) state
        ((service.observeDeliveries rules engine events).marks state) after.work.nodes.events
        after ∧
      ∀ result, answer = .ok result →
        Lossless ((service.observeDeliveries rules engine events).marks state) := by
  induction events generalizing state with
  | nil =>
      obtain ⟨-, rfl⟩ := Routine.runs_pure.mp hruns
      exact ⟨.refl hR _ _, fun _ _ => lossless_nil⟩
  | cons event events ih =>
      unfold observeDeliveries at hruns ⊢
      obtain ⟨hruns, hmarks⟩ := Observed.runs_of_bind (Routine.runs_update _) hruns
      have hnoted : R state { state with work := state.work.noteNew event } :=
        hR.step (.noteNew state event)
      have hbound : ∀ behaviour ∈ service.boundTo event.kind,
          (behaviour.react event).CallsOnlyIf False :=
        fun behaviour hbehaviour => hservice behaviour (List.mem_filter.mp hbehaviour).1 event
      rw [hmarks, ← state.work.nodes_noteNew event]
      rcases Observed.runs_bind hruns with
        ⟨_, middle, hfirst, hrest, hmarks⟩ | ⟨error, hfirst, rfl, hmarks⟩
      · have hdispatched := dispatched_forM service hR hbound hfirst
        obtain ⟨hothers, hok⟩ := ih hrest
        rw [Observed.routine_markError] at hfirst
        rw [hmarks, Observed.marks_markError_ok hfirst]
        exact ⟨((hdispatched.account hR events).trans hR hothers).before hR hnoted,
          fun result hresult => lossless_append.mpr ⟨hdispatched.lossless, hok result hresult⟩⟩
      · have haccount := (dispatched_forM service hR hbound hfirst).account_lost hR events
        rw [Observed.routine_markError] at hfirst
        rw [hmarks, Observed.marks_markError_error hfirst]
        exact ⟨haccount.before hR hnoted, by simp⟩

/-- A flush delivers all events, also those recorded meanwhile, unless it fails. -/
theorem account_flush (hR : Enduring R) (hservice : service.TellsOnly) {budget : Nat}
    (hruns : (service.observed rules budget).flush.routine.Runs state answer after) :
    Account service R state.work.nodes.events state
        ((service.observed rules budget).flush.marks state) after.work.nodes.events after ∧
      ∀ result, answer = .ok result →
        Lossless ((service.observed rules budget).flush.marks state) := by
  induction budget generalizing state with
  | zero => exact absurd hruns Routine.runs_exhausted
  | succ budget ih =>
      unfold observed at hruns ⊢
      obtain ⟨hruns, hmarks⟩ := Observed.runs_of_bind runs_takeEvents hruns
      have htaken : R state (withoutEvents state) := hR.step (.takeEvents state)
      rw [hmarks]
      cases hevents : state.work.nodes.events with
      | nil =>
          rw [hevents] at hruns
          obtain ⟨-, rfl⟩ := Routine.runs_pure.mp hruns
          refine ⟨?_, fun _ _ => lossless_nil⟩
          exact (Account.refl hR [] _).before hR htaken
      | cons event events =>
          rw [hevents] at hruns
          rcases Observed.runs_bind hruns with
            ⟨_, middle, hfirst, hrest, hmarks⟩ | ⟨error, hfirst, rfl, hmarks⟩
          · obtain ⟨haccount, hlossless⟩ := account_observeDeliveries hR hservice hfirst
            obtain ⟨hothers, hok⟩ := ih hrest
            rw [show (withoutEvents state).work.nodes.events = [] from rfl, List.append_nil]
              at haccount
            rw [hmarks]
            exact ⟨(haccount.trans hR hothers).before hR htaken, fun result hresult =>
              lossless_append.mpr ⟨hlossless () rfl, hok result hresult⟩⟩
          · obtain ⟨haccount, -⟩ := account_observeDeliveries hR hservice hfirst
            rw [show (withoutEvents state).work.nodes.events = [] from rfl, List.append_nil]
              at haccount
            rw [hmarks]
            exact ⟨haccount.before hR htaken, by simp⟩

/-- A flush that a script starts is balanced, since the script is told if it fails. -/
theorem balanced_flush (hR : Enduring R) (hservice : service.TellsOnly) (budget : Nat) :
    ((service.observed rules budget).flush.markError .refused).Keeps (Balanced service R) := by
  intro state after answer hruns
  rw [Observed.routine_markError] at hruns
  obtain ⟨haccount, hlossless⟩ := account_flush hR hservice hruns
  cases answer with
  | ok result =>
      rw [Observed.marks_markError_ok hruns]
      exact ⟨haccount, .inr (.inr (hlossless result rfl))⟩
  | error error =>
      rw [Observed.marks_markError_error hruns]
      refine ⟨?_, .inr (.inl (List.mem_append_right _ (List.mem_singleton_self _)))⟩
      exact haccount.trans hR (.of_mark (hR.refl _) _ rfl rfl trivial)

end Flushes

/-! ## Drains -/

/-- What is said between two entries of a drain: no event waits. -/
def BalancedBetween (service : RuleService) (R : WorkState → WorkState → Prop) (state : WorkState)
    (marks : List Mark) (after : WorkState) : Prop :=
  state.work.nodes.events = [] →
    Balanced service R state marks after ∧ after.work.nodes.events = []

theorem composes_balancedBetween (hR : Enduring R) : Composes (BalancedBetween service R) where
  refl state hquiet := ⟨(keptWithMarks_balanced hR).refl state, hquiet⟩
  trans hfirst hlast hquiet := by
    obtain ⟨hbalanced, hquiet⟩ := hfirst hquiet
    obtain ⟨hothers, hquiet⟩ := hlast hquiet
    exact ⟨(keptWithMarks_balanced hR).trans hbalanced hothers, hquiet⟩

/-- Something was done afterwards that left events and the flag alone. -/
theorem Balanced.afterwards (hR : Enduring R) (hbalanced : Balanced service R state marks after)
    (hstep : R after last) (hevents : last.work.nodes.events = after.work.nodes.events) :
    Balanced service R state marks last where
  account := by
    rw [hevents]
    exact hbalanced.account.afterwards hR hstep
  excused := by
    rcases hbalanced.excused with haborted | hmarks
    · exact .inl (hR.aborted hstep haborted)
    · exact .inr hmarks

/-- If no event waited, what is undone is complete in itself. -/
theorem Account.selfContained {left : List NodeEvent}
    (haccount : Account service R [] state marks left after) : SelfContained service marks := by
  obtain ⟨delivered, hqueue, htold, -⟩ := haccount.delivered
  refine ⟨htold.trans ?_, fun block hmark => haccount.holds _ hmark⟩
  rw [List.nil_append] at hqueue
  rw [hqueue, List.flatMap_append]
  exact List.sublist_append_left _ _

section Drains

open RuleService

variable {rules : RuleStore} {budget : Nat} (hR : Enduring R) (hservice : service.TellsOnly)
  (hdrain : (service.observed rules budget).drain.Keeps (Balanced service R))

include hR hservice hdrain

/-- What a rule does is balanced, unless it fails.  If no event waited before, none waits then. -/
theorem account_observeRule {entry : PendingEntry} {answer : Except Error Outcome}
    (hruns : (service.observeRule rules (service.observed rules budget) entry).routine.Runs state
      answer after) :
    Account service R state.work.nodes.events state
        ((service.observeRule rules (service.observed rules budget) entry).marks state)
        after.work.nodes.events after ∧
      ∀ outcome, answer = .ok outcome →
        Excused ((service.observeRule rules (service.observed rules budget) entry).marks state)
            after ∧
          (state.work.nodes.events = [] → after.work.nodes.events = []) := by
  have hbalanced (script : Script Unit) :
      (script.observe rules (service.observed rules budget)).Keeps (Balanced service R) :=
    Script.observe_keeps (keptWithMarks_balanced hR) (fun _ => balanced_flush hR hservice budget)
      (fun _ => hdrain) script.callsOnlyIf_true
  rcases runs_observeRule hruns with ⟨rfl, hmarks⟩ | ⟨script, hscript⟩
  · rw [hmarks]
    have hnothing : Balanced service R after [] after := (keptWithMarks_balanced hR).refl after
    exact ⟨hnothing.account, fun _ _ => ⟨hnothing.excused, id⟩⟩
  · rcases hscript with
      ⟨error, hexecute, rfl, hmarks⟩ | ⟨middle, flushed, hexecute, hflush, rfl, hmarks⟩
    · rw [hmarks]
      exact ⟨(hbalanced script hexecute).account, by simp⟩
    · obtain ⟨haccount, hexcused⟩ := hbalanced script hexecute
      obtain ⟨hdelivered, hlossless⟩ := account_flush hR hservice hflush
      rw [hmarks]
      refine ⟨haccount.trans hR hdelivered, fun outcome houtcome => ?_⟩
      cases flushed with
      | error error => cases houtcome
      | ok result =>
          refine ⟨hexcused.append hR (.inr (.inr (hlossless result rfl))) hdelivered.related, ?_⟩
          intro _
          rw [flush_observed] at hflush
          exact events_eq_nil_of_flush hflush

/-- An entry is begun when no event waits and left when none does, whether it fails or not. -/
theorem balancedBetween_observeEntry (entry : PendingEntry) :
    (service.observeEntry rules (service.observed rules budget) entry).Keeps
      (BalancedBetween service R) := by
  intro state after answer hruns hquiet
  rcases runs_observeEntry hruns with
    ⟨rfl, hmarks⟩ | ⟨outcome, hexecuting, hmarks⟩ | ⟨error, failed, hexecuting, rfl, hmarks⟩
  · rw [hmarks]
    exact (composes_balancedBetween hR).refl after hquiet
  · obtain ⟨inner, hrule, rfl, hinner⟩ := runs_observeExecuting hexecuting
    obtain ⟨haccount, hok⟩ := account_observeRule hR hservice hdrain hrule
    obtain ⟨hexcused, hevents⟩ := hok outcome rfl
    have hbegun := haccount.before hR (hR.mark state (some entry.rule))
    rw [hmarks, hinner]
    exact ⟨Balanced.afterwards hR ⟨hbegun, hexcused⟩ (hR.mark inner state.work.executing) rfl,
      hevents hquiet⟩
  · -- What the entry did is undone, and the events from before it, none, are back.
    obtain ⟨inner, hrule, rfl, hinner⟩ := runs_observeExecuting hexecuting
    obtain ⟨haccount, -⟩ := account_observeRule hR hservice hdrain hrule
    have hevents : ({ state with
        work := { state.work with executing := some entry.rule } } : WorkState).work.nodes.events =
          [] := hquiet
    rw [hevents] at haccount
    have hrestored : R state _ :=
      hR.restore (hR.executing entry.rule haccount.related)
    rw [hmarks, hinner]
    refine ⟨⟨?_, .inr (.inr fun events hmark => ?_)⟩, hquiet⟩
    · exact .of_mark hrestored _ rfl rfl haccount.selfContained
    · cases List.mem_singleton.mp hmark

theorem balancedBetween_observeProcess (report : DrainReport) (entry : PendingEntry) :
    (service.observeProcess rules (service.observed rules budget) report entry).Keeps
      (BalancedBetween service R) := by
  intro state after answer hruns
  rcases runs_observeProcess hruns with ⟨rfl, hmarks⟩ | ⟨outcome, middle, hentry, hafter, hmarks⟩
  · rw [hmarks]
    exact (composes_balancedBetween hR).refl after
  · intro hquiet
    obtain ⟨hbalanced, hevents⟩ :=
      balancedBetween_observeEntry hR hservice hdrain entry hentry hquiet
    rw [hmarks]
    rcases hafter with rfl | ⟨failure, rfl⟩
    · exact ⟨hbalanced, hevents⟩
    · exact ⟨hbalanced.afterwards hR (hR.failEntry middle failure) rfl, hevents⟩

theorem balancedBetween_observeRounds (remaining : Nat) (report : DrainReport) :
    (service.observeRounds rules (service.observed rules budget) remaining report).Keeps
      (BalancedBetween service R) := by
  have htaken (state : WorkState) : BalancedBetween service R state [] (withoutPending state) :=
    fun hquiet => ⟨Balanced.afterwards hR ((keptWithMarks_balanced hR).refl state)
      (hR.takePending state) rfl, hquiet⟩
  have htake : (Observed.of takePending).Keeps (BalancedBetween service R) := by
    intro state after answer hruns
    obtain ⟨-, rfl⟩ := runs_takePending.unique hruns
    exact htaken state
  induction remaining generalizing report with
  | zero =>
      unfold observeRounds
      refine (composes_balancedBetween hR).bind htake fun batch => ?_
      split
      · exact (composes_balancedBetween hR).pure report
      · exact (composes_balancedBetween hR).throw _
  | succ remaining ih =>
      unfold observeRounds
      refine (composes_balancedBetween hR).bind htake fun batch => ?_
      split
      · exact (composes_balancedBetween hR).pure report
      · refine (composes_balancedBetween hR).bind ?_ fun report => ih report
        exact (composes_balancedBetween hR).foldlM
          (balancedBetween_observeProcess hR hservice hdrain) _ _

/-- A drain is balanced unless the first flush fails, and leaves no event if it succeeds. -/
theorem account_observeSettling {answer : Except Error DrainReport}
    (hruns : (service.observeSettling rules (service.observed rules budget)).routine.Runs state
      answer after) :
    Account service R state.work.nodes.events state
        ((service.observeSettling rules (service.observed rules budget)).marks state)
        after.work.nodes.events after ∧
      ∀ report, answer = .ok report →
        Excused ((service.observeSettling rules (service.observed rules budget)).marks state)
            after ∧
          after.work.nodes.events = [] := by
  rcases Observed.runs_bind hruns with
    ⟨_, middle, hflush, hrounds, hmarks⟩ | ⟨error, hflush, rfl, hmarks⟩
  · obtain ⟨haccount, hlossless⟩ := account_flush hR hservice hflush
    have hquiet : middle.work.nodes.events = [] := by
      rw [flush_observed] at hflush
      exact events_eq_nil_of_flush hflush
    obtain ⟨hbalanced, hevents⟩ :=
      balancedBetween_observeRounds hR hservice hdrain _ {} hrounds hquiet
    have hexcused : Excused ((service.observed rules budget).flush.marks state) middle :=
      .inr (.inr (hlossless _ rfl))
    unfold observeSettling
    rw [hmarks]
    exact ⟨haccount.trans hR hbalanced.account, fun _ _ =>
      ⟨hexcused.append hR hbalanced.excused hbalanced.account.related, hevents⟩⟩
  · unfold observeSettling
    rw [hmarks]
    exact ⟨(account_flush hR hservice hflush).1, by simp⟩

omit hdrain in
/-- Drains are balanced: what is lost when a flush fails in one is excused by the flag. -/
theorem balanced_drain (budget : Nat) :
    (service.observed rules budget).drain.Keeps (Balanced service R) := by
  induction budget with
  | zero => exact fun _ _ _ hruns => absurd hruns Routine.runs_exhausted
  | succ budget hdrain =>
      intro state after answer hruns
      unfold observed at hruns ⊢
      rcases runs_observeAborting hruns with
        ⟨report, hbody, rfl, hmarks⟩ | ⟨error, failed, hbody, rfl, rfl, hmarks⟩
      · obtain ⟨haccount, hok⟩ := account_observeSettling hR hservice hdrain hbody
        rw [hmarks]
        exact ⟨haccount, (hok report rfl).1⟩
      · obtain ⟨haccount, -⟩ := account_observeSettling hR hservice hdrain hbody
        rw [hmarks]
        exact ⟨haccount.afterwards hR (hR.abort failed error), .inl rfl⟩

omit hdrain in
theorem events_eq_nil_of_drain {budget : Nat} {report : DrainReport}
    (hruns : (service.observed rules budget).drain.routine.Runs state (.ok report) after) :
    after.work.nodes.events = [] := by
  cases budget with
  | zero => exact absurd hruns Routine.runs_exhausted
  | succ budget =>
      unfold observed at hruns
      rcases runs_observeAborting hruns with ⟨_, hbody, -, -⟩ | ⟨_, _, -, ⟨⟩, -, -⟩
      have hdrain : (service.observed rules budget).drain.Keeps (Balanced service R) :=
        balanced_drain hR hservice budget
      exact ((account_observeSettling hR hservice hdrain hbody).2 _ rfl).2

omit hdrain in
/-- Whatever a script does, the account of it is balanced. -/
theorem balanced_observe (budget : Nat) (script : Script α) :
    (service.observe rules budget script).Keeps (Balanced service R) :=
  Script.observe_keeps (keptWithMarks_balanced hR) (fun _ => balanced_flush hR hservice budget)
    (fun _ => balanced_drain hR hservice budget) script.callsOnlyIf_true

end Drains

end ContentRules
