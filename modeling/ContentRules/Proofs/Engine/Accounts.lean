import ContentRules.Proofs.Engine.Commit
import ContentRules.Proofs.Engine.Observed
import ContentRules.Proofs.NodeStore.Recorded

/-!
# Accounts of what behaviours are told

What is told on the way from one state to another is compared with a queue: events that wait,
followed by those that are recorded, are those delivered, followed by those that are left.

**Strategy.**  Accounts of one routine after the other are put together (`Account.trans`), so a run
is accounted for by looking at its steps.  A flush that fails loses events, and is excused if the
unit of work is aborted then or if a script was told so (`Excused`).  What a routine keeps that
begins when no event waits is `Balanced`; of one that only records events it is known which
(`Records`).
-/

namespace ContentRules

/-! ## Marks -/

namespace Mark

/-- The event that was recorded. -/
def recorded? : Mark → Option NodeEvent
  | recorded event => some event
  | _ => none

/-- The behaviour that was told, and the event. -/
def telling? : Mark → Option (NodeEvent × Behaviour)
  | told _ _ event behaviour => some (event, behaviour)
  | _ => none

/-- The events that were recorded and not undone, in their order. -/
def recordedIn (marks : List Mark) : List NodeEvent :=
  marks.filterMap recorded?

/-- Which behaviours were told of which events, in the order in which they were. -/
def tellingsIn (marks : List Mark) : List (NodeEvent × Behaviour) :=
  marks.filterMap telling?

/-- No flush failed, except in what was undone. -/
def Lossless (marks : List Mark) : Prop :=
  ∀ events, .lost events ∉ marks

variable {marks more : List Mark}

@[simp] theorem recordedIn_append :
    recordedIn (marks ++ more) = recordedIn marks ++ recordedIn more :=
  List.filterMap_append

@[simp] theorem tellingsIn_append :
    tellingsIn (marks ++ more) = tellingsIn marks ++ tellingsIn more :=
  List.filterMap_append

theorem lossless_nil : Lossless [] := by
  intro events hmark
  cases hmark

theorem lossless_append : Lossless (marks ++ more) ↔ Lossless marks ∧ Lossless more := by
  simp only [Lossless, List.mem_append, not_or, forall_and]

theorem mem_recordedIn {event : NodeEvent} : event ∈ recordedIn marks ↔ recorded event ∈ marks := by
  unfold recordedIn
  rw [List.mem_filterMap]
  constructor
  · intro hexists
    obtain ⟨mark, hmark, hevent⟩ := hexists
    cases mark with
    | recorded other =>
        obtain rfl := Option.some.inj hevent
        exact hmark
    | told | lost | refused | undone => cases hevent
  · intro hmark
    exact ⟨_, hmark, rfl⟩

theorem mem_tellingsIn {event : NodeEvent} {behaviour : Behaviour} :
    (event, behaviour) ∈ tellingsIn marks ↔
      ∃ rules state, told rules state event behaviour ∈ marks := by
  unfold tellingsIn
  rw [List.mem_filterMap]
  constructor
  · intro hexists
    obtain ⟨mark, hmark, htelling⟩ := hexists
    cases mark with
    | told rules state other listener =>
        cases htelling
        exact ⟨rules, state, hmark⟩
    | recorded | lost | refused | undone => cases htelling
  · intro hexists
    obtain ⟨rules, state, hmark⟩ := hexists
    exact ⟨_, hmark, rfl⟩

@[simp] theorem recordedIn_map_recorded (events : List NodeEvent) :
    recordedIn (events.map recorded) = events := by
  unfold recordedIn
  rw [List.filterMap_map]
  exact List.filterMap_some

end Mark

open Mark

/-- Every behaviour that is bound to the event's kind, once. -/
def RuleService.tellingsOf (service : RuleService) (event : NodeEvent) :
    List (NodeEvent × Behaviour) :=
  (service.boundTo event.kind).map fun behaviour => (event, behaviour)

/-- What was undone is complete in itself: of the events that were recorded in it, some were told in
their order, each to every behaviour once at most, and no others were. -/
inductive SelfContained (service : RuleService) : List Mark → Prop
  | intro {marks : List Mark}
      (htold : (tellingsIn marks).Sublist ((recordedIn marks).flatMap service.tellingsOf))
      (hundone : ∀ block, .undone block ∈ marks → SelfContained service block) :
      SelfContained service marks

/-! ## Accounts -/

/-- A relation between states that holds whatever is done, also if the mark of the rule being run is
set and not put back.  A unit of work that is aborted stays so. -/
structure Enduring (R : WorkState → WorkState → Prop) : Prop extends KeptByDrains R where
  mark : ∀ (state : WorkState) (rule? : Option Rule),
    R state { state with work := { state.work with executing := rule? } }
  aborted : ∀ {state after : WorkState}, R state after → state.work.aborted → after.work.aborted

/-- The event waited at first or was recorded since. -/
def KnownSince (R : WorkState → WorkState → Prop) (waiting : List NodeEvent)
    (state later : WorkState) (event : NodeEvent) : Prop :=
  R state later ∧ (event ∈ waiting ∨
    ∃ former, R state former ∧ event ∈ former.work.nodes.events ∧ R former later)

/-- What a mark says that was made on the way from one state to another, if some events waited at
first.  What a behaviour left is related to what is left. -/
def Mark.Holds (service : RuleService) (R : WorkState → WorkState → Prop)
    (waiting : List NodeEvent) (state after : WorkState) : Mark → Prop
  | recorded event => KnownSince R waiting state after event
  | told rules earlier event behaviour => KnownSince R waiting state earlier event ∧
      ∃ engine answer later,
        ((behaviour.react event).run rules engine).Runs earlier answer later ∧ R later after
  | undone block => SelfContained service block
  | lost _ => True
  | refused => True

/-- What was told on the way from one state to another, if some events waited at first and some are
left. -/
structure Account (service : RuleService) (R : WorkState → WorkState → Prop)
    (waiting : List NodeEvent) (state : WorkState) (marks : List Mark) (left : List NodeEvent)
    (after : WorkState) : Prop where
  related : R state after
  holds : ∀ mark ∈ marks, mark.Holds service R waiting state after
  delivered : ∃ delivered, waiting ++ recordedIn marks = delivered ++ left ∧
    (tellingsIn marks).Sublist (delivered.flatMap service.tellingsOf) ∧
    (Lossless marks → tellingsIn marks = delivered.flatMap service.tellingsOf)

/-- If events were lost, the unit of work is aborted, or a script was told so. -/
def Excused (marks : List Mark) (after : WorkState) : Prop :=
  after.work.aborted ∨ .refused ∈ marks ∨ Lossless marks

variable {service : RuleService} {R : WorkState → WorkState → Prop}
  {state after last : WorkState} {marks more : List Mark}

section Holds

variable {waiting former : List NodeEvent} {event : NodeEvent} {mark : Mark}

theorem KnownSince.of_mem (hR : Enduring R) (hmem : event ∈ waiting) (state : WorkState) :
    KnownSince R waiting state state event :=
  ⟨hR.refl state, .inl hmem⟩

theorem KnownSince.mono (hR : Enduring R) (hknown : KnownSince R waiting state after event)
    (hrelated : R after last) : KnownSince R waiting state last event := by
  obtain ⟨hafter, hevent⟩ := hknown
  refine ⟨hR.trans hafter hrelated, hevent.imp_right fun hrecorded => ?_⟩
  obtain ⟨former, hformer, hmem, hlater⟩ := hrecorded
  exact ⟨former, hformer, hmem, hR.trans hlater hrelated⟩

/-- What has waited was known before. -/
theorem KnownSince.trans (hR : Enduring R) (hknown : KnownSince R former after last event)
    (hformer : ∀ event ∈ former, KnownSince R waiting state after event)
    (hrelated : R state after) : KnownSince R waiting state last event := by
  obtain ⟨hlast, hmem | ⟨between, hbetween, hmem, hlater⟩⟩ := hknown
  · exact (hformer event hmem).mono hR hlast
  · exact ⟨hR.trans hrelated hlast, .inr ⟨between, hR.trans hrelated hbetween, hmem, hlater⟩⟩

theorem Mark.Holds.mono (hR : Enduring R) (hholds : mark.Holds service R waiting state after)
    (hrelated : R after last) : mark.Holds service R waiting state last := by
  cases mark with
  | recorded event => exact KnownSince.mono hR hholds hrelated
  | told rules earlier event behaviour =>
      obtain ⟨hknown, engine, answer, later, hruns, hlater⟩ := hholds
      exact ⟨hknown, engine, answer, later, hruns, hR.trans hlater hrelated⟩
  | undone | lost | refused => exact hholds

theorem Mark.Holds.trans (hR : Enduring R) (hholds : mark.Holds service R former after last)
    (hformer : ∀ event ∈ former, KnownSince R waiting state after event)
    (hrelated : R state after) : mark.Holds service R waiting state last := by
  cases mark with
  | recorded event => exact KnownSince.trans hR hholds hformer hrelated
  | told rules earlier event behaviour =>
      obtain ⟨hknown, hruns⟩ := hholds
      exact ⟨hknown.trans hR hformer hrelated, hruns⟩
  | undone | lost | refused => exact hholds

/-- An event that waits afterwards was recorded. -/
theorem KnownSince.of_waiting (hR : Enduring R) (hrelated : R state after)
    (hmem : event ∈ after.work.nodes.events) : KnownSince R waiting state after event :=
  ⟨hrelated, .inr ⟨after, hrelated, hmem, hR.refl after⟩⟩

end Holds

namespace Account

variable {waiting left rest : List NodeEvent}

theorem refl (hR : Enduring R) (waiting : List NodeEvent) (state : WorkState) :
    Account service R waiting state [] waiting state where
  related := hR.refl state
  holds _ hmark := by cases hmark
  delivered := ⟨[], by simp [recordedIn, tellingsIn]⟩

/-- What is left has waited or was recorded. -/
theorem knownSince (hR : Enduring R) (haccount : Account service R waiting state marks left after)
    {event : NodeEvent} (hmem : event ∈ left) : KnownSince R waiting state after event := by
  obtain ⟨delivered, hqueue, -⟩ := haccount.delivered
  have hmem : event ∈ waiting ++ recordedIn marks := by
    rw [hqueue]
    exact List.mem_append_right _ hmem
  rcases List.mem_append.mp hmem with hwaiting | hrecorded
  · exact (KnownSince.of_mem hR hwaiting state).mono hR haccount.related
  · exact haccount.holds _ (mem_recordedIn.mp hrecorded)

theorem trans (hR : Enduring R) (hfirst : Account service R waiting state marks left after)
    (hlast : Account service R left after more rest last) :
    Account service R waiting state (marks ++ more) rest last where
  related := hR.trans hfirst.related hlast.related
  holds mark hmark := by
    rcases List.mem_append.mp hmark with hmark | hmark
    · exact (hfirst.holds mark hmark).mono hR hlast.related
    · exact (hlast.holds mark hmark).trans hR (fun _ => hfirst.knownSince hR) hfirst.related
  delivered := by
    obtain ⟨first, hqueue, htold, hall⟩ := hfirst.delivered
    obtain ⟨second, hqueue', htold', hall'⟩ := hlast.delivered
    refine ⟨first ++ second, ?_, ?_, ?_⟩
    · rw [recordedIn_append, ← List.append_assoc, hqueue, List.append_assoc, hqueue',
        List.append_assoc]
    · rw [tellingsIn_append, List.flatMap_append]
      exact htold.append htold'
    · intro hlossless
      obtain ⟨hmarks, hmore⟩ := lossless_append.mp hlossless
      rw [tellingsIn_append, List.flatMap_append, hall hmarks, hall' hmore]

/-- Nothing was recorded or told, and no event was taken. -/
theorem of_mark {mark : Mark} (hrelated : R state after) (waiting : List NodeEvent)
    (hrecorded : mark.recorded? = none) (htelling : mark.telling? = none)
    (hholds : mark.Holds service R waiting state after) :
    Account service R waiting state [mark] waiting after where
  related := hrelated
  holds := List.forall_mem_singleton.mpr hholds
  delivered := ⟨[], by simp [recordedIn, tellingsIn, hrecorded, htelling]⟩

/-- Something was done before, of which there is nothing to be seen. -/
theorem before (hR : Enduring R) (hstep : R state after)
    (haccount : Account service R waiting after marks left last) :
    Account service R waiting state marks left last :=
  { haccount with
    related := hR.trans hstep haccount.related
    holds := fun mark hmark => (haccount.holds mark hmark).trans hR
      (fun _ hmem => (KnownSince.of_mem hR hmem state).mono hR hstep) hstep }

/-- Something was done afterwards. -/
theorem afterwards (hR : Enduring R) (haccount : Account service R waiting state marks left after)
    (hstep : R after last) : Account service R waiting state marks left last where
  related := hR.trans haccount.related hstep
  holds mark hmark := (haccount.holds mark hmark).mono hR hstep
  delivered := haccount.delivered

/-- If no event is left and none was lost, behaviours were told of all. -/
theorem tellings_eq (haccount : Account service R waiting state marks [] after)
    (hlossless : Lossless marks) :
    tellingsIn marks = (waiting ++ recordedIn marks).flatMap service.tellingsOf := by
  obtain ⟨delivered, hqueue, -, htellings⟩ := haccount.delivered
  rw [htellings hlossless, hqueue, List.append_nil]

end Account

namespace Excused

theorem append (hR : Enduring R) (hmarks : Excused marks after) (hmore : Excused more last)
    (hrelated : R after last) : Excused (marks ++ more) last := by
  rcases hmore with haborted | hrefused | hmore
  · exact .inl haborted
  · exact .inr (.inl (List.mem_append_right _ hrefused))
  · rcases hmarks with haborted | hrefused | hmarks
    · exact .inl (hR.aborted hrelated haborted)
    · exact .inr (.inl (List.mem_append_left _ hrefused))
    · exact .inr (.inr (lossless_append.mpr ⟨hmarks, hmore⟩))

end Excused

/-! ## Scripts -/

/-- What is said of a routine that scripts may call on: all that it takes it tells, or it is
excused. -/
structure Balanced (service : RuleService) (R : WorkState → WorkState → Prop) (state : WorkState)
    (marks : List Mark) (after : WorkState) : Prop where
  account : Account service R state.work.nodes.events state marks after.work.nodes.events after
  excused : Excused marks after

/-- What is said of a script that neither flushes nor drains: it records events at most. -/
structure Records (R : WorkState → WorkState → Prop) (state : WorkState) (marks : List Mark)
    (after : WorkState) : Prop where
  related : R state after
  events : after.work.nodes.events = state.work.nodes.events ++ recordedIn marks
  recorded : ∀ mark ∈ marks, ∃ event, mark = .recorded event

theorem Records.holds (hR : Enduring R) (hrecords : Records R state marks after) {mark : Mark}
    (hmark : mark ∈ marks) {waiting : List NodeEvent} :
    mark.Holds service R waiting state after := by
  obtain ⟨event, rfl⟩ := hrecords.recorded mark hmark
  refine KnownSince.of_waiting hR hrecords.related ?_
  rw [hrecords.events]
  exact List.mem_append_right _ (mem_recordedIn.mpr hmark)

theorem Records.lossless (hrecords : Records R state marks after) : Lossless marks := by
  intro events hmark
  obtain ⟨_, ⟨⟩⟩ := hrecords.recorded _ hmark

theorem Records.tellings_eq (hrecords : Records R state marks after) : tellingsIn marks = [] := by
  refine List.filterMap_eq_nil_iff.mpr ?_
  intro mark hmark
  obtain ⟨event, rfl⟩ := hrecords.recorded mark hmark
  rfl

theorem keptWithMarks_records (hR : Enduring R) : KeptWithMarks (Records R) where
  refl state := ⟨hR.refl state, (List.append_nil _).symm, by simp⟩
  trans hfirst hlast :=
    ⟨hR.trans hfirst.related hlast.related,
      by rw [hlast.events, hfirst.events, recordedIn_append, List.append_assoc],
      List.forall_mem_append.mpr ⟨hfirst.recorded, hlast.recorded⟩⟩
  edit state change := by
    obtain ⟨recorded, hrecorded⟩ := (change.steps_run state.store).events_grow
    have hevents : (Routine.edited state change).work.nodes.events =
        state.work.nodes.events ++ recorded := hrecorded.symm
    refine ⟨hR.step (.edit state change), ?_, ?_⟩
    · show _ = _ ++ recordedIn (List.map _ _)
      rw [recordedIn_map_recorded, hevents, List.drop_left]
    · intro mark hmark
      obtain ⟨event, -, rfl⟩ := List.mem_map.mp hmark
      exact ⟨event, rfl⟩
  silent hstep hnodes :=
    ⟨hR.step hstep, by rw [hnodes]; exact (List.append_nil _).symm, by simp⟩

/-- Whoever only records events is balanced. -/
theorem Records.balanced (hR : Enduring R) (hrecords : Records R state marks after) :
    Balanced service R state marks after where
  account :=
    { related := hrecords.related
      holds := fun mark hmark => hrecords.holds hR hmark
      delivered := by
        refine ⟨[], by rw [hrecords.events, List.nil_append], ?_, fun _ => hrecords.tellings_eq⟩
        rw [hrecords.tellings_eq]
        exact List.nil_sublist _ }
  excused := .inr (.inr hrecords.lossless)

theorem keptWithMarks_balanced (hR : Enduring R) : KeptWithMarks (Balanced service R) where
  refl state := ((keptWithMarks_records hR).refl state).balanced hR
  trans hfirst hlast :=
    ⟨hfirst.account.trans hR hlast.account,
      hfirst.excused.append hR hlast.excused hlast.account.related⟩
  edit state change := ((keptWithMarks_records hR).edit state change).balanced hR
  silent hstep hnodes := ((keptWithMarks_records hR).silent hstep hnodes).balanced hR

end ContentRules
