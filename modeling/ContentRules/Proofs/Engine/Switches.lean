import ContentRules.Proofs.Builtin.Handlers
import ContentRules.Proofs.Engine.Undo

/-!
# Switches that a failed entry has turned

A checkpoint holds nothing of the switches, so an entry that fails leaves them as its rule left
them, and entries that come later may be skipped for it.

**Strategy.**  What is run turns the switches one after the other, and does nothing else to them
(`UnitOfWork.TurnedBy`); putting back a checkpoint is no turn.  The rules of a node are enabled or
not as before if none of the turns concerns the node.
-/

namespace ContentRules

/-- The turns that may change whether the rules of a node are enabled. -/
def Switch.Concerns (node : NodeRef) : Switch → Prop
  | enable other => other = node
  | disable other => other = node
  | enableAll => True
  | disableAll => True

/-- All that can be done, but of the switches only some may be turned. -/
def Act.TurnsOnly (allowed : Switch → Prop) : Act → Prop
  | turn switch => allowed switch
  | _ => True

namespace UnitOfWork

variable {work other later : UnitOfWork} {allowed : Switch → Prop} {node : NodeRef}

/-- The switches of both stand alike. -/
structure SameSwitches (work other : UnitOfWork) : Prop where
  disabledNodes : other.disabledNodes = work.disabledNodes
  rulesDisabled : other.rulesDisabled = work.rulesDisabled

namespace SameSwitches

theorem refl (work : UnitOfWork) : work.SameSwitches work :=
  ⟨rfl, rfl⟩

theorem trans (hother : work.SameSwitches other) (hlater : other.SameSwitches later) :
    work.SameSwitches later :=
  ⟨hlater.disabledNodes.trans hother.disabledNodes,
    hlater.rulesDisabled.trans hother.rulesDisabled⟩

theorem rulesEnabled_eq (hsame : work.SameSwitches other) (node : NodeRef) :
    other.rulesEnabled node = work.rulesEnabled node := by
  unfold rulesEnabled
  rw [hsame.disabledNodes, hsame.rulesDisabled]

/-- How the switches stand after a turn depends on how they stood. -/
theorem turn (hsame : work.SameSwitches other) (switch : Switch) :
    (work.turn switch).SameSwitches (other.turn switch) := by
  obtain ⟨hdisabledNodes, hrulesDisabled⟩ := hsame
  cases switch <;> constructor <;> simp [UnitOfWork.turn, hdisabledNodes, hrulesDisabled]

theorem turns (hsame : work.SameSwitches other) (turned : List Switch) :
    (turned.foldl UnitOfWork.turn work).SameSwitches (turned.foldl UnitOfWork.turn other) := by
  induction turned generalizing work other with
  | nil => exact hsame
  | cons switch turned ih => exact ih (hsame.turn switch)

end SameSwitches

/-- The switches stand as some of the allowed turns have left them, one after the other. -/
def TurnedBy (allowed : Switch → Prop) (work other : UnitOfWork) : Prop :=
  ∃ turned : List Switch, (∀ switch ∈ turned, allowed switch) ∧
    (turned.foldl turn work).SameSwitches other

namespace TurnedBy

theorem of_same (hsame : work.SameSwitches other) : work.TurnedBy allowed other :=
  ⟨[], nofun, hsame⟩

theorem of_turn {switch : Switch} (hallowed : allowed switch) :
    work.TurnedBy allowed (work.turn switch) :=
  ⟨[switch], List.forall_mem_singleton.mpr hallowed, .refl _⟩

theorem trans (hother : work.TurnedBy allowed other) (hlater : other.TurnedBy allowed later) :
    work.TurnedBy allowed later := by
  obtain ⟨first, hfirst, hother⟩ := hother
  obtain ⟨second, hsecond, hlater⟩ := hlater
  refine ⟨first ++ second, ?_, ?_⟩
  · intro switch hswitch
    exact (List.mem_append.mp hswitch).elim (hfirst switch) (hsecond switch)
  · rw [List.foldl_append]
    exact (hother.turns second).trans hlater

end TurnedBy

/-- A turn that does not concern a node changes nothing for it. -/
theorem rulesEnabled_turn {switch : Switch} (hconcerns : ¬ switch.Concerns node) :
    (work.turn switch).rulesEnabled node = work.rulesEnabled node := by
  cases switch with
  | enable other | disable other =>
      have hother : (compare other node == .eq) = false :=
        beq_eq_false_iff_ne.mpr fun hequal => hconcerns (Std.compare_eq_iff_eq.mp hequal)
      simp [turn, rulesEnabled, bne, hother]
  | enableAll | disableAll => exact absurd trivial hconcerns

theorem rulesEnabled_turns {turned : List Switch}
    (hconcerns : ∀ switch ∈ turned, ¬ switch.Concerns node) :
    (turned.foldl turn work).rulesEnabled node = work.rulesEnabled node := by
  induction turned generalizing work with
  | nil => rfl
  | cons switch turned ih =>
      obtain ⟨hswitch, hturned⟩ := List.forall_mem_cons.mp hconcerns
      exact (ih hturned).trans (rulesEnabled_turn hswitch)

theorem TurnedBy.rulesEnabled_eq (hturned : work.TurnedBy allowed other)
    (hconcerns : ∀ switch, allowed switch → ¬ switch.Concerns node) :
    other.rulesEnabled node = work.rulesEnabled node := by
  obtain ⟨turned, hallowed, hsame⟩ := hturned
  rw [hsame.rulesEnabled_eq]
  exact rulesEnabled_turns fun switch hswitch => hconcerns switch (hallowed switch hswitch)

end UnitOfWork

/-- What leaves the switches alone, or turns one that may be turned. -/
theorem keptByDrainsOf_turnedBy (allowed : Switch → Prop) :
    KeptByDrainsOf (Act.TurnsOnly allowed) fun state after =>
      state.work.TurnedBy allowed after.work where
  refl state := .of_same (.refl state.work)
  trans hfirst hsecond := hfirst.trans hsecond
  act {act} hallowed state := by
    cases act with
    | turn switch => exact .of_turn hallowed
    | enqueue entry =>
        obtain ⟨pending, hqueued⟩ := state.work.exists_enqueue_eq entry
        simp only [Act.effect, hqueued]
        exact .of_same ⟨rfl, rfl⟩
    | edit | deliver | runPending | deferCopy | note => exact .of_same ⟨rfl, rfl⟩
  takeEvents state := .of_same ⟨rfl, rfl⟩
  noteNew state event := by
    obtain ⟨newNodes, hnoted⟩ := state.work.exists_noteNew_eq event
    rw [hnoted]
    exact .of_same ⟨rfl, rfl⟩
  takePending state := .of_same ⟨rfl, rfl⟩
  executing {state after} rule hinner := by
    have hmarked : state.work.TurnedBy allowed { state.work with executing := some rule } :=
      .of_same ⟨rfl, rfl⟩
    exact (hmarked.trans hinner).trans (.of_same ⟨rfl, rfl⟩)
  restore hfailed := hfailed.trans (.of_same ⟨rfl, rfl⟩)
  failEntry state _ := .of_same ⟨rfl, rfl⟩
  abort state _ := .of_same ⟨rfl, rfl⟩

namespace RuleService

variable {service : RuleService} {rules : RuleStore} {budget : Nat} {entry : PendingEntry}
  {state after : WorkState} {allowed : Switch → Prop}

/-- **A failed entry leaves the switches as its rule left them.**  Let the handlers turn no switches
but those allowed.  When an entry has failed, the switches stand as they did where its rule failed,
which is how some of the allowed turns leave them.  So the rules of a node that no such turn
concerns are enabled or not as before the entry, and a later entry is skipped if it would have been
skipped before; where handlers turn no switches, this is so for every node. -/
theorem switches_of_failed (hservice : service.Uses (Act.TurnsOnly allowed)) {error : Error}
    (hruns : (service.runEntry rules (service.engine rules budget) entry).Runs state (.error error)
      after) :
    (∃ cause failed, (whileExecuting entry.rule
        (service.runRule rules (service.engine rules budget) entry)).Runs state (.error cause)
          failed ∧ failed.work.SameSwitches after.work) ∧
      state.work.TurnedBy allowed after.work ∧
      (∀ node, (∀ switch, allowed switch → ¬ switch.Concerns node) →
        after.work.rulesEnabled node = state.work.rulesEnabled node) ∧
      ∀ other : PendingEntry, (∀ switch, allowed switch → ¬ switch.Concerns other.actionable) →
        isSkipped after.work other = isSkipped state.work other := by
  obtain ⟨cause, failed, hrule, rfl⟩ := exists_failed_of_runs hruns
  have hkept := keptByDrainsOf_turnedBy allowed
  obtain ⟨hflush, hdrain⟩ := hservice.drain_keeps hkept budget
  have hturned : state.work.TurnedBy allowed failed.work :=
    hservice.whileExecuting_keeps hflush (fun _ => hdrain) hkept entry hrule
  have hrestored : state.work.TurnedBy allowed (failed.work.restore state.work.checkpoint) :=
    hturned.trans (.of_same ⟨rfl, rfl⟩)
  refine ⟨⟨cause, failed, hrule, rfl, rfl⟩, hrestored, ?_, ?_⟩
  · exact fun node hconcerns => hrestored.rulesEnabled_eq hconcerns
  · intro other hconcerns
    unfold isSkipped
    rw [hrestored.rulesEnabled_eq hconcerns]
    rfl

end RuleService

namespace Trial

/-- A service of the built-in handlers, none of which turns a switch. -/
def builtIn : RuleService :=
  { service with handlers := Builtin.handlers }

theorem uses_builtIn : builtIn.Uses (Act.TurnsOnly fun _ => False) where
  react := nofun
  execute hmade actionable actionedUpon := by
    refine (Builtin.uses_executor hmade actionable actionedUpon).mono
      fun act (hdoes : Builtin.DoesFor (fun _ => False) act) => ?_
    cases act with
    | turn switch => exact hdoes.1
    | edit | enqueue | deliver | runPending | deferCopy | note => trivial

/-- A node that is not there. -/
def nowhere : NodeRef :=
  { (entry "" "" []).actionable with id := "missing" }

/-- A rule that moves the root to a node that is not there. -/
def misplaced : PendingEntry :=
  entry "a" Builtin.Actions.move [(Builtin.Actions.destinationFolderParameter, .node nowhere)]

/-- A rule that disables the rules of the root, and then fails. -/
def disabling : PendingEntry :=
  entry "a" "fail" [("disable", .bool true)]

/-- A rule that waits to be run on the root as well. -/
def later : PendingEntry :=
  entry "b" "log" [("tag", .text "b")]

/-- The rules of one node are disabled. -/
def dimmed : WorkState :=
  { Echo.start with work := Echo.start.work.turn (.disable nowhere) }

end Trial

open Trial
open RuleService (isSkipped)

/-- A built-in action fails, and the one node whose rules were disabled stays the only one. -/
theorem RuleService.switches_of_failed_misplaced :
    builtIn.Uses (Act.TurnsOnly fun _ => False) ∧ ¬ dimmed.work.rulesEnabled nowhere ∧
      ∃ error after, (builtIn.runEntry {} (builtIn.engine {} 5) misplaced).Runs dimmed
          (.error error) after ∧
        (∀ node, after.work.rulesEnabled node = dimmed.work.rulesEnabled node) ∧
        ∀ other, isSkipped after.work other = isSkipped dimmed.work other := by
  have hdimmed : ¬ dimmed.work.rulesEnabled nowhere := by decide +kernel
  have hfails : ((builtIn.runEntry {} (builtIn.engine {} 5) misplaced).run.run dimmed).any
      fun result => !result.1.isOk := by
    decide +kernel
  obtain ⟨error | _, after, hruns, herror⟩ := Routine.exists_runs_of_any hfails
  case ok => cases herror
  obtain ⟨-, -, henabled, hskipped⟩ := RuleService.switches_of_failed uses_builtIn hruns
  exact ⟨uses_builtIn, hdimmed, error, after, hruns, fun node => henabled node nofun,
    fun other => hskipped other nofun⟩

/-- An entry disables the rules of its node and fails: they stay disabled, and an entry that would
have been run is skipped. -/
theorem RuleService.rulesEnabled_ne_of_failed :
    Echo.start.work.rulesEnabled disabling.actionable ∧ ¬ isSkipped Echo.start.work later ∧
      ∃ error after, (service.runEntry {} (service.engine {} 5) disabling).Runs Echo.start
          (.error error) after ∧
        ¬ after.work.rulesEnabled disabling.actionable ∧ isSkipped after.work later := by
  have hbefore : Echo.start.work.rulesEnabled disabling.actionable ∧
      ¬ isSkipped Echo.start.work later := by
    decide +kernel
  have hfails : ((service.runEntry {} (service.engine {} 5) disabling).run.run Echo.start).any
      fun result => !result.1.isOk && !result.2.work.rulesEnabled disabling.actionable &&
        isSkipped result.2.work later := by
    decide +kernel
  obtain ⟨error | _, after, hruns, hleft⟩ := Routine.exists_runs_of_any hfails
  case ok => cases hleft
  simp only [Bool.and_eq_true, Bool.not_eq_true'] at hleft
  obtain ⟨⟨-, hdisabled⟩, hskipped⟩ := hleft
  exact ⟨hbefore.1, hbefore.2, error, after, hruns, by rw [hdisabled]; exact nofun, hskipped⟩

end ContentRules
