import ContentRules.Proofs.Builtin.Handlers
import ContentRules.Proofs.Engine.Growth
import ContentRules.Proofs.NodeStore.Types

/-!
# Rules never lose content

The built-in handlers move nodes and copy them, and a drain that runs them may fail at any point and
put the nodes back to what they were before an entry.  Whatever comes of it, each node that was
there when the drain began is still there when it ends.

**Strategy.**  Handlers that remove no nodes keep each node and its type (`WorkState.KeepsContent`):
no edit but a removal loses a node, and what is put back when an entry fails are the nodes from
before it.  That the nodes can be reached from the roots is a matter of reachable states, which all
handlers keep.
-/

namespace ContentRules

/-! ## Handlers that remove no nodes -/

/-- All that can be done but the removal of nodes. -/
def Act.RemovesNothing : Act → Prop
  | edit change => ¬ change.isRemoval
  | _ => True

namespace WorkState

/-- The nodes are reachable if they were before, and then none is lost and none has another type. -/
structure KeepsContent (state after : WorkState) : Prop where
  grows : state.Grows after
  keepsTypes : state.store.Reachable → state.store.KeepsTypes after.store

/-- What leaves the records and the ids alone. -/
theorem KeepsContent.of_grows {state after : WorkState} (hgrows : state.Grows after)
    (hrecords : after.work.nodes.records = state.work.nodes.records) : state.KeepsContent after :=
  ⟨hgrows, fun _ => .of_records_eq hrecords⟩

end WorkState

theorem keptByDrainsOf_keepsContent :
    KeptByDrainsOf Act.RemovesNothing WorkState.KeepsContent where
  refl state := .of_grows (keptByDrains_grows.refl state) rfl
  trans hfirst hsecond := {
    grows := keptByDrains_grows.trans hfirst.grows hsecond.grows
    keepsTypes := fun hreachable => (hfirst.keepsTypes hreachable).trans
      (hsecond.keepsTypes (hfirst.grows.reachable hreachable)) }
  act {act} hallowed state := by
    have hgrows := (keptByDrains_grows.keptByActs Act.RemovesNothing).act hallowed state
    cases act with
    | edit change => exact ⟨hgrows, fun hreachable => hreachable.sound.keepsTypes_run hallowed⟩
    | enqueue entry =>
        obtain ⟨pending, hqueued⟩ := state.work.exists_enqueue_eq entry
        refine .of_grows hgrows ?_
        simp only [Act.effect, hqueued]
    | turn switch =>
        obtain ⟨disabledNodes, rulesDisabled, hturned⟩ := state.work.exists_turn_eq switch
        refine .of_grows hgrows ?_
        simp only [Act.effect, hturned]
    | deliver | runPending | deferCopy | note => exact .of_grows hgrows rfl
  takeEvents state := .of_grows (keptByDrains_grows.step (.takeEvents state)) rfl
  noteNew state event := by
    refine .of_grows (keptByDrains_grows.step (.noteNew state event)) ?_
    obtain ⟨newNodes, hnoted⟩ := state.work.exists_noteNew_eq event
    rw [hnoted]
  takePending state := .of_grows (keptByDrains_grows.takePending state) rfl
  executing rule hinner := ⟨keptByDrains_grows.executing rule hinner.grows, hinner.keepsTypes⟩
  restore hfailed := .of_grows (keptByDrains_grows.restore hfailed.grows) rfl
  failEntry state failure := .of_grows (keptByDrains_grows.failEntry state failure) rfl
  abort state error := .of_grows (keptByDrains_grows.abort state error) rfl

namespace Builtin

/-- The built-in handlers remove no nodes. -/
theorem removesNothing_of_does (act : Act) (hdoes : Does act) : act.RemovesNothing := by
  cases act with
  | edit change => cases change <;> simp_all [Does, Act.RemovesNothing, Edit.isRemoval]
  | enqueue | deliver | runPending | turn | deferCopy | note => trivial

/-- **Rules never lose content.**  Let a service have the built-in handlers, and let a drain be run
on nodes that edits have led to, with whatever rules attached and whatever entries queued.  However
the drain ends, each node that was there when it began is there, has the type that it had, and is
reached from a root: the way up from it ends at one. -/
theorem content_kept {directory : RuleDirectory} {config : EngineConfig} {service : RuleService}
    (hservice : RuleService.create directory handlers config = .ok service) {rules : RuleStore}
    {budget : Nat} {state after : WorkState} {answer : Except Error DrainReport}
    (hreachable : state.store.Reachable)
    (hruns : (service.engine rules budget).drain.Runs state answer after) {node : NodeRef}
    (hnode : state.work.nodes.hasNode node) :
    after.work.nodes.hasNode node ∧
      after.work.nodes.typeOf node = state.work.nodes.typeOf node ∧
      ∃ path, after.work.nodes.ancestorsOf node = .ok path ∧ after.work.nodes.Climbs node path ∧
        after.work.nodes.isRoot ((node :: path).getLast (List.cons_ne_nil node path)) := by
  have hkept : state.KeepsContent after :=
    (((uses_of_create hservice).mono removesNothing_of_does).drain_keeps
      keptByDrainsOf_keepsContent budget).2 hruns
  have htypes := hkept.keepsTypes hreachable
  have hthere : after.work.nodes.hasNode node := htypes.hasNode hnode
  obtain ⟨path, hpath, hclimbs, -, hroot⟩ :=
    (hkept.grows.reachable hreachable).sound.wellFormed.forest.ancestors hthere
  exact ⟨hthere, htypes hnode, path, hpath, hclimbs, hroot⟩

open Triggers in
/-- Each of two folders has a rule that moves what comes into it to the other one. -/
def pingPong : RuleStore :=
  let sending (id : String) (destination : NodeRef) : Rule := {
    id
    ruleType := inbound
    conditions := [{ definition := { name := "all", evaluator := Conditions.noCondition } }]
    actions := [{
      definition := { name := "send", executor := Actions.move }
      parameters := .ofList [(Actions.destinationFolderParameter, .node destination)] }] }
  (({} : RuleStore).put (nodeOf "u2") (sending "there" (nodeOf "u3"))).put (nodeOf "u3")
    (sending "back" (nodeOf "u2"))

open Triggers in
/-- A node is moved to and fro until the drain gives up, and is in a folder still. -/
theorem content_kept_pingPong :
    ∃ service, RuleService.create directory handlers { maxDrainRounds := 3 } = .ok service ∧
      removal.store.Reachable ∧ removal.work.nodes.hasNode (nodeOf "u4") ∧
      ∃ error after, (service.engine pingPong 5).drain.Runs removal (.error error) after ∧
        after.work.nodes.hasNode (nodeOf "u4") ∧
        after.work.nodes.typeOf (nodeOf "u4") = removal.work.nodes.typeOf (nodeOf "u4") ∧
        ∃ path, after.work.nodes.ancestorsOf (nodeOf "u4") = .ok path ∧
          after.work.nodes.Climbs (nodeOf "u4") path ∧
          after.work.nodes.isRoot ((nodeOf "u4" :: path).getLast (List.cons_ne_nil _ path)) := by
  have hreachable : removal.store.Reachable := (StoreState.Reachable.empty _).edits _
  have hnode : removal.work.nodes.hasNode (nodeOf "u4") := by decide +kernel
  have hgivesUp : ((RuleService.create directory handlers { maxDrainRounds := 3 }).toOption.any
      fun service => ((service.engine pingPong 5).drain.run.run removal).any
        fun result => !result.1.isOk) = true := by
    decide +kernel
  obtain ⟨service, hmade, hgivesUp⟩ := (Option.any_eq_true _ _).mp hgivesUp
  have hservice : RuleService.create directory handlers { maxDrainRounds := 3 } = .ok service := by
    cases hcreated : RuleService.create directory handlers { maxDrainRounds := 3 } with
    | error error =>
        rw [hcreated] at hmade
        cases hmade
    | ok other =>
        rw [hcreated] at hmade
        rw [Option.some.inj hmade]
  obtain ⟨error | _, after, hruns, herror⟩ := Routine.exists_runs_of_any hgivesUp
  case ok => cases herror
  exact ⟨service, hservice, hreachable, hnode, error, after, hruns,
    content_kept hservice hreachable hruns hnode⟩

end Builtin

end ContentRules
