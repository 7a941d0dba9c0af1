import ContentRules.Builtin.Definitions
import ContentRules.Proofs.Engine.Actionable
import ContentRules.Proofs.NodeStore.Recorded
import ContentRules.Proofs.Rule.Lookup

/-!
# What the built-in service queues

Told of an event, the built-in behaviours queue rules, and what they queue is said in one table
(`Triggers.folders`): for each event the folders whose rules are triggered, and the type of these.

**Strategy.**  A behaviour queues the rules of a folder one after the other.  Their ids differ, and
two folders differ, so whether an entry is taken depends on the queue from before the event alone
(`UnitOfWork.enqueueAll_eq`).  The behaviour that copies rules with a node comes first and changes
the nodes, but it only adds (`WorkState.Furnishes`), so the adapters see what they would have seen
without it.
-/

namespace ContentRules

/-! ## Queueing -/

namespace UnitOfWork

/-- Queues entries one after the other. -/
def enqueueAll (work : UnitOfWork) (entries : List PendingEntry) : UnitOfWork :=
  entries.foldl (fun work entry => (work.enqueue entry).2) work

/-- The entry would be taken into the queue. -/
def Takes (work : UnitOfWork) (entry : PendingEntry) : Prop :=
  (∀ rule, work.executing = some rule → rule.id ≠ entry.rule.id) ∧
    entry.key ∉ work.pending.entries.map PendingEntry.key

instance (work : UnitOfWork) (entry : PendingEntry) : Decidable (work.Takes entry) :=
  inferInstanceAs (Decidable (_ ∧ _))

variable {work : UnitOfWork} {entry : PendingEntry}

/-- An entry is taken last, or the unit of work stays as it was. -/
theorem enqueue_eq (work : UnitOfWork) (entry : PendingEntry) :
    (work.Takes entry ∧ ∃ pending, pending.entries = work.pending.entries ++ [entry] ∧
      (work.enqueue entry).2 = { work with pending }) ∨
    ¬ work.Takes entry ∧ (work.enqueue entry).2 = work := by
  unfold enqueue Takes
  by_cases hexecuting : work.executing.any (·.sameAs entry.rule) = true
  · refine .inr ⟨?_, by rw [if_pos hexecuting]⟩
    intro htakes
    obtain ⟨rule, hrule, hsame⟩ := (Option.any_eq_true _ _).mp hexecuting
    exact htakes.1 rule hrule (of_decide_eq_true hsame)
  · rw [if_neg hexecuting]
    have hother : ∀ rule, work.executing = some rule → rule.id ≠ entry.rule.id := by
      intro rule hrule hsame
      exact hexecuting ((Option.any_eq_true _ _).mpr ⟨rule, hrule, decide_eq_true hsame⟩)
    by_cases hwaits : entry.key ∈ work.pending.entries.map PendingEntry.key
    · refine .inr ⟨fun htakes => htakes.2 hwaits, ?_⟩
      simp [OrderedSet.push, (work.pending.contains_iff entry).mpr hwaits]
    · refine .inl ⟨⟨hother, hwaits⟩, (work.pending.push entry).2, ?_, rfl⟩
      have hcontains : ¬ work.pending.contains entry = true :=
        fun hcontains => hwaits ((work.pending.contains_iff entry).mp hcontains)
      simp [OrderedSet.push, hcontains]

/-- Queueing changes nothing but the queue. -/
theorem enqueueAll_frame (work : UnitOfWork) (entries : List PendingEntry) :
    ∃ pending, work.enqueueAll entries = { work with pending } := by
  induction entries generalizing work with
  | nil => exact ⟨work.pending, rfl⟩
  | cons entry rest ih =>
      show ∃ pending, (work.enqueue entry).2.enqueueAll rest = _
      rcases work.enqueue_eq entry with ⟨-, pending, -, hafter⟩ | ⟨-, hafter⟩
      · rw [hafter]
        exact ih { work with pending }
      · rw [hafter]
        exact ih work

/-- Of entries that all differ, those are taken that would be taken each on its own. -/
theorem enqueueAll_eq {entries : List PendingEntry}
    (hnodup : (entries.map PendingEntry.key).Nodup) :
    ∃ pending, pending.entries =
        work.pending.entries ++ entries.filter (fun entry => work.Takes entry) ∧
      work.enqueueAll entries = { work with pending } := by
  induction entries generalizing work with
  | nil => exact ⟨work.pending, by simp, rfl⟩
  | cons entry rest ih =>
      obtain ⟨hnew, hrest⟩ := List.nodup_cons.mp hnodup
      show ∃ pending, _ ∧ (work.enqueue entry).2.enqueueAll rest = _
      rcases work.enqueue_eq entry with ⟨htakes, pending, hpending, hafter⟩ | ⟨htakes, hafter⟩
      · rw [hafter]
        obtain ⟨last, hlast, hwork⟩ := @ih { work with pending } hrest
        refine ⟨last, ?_, hwork⟩
        rw [hlast, hpending, List.filter_cons, if_pos (decide_eq_true htakes), List.append_assoc,
          List.singleton_append]
        refine congrArg (work.pending.entries ++ entry :: ·) (List.filter_congr ?_)
        -- Those that follow are not kept out by the entry, whose key is not theirs.
        intro other hother
        have hne : other.key ≠ entry.key := fun hsame =>
          hnew (hsame ▸ List.mem_map_of_mem hother)
        simp [Takes, hpending, hne]
      · rw [hafter, List.filter_cons, if_neg (by simpa using htakes)]
        exact ih hrest

end UnitOfWork

/-! ## Rules in force -/

namespace RuleStore

variable {rules : RuleStore}

theorem nodup_getByType (nodes : NodeStore) (node : NodeRef) (ruleType : String) :
    ((rules.getByType nodes node ruleType).map Rule.id).Nodup :=
  (nodup_firstById _).sublist (List.filter_sublist.map _)

/-- Which rules are in force at a node is a matter of the way up from it. -/
theorem getByType_eq_of_adds {before after : StoreState} (hafter : before.Adds after)
    (hbefore : before.Sound) (hsound : after.Sound) {node : NodeRef}
    (hdrawn : before.ids.HasDrawn node.id) (ruleType : String) :
    rules.getByType after.nodes node ruleType = rules.getByType before.nodes node ruleType := by
  have hinherited : rules.inherited after.nodes node = rules.inherited before.nodes node := by
    unfold inherited
    by_cases hnode : before.nodes.hasNode node
    · rw [if_pos hnode, if_pos ((hafter.hasNode_iff hdrawn).mpr hnode),
        hafter.climb_eq hbefore hsound hnode]
    · rw [if_neg hnode, if_neg (mt (hafter.hasNode_iff hdrawn).mp hnode)]
  unfold getByType get
  rw [if_pos rfl, if_pos rfl, hinherited]

end RuleStore

namespace Builtin.Triggers

open Vocabulary Script

/-! ## The table -/

/-- The types of rules that an event triggers, in the order of their names, and for each the place
of the node in the folder whose rules are triggered. -/
def folders (work : UnitOfWork) : NodeEvent → List (String × ChildAssociation)
  | .created assoc => [("inbound", assoc)]
  | .copied _ copy => [("inbound", copy)]
  | .moved origin destination =>
    if origin.parent = destination.parent then []
    else [("inbound", destination), ("outbound", origin)]
  | .propertiesUpdated node _ =>
    if work.nodes.hasNode node ∧ node ∉ work.newNodes.entries then
      work.nodes.parents[node]?.toList.map fun place => ("update", place)
    else []
  | _ => []

/-- The rules of the folder of a place are triggered for the node there. -/
structure Eligible (work : UnitOfWork) (place : ChildAssociation) : Prop where
  relation : place.relation = containsRelation
  hasNode_parent : work.nodes.hasNode place.parent
  typeOf_child : ∃ nodeType, work.nodes.typeOf place.child = .ok nodeType ∧
    nodeType ≠ configurationsType ∧ nodeType ≠ systemFolderType
  rulesEnabled : work.rulesEnabled place.parent

theorem triggers_iff {work : UnitOfWork} {place : ChildAssociation} :
    triggers work place ↔ Eligible work place := by
  unfold triggers
  rw [Bool.and_eq_true_iff, Bool.and_eq_true_iff, Bool.and_eq_true_iff, decide_eq_true_iff]
  cases hrecord : work.nodes.records[place.child]? with
  | none =>
      constructor
      · intro htriggers
        simp at htriggers
      · intro heligible
        obtain ⟨nodeType, htype, -⟩ := heligible.typeOf_child
        unfold NodeStore.typeOf NodeStore.recordOf at htype
        rw [hrecord] at htype
        cases htype
  | some record =>
      have htype := NodeStore.typeOf_eq_of_getElem? hrecord
      simp only [isInternalType, Bool.not_eq_true', Bool.or_eq_false_iff, decide_eq_false_iff_not]
      constructor
      · intro htriggers
        obtain ⟨⟨⟨hrelation, hparent⟩, hinternal⟩, henabled⟩ := htriggers
        exact ⟨hrelation, hparent, ⟨_, htype, hinternal⟩, henabled⟩
      · intro heligible
        obtain ⟨hrelation, hparent, ⟨nodeType, hnodeType, hinternal⟩, henabled⟩ := heligible
        obtain rfl := Except.ok.inj (htype.symm.trans hnodeType)
        exact ⟨⟨⟨hrelation, hparent⟩, hinternal⟩, henabled⟩

instance (work : UnitOfWork) (place : ChildAssociation) : Decidable (Eligible work place) :=
  decidable_of_iff _ triggers_iff

/-- The rules of a type that are in force at the folder of a place, for the node there. -/
def entriesAt (rules : RuleStore) (work : UnitOfWork) (ruleType : String)
    (place : ChildAssociation) : List PendingEntry :=
  if Eligible work place then
    (rules.getByType work.nodes place.parent ruleType).map fun rule =>
      { actionable := place.parent, actionedUpon := place.child, rule }
  else []

/-- What one adapter queues for an event. -/
def entriesOf (rules : RuleStore) (work : UnitOfWork) (event : NodeEvent)
    (adapter : Trigger × String) : List PendingEntry :=
  (adapter.1.place? work event).toList.flatMap fun place => entriesAt rules work adapter.2 place

/-- What an event triggers. -/
def triggered (rules : RuleStore) (work : UnitOfWork) (event : NodeEvent) : List PendingEntry :=
  (folders work event).flatMap fun (ruleType, place) => entriesAt rules work ruleType place

/-! ## The adapters -/

section Adapters

variable {rules : RuleStore} {engine : Engine} {state : WorkState}

theorem runs_forM_queue (place : ChildAssociation) (list : List Rule) :
    ((list.forM fun rule => discard (Script.queue place.parent place.child rule)).run rules
      engine).Runs state (.ok ())
        { state with
          work := state.work.enqueueAll (list.map fun rule =>
            { actionable := place.parent, actionedUpon := place.child, rule }) } := by
  induction list generalizing state with
  | nil => exact runs_pure.mpr ⟨rfl, rfl⟩
  | cons rule list ih =>
      exact (runs_bind_of_runs (runs_discard (runs_queue _ _ rule))).mpr ih

/-- An adapter queues the rules of its type in the folder that the event is about. -/
theorem runs_react (trigger : Trigger) (ruleType : String) (event : NodeEvent) :
    ((react trigger ruleType event).run rules engine).Runs state (.ok ())
      { state with
        work := state.work.enqueueAll (entriesOf rules state.work event (trigger, ruleType)) } := by
  unfold react entriesOf
  rw [runs_bind_of_runs runs_view]
  cases trigger.place? state.work event with
  | none => exact runs_pure.mpr ⟨rfl, rfl⟩
  | some place =>
      simp only [triggers_iff, Option.toList_some, List.flatMap_singleton, entriesAt]
      split
      · exact runs_forM_queue place _
      · exact runs_pure.mpr ⟨rfl, rfl⟩

end Adapters

/-! ## The service -/

theorem adapters_addAdapter (registry : HandlerRegistry) (name other : String)
    (make : RuleType → Except Error Adapter) :
    (registry.addAdapter name make).adapters[other]? =
      if name = other then some make else registry.adapters[other]? := by
  simp [HandlerRegistry.addAdapter, Std.ExtTreeMap.getElem?_insert]

/-- Each adapter is registered under its name. -/
theorem adapters_handlers : handlers.adapters[inbound]? = some (makeAdapter .inbound) ∧
    handlers.adapters[outbound]? = some (makeAdapter .outbound) ∧
    handlers.adapters[update]? = some (makeAdapter .update) := by
  simp [handlers, register, adapters_addAdapter, inbound, outbound, update]

/-- The adapter of a rule type binds its behaviours in the order of its events. -/
theorem adapter_eq {ruleType : RuleType} {trigger : Trigger} {name : String}
    (hname : ruleType.adapter = some name)
    (hfound : handlers.adapters[name]? = some (makeAdapter trigger)) :
    handlers.adapter ruleType = .ok (some
      { ruleType
        behaviours := trigger.kinds.map fun kind =>
          { kind, react := react trigger ruleType.name } }) := by
  simp only [HandlerRegistry.adapter, hname, HandlerRegistry.lookUp, hfound]
  rfl

/-- The adapters and their rule types, in the order of the names of these. -/
def adapters : List (Trigger × String) :=
  [(.inbound, "inbound"), (.outbound, "outbound"), (.update, "update")]

/-- An adapter as a behaviour. -/
def listener (kind : EventKind) (adapter : Trigger × String) : Behaviour :=
  { kind, react := react adapter.1 adapter.2 }

/-- The built-in service can be made, and has the behaviour that copies rules with a node and then
those of the adapters. -/
theorem exists_service (config : EngineConfig) : ∃ service, Builtin.service config = .ok service ∧
    service.behaviours =
      { kind := .nodeCopied, react := Actionable.copyRulesWithNode } ::
        adapters.flatMap fun adapter => adapter.1.kinds.map (listener · adapter) := by
  have hnames : directory.ruleTypes.values.map (fun ruleType => (ruleType.name, ruleType.adapter)) =
      [("inbound", some inbound), ("outbound", some outbound), ("update", some update)] := by
    decide +kernel
  obtain ⟨first, rest, htypes, hfirst, hrest⟩ := List.map_eq_cons_iff.mp hnames
  obtain ⟨second, rest, rfl, hsecond, hrest⟩ := List.map_eq_cons_iff.mp hrest
  obtain ⟨third, rest, rfl, hthird, hrest⟩ := List.map_eq_cons_iff.mp hrest
  obtain rfl := List.map_eq_nil_iff.mp hrest
  simp only [Prod.mk.injEq] at hfirst hsecond hthird
  obtain ⟨hinbound, houtbound, hupdate⟩ := adapters_handlers
  refine ⟨?service, ?made, ?bound⟩
  case made =>
    simp only [Builtin.service, RuleService.create, htypes, RuleService.makeAdapters,
      adapter_eq hfirst.2 hinbound, adapter_eq hsecond.2 houtbound, adapter_eq hthird.2 hupdate]
    rfl
  case bound =>
    rw [hfirst.1, hsecond.1, hthird.1]
    rfl

/-- The adapters that are told of events of a kind. -/
def toldOf (kind : EventKind) : List (Trigger × String) :=
  adapters.filter fun adapter => kind ∈ adapter.1.kinds

theorem boundTo_eq {service : RuleService}
    (hbehaviours : service.behaviours =
      { kind := .nodeCopied, react := Actionable.copyRulesWithNode } ::
        adapters.flatMap fun adapter => adapter.1.kinds.map (listener · adapter))
    (kind : EventKind) :
    service.boundTo kind =
      (if kind = .nodeCopied then
        [{ kind := .nodeCopied, react := Actionable.copyRulesWithNode }] else []) ++
      (toldOf kind).map (listener kind) := by
  unfold RuleService.boundTo
  rw [hbehaviours]
  cases kind <;> rfl

/-! ## What is queued -/

section Dispatch

variable {rules : RuleStore} {engine : Engine} {state after : WorkState} {event : NodeEvent}

/-- The table says what the adapters that are told of an event queue for it. -/
theorem triggered_eq (work : UnitOfWork) (event : NodeEvent) :
    triggered rules work event = (toldOf event.kind).flatMap (entriesOf rules work event) := by
  cases event with
  | moved origin destination =>
      by_cases hsame : origin.parent = destination.parent <;>
        simp [triggered, folders, toldOf, adapters, NodeEvent.kind, Trigger.kinds, entriesOf,
          Trigger.place?, hsame]
  | propertiesUpdated node changed =>
      have hnew : work.isNew node = true ↔ node ∈ work.newNodes.entries := by
        rw [UnitOfWork.isNew, OrderedSet.contains_iff, List.map_id]
        rfl
      have htold : toldOf .propertiesUpdated = [(.update, "update")] := rfl
      simp only [triggered, folders, NodeEvent.kind, htold, List.flatMap_singleton, entriesOf,
        Trigger.place?, hnew]
      split
      · rw [List.flatMap_map]
      · rfl
  | created | copied | deleted | aspectAdded | aspectRemoved | associationCreated
    | associationRemoved =>
      simp [triggered, folders, toldOf, adapters, NodeEvent.kind, Trigger.kinds, entriesOf,
        Trigger.place?]

/-- The entries of one folder differ in their rules. -/
theorem nodup_entriesAt (work : UnitOfWork) (ruleType : String) (place : ChildAssociation) :
    ((entriesAt rules work ruleType place).map PendingEntry.key).Nodup := by
  unfold entriesAt
  split
  · rw [List.map_map]
    refine List.Nodup.of_map EntryKey.rule ?_
    rw [List.map_map]
    exact RuleStore.nodup_getByType ..
  · exact List.nodup_nil

theorem actionable_of_mem_entriesAt {work : UnitOfWork} {ruleType : String}
    {place : ChildAssociation} {entry : PendingEntry}
    (hentry : entry ∈ entriesAt rules work ruleType place) : entry.actionable = place.parent := by
  unfold entriesAt at hentry
  split at hentry
  · obtain ⟨rule, -, rfl⟩ := List.mem_map.mp hentry
    rfl
  · cases hentry

/-- No two entries that an event triggers are equal: those of a folder differ in their rules, and
the folders that a node is moved between differ. -/
theorem nodup_triggered (rules : RuleStore) (work : UnitOfWork) (event : NodeEvent) :
    ((triggered rules work event).map PendingEntry.key).Nodup := by
  have hone (ruleType : String) (place : ChildAssociation) :
      (([(ruleType, place)].flatMap fun (ruleType, place) =>
        entriesAt rules work ruleType place).map PendingEntry.key).Nodup := by
    rw [List.flatMap_singleton]
    exact nodup_entriesAt work ruleType place
  unfold triggered folders
  split
  · exact hone _ _
  · exact hone _ _
  · rename_i origin destination
    split
    · exact List.nodup_nil
    · rename_i hmoved
      rw [List.flatMap_cons, List.flatMap_singleton, List.map_append, List.nodup_append]
      refine ⟨nodup_entriesAt .., nodup_entriesAt .., ?_⟩
      intro key hkey other hother hsame
      obtain ⟨entry, hentry, rfl⟩ := List.mem_map.mp hkey
      obtain ⟨former, hformer, rfl⟩ := List.mem_map.mp hother
      have hfolder : entry.actionable = former.actionable := congrArg EntryKey.actionable hsame
      rw [actionable_of_mem_entriesAt hentry, actionable_of_mem_entriesAt hformer] at hfolder
      exact hmoved hfolder.symm
  · rename_i node changed
    split
    · cases work.nodes.parents[node]? with
      | none => exact List.nodup_nil
      | some place => exact hone _ _
    · exact List.nodup_nil
  · exact List.nodup_nil

/-- What is triggered at a place is a matter of the nodes and of the switches. -/
theorem entriesAt_congr {work other : UnitOfWork} {ruleType : String} {place : ChildAssociation}
    (hparent : other.nodes.hasNode place.parent ↔ work.nodes.hasNode place.parent)
    (hchild : other.nodes.typeOf place.child = work.nodes.typeOf place.child)
    (henabled : other.rulesEnabled place.parent = work.rulesEnabled place.parent)
    (hrules : rules.getByType other.nodes place.parent ruleType =
      rules.getByType work.nodes place.parent ruleType) :
    entriesAt rules other ruleType place = entriesAt rules work ruleType place := by
  have heligible : Eligible other place ↔ Eligible work place := by
    constructor
    · intro h
      exact ⟨h.relation, hparent.mp h.hasNode_parent, hchild ▸ h.typeOf_child,
        henabled ▸ h.rulesEnabled⟩
    · intro h
      exact ⟨h.relation, hparent.mpr h.hasNode_parent, hchild ▸ h.typeOf_child,
        henabled ▸ h.rulesEnabled⟩
  unfold entriesAt
  simp only [heligible, hrules]

/-- Adapters that are told of an event one after the other queue what each of them would. -/
theorem runs_listeners (told : List (Trigger × String)) (kind : EventKind) (event : NodeEvent) :
    ((told.map (listener kind)).forM fun behaviour =>
      (behaviour.react event).run rules engine).Runs state (.ok ())
        { state with
          work := state.work.enqueueAll (told.flatMap (entriesOf rules state.work event)) } := by
  induction told generalizing state with
  | nil => exact Routine.runs_pure.mpr ⟨rfl, rfl⟩
  | cons adapter told ih =>
      refine (Routine.runs_bind_of_runs (runs_react adapter.1 adapter.2 event)).mpr ?_
      -- The queue is all that has changed, and no adapter looks at it.
      obtain ⟨pending, hqueued⟩ :=
        state.work.enqueueAll_frame (entriesOf rules state.work event adapter)
      have hsame : entriesOf rules
          (state.work.enqueueAll (entriesOf rules state.work event adapter)) event =
          entriesOf rules state.work event := by
        rw [hqueued]
        funext other
        unfold entriesOf
        refine congrArg (List.flatMap · _) (funext fun place => ?_)
        exact entriesAt_congr Iff.rfl rfl rfl rfl
      have hrest := @ih { state with
        work := state.work.enqueueAll (entriesOf rules state.work event adapter) }
      rw [hsame] at hrest
      rw [List.flatMap_cons]
      unfold UnitOfWork.enqueueAll at hrest ⊢
      rwa [List.foldl_append]

/-- The behaviour that copies rules with a node comes before the adapters.  It only adds nodes, none
of which the event is about, and so changes nothing of what is triggered. -/
theorem runs_copyBehaviour (rules : RuleStore) (engine : Engine)
    (hreachable : state.store.Reachable) (hrecorded : state.store.HasRecorded event) :
    ∃ after, ((if event.kind = .nodeCopied then
        [({ kind := .nodeCopied, react := Actionable.copyRulesWithNode } : Behaviour)] else []).forM
          fun behaviour => (behaviour.react event).run rules engine).Runs state (.ok ()) after ∧
      state.Furnishes (rules.FollowedBy event) after ∧
      triggered rules after.work event = triggered rules state.work event := by
  by_cases hkind : event.kind = .nodeCopied
  · rw [if_pos hkind]
    obtain ⟨after, hruns, hafter⟩ := Actionable.runs_copyRulesWithNode rules engine hreachable event
    refine ⟨after, (Routine.runs_bind_of_runs hruns).mpr (Routine.runs_pure.mpr ⟨rfl, rfl⟩), hafter,
      ?_⟩
    cases event with
    | copied source copy =>
        obtain ⟨hparent, hchild⟩ := hrecorded.drewPlace copy rfl
        obtain ⟨copies, hwork⟩ := hafter.work
        have hentries : entriesAt rules after.work "inbound" copy =
            entriesAt rules state.work "inbound" copy := by
          refine entriesAt_congr (hafter.adds.hasNode_iff hparent) (hafter.adds.typeOf hchild) ?_ ?_
          · rw [hwork]
            rfl
          · exact RuleStore.getByType_eq_of_adds hafter.adds hreachable.sound
              hafter.reachable.sound hparent "inbound"
        simp only [triggered, folders, List.flatMap_singleton, hentries]
    | created | deleted | moved | propertiesUpdated | aspectAdded | aspectRemoved
      | associationCreated | associationRemoved => cases hkind
  · rw [if_neg hkind]
    exact ⟨state, Routine.runs_pure.mpr ⟨rfl, rfl⟩, .refl hreachable, rfl⟩

/-- **What the built-in service queues for an event.**  Let the nodes be reachable and the event
recorded, whatever else is the case in the unit of work.  The service can be made, and tells its
behaviours of the event without an error.  Behind what waits come the rules that the event triggers
according to the table, in its order, without those of which an equal entry waits and without the
rule being run; nothing else is queued. -/
theorem dispatch_appends (config : EngineConfig) (rules : RuleStore)
    (hreachable : state.store.Reachable) (hrecorded : state.store.HasRecorded event) :
    ∃ service, Builtin.service config = .ok service ∧ ∀ engine : Engine,
      ∃ after, (service.dispatch rules engine event).Runs state (.ok ()) after ∧
        after.work.pending.entries = state.work.pending.entries ++
          (triggered rules state.work event).filter (fun entry => state.work.Takes entry) := by
  obtain ⟨service, hservice, hbehaviours⟩ := exists_service config
  refine ⟨service, hservice, ?_⟩
  intro engine
  obtain ⟨prepared, hprepared, hafter, htriggered⟩ :=
    runs_copyBehaviour rules engine hreachable hrecorded
  have hadapters := @runs_listeners rules engine prepared (toldOf event.kind) event.kind event
  rw [← triggered_eq, htriggered] at hadapters
  obtain ⟨pending, hpending, hqueued⟩ := prepared.work.enqueueAll_eq
    (nodup_triggered rules state.work event)
  refine ⟨{ prepared with work := prepared.work.enqueueAll (triggered rules state.work event) },
    ?runs, ?queue⟩
  case runs =>
    unfold RuleService.dispatch
    rw [boundTo_eq hbehaviours, List.forM_eq_forM, List.forM_append]
    exact (Routine.runs_bind_of_runs hprepared).mpr hadapters
  case queue =>
    obtain ⟨copies, hwork⟩ := hafter.work
    rw [hqueued]
    show pending.entries = _
    rw [hpending, hwork]
    rfl

end Dispatch

/-! ## A move between two folders -/

/-- A node of the store that the example is about. -/
def nodeOf (id : String) : NodeRef :=
  { store := { protocol := "workspace", identifier := "main" }, id }

/-- A node was made in one folder and then moved to another one. -/
def removal : WorkState :=
  let name : QualifiedName := { space := "model", localName := "item" }
  let edits : List Edit :=
    [.createStore "workspace" "main",
      .createNode (nodeOf "u1") containsRelation name folderType [],
      .createNode (nodeOf "u1") containsRelation name folderType [],
      .createNode (nodeOf "u2") containsRelation name contentType [],
      .moveNode (nodeOf "u4") (nodeOf "u3") containsRelation name]
  let store := edits.foldl (fun state edit => (edit.run state).2) { ids := {}, nodes := .empty }
  { ids := store.ids, work := { nodes := store.nodes, baseVersion := 0 } }

/-- Both folders have a rule for a node that comes and one for a node that goes. -/
def folderRules : RuleStore :=
  ["u2", "u3"].foldl (fun rules id =>
    (rules.put (nodeOf id) { id := "in-" ++ id, ruleType := "inbound" }).put (nodeOf id)
      { id := "out-" ++ id, ruleType := "outbound" }) {}

/-- The rule of the new folder for what comes is queued, and then that of the former one for what
goes. -/
theorem dispatch_appends_removal :
    ∃ event, removal.store.Reachable ∧ removal.store.HasRecorded event ∧ event.kind = .nodeMoved ∧
      ∃ service, Builtin.service {} = .ok service ∧
        ∃ after, (service.dispatch folderRules (service.engine folderRules 1) event).Runs removal
            (.ok ()) after ∧
          after.work.pending.entries.map PendingEntry.key =
            [{ actionable := nodeOf "u3", actionedUpon := nodeOf "u4", rule := "in-u3" },
              { actionable := nodeOf "u2", actionedUpon := nodeOf "u4", rule := "out-u2" }] := by
  have hreachable : removal.store.Reachable := (StoreState.Reachable.empty _).edits _
  have hmoved : removal.work.nodes.events.any (fun event => event.kind = .nodeMoved ∧
      ((triggered folderRules removal.work event).filter fun entry =>
        removal.work.Takes entry).map PendingEntry.key =
          [{ actionable := nodeOf "u3", actionedUpon := nodeOf "u4", rule := "in-u3" },
            { actionable := nodeOf "u2", actionedUpon := nodeOf "u4", rule := "out-u2" }]) =
        true := by
    decide +kernel
  obtain ⟨event, hevent, hmoved⟩ := List.any_eq_true.mp hmoved
  obtain ⟨hkind, hqueued⟩ := of_decide_eq_true hmoved
  have hrecorded : removal.store.HasRecorded event := ⟨_, hreachable, hevent, le_rfl⟩
  obtain ⟨service, hservice, hdispatch⟩ :=
    dispatch_appends {} folderRules hreachable hrecorded
  obtain ⟨after, hruns, hpending⟩ := hdispatch (service.engine folderRules 1)
  refine ⟨event, hreachable, hrecorded, hkind, service, hservice, after, hruns, ?_⟩
  rw [hpending]
  exact hqueued

end Builtin.Triggers

end ContentRules
