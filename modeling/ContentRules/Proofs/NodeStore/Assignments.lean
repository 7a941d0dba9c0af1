import ContentRules.Proofs.NodeStore.Types

/-!
# Properties that are set

Properties are set one after the other, and an event names those that got another value on the way.
A name that is given once is named exactly if the value of its property differs afterwards.  A name
that is given several times is named as often as the value turned (`turns`), even if the last value
is the one that the property had at first.

**Strategy.**  What a list of assignments does to one property depends on the values that it gives
to that property only (`valuesFor`).  So what is said of the record (`getElem?_assign`,
`count_assign`) is an induction on the list, and what is said of an event is counting.
-/

namespace ContentRules

/-! ## Values given -/

/-- The values that assignments give to a property, in their order. -/
def valuesFor (properties : List (QualifiedName × Value)) (name : QualifiedName) : List Value :=
  (properties.filter fun property => property.1 = name).map Prod.snd

/-- How often a property gets another value if these are set one after the other. -/
def turns : Option Value → List Value → Nat
  | _, [] => 0
  | old, value :: values => (if old = some value then 0 else 1) + turns (some value) values

theorem valuesFor_cons (given name : QualifiedName) (value : Value)
    (properties : List (QualifiedName × Value)) :
    valuesFor ((given, value) :: properties) name =
      if given = name then value :: valuesFor properties name else valuesFor properties name := by
  unfold valuesFor
  by_cases hname : given = name <;> simp [hname]

section Turns

variable {old : Option Value} {values : List Value}

/-- Nothing turns exactly if each value is the one that was there at first. -/
theorem turns_eq_zero_iff : turns old values = 0 ↔ ∀ value ∈ values, old = some value := by
  induction values generalizing old with
  | nil => simp [turns]
  | cons value values ih =>
      by_cases hsame : old = some value
      · subst hsame
        simp [turns, ih]
      · simp [turns, hsame]

/-- What has another value in the end has turned. -/
theorem turns_pos_of_ne (hdiffers : values.getLast?.or old ≠ old) : 0 < turns old values := by
  rw [Nat.pos_iff_ne_zero]
  intro hnone
  refine hdiffers ?_
  cases hlast : values.getLast? with
  | none => rfl
  | some value => exact (turns_eq_zero_iff.mp hnone value (List.mem_of_getLast? hlast)).symm

/-- The value that was there at first matters only if there are no others. -/
theorem getLast?_cons_or (value : Value) :
    (value :: values).getLast?.or old = values.getLast?.or (some value) := by
  rw [List.getLast?_cons]
  cases values.getLast? <;> rfl

/-- What is given one value at most turns once if it has another value then, and else not. -/
theorem turns_of_length_le_one (honce : values.length ≤ 1) :
    turns old values = if values.getLast?.or old = old then 0 else 1 := by
  match values, honce with
  | [], _ => simp [turns]
  | [value], _ => simp [turns, eq_comm]

end Turns

/-! ## Records -/

namespace NodeRecord

variable (record : NodeRecord) (properties : List (QualifiedName × Value))

/-- The last value given to a property is the one that it has then. -/
theorem getElem?_assign (name : QualifiedName) :
    (record.assign properties).1.properties[name]? =
      (valuesFor properties name).getLast?.or record.properties[name]? := by
  induction properties generalizing record with
  | nil => rfl
  | cons property properties ih =>
      obtain ⟨given, value⟩ := property
      rw [valuesFor_cons]
      unfold assign
      by_cases hsame : record.properties[given]? = some value
      · rw [if_pos hsame, ih record]
        split
        · rename_i hname
          subst hname
          rw [getLast?_cons_or, hsame]
        · rfl
      · rw [if_neg hsame, ih]
        split
        · rename_i hname
          subst hname
          rw [getLast?_cons_or, Std.ExtTreeMap.getElem?_insert_self]
        · rename_i hname
          rw [Std.ExtTreeMap.getElem?_insert, if_neg (mt Std.compare_eq_iff_eq.mp hname)]

/-- A name is listed as often as the value of its property turned. -/
theorem count_assign (name : QualifiedName) :
    (record.assign properties).2.count name =
      turns record.properties[name]? (valuesFor properties name) := by
  induction properties generalizing record with
  | nil => rfl
  | cons property properties ih =>
      obtain ⟨given, value⟩ := property
      rw [valuesFor_cons]
      unfold assign
      by_cases hsame : record.properties[given]? = some value
      · rw [if_pos hsame, ih record]
        split
        · rename_i hname
          subst hname
          simp [turns, hsame]
        · rfl
      · rw [if_neg hsame]
        by_cases hname : given = name
        · subst hname
          simp [turns, hsame, ih, Nat.add_comm]
        · simp [hname, ih, Std.ExtTreeMap.getElem?_insert]

/-- Names are listed in the order in which values were given to them. -/
theorem sublist_assign : (record.assign properties).2.Sublist (properties.map Prod.fst) := by
  induction properties generalizing record with
  | nil => exact .slnil
  | cons property properties ih =>
      obtain ⟨name, value⟩ := property
      unfold assign
      split
      · exact (ih record).cons name
      · exact (ih _).cons_cons name

end NodeRecord

/-! ## Nodes -/

namespace NodeStore

variable {nodes after : NodeStore} {node : NodeRef} {properties : List (QualifiedName × Value)}
  {changed : List QualifiedName}

/-- What is left when properties of a node are set, and the names that are told of. -/
structure SetsProperties (nodes : NodeStore) (node : NodeRef)
    (properties : List (QualifiedName × Value)) (changed : List QualifiedName)
    (after : NodeStore) : Prop where
  /-- A property has the value that was given to it last, or else the one that it had. -/
  property : ∀ {name : QualifiedName} {old : Option Value},
    nodes.property? node name = .ok old →
      after.property? node name = .ok ((valuesFor properties name).getLast?.or old)
  typeOf : after.typeOf node = nodes.typeOf node
  others : ∀ other : NodeRef, other ≠ node → after.records[other]? = nodes.records[other]?
  /-- Only records and events differ. -/
  apart : { after with records := nodes.records, events := nodes.events } = nodes
  /-- Names are listed in the order in which values were given to them. -/
  sublist : changed.Sublist (properties.map Prod.fst)
  /-- A name is listed as often as the value of its property turned. -/
  count : ∀ {name : QualifiedName} {old : Option Value}, nodes.property? node name = .ok old →
    changed.count name = turns old (valuesFor properties name)

namespace SetsProperties

variable {name : QualifiedName} {old : Option Value}
  (hsets : SetsProperties nodes node properties changed after)

include hsets

/-- A name is listed if its property was given a value that it did not have at first. -/
theorem mem_iff (hold : nodes.property? node name = .ok old) :
    name ∈ changed ↔ ∃ value ∈ valuesFor properties name, old ≠ some value := by
  rw [← List.count_pos_iff, hsets.count hold, Nat.pos_iff_ne_zero, Ne, turns_eq_zero_iff]
  simp

/-- So it is if the property has another value then. -/
theorem mem_of_ne (hold : nodes.property? node name = .ok old)
    (hdiffers : after.property? node name ≠ nodes.property? node name) : name ∈ changed := by
  rw [← List.count_pos_iff, hsets.count hold]
  apply turns_pos_of_ne
  intro hsame
  rw [hsets.property hold, hold, hsame] at hdiffers
  exact hdiffers rfl

/-- A name that is given once at most is listed once if its property has another value then, and
else not. -/
theorem count_of_once (hold : nodes.property? node name = .ok old)
    (honce : (valuesFor properties name).length ≤ 1) :
    changed.count name =
      if after.property? node name = nodes.property? node name then 0 else 1 := by
  rw [hsets.count hold, turns_of_length_le_one honce, hsets.property hold, hold]
  simp

end SetsProperties

theorem recordOf_putRecord (nodes : NodeStore) (node : NodeRef) (record : NodeRecord)
    (events : List NodeEvent) :
    recordOf { nodes.putRecord node record with events } node = .ok record := by
  simp [recordOf, putRecord]

/-- A record in which properties were assigned takes the place of the one that was there. -/
theorem setsProperties_putRecord {record : NodeRecord} (amended : NodeRecord)
    (hrecord : nodes.recordOf node = .ok record) (htype : amended.nodeType = record.nodeType)
    (hproperties : amended.properties = record.properties) (events : List NodeEvent) :
    SetsProperties nodes node properties (amended.assign properties).2
      { nodes.putRecord node (amended.assign properties).1 with events } := by
  have hafter := recordOf_putRecord nodes node (amended.assign properties).1 events
  have hold {name : QualifiedName} {old : Option Value}
      (hold : nodes.property? node name = .ok old) : amended.properties[name]? = old := by
    rw [property?, hrecord] at hold
    rw [hproperties]
    exact Except.ok.inj hold
  constructor
  case property =>
    intro name old hproperty
    rw [← hold hproperty, ← NodeRecord.getElem?_assign]
    exact congrArg (· >>= fun record => pure record.properties[name]?) hafter
  case typeOf =>
    rw [typeOf, typeOf, hrecord, hafter, NodeRecord.assign_frame]
    exact congrArg Except.ok htype
  case others =>
    intro other hother
    simp [putRecord, Std.ExtTreeMap.getElem?_insert, Ne.symm hother]
  case apart => rfl
  case sublist => exact amended.sublist_assign properties
  case count =>
    intro name old hproperty
    rw [← hold hproperty]
    exact amended.count_assign properties name

end NodeStore

/-! ## Edits -/

/-- The event that tells of properties that changed, if there are any. -/
def updatesOf (node : NodeRef) (changed : List QualifiedName) : List NodeEvent :=
  if changed = [] then [] else [.propertiesUpdated node changed]

open NodeStore Change

/-- The events that the end of the edit adds to those that are there. -/
theorem Change.outcome_noteUpdates (node : NodeRef) (changed : List QualifiedName)
    (state : StoreState) :
    outcome (if changed.isEmpty then pure ()
        else update fun nodes => nodes.note (.propertiesUpdated node changed) : Change Unit) state =
      (.ok (), { state with nodes := { state.nodes with
        events := state.nodes.events ++ updatesOf node changed } }) := by
  unfold updatesOf
  cases changed with
  | nil => simp
  | cons name names => rfl

variable {state : StoreState} {node : NodeRef} {record : NodeRecord}

/-- The node gets the properties, and an event tells of them. -/
theorem Edit.run_setProperties (hrecord : state.nodes.recordOf node = .ok record)
    (properties : List (QualifiedName × Value)) :
    (Edit.setProperties node properties).run state = (.ok (), { state with
      nodes := { state.nodes.putRecord node (record.assign properties).1 with
        events := state.nodes.events ++ updatesOf node (record.assign properties).2 } }) := by
  simp only [run_eq_outcome, perform, Change.setProperties, outcome_bind, outcome_recordOf, hrecord,
    outcome_update]
  exact outcome_noteUpdates ..

/-- The node gets the aspect and then the properties; two events at most tell of it. -/
theorem Edit.run_addAspect_setting (hrecord : state.nodes.recordOf node = .ok record)
    (aspect : QualifiedName) (properties : List (QualifiedName × Value)) :
    let amended : NodeRecord := { record with aspects := record.aspects.insert aspect }
    (Edit.addAspect node aspect properties).run state = (.ok (), { state with
      nodes := { state.nodes.putRecord node (amended.assign properties).1 with
        events := state.nodes.events ++
          (if record.aspects.contains aspect then [] else [.aspectAdded node aspect]) ++
          updatesOf node (amended.assign properties).2 } }) := by
  intro amended
  simp only [run_eq_outcome, perform, Change.addAspect, outcome_bind, outcome_recordOf, hrecord,
    outcome_update]
  by_cases haspect : record.aspects.contains aspect
  · rw [if_pos haspect, if_pos haspect, List.append_nil]
    exact outcome_noteUpdates ..
  · rw [if_neg haspect, if_neg haspect, outcome_bind, outcome_update]
    exact outcome_noteUpdates ..

namespace StoreState

/-- Properties of a node are set, also with an aspect: each has the value that was given to it last,
and the others are what they were.  An event tells of the names that were given another value than
the former one, and there is none if there is no such name.  All names whose values differ are among
them, and a name that is given once at most is there once if its value differs, and else not. -/
theorem assigned_of_hasNode (hnode : state.nodes.hasNode node)
    (properties : List (QualifiedName × Value)) :
    (∃ changed after,
      (Edit.setProperties node properties).run state = (.ok (), { state with nodes := after }) ∧
      state.nodes.SetsProperties node properties changed after ∧
      (∀ aspect, after.hasAspect node aspect = state.nodes.hasAspect node aspect) ∧
      after.events = state.nodes.events ++ updatesOf node changed) ∧
    (∀ aspect : QualifiedName, ∃ had changed after,
      (Edit.addAspect node aspect properties).run state = (.ok (), { state with nodes := after }) ∧
      state.nodes.SetsProperties node properties changed after ∧
      state.nodes.hasAspect node aspect = .ok had ∧
      (∀ other, after.hasAspect node other =
        if other = aspect then .ok true else state.nodes.hasAspect node other) ∧
      after.events = state.nodes.events ++
        (if had then [] else [.aspectAdded node aspect]) ++ updatesOf node changed) ∧
    ∀ changed after, state.nodes.SetsProperties node properties changed after →
      ∀ (name : QualifiedName) (old : Option Value), state.nodes.property? node name = .ok old →
        (name ∈ changed ↔ ∃ value ∈ valuesFor properties name, old ≠ some value) ∧
        (after.property? node name ≠ .ok old → name ∈ changed) ∧
        ((valuesFor properties name).length ≤ 1 →
          changed.count name = if after.property? node name = .ok old then 0 else 1) := by
  obtain ⟨record, hrecord⟩ := hasNode_iff_recordOf.mp hnode
  refine ⟨?_, ?_, ?_⟩
  · refine ⟨_, _, Edit.run_setProperties hrecord properties,
      setsProperties_putRecord record hrecord rfl rfl _, ?_, rfl⟩
    intro aspect
    rw [hasAspect, hasAspect, hrecord, recordOf_putRecord, NodeRecord.assign_frame]
    rfl
  · intro aspect
    let amended : NodeRecord := { record with aspects := record.aspects.insert aspect }
    refine ⟨record.aspects.contains aspect, _, _,
      Edit.run_addAspect_setting hrecord aspect properties,
      setsProperties_putRecord amended hrecord rfl rfl _, ?_, ?_, rfl⟩
    · rw [hasAspect, hrecord]
      rfl
    · intro other
      rw [hasAspect, hasAspect, hrecord, recordOf_putRecord, NodeRecord.assign_frame]
      show Except.ok ((record.aspects.insert aspect).contains other) = _
      rw [Std.ExtTreeSet.contains_insert]
      by_cases hother : other = aspect
      · subst hother
        simp
      · have hapart : (compare aspect other == .eq) = false := by simp [Ne.symm hother]
        rw [if_neg hother, hapart, Bool.false_or]
        rfl
  · intro changed after hsets name old hold
    refine ⟨hsets.mem_iff hold, ?_, ?_⟩
    · rw [← hold]
      exact hsets.mem_of_ne hold
    · rw [← hold]
      exact hsets.count_of_once hold

/-- The property that a node of these examples has. -/
def titleName : QualifiedName :=
  { space := "model", localName := "title" }

/-- A store with a root that has a title. -/
def titled : StoreState :=
  let edits : List Edit :=
    [.createStore "workspace" "main",
      .setProperties ⟨⟨"workspace", "main"⟩, "u1"⟩ [(titleName, .text "draft")]]
  edits.foldl (fun state edit => (edit.run state).2) { ids := {}, nodes := .empty }

theorem reachable_titled : titled.Reachable :=
  (Reachable.empty _).edits _

/-- The title is set twice, and a property that the root did not have once. -/
theorem assigned_titled :
    let root : NodeRef := ⟨⟨"workspace", "main"⟩, "u1"⟩
    let author : QualifiedName := { space := "model", localName := "author" }
    let properties : List (QualifiedName × Value) :=
      [(titleName, .text "final"), (author, .null), (titleName, .text "draft")]
    titled.Reachable ∧ titled.nodes.hasNode root ∧
      ∃ (changed : List QualifiedName) (after : NodeStore),
        (Edit.setProperties root properties).run titled =
          (.ok (), { titled with nodes := after }) ∧
        after.property? root titleName = .ok (some (.text "draft")) ∧
        after.property? root author = .ok (some .null) ∧
        titleName ∈ changed ∧ changed.count author = 1 := by
  intro root author properties
  have hroot : titled.nodes.hasNode root := by decide +kernel
  obtain ⟨⟨changed, after, hrun, hsets, -, -⟩, -, hnames⟩ :=
    assigned_of_hasNode hroot properties
  have htitle : titled.nodes.property? root titleName = .ok (some (.text "draft")) := by
    decide +kernel
  have hauthor : titled.nodes.property? root author = .ok none := by decide +kernel
  have hgiven : after.property? root author = .ok (some .null) := hsets.property hauthor
  refine ⟨reachable_titled, hroot, changed, after, hrun, hsets.property htitle, hgiven, ?_, ?_⟩
  · exact (hnames changed after hsets titleName _ htitle).1.mpr
      ⟨.text "final", by decide +kernel, by decide +kernel⟩
  · rw [(hnames changed after hsets author _ hauthor).2.2 (by decide +kernel), hgiven]
    rfl

/-- A title is set to another value and back: no property of the root differs then, and an event
names the title twice. -/
theorem propertiesUpdated_of_unchanged :
    let root : NodeRef := ⟨⟨"workspace", "main"⟩, "u1"⟩
    let properties : List (QualifiedName × Value) :=
      [(titleName, .text "final"), (titleName, .text "draft")]
    titled.Reachable ∧ titled.nodes.hasNode root ∧
      ∃ after : NodeStore, (Edit.setProperties root properties).run titled =
          (.ok (), { titled with nodes := after }) ∧
        (∀ name, after.property? root name = titled.nodes.property? root name) ∧
        after.events =
          titled.nodes.events ++ [.propertiesUpdated root [titleName, titleName]] := by
  intro root properties
  have hroot : titled.nodes.hasNode root := by decide +kernel
  obtain ⟨record, hrecord⟩ := hasNode_iff_recordOf.mp hroot
  have htitle : record.properties[titleName]? = some (.text "draft") := by
    have hasked : titled.nodes.property? root titleName = .ok (some (.text "draft")) := by
      decide +kernel
    rw [property?, hrecord] at hasked
    exact Except.ok.inj hasked
  have hturned : Value.text "final" ≠ .text "draft" := by decide
  have hchanged : (record.assign properties).2 = [titleName, titleName] := by
    simp [properties, NodeRecord.assign, htitle, hturned, hturned.symm]
  refine ⟨reachable_titled, hroot, _, Edit.run_setProperties hrecord properties, ?_, ?_⟩
  · intro name
    rw [property?, property?, hrecord, recordOf_putRecord]
    show Except.ok (record.assign properties).1.properties[name]? = .ok record.properties[name]?
    rw [NodeRecord.getElem?_assign, valuesFor_cons, valuesFor_cons]
    by_cases hname : titleName = name
    · subst hname
      simp [valuesFor, htitle]
    · simp [valuesFor, hname]
  · rw [hchanged]
    rfl

end StoreState

end ContentRules
