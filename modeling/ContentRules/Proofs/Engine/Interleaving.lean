import Mathlib.Logic.Function.Basic
import ContentRules.Engine.Workbench
import ContentRules.Proofs.Engine.Commit
import ContentRules.Proofs.Engine.Growth

/-!
# Units of work that take turns

Any number of parties work at the desks of a workbench, each on a unit of work of its own, and they
take turns in any order.  What they commit is a chain: each state was made from the one before it,
and nothing that a party commits is lost.

## Strategy

`Interleaving` is a workbench after any such turns, with what is remembered of them: the states that
were committed earlier, and for each desk the state that its unit of work was begun on and the ids
that were drawn in its turns.  What is to be said of it is said by `Serialized`:

* versions only rise, so a unit of work whose version is still the current one was begun on the
  current state, and on no earlier one (`Serialized.newest`);
* a node of a unit of work was there when it was begun or has an id that was drawn in its own turns,
  and such ids are found nowhere else (`Serialized.desk`, `Serialized.isolated`).

A turn at a desk changes the unit of work there and the supply of ids, and nothing else (`Turn`);
that is all that is used of the many things that a party can do in a turn.
-/

namespace ContentRules

open Routine

/-! ## Turns and commits -/

/-- A unit of work that was begun on a repository, after any scripts were run on it.  They may be
run by any service, with any rules attached and any ids drawn by then. -/
inductive UnitOfWork.DerivedFrom (origin : Repository) : UnitOfWork → Prop
  | begin : DerivedFrom origin (.begin origin)
  | act {α : Type} {service : RuleService} {rules : RuleStore} {budget : Nat} {script : Script α}
      {ids : IdSupply} {work : UnitOfWork} {answer : Except Error α} {after : WorkState}
      (hwork : DerivedFrom origin work)
      (hruns : (script.run rules (service.engine rules budget)).Runs { ids, work } answer after) :
      DerivedFrom origin after.work

/-- What is committed was made from what was committed before it. -/
def Repository.Succeeds (after before : Repository) : Prop :=
  after.version = before.version + 1 ∧
    ∃ work, UnitOfWork.DerivedFrom before work ∧
      after.nodes = { work.nodes with events := [] }

/-- What is remembered of the unit of work on a desk: the state that it was begun on, and the ids
that were drawn in its turns. -/
structure Provenance where
  origin : Repository
  drew : String → Prop := fun _ => False

/-- The ids that were drawn between two states of the supply are added. -/
def Provenance.extend (provenance : Provenance) (before after : IdSupply) : Provenance where
  origin := provenance.origin
  drew id := provenance.drew id ∨ after.HasDrawn id ∧ ¬ before.HasDrawn id

/-- The unit of work was made from the state that it was begun on, and sees nothing but what was
there and what was made in its own turns. -/
structure Provenance.Covers (provenance : Provenance) (work : UnitOfWork) : Prop where
  derived : work.DerivedFrom provenance.origin
  hasNode : ∀ {node : NodeRef}, work.nodes.hasNode node →
    provenance.origin.nodes.hasNode node ∨ provenance.drew node.id

/-- A workbench after any turns of those who work at it.  The states that were committed before the
current one are listed, the latest first. -/
inductive Interleaving : List Repository → (String → Option Provenance) → Workbench → Prop
  | start {session : Session}
      (hreachable :
        StoreState.Reachable { ids := session.ids, nodes := session.repository.nodes }) :
      Interleaving [] (fun _ => none) { session }
  | begin {earlier : List Repository} {known : String → Option Provenance} {bench : Workbench}
      (hbench : Interleaving earlier known bench) (name : String) :
      Interleaving earlier
        (Function.update known name (some { origin := bench.session.repository }))
        (bench.begin name)
  | edit {earlier : List Repository} {known : String → Option Provenance} {bench after : Workbench}
      {name : String} {edit : Edit} {answer : Except Error edit.Answer}
      (hbench : Interleaving earlier known bench)
      (hedit : bench.edit name edit = some (answer, after)) :
      Interleaving earlier
        (Function.update known name
          ((known name).map fun provenance =>
            provenance.extend bench.session.ids after.session.ids))
        after
  | run {α : Type} {earlier : List Repository} {known : String → Option Provenance}
      {bench after : Workbench} {name : String} {service : RuleService} {budget : Nat}
      {script : Script α} {answer : Except Error α} (hbench : Interleaving earlier known bench)
      (hrun : bench.run name
        (script.run bench.session.rules (service.engine bench.session.rules budget)) =
          some (answer, after)) :
      Interleaving earlier
        (Function.update known name
          ((known name).map fun provenance =>
            provenance.extend bench.session.ids after.session.ids))
        after
  | commit {earlier : List Repository} {known : String → Option Provenance}
      {bench after : Workbench} {name : String} {service : RuleService} {budget : Nat}
      {receipt : CommitReceipt} (hbench : Interleaving earlier known bench)
      (hcommit : bench.commit service budget name = some (.ok receipt, after)) :
      Interleaving (bench.session.repository :: earlier) (Function.update known name none) after
  | refused {earlier : List Repository} {known : String → Option Provenance}
      {bench after : Workbench} {name : String} {service : RuleService} {budget : Nat}
      {error : Error} (hbench : Interleaving earlier known bench)
      (hcommit : bench.commit service budget name = some (.error error, after)) :
      Interleaving earlier (Function.update known name none) after
  | rollback {earlier : List Repository} {known : String → Option Provenance} {bench : Workbench}
      (hbench : Interleaving earlier known bench) (name : String) :
      Interleaving earlier (Function.update known name none) (bench.clear name)
  /-- Rules are attached or detached, ids drawn for them, and the journal read. -/
  | share {earlier : List Repository} {known : String → Option Provenance} {bench : Workbench}
      (hbench : Interleaving earlier known bench) (rules : RuleStore) {ids : IdSupply}
      (hlater : bench.session.ids ≤ ids) (journal : List Value) :
      Interleaving earlier known
        { bench with session := { bench.session with rules, ids, journal } }

/-- The committed states are a chain, and units of work are kept apart. -/
structure Serialized (earlier : List Repository) (known : String → Option Provenance)
    (bench : Workbench) : Prop where
  /-- Each committed state was made from the one before it. -/
  chain : (bench.session.repository :: earlier).IsChain Repository.Succeeds
  /-- Earlier states have lower versions. -/
  newest : ∀ repository ∈ earlier, repository.version < bench.session.repository.version
  /-- On the desks lie units of work, each of which was made from a committed state. -/
  desk : ∀ {name : String} {desk : Desk}, bench.desks[name]? = some desk →
    ∃ work provenance, desk = .work work ∧ known name = some provenance ∧
      provenance.origin ∈ bench.session.repository :: earlier ∧ provenance.Covers work
  /-- What a unit of work has made is neither committed nor on another desk. -/
  isolated : ∀ {name : String} {provenance : Provenance} {node : NodeRef},
    known name = some provenance → provenance.drew node.id →
      (∀ repository ∈ bench.session.repository :: earlier, ¬ repository.nodes.hasNode node) ∧
      ∀ {other : String} {desk : Desk}, other ≠ name → bench.desks[other]? = some desk →
        ¬ desk.nodes.hasNode node

/-! ## Derived units of work -/

section Derived

variable {origin : Repository} {work : UnitOfWork}

/-- A unit of work keeps the version of the state that it was begun on. -/
theorem UnitOfWork.DerivedFrom.baseVersion_eq (hwork : work.DerivedFrom origin) :
    work.baseVersion = origin.version := by
  induction hwork with
  | begin => rfl
  | act _ hruns ih =>
      obtain ⟨_, -, haccounts⟩ := RuleService.script_keeps keptByDrains_accounted _ _ hruns
      exact haccounts.baseVersion.trans ih

/-- A drain is what a script that calls for one does. -/
theorem UnitOfWork.DerivedFrom.drain (hwork : work.DerivedFrom origin) {service : RuleService}
    {rules : RuleStore} {budget : Nat} {ids : IdSupply} {answer : Except Error DrainReport}
    {after : WorkState}
    (hruns : (service.engine rules budget).drain.Runs { ids, work } answer after) :
    after.work.DerivedFrom origin :=
  hwork.act (Script.runs_drain hruns)

/-- An edit is what a script that makes it does, whatever service runs it. -/
theorem UnitOfWork.DerivedFrom.edit (hwork : work.DerivedFrom origin) (ids : IdSupply)
    (change : Edit) : (edited { ids, work } change).work.DerivedFrom origin := by
  let service : RuleService :=
    { directory := {}, handlers := .empty, config := {}, behaviours := [], adapters := [] }
  have hruns : ((Script.apply change).run {} (service.engine {} 0)).Runs { ids, work } _ _ :=
    Script.runs_apply change
  exact hwork.act hruns

end Derived

/-! ## What a turn changes -/

section Turns

variable {bench after : Workbench} {name : String} {work : UnitOfWork}

/-- A turn at a desk, in which a unit of work came to be that of a state. -/
structure Turn (bench after : Workbench) (name : String) (work : UnitOfWork) (state : WorkState) :
    Prop where
  desk : bench.desks[name]? = some (.work work)
  grows : WorkState.Grows { ids := bench.session.ids, work } state
  derived : ∀ {origin : Repository}, work.DerivedFrom origin → state.work.DerivedFrom origin
  desks : after.desks = bench.desks.insert name (.work state.work)
  ids : after.session.ids = state.ids
  repository : after.session.repository = bench.session.repository

theorem Turn.of_edit {change : Edit} {answer : Except Error change.Answer}
    (hdesk : bench.desks[name]? = some (.work work))
    (hedit : bench.edit name change = some (answer, after)) :
    Turn bench after name work (edited { ids := bench.session.ids, work } change) := by
  unfold Workbench.edit at hedit
  rw [hdesk] at hedit
  cases hedit
  exact {
    desk := hdesk
    grows := .edited _ change
    derived := fun hwork => hwork.edit _ change
    desks := rfl
    ids := rfl
    repository := rfl }

theorem Turn.of_run {α : Type} {service : RuleService} {budget : Nat} {script : Script α}
    {answer : Except Error α} (hdesk : bench.desks[name]? = some (.work work))
    (hrun : bench.run name
      (script.run bench.session.rules (service.engine bench.session.rules budget)) =
        some (answer, after)) :
    ∃ state, Turn bench after name work state := by
  unfold Workbench.run Session.within at hrun
  rw [hdesk] at hrun
  cases hruns : (script.run bench.session.rules
      (service.engine bench.session.rules budget)).run.run { ids := bench.session.ids, work } with
  | none => simp [hruns] at hrun
  | some result =>
      obtain ⟨outcome, state⟩ := result
      simp only [hruns] at hrun
      cases hrun
      exact ⟨state, {
        desk := hdesk
        grows := RuleService.script_keeps keptByDrains_grows budget script hruns
        derived := fun hwork => hwork.act hruns
        desks := rfl
        ids := rfl
        repository := rfl }⟩

/-- What a commit changes.  The unit of work is gone in any case; it is installed only if nobody
committed since it was begun. -/
structure Conclusion (bench after : Workbench) (name : String) (work : UnitOfWork)
    (answer : Except Error CommitReceipt) (final : WorkState) : Prop where
  desk : bench.desks[name]? = some (.work work)
  grows : WorkState.Grows { ids := bench.session.ids, work } final
  derived : ∀ {origin : Repository}, work.DerivedFrom origin → final.work.DerivedFrom origin
  desks : after.desks = bench.desks.erase name
  ids : after.session.ids = final.ids
  ok : ∀ receipt, answer = .ok receipt →
    bench.session.repository.version = final.work.baseVersion ∧
    receipt.version = bench.session.repository.version + 1 ∧
    after.session.repository =
      { nodes := { final.work.nodes with events := [] }
        version := bench.session.repository.version + 1 }
  error : ∀ error, answer = .error error →
    after.session.repository = bench.session.repository

theorem Conclusion.of_commit {service : RuleService} {budget : Nat}
    {answer : Except Error CommitReceipt} (hdesk : bench.desks[name]? = some (.work work))
    (hcommit : bench.commit service budget name = some (answer, after)) :
    ∃ final, Conclusion bench after name work answer final := by
  unfold Workbench.commit at hcommit
  rw [hdesk] at hcommit
  cases hdrain : (service.engine bench.session.rules budget).drain.run.run
      { ids := bench.session.ids, work } with
  | none => simp [Session.commit, Session.within, hdrain] at hcommit
  | some result =>
      obtain ⟨outcome, final⟩ := result
      simp only [Session.commit_eq hdrain] at hcommit
      have hgrows := (RuleService.drain_keeps keptByDrains_grows budget).2 hdrain
      refine ⟨final, ?_⟩
      by_cases hcommittable :
        (bench.session.drained final).Committable service.config final.work outcome
      · obtain ⟨report, -, hconclude⟩ := Session.conclude_of_committable hcommittable
        have hversion : bench.session.repository.version = final.work.baseVersion :=
          hcommittable.2.2
        rw [hconclude, ← hversion] at hcommit
        cases hcommit
        exact {
          desk := hdesk
          grows := hgrows
          derived := fun hwork => hwork.drain hdrain
          desks := rfl
          ids := rfl
          ok := by
            rintro receipt ⟨⟩
            exact ⟨hversion, rfl, rfl⟩
          error := by
            rintro error ⟨⟩ }
      · obtain ⟨error, hconclude⟩ := Session.conclude_of_not_committable hcommittable
        rw [hconclude] at hcommit
        cases hcommit
        exact {
          desk := hdesk
          grows := hgrows
          derived := fun hwork => hwork.drain hdrain
          desks := rfl
          ids := rfl
          ok := by
            rintro receipt ⟨⟩
          error := fun _ _ => rfl }

end Turns

/-! ## The invariant -/

/-- In addition, nothing exists but what has an id that was drawn. -/
structure Orderly (earlier : List Repository) (known : String → Option Provenance)
    (bench : Workbench) : Prop extends Serialized earlier known bench where
  committed : ∀ repository ∈ bench.session.repository :: earlier, ∀ {node : NodeRef},
    repository.nodes.hasNode node → bench.session.ids.HasDrawn node.id
  drew : ∀ {name : String} {provenance : Provenance} {id : String},
    known name = some provenance → provenance.drew id → bench.session.ids.HasDrawn id

namespace Orderly

variable {earlier : List Repository} {known : String → Option Provenance}
  {bench after : Workbench} {name : String} {work : UnitOfWork}

/-- The nodes on a desk have ids that were drawn, too. -/
theorem hasDrawn (hbench : Orderly earlier known bench) {desk : Desk}
    (hdesk : bench.desks[name]? = some desk) {node : NodeRef} (hnode : desk.nodes.hasNode node) :
    bench.session.ids.HasDrawn node.id := by
  obtain ⟨work, provenance, rfl, hknown, horigin, -, hnodes⟩ := hbench.desk hdesk
  rcases hnodes hnode with hnode | hdrew
  · exact hbench.committed _ horigin hnode
  · exact hbench.drew hknown hdrew

/-- What lies on one desk may be exchanged for what came about apart from the others: for nothing,
or for a unit of work that sees nothing that others drew, and drew nothing that others see. -/
theorem exchange (hbench : Orderly earlier known bench) (desk? : Option Desk)
    {provenance? : Option Provenance}
    (hdesks : ∀ other, after.desks[other]? =
      if name = other then desk? else bench.desks[other]?)
    (hrepository : after.session.repository = bench.session.repository)
    (hlater : bench.session.ids ≤ after.session.ids)
    (hdesk : ∀ desk, desk? = some desk →
      (∃ work provenance, desk = .work work ∧ provenance? = some provenance ∧
        provenance.origin ∈ bench.session.repository :: earlier ∧ provenance.Covers work) ∧
      ∀ {node : NodeRef}, desk.nodes.hasNode node → ∀ {owner : String} {provenance : Provenance},
        owner ≠ name → known owner = some provenance → ¬ provenance.drew node.id)
    (hdrew : ∀ provenance, provenance? = some provenance → ∀ {id : String}, provenance.drew id →
      after.session.ids.HasDrawn id ∧ ∀ node : NodeRef, node.id = id →
        (∀ repository ∈ bench.session.repository :: earlier, ¬ repository.nodes.hasNode node) ∧
        ∀ {other : String} {desk : Desk}, other ≠ name → bench.desks[other]? = some desk →
          ¬ desk.nodes.hasNode node) :
    Orderly earlier (Function.update known name provenance?) after := by
  constructor
  case toSerialized =>
    constructor
    case chain =>
      rw [hrepository]
      exact hbench.chain
    case newest =>
      rw [hrepository]
      exact hbench.newest
    case desk =>
      intro other desk hother
      rw [hdesks] at hother
      rw [hrepository]
      split at hother
      · rename_i hsame
        obtain rfl := hsame
        rw [Function.update_self]
        exact (hdesk desk hother).1
      · rename_i hne
        rw [Function.update_of_ne (Ne.symm hne)]
        exact hbench.desk hother
    case isolated =>
      intro owner provenance node howner hid
      rw [hrepository]
      by_cases hsame : owner = name
      · obtain rfl := hsame
        rw [Function.update_self] at howner
        obtain ⟨-, hapart⟩ := hdrew provenance howner hid
        refine ⟨(hapart node rfl).1, ?_⟩
        intro other desk hne hother
        rw [hdesks, if_neg (Ne.symm hne)] at hother
        exact (hapart node rfl).2 hne hother
      · rw [Function.update_of_ne hsame] at howner
        refine ⟨(hbench.isolated howner hid).1, ?_⟩
        intro other desk hne hother
        rw [hdesks] at hother
        split at hother
        · intro hnode
          exact (hdesk desk hother).2 hnode hsame howner hid
        · exact (hbench.isolated howner hid).2 hne hother
  case committed =>
    intro repository hmem node hnode
    rw [hrepository] at hmem
    exact (hbench.committed _ hmem hnode).mono hlater
  case drew =>
    intro owner provenance id howner hid
    by_cases hsame : owner = name
    · obtain rfl := hsame
      rw [Function.update_self] at howner
      exact (hdrew provenance howner hid).1
    · rw [Function.update_of_ne hsame] at howner
      exact (hbench.drew howner hid).mono hlater

/-- After a turn at a desk, what is new there has ids that were drawn in that turn. -/
theorem turn {state : WorkState} (hbench : Orderly earlier known bench)
    (hturn : Turn bench after name work state) :
    Orderly earlier
      (Function.update known name
        ((known name).map fun provenance =>
          provenance.extend bench.session.ids after.session.ids)) after := by
  obtain ⟨_, former, ⟨⟩, hknown, horigin, hformer⟩ := hbench.desk hturn.desk
  have hlater : bench.session.ids ≤ after.session.ids := by
    rw [hturn.ids]
    exact hturn.grows.later.ids_le
  have hnew {node : NodeRef} (hnode : state.work.nodes.hasNode node) :
      work.nodes.hasNode node ∨
        after.session.ids.HasDrawn node.id ∧ ¬ bench.session.ids.HasDrawn node.id := by
    rw [hturn.ids]
    exact hturn.grows.later.hasNode hnode
  rw [hknown, Option.map_some]
  refine hbench.exchange (some (.work state.work)) ?_ hturn.repository hlater ?_ ?_
  · intro other
    rw [hturn.desks]
    simp [Std.ExtTreeMap.getElem?_insert]
  · rintro _ ⟨⟩
    refine ⟨⟨_, _, rfl, rfl, horigin, hturn.derived hformer.derived, ?_⟩, ?_⟩
    · intro node hnode
      rcases hnew hnode with hold | hdrawn
      · exact (hformer.hasNode hold).imp_right .inl
      · exact .inr (.inr hdrawn)
    · intro node hnode owner provenance hne howner hid
      rcases hnew hnode with hold | ⟨-, hfresh⟩
      · exact (hbench.isolated howner hid).2 (Ne.symm hne) hturn.desk hold
      · exact hfresh (hbench.drew howner hid)
  · rintro _ ⟨⟩ id (hid | ⟨hdrawn, hfresh⟩)
    · refine ⟨(hbench.drew hknown hid).mono hlater, ?_⟩
      rintro node rfl
      exact hbench.isolated hknown hid
    · -- Nobody can have a node with an id that had not been drawn.
      refine ⟨hdrawn, ?_⟩
      rintro node rfl
      exact ⟨fun _ hmem hnode => hfresh (hbench.committed _ hmem hnode),
        fun _ hdesk hnode => hfresh (hbench.hasDrawn hdesk hnode)⟩

/-- A unit of work may be put away. -/
theorem clear (hbench : Orderly earlier known bench)
    (hdesks : after.desks = bench.desks.erase name)
    (hrepository : after.session.repository = bench.session.repository)
    (hlater : bench.session.ids ≤ after.session.ids) :
    Orderly earlier (Function.update known name none) after := by
  refine hbench.exchange none ?_ hrepository hlater ?_ ?_
  · intro other
    rw [hdesks]
    simp [Std.ExtTreeMap.getElem?_erase]
  · rintro _ ⟨⟩
  · rintro _ ⟨⟩

/-- A unit of work may be begun, and sees what is committed then. -/
theorem begin (hbench : Orderly earlier known bench) (name : String) :
    Orderly earlier (Function.update known name (some { origin := bench.session.repository }))
      (bench.begin name) := by
  refine hbench.exchange (some (.work bench.session.begin)) ?_ rfl le_rfl ?_ ?_
  · intro other
    simp [Workbench.begin, Workbench.put, Std.ExtTreeMap.getElem?_insert]
  · rintro _ ⟨⟩
    refine ⟨⟨_, _, rfl, rfl, List.mem_cons_self, .begin, .inl⟩, ?_⟩
    intro node hnode owner provenance _ howner hid
    exact (hbench.isolated howner hid).1 _ List.mem_cons_self hnode
  · rintro _ ⟨⟩ _ ⟨⟩

/-- A state may be committed that succeeds the current one and holds nothing that lies on a desk
only. -/
theorem install (hbench : Orderly earlier known bench) {repository : Repository}
    (hsucceeds : repository.Succeeds bench.session.repository)
    (hdrawn : ∀ {node : NodeRef}, repository.nodes.hasNode node →
      bench.session.ids.HasDrawn node.id)
    (hapart : ∀ {owner : String} {provenance : Provenance} {node : NodeRef},
      known owner = some provenance → provenance.drew node.id → ¬ repository.nodes.hasNode node)
    (hdesks : after.desks = bench.desks) (hids : after.session.ids = bench.session.ids)
    (hrepository : after.session.repository = repository) :
    Orderly (bench.session.repository :: earlier) known after := by
  constructor
  case toSerialized =>
    constructor
    case chain =>
      rw [hrepository]
      exact .cons_cons hsucceeds hbench.chain
    case newest =>
      intro former hmem
      rw [hrepository, hsucceeds.1]
      rcases List.mem_cons.mp hmem with rfl | hearlier
      · exact Nat.lt_succ_self _
      · exact Nat.lt_succ_of_lt (hbench.newest _ hearlier)
    case desk =>
      intro other desk hother
      rw [hdesks] at hother
      obtain ⟨work, provenance, hwork, hknown, horigin, hcovers⟩ := hbench.desk hother
      exact ⟨work, provenance, hwork, hknown, List.mem_cons_of_mem _ horigin, hcovers⟩
    case isolated =>
      intro owner provenance node howner hid
      rw [hrepository, hdesks]
      obtain ⟨hcommitted, hother⟩ := hbench.isolated howner hid
      refine ⟨?_, hother⟩
      intro former hmem
      rcases List.mem_cons.mp hmem with rfl | hearlier
      · exact hapart howner hid
      · exact hcommitted former hearlier
  case committed =>
    rw [hids, hrepository]
    intro former hmem node hnode
    rcases List.mem_cons.mp hmem with rfl | hearlier
    · exact hdrawn hnode
    · exact hbench.committed former hearlier hnode
  case drew =>
    rw [hids]
    exact hbench.drew

/-- A unit of work whose version is the current one was begun on the current state. -/
theorem origin_eq (hbench : Orderly earlier known bench) {provenance : Provenance}
    (horigin : provenance.origin ∈ bench.session.repository :: earlier)
    (hversion : bench.session.repository.version = provenance.origin.version) :
    provenance.origin = bench.session.repository := by
  rcases List.mem_cons.mp horigin with horigin | hearlier
  · exact horigin
  · exact absurd hversion (Nat.ne_of_gt (hbench.newest _ hearlier))

/-- A commit that succeeds was begun on the current state, and what it commits succeeds it. -/
theorem commit (hbench : Orderly earlier known bench) {receipt : CommitReceipt} {final : WorkState}
    (hconclusion : Conclusion bench after name work (.ok receipt) final) :
    Orderly (bench.session.repository :: earlier) (Function.update known name none) after := by
  obtain ⟨_, provenance, ⟨⟩, hknown, horigin, hcovers⟩ := hbench.desk hconclusion.desk
  obtain ⟨hversion, -, hrepository⟩ := hconclusion.ok receipt rfl
  have hderived := hconclusion.derived hcovers.derived
  rw [hderived.baseVersion_eq] at hversion
  rw [hbench.origin_eq horigin hversion] at hderived
  have hlater := hconclusion.grows.later
  let cleared : Workbench :=
    { session := { bench.session with ids := final.ids }, desks := after.desks }
  have hcleared : Orderly earlier (Function.update known name none) cleared :=
    hbench.clear hconclusion.desks rfl hlater.ids_le
  refine hcleared.install ⟨by rw [hrepository], final.work, hderived, by rw [hrepository]⟩
    ?_ ?_ rfl hconclusion.ids rfl
  · rw [hrepository]
    exact hlater.hasDrawn (hbench.hasDrawn hconclusion.desk)
  · intro owner other node howner hid hnode
    have hne : owner ≠ name := by
      rintro rfl
      rw [Function.update_self] at howner
      cases howner
    rw [Function.update_of_ne hne] at howner
    rw [hrepository] at hnode
    rcases hlater.hasNode hnode with hold | ⟨-, hfresh⟩
    · exact (hbench.isolated howner hid).2 (Ne.symm hne) hconclusion.desk hold
    · exact hfresh (hbench.drew howner hid)

end Orderly

/-! ## Interleavings -/

section Interleavings

variable {earlier : List Repository} {known : String → Option Provenance}
  {bench after : Workbench} {name : String}

/-- Whoever takes a turn or commits has a unit of work. -/
theorem Serialized.exists_work (hbench : Serialized earlier known bench) (name : String)
    (hdesk : bench.desks[name]? ≠ none) : ∃ work, bench.desks[name]? = some (.work work) := by
  obtain ⟨desk, hdesk⟩ := Option.ne_none_iff_exists'.mp hdesk
  obtain ⟨work, _, rfl, -⟩ := hbench.desk hdesk
  exact ⟨work, hdesk⟩

theorem Serialized.turn_of_edit (hbench : Serialized earlier known bench) {change : Edit}
    {answer : Except Error change.Answer} (hedit : bench.edit name change = some (answer, after)) :
    ∃ work state, Turn bench after name work state := by
  obtain ⟨work, hdesk⟩ := hbench.exists_work name fun hnone => by
    simp [Workbench.edit, hnone] at hedit
  exact ⟨work, _, .of_edit hdesk hedit⟩

theorem Serialized.turn_of_run (hbench : Serialized earlier known bench) {α : Type}
    {service : RuleService} {budget : Nat} {script : Script α} {answer : Except Error α}
    (hrun : bench.run name
      (script.run bench.session.rules (service.engine bench.session.rules budget)) =
        some (answer, after)) :
    ∃ work state, Turn bench after name work state := by
  obtain ⟨work, hdesk⟩ := hbench.exists_work name fun hnone => by
    simp [Workbench.run, hnone] at hrun
  exact ⟨work, Turn.of_run hdesk hrun⟩

theorem Serialized.conclusion_of_commit (hbench : Serialized earlier known bench)
    {service : RuleService} {budget : Nat} {answer : Except Error CommitReceipt}
    (hcommit : bench.commit service budget name = some (answer, after)) :
    ∃ work final, Conclusion bench after name work answer final := by
  obtain ⟨work, hdesk⟩ := hbench.exists_work name fun hnone => by
    simp [Workbench.commit, hnone] at hcommit
  exact ⟨work, Conclusion.of_commit hdesk hcommit⟩

/-- The invariant holds after any turns. -/
theorem Interleaving.orderly (hbench : Interleaving earlier known bench) :
    Orderly earlier known bench := by
  induction hbench with
  | @start session hreachable =>
      constructor
      case toSerialized => exact ⟨.singleton _, by simp, by simp, by simp⟩
      case committed =>
        intro repository hmem node hnode
        obtain rfl := List.mem_singleton.mp hmem
        exact hreachable.sound.hasDrawn hnode
      case drew => simp
  | begin _ name ih => exact ih.begin name
  | edit _ hedit ih =>
      obtain ⟨_, _, hturn⟩ := ih.turn_of_edit hedit
      exact ih.turn hturn
  | run _ hrun ih =>
      obtain ⟨_, _, hturn⟩ := ih.turn_of_run hrun
      exact ih.turn hturn
  | commit _ hcommit ih =>
      obtain ⟨_, _, hconclusion⟩ := ih.conclusion_of_commit hcommit
      exact ih.commit hconclusion
  | refused _ hcommit ih =>
      obtain ⟨_, _, hconclusion⟩ := ih.conclusion_of_commit hcommit
      refine ih.clear hconclusion.desks (hconclusion.error _ rfl) ?_
      rw [hconclusion.ids]
      exact hconclusion.grows.later.ids_le
  | rollback _ name ih => exact ih.clear rfl rfl le_rfl
  | share _ rules hlater journal ih =>
      constructor
      case toSerialized => exact { ih.toSerialized with }
      case committed =>
        intro repository hmem node hnode
        exact (ih.committed repository hmem hnode).mono hlater
      case drew =>
        intro owner provenance id howner hid
        exact (ih.drew howner hid).mono hlater

end Interleavings

/-! ## Two parties -/

namespace Echo

theorem reachable_session :
    StoreState.Reachable { ids := session.ids, nodes := session.repository.nodes } :=
  (StoreState.Reachable.empty _).edit (.createStore "workspace" "main")

/-- Two parties have begun to work on a store that has a root only. -/
def rivals : Workbench :=
  (({ session } : Workbench).begin "left").begin "right"

/-- Makes a node beneath the root. -/
def create : Edit :=
  let name : QualifiedName := { space := "model", localName := "contains" }
  .createNode (entry "ping" "add").actionable name name name []

end Echo

end ContentRules
