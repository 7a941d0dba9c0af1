import Mathlib.Data.List.Forall2
import Mathlib.Data.List.Induction
import ContentRules.Rule.PendingQueue

/-!
# The order in which entries wait

An ordered set keeps its items in a list and their keys in a set, and every question but that for
the order is answered from the keys.  Whatever is added, taken and dropped, the keys are those of
the items: an item is refused just if one with its key is there, and one that was removed can be
added again.

**Strategy.**  `SetEdit` is what can be done to an ordered set, and `AddedAt` says at which time an
item was added that has been there ever since.  One edit keeps the times of the items that stay, and
an item that is added comes later than all others (`AddedAt.edit`), so the items of a set are in the
order of their times (`exists_times`).
-/

namespace ContentRules

/-- What can be done to an ordered set. -/
inductive SetEdit (α : Type) where
  | push (item : α)
  | take
  | truncate (count : Nat)

namespace OrderedSet

variable {α κ : Type} [Ord κ] [Std.TransOrd κ] {key : α → κ}

/-! ## Single edits -/

theorem contains_iff_exists {set : OrderedSet key} {item : α} :
    set.contains item ↔ ∃ other ∈ set.entries, key other = key item := by
  rw [contains_iff, List.mem_map]

theorem not_contains_empty (item : α) : ¬ (empty : OrderedSet key).contains item := by
  rw [contains_iff_exists]
  rintro ⟨other, hother, -⟩
  exact absurd hother List.not_mem_nil

variable [Std.LawfulEqOrd κ]

/-- An item is refused if one with its key is there. -/
theorem push_of_contains {set : OrderedSet key} {item : α} (hthere : set.contains item) :
    set.push item = (false, set) :=
  dif_pos hthere

/-- Any other item comes last. -/
theorem push_of_not_contains {set : OrderedSet key} {item : α} (hnew : ¬ set.contains item) :
    (set.push item).1 = true ∧ (set.push item).2.entries = set.entries ++ [item] := by
  unfold push
  rw [dif_neg hnew]
  exact ⟨rfl, rfl⟩

/-- The keys of the items that are dropped are forgotten. -/
theorem not_contains_truncate {set : OrderedSet key} {count : Nat} {dropped again : α}
    (hdropped : dropped ∈ set.entries.drop count) (hsame : key dropped = key again) :
    ¬ (set.truncate count).contains again := by
  have hnodup := set.nodup
  rw [← List.take_append_drop count set.entries, List.map_append] at hnodup
  rw [contains_iff_exists]
  rintro ⟨kept, hkept, hkey⟩
  have hkept : kept ∈ set.entries.take count := hkept
  exact (List.nodup_append.mp hnodup).2.2 (key kept) (List.mem_map_of_mem hkept) (key dropped)
    (List.mem_map_of_mem hdropped) (hkey.trans hsame.symm)

/-! ## Histories -/

/-- The set after an edit. -/
def edit (set : OrderedSet key) : SetEdit α → OrderedSet key
  | .push item => (set.push item).2
  | .take => set.take.2
  | .truncate count => set.truncate count

/-- The set after edits that began with no items. -/
def ofEdits (edits : List (SetEdit α)) : OrderedSet key :=
  edits.foldl edit .empty

theorem ofEdits_concat (edits : List (SetEdit α)) (last : SetEdit α) :
    (ofEdits (edits ++ [last]) : OrderedSet key) = (ofEdits edits : OrderedSet key).edit last :=
  List.foldl_concat ..

variable (key) in
/-- The item was added by the edit at this time, when none with its key was there, and has been
there ever since. -/
structure AddedAt (edits : List (SetEdit α)) (item : α) (time : Nat) : Prop where
  pushed : edits[time]? = some (.push item)
  new : ¬ (ofEdits (edits.take time) : OrderedSet key).contains item
  since : ∀ later, time < later → later ≤ edits.length →
    item ∈ (ofEdits (edits.take later) : OrderedSet key).entries

namespace AddedAt

variable {edits : List (SetEdit α)} {item : α} {time : Nat}

theorem lt_length (hadded : AddedAt key edits item time) : time < edits.length :=
  (List.getElem?_eq_some_iff.mp hadded.pushed).1

/-- An item that stays was added when it was. -/
theorem edit (hadded : AddedAt key edits item time) {last : SetEdit α}
    (hstays : item ∈ (ofEdits (edits ++ [last]) : OrderedSet key).entries) :
    AddedAt key (edits ++ [last]) item time where
  pushed := by
    rw [List.getElem?_append_left hadded.lt_length]
    exact hadded.pushed
  new := by
    rw [List.take_append_of_le_length (Nat.le_of_lt hadded.lt_length)]
    exact hadded.new
  since later hlater hle := by
    rw [List.length_append, List.length_singleton] at hle
    rcases Nat.lt_or_eq_of_le hle with hbefore | rfl
    · rw [List.take_append_of_le_length (Nat.le_of_lt_succ hbefore)]
      exact hadded.since later hlater (Nat.le_of_lt_succ hbefore)
    · rwa [List.take_of_length_le (by simp)]

/-- An item is added now if none with its key is there. -/
theorem push (hnew : ¬ (ofEdits edits : OrderedSet key).contains item) :
    AddedAt key (edits ++ [.push item]) item edits.length where
  pushed := List.getElem?_concat_length
  new := by rwa [List.take_left]
  since later hlater hle := by
    rw [List.length_append, List.length_singleton] at hle
    rw [List.take_of_length_le (by rw [List.length_append, List.length_singleton]; omega),
      ofEdits_concat]
    show item ∈ ((ofEdits edits : OrderedSet key).push item).2.entries
    rw [(push_of_not_contains hnew).2]
    exact List.mem_append_right _ (List.mem_singleton_self item)

/-- The items that stay keep their times. -/
theorem forall₂_edit {items : List α} {times : List Nat} {last : SetEdit α}
    (hadded : List.Forall₂ (AddedAt key edits) items times)
    (hstay : items ⊆ (ofEdits (edits ++ [last]) : OrderedSet key).entries) :
    List.Forall₂ (AddedAt key (edits ++ [last])) items times := by
  induction hadded with
  | nil => exact .nil
  | cons hfirst _ ih =>
      obtain ⟨hstays, hrest⟩ := List.cons_subset.mp hstay
      exact .cons (hfirst.edit hstays) (ih hrest)

/-- An item that is added comes last, with the latest time. -/
theorem forall₂_push {times : List Nat}
    (hadded : List.Forall₂ (AddedAt key edits) (ofEdits edits : OrderedSet key).entries times)
    (hnew : ¬ (ofEdits edits : OrderedSet key).contains item) :
    List.Forall₂ (AddedAt key (edits ++ [.push item]))
      (ofEdits (edits ++ [.push item]) : OrderedSet key).entries (times ++ [edits.length]) := by
  have hentries : (ofEdits (edits ++ [.push item]) : OrderedSet key).entries =
      (ofEdits edits : OrderedSet key).entries ++ [item] := by
    rw [ofEdits_concat]
    exact (push_of_not_contains hnew).2
  have hstay := forall₂_edit hadded (hentries ▸ List.subset_append_left _ [item])
  rw [hentries]
  exact List.rel_append hstay (.cons (.push hnew) .nil)

theorem lt_length_of_mem {items : List α} {times : List Nat}
    (hadded : List.Forall₂ (AddedAt key edits) items times) (htime : time ∈ times) :
    time < edits.length := by
  obtain ⟨index, hindex, rfl⟩ := List.mem_iff_getElem.mp htime
  exact ((List.forall₂_iff_get.mp hadded).2 index (hadded.length_eq ▸ hindex) hindex).lt_length

end AddedAt

variable (key) in
/-- Items stand in the order in which they were added, each since it was last removed. -/
theorem exists_times (edits : List (SetEdit α)) :
    ∃ times : List Nat, times.Pairwise (· < ·) ∧
      List.Forall₂ (AddedAt key edits) (ofEdits edits : OrderedSet key).entries times := by
  induction edits using List.reverseRecOn with
  | nil => exact ⟨[], .nil, .nil⟩
  | append_singleton edits last ih =>
      obtain ⟨times, hordered, hadded⟩ := ih
      cases last with
      | push item =>
          by_cases hthere : (ofEdits edits : OrderedSet key).contains item
          · have hsame : (ofEdits (edits ++ [.push item]) : OrderedSet key) = ofEdits edits :=
              (ofEdits_concat edits _).trans (congrArg Prod.snd (push_of_contains hthere))
            have hentries := congrArg entries hsame
            refine ⟨times, hordered, ?_⟩
            rw [hentries]
            exact AddedAt.forall₂_edit hadded (hentries ▸ List.Subset.refl _)
          · refine ⟨times ++ [edits.length], ?_, AddedAt.forall₂_push hadded hthere⟩
            rw [List.pairwise_append]
            refine ⟨hordered, List.pairwise_singleton .., ?_⟩
            intro time htime now hnow
            obtain rfl := List.mem_singleton.mp hnow
            exact AddedAt.lt_length_of_mem hadded htime
      | take =>
          have hentries : (ofEdits (edits ++ [.take]) : OrderedSet key).entries = [] := by
            rw [ofEdits_concat]
            rfl
          exact ⟨[], .nil, hentries ▸ .nil⟩
      | truncate count =>
          have hentries : (ofEdits (edits ++ [.truncate count]) : OrderedSet key).entries =
              (ofEdits edits : OrderedSet key).entries.take count := by
            rw [ofEdits_concat]
            rfl
          refine ⟨times.take count, hordered.sublist (List.take_sublist ..), ?_⟩
          rw [hentries]
          exact AddedAt.forall₂_edit (List.forall₂_take count hadded)
            (hentries ▸ List.Subset.refl _)

end OrderedSet

/-! ## The queue -/

/-- The entries are of the same rule on the same two nodes. -/
def PendingEntry.Same (entry other : PendingEntry) : Prop :=
  entry.actionable = other.actionable ∧ entry.actionedUpon = other.actionedUpon ∧
    entry.rule.id = other.rule.id

theorem PendingEntry.key_eq_iff {entry other : PendingEntry} :
    entry.key = other.key ↔ entry.Same other := by
  simp only [key, EntryKey.mk.injEq, Same]

namespace PendingQueue

open OrderedSet

theorem contains_iff_exists_same {queue : PendingQueue} {entry : PendingEntry} :
    queue.contains entry ↔ ∃ waiting ∈ queue.entries, waiting.Same entry := by
  simp only [contains_iff_exists, PendingEntry.key_eq_iff]

/-- **The queue is a set in order of insertion.**  However entries were pushed, taken and dropped:
no two that wait are the same, and whether one waits is what the queue answers.  One that waits is
refused, and the version that came first stays; any other comes last.  Truncating keeps the first
entries, and taking hands out all; what was dropped or taken can be queued again.  The entries stand
in the order in which they were first pushed since they were last removed. -/
theorem insertionOrdered_ofEdits (edits : List (SetEdit PendingEntry)) :
    let queue : PendingQueue := ofEdits edits
    queue.entries.Pairwise (fun first second => ¬ first.Same second) ∧
    (∀ entry, queue.contains entry ↔ ∃ waiting ∈ queue.entries, waiting.Same entry) ∧
    (∀ entry,
      ((∃ waiting ∈ queue.entries, waiting.Same entry) → queue.push entry = (false, queue)) ∧
      ((∀ waiting ∈ queue.entries, ¬ waiting.Same entry) →
        (queue.push entry).1 = true ∧
          (queue.push entry).2.entries = queue.entries ++ [entry])) ∧
    (∀ count, (queue.truncate count).entries = queue.entries.take count ∧
      ∀ dropped ∈ queue.entries.drop count, ∀ again, dropped.Same again →
        ((queue.truncate count).push again).1 = true) ∧
    (queue.take.1 = queue.entries ∧ queue.take.2.entries = [] ∧
      ∀ again, (queue.take.2.push again).1 = true) ∧
    ∃ times : List Nat, times.Pairwise (· < ·) ∧
      List.Forall₂ (AddedAt PendingEntry.key edits) queue.entries times := by
  intro queue
  refine ⟨?_, fun _ => contains_iff_exists_same, fun entry => ⟨fun hwaits => ?_, fun hnone => ?_⟩,
    fun count => ⟨rfl, fun dropped hdropped again hsame => ?_⟩,
    ⟨rfl, rfl, fun again => ?_⟩, exists_times PendingEntry.key edits⟩
  · have hnodup : queue.entries.Pairwise fun first second => first.key ≠ second.key :=
      List.pairwise_map.mp queue.nodup
    exact hnodup.imp fun hne hsame => hne (PendingEntry.key_eq_iff.mpr hsame)
  · exact push_of_contains (contains_iff_exists_same.mpr hwaits)
  · refine push_of_not_contains fun hcontains => ?_
    obtain ⟨waiting, hwaiting, hsame⟩ := contains_iff_exists_same.mp hcontains
    exact hnone waiting hwaiting hsame
  · exact (push_of_not_contains
      (not_contains_truncate hdropped (PendingEntry.key_eq_iff.mpr hsame))).1
  · exact (push_of_not_contains (not_contains_empty again)).1

end PendingQueue

end ContentRules
