import Std.Data.ExtTreeSet

/-!
# Ordered sets

An ordered set holds items in the order in which they came, and takes none whose key is there
already.  Beside the items it keeps the set of their keys, by which an item is found.  What came
last can be dropped again: the first items stay, and the keys of the others are forgotten.
-/

namespace ContentRules

variable {α κ : Type} [Ord κ] [Std.TransOrd κ]

/-- Items in the order in which they came, and the set of their keys. -/
@[ext] structure OrderedSet (key : α → κ) where
  entries : List α := []
  keys : Std.ExtTreeSet κ := ∅
  nodup : (entries.map key).Nodup := by simp
  mem_keys_iff : ∀ sought : κ, sought ∈ keys ↔ sought ∈ entries.map key := by simp

namespace OrderedSet

variable {key : α → κ}

/-- No items. -/
def empty : OrderedSet key := {}

instance : Inhabited (OrderedSet key) := ⟨empty⟩

def size (set : OrderedSet key) : Nat :=
  set.entries.length

def isEmpty (set : OrderedSet key) : Bool :=
  set.entries.isEmpty

/-- Whether an item with the key of this one is there. -/
def contains (set : OrderedSet key) (item : α) : Bool :=
  set.keys.contains (key item)

theorem contains_iff (set : OrderedSet key) (item : α) :
    set.contains item ↔ key item ∈ set.entries.map key := by
  rw [contains, ← Std.ExtTreeSet.mem_iff_contains, set.mem_keys_iff]

variable [Std.LawfulEqOrd κ]

/-- Adds an item behind all others unless its key is there; says whether it did. -/
def push (set : OrderedSet key) (item : α) : Bool × OrderedSet key :=
  if hcontains : set.contains item then (false, set)
  else
    (true,
      { entries := set.entries ++ [item]
        keys := set.keys.insert (key item)
        nodup := by
          rw [contains_iff] at hcontains
          simpa [List.nodup_append, set.nodup] using hcontains
        mem_keys_iff := by
          intro sought
          rw [Std.ExtTreeSet.mem_insert, Std.compare_eq_iff_eq, set.mem_keys_iff, List.map_append,
            List.mem_append, List.map_singleton, List.mem_singleton, or_comm, eq_comm] })

/-- All items, and the set without them. -/
def take (set : OrderedSet key) : List α × OrderedSet key :=
  (set.entries, empty)

theorem mem_foldl_erase (keys : Std.ExtTreeSet κ) (dropped : List α) (sought : κ) :
    sought ∈ dropped.foldl (fun keys item => keys.erase (key item)) keys ↔
      sought ∈ keys ∧ sought ∉ dropped.map key := by
  induction dropped generalizing keys with
  | nil => simp
  | cons item dropped ih =>
      rw [List.foldl_cons, ih, Std.ExtTreeSet.mem_erase, ne_eq, Std.compare_eq_iff_eq,
        List.map_cons, List.mem_cons, not_or, eq_comm, and_left_comm, and_assoc]

/-- The set with its first `count` items only. -/
def truncate (set : OrderedSet key) (count : Nat) : OrderedSet key where
  entries := set.entries.take count
  keys := (set.entries.drop count).foldl (fun keys item => keys.erase (key item)) set.keys
  nodup := set.nodup.sublist ((List.take_sublist count set.entries).map key)
  mem_keys_iff := by
    intro sought
    have hnodup := set.nodup
    rw [← List.take_append_drop count set.entries, List.map_append] at hnodup
    have hkeys := set.mem_keys_iff sought
    rw [← List.take_append_drop count set.entries, List.map_append, List.mem_append] at hkeys
    rw [mem_foldl_erase, hkeys]
    constructor
    · rintro ⟨htaken | hdropped, hkept⟩
      · exact htaken
      · exact absurd hdropped hkept
    · intro htaken
      refine ⟨.inl htaken, ?_⟩
      intro hdropped
      exact (List.nodup_append.mp hnodup).2.2 sought htaken sought hdropped rfl

/-! ## The items decide the set -/

/-- The keys are those of the items, so sets with the same items are the same. -/
theorem eq_of_entries_eq {set other : OrderedSet key} (hentries : set.entries = other.entries) :
    set = other := by
  refine OrderedSet.ext hentries (Std.ExtTreeSet.ext_mem ?_)
  intro sought
  rw [set.mem_keys_iff, other.mem_keys_iff, hentries]

theorem entries_push_prefix (set : OrderedSet key) (item : α) :
    set.entries <+: (set.push item).2.entries := by
  unfold push
  split
  · exact List.prefix_rfl
  · exact List.prefix_append set.entries [item]

/-- Dropping what came after a set gives back the set. -/
theorem truncate_eq_of_prefix {set later : OrderedSet key}
    (hlater : set.entries <+: later.entries) : later.truncate set.size = set := by
  refine eq_of_entries_eq ?_
  obtain ⟨added, hadded⟩ := hlater
  simp [truncate, size, ← hadded]

end OrderedSet

end ContentRules
