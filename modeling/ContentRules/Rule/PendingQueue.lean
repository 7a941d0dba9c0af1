import ContentRules.OrderedSet
import ContentRules.Rule.Basic

/-!
# Pending rules

A pending entry is a rule to be run on the node that it is attached to, for the node that triggered
it.  The queue holds entries in the order in which they were queued and takes none that equals one
already waiting; two entries are equal if their nodes and the ids of their rules are.
-/

namespace ContentRules

/-- A rule that waits to be run. -/
structure PendingEntry where
  actionable : NodeRef
  actionedUpon : NodeRef
  rule : Rule

/-- What entries are told apart by. -/
structure EntryKey where
  actionable : NodeRef
  actionedUpon : NodeRef
  rule : String
deriving DecidableEq, Repr

namespace EntryKey

instance : Ord EntryKey :=
  ⟨compareLex (compareOn EntryKey.actionable)
    (compareLex (compareOn EntryKey.actionedUpon) (compareOn EntryKey.rule))⟩

instance : Std.TransOrd EntryKey :=
  inferInstanceAs (Std.TransCmp (compareLex (compareOn EntryKey.actionable)
    (compareLex (compareOn EntryKey.actionedUpon) (compareOn EntryKey.rule))))

instance : Std.LawfulEqOrd EntryKey where
  eq_of_compare {a b} h := by
    obtain ⟨hactionable, hrest⟩ := compareLex_eq_eq.mp h
    obtain ⟨hactionedUpon, hrule⟩ := compareLex_eq_eq.mp hrest
    cases a; cases b
    simp_all [compareOn]

end EntryKey

namespace PendingEntry

def key (entry : PendingEntry) : EntryKey where
  actionable := entry.actionable
  actionedUpon := entry.actionedUpon
  rule := entry.rule.id

def text (entry : PendingEntry) : String :=
  "rule " ++ entry.rule.id ++ " on " ++ entry.actionable.text ++ " for " ++
    entry.actionedUpon.text

end PendingEntry

/-- The entries that wait, the next one first. -/
abbrev PendingQueue := OrderedSet PendingEntry.key

end ContentRules
