import Std.Data.ExtTreeMap

/-!
# Names and references

A qualified name is a local name within a namespace.  A store reference names a tree of nodes by
protocol and identifier; a node reference names one node of a store by its id.  Each has one text
form (`toString`) and an order by its parts, in which lists of them are shown.
-/

namespace ContentRules

/-- The name of a type, an aspect, a property or an association, within a namespace that may be
empty. -/
structure QualifiedName where
  space : String
  localName : String
deriving DecidableEq, Repr

/-- The name of an independent tree of nodes. -/
structure StoreRef where
  protocol : String
  identifier : String
deriving DecidableEq, Repr

/-- The name of one node: the store that it was made in, and its id there. -/
structure NodeRef where
  store : StoreRef
  id : String
deriving DecidableEq, Repr

namespace QualifiedName

instance : Inhabited QualifiedName := ⟨⟨"", ""⟩⟩

/-- The text form, the namespace in braces before the local name. -/
def text (name : QualifiedName) : String :=
  "\x7b" ++ name.space ++ "\x7d" ++ name.localName

/-- The parts, in the order in which names are compared by them. -/
def parts (name : QualifiedName) : List String :=
  [name.space, name.localName]

instance : ToString QualifiedName := ⟨text⟩

instance : Ord QualifiedName :=
  ⟨compareLex (compareOn QualifiedName.space) (compareOn QualifiedName.localName)⟩

instance : Std.TransOrd QualifiedName :=
  inferInstanceAs (Std.TransCmp
    (compareLex (compareOn QualifiedName.space) (compareOn QualifiedName.localName)))

instance : Std.LawfulEqOrd QualifiedName where
  eq_of_compare {a b} h := by
    obtain ⟨hspace, hlocal⟩ := compareLex_eq_eq.mp h
    cases a; cases b
    simp_all [compareOn]

end QualifiedName

namespace StoreRef

instance : Inhabited StoreRef := ⟨⟨"", ""⟩⟩

/-- The protocol of the store that users work in. -/
def workspace : String := "workspace"

/-- The text form `protocol://identifier`. -/
def text (store : StoreRef) : String :=
  store.protocol ++ "://" ++ store.identifier

@[inherit_doc QualifiedName.parts] def parts (store : StoreRef) : List String :=
  [store.protocol, store.identifier]

instance : ToString StoreRef := ⟨text⟩

instance : Ord StoreRef :=
  ⟨compareLex (compareOn StoreRef.protocol) (compareOn StoreRef.identifier)⟩

instance : Std.TransOrd StoreRef :=
  inferInstanceAs (Std.TransCmp
    (compareLex (compareOn StoreRef.protocol) (compareOn StoreRef.identifier)))

instance : Std.LawfulEqOrd StoreRef where
  eq_of_compare {a b} h := by
    obtain ⟨hprotocol, hidentifier⟩ := compareLex_eq_eq.mp h
    cases a; cases b
    simp_all [compareOn]

end StoreRef

namespace NodeRef

instance : Inhabited NodeRef := ⟨⟨default, ""⟩⟩

/-- The text form `protocol://identifier/id`. -/
def text (node : NodeRef) : String :=
  node.store.text ++ "/" ++ node.id

@[inherit_doc QualifiedName.parts] def parts (node : NodeRef) : List String :=
  node.store.parts ++ [node.id]

instance : ToString NodeRef := ⟨text⟩

instance : Ord NodeRef :=
  ⟨compareLex (compareOn NodeRef.store) (compareOn NodeRef.id)⟩

instance : Std.TransOrd NodeRef :=
  inferInstanceAs (Std.TransCmp (compareLex (compareOn NodeRef.store) (compareOn NodeRef.id)))

instance : Std.LawfulEqOrd NodeRef where
  eq_of_compare {a b} h := by
    obtain ⟨hstore, hid⟩ := compareLex_eq_eq.mp h
    cases a; cases b
    simp_all [compareOn]

end NodeRef

end ContentRules
