import Mathlib.Data.List.Infix
import ContentRules.Reference.Parser

/-!
# The text forms of names and references are exact

A text is read as a name or a reference if and only if it is the text form of one whose parts can be
told apart in it, and what is read is that one.  Which parts those are is `IsReadable`, once for each
of the three: a namespace without a closing brace, a protocol without `://`, an identifier and an id
without `/`, and nothing empty but the namespace.

**Strategy.**  All three readers split at the *first* place where a mark begins, while the text form
puts a mark where the parts meet.  The two places are the same if the mark does not begin earlier,
and it could do so in two ways: inside the part before it, or across the seam, with its first
characters from the part and the others from the mark itself.  Neither `://` nor a single character
can begin again inside itself (`Unbordered`), which rules out the seam (`notBefore_iff`).
-/

namespace ContentRules

namespace Text

/-! ## Where a mark first begins -/

/-- A mark of which no proper end is also a beginning, so that two occurrences never overlap. -/
def Unbordered (mark : List Char) : Prop :=
  mark ≠ [] ∧ ∀ n < mark.length, 0 < n → ¬ mark.drop n <+: mark

instance (mark : List Char) : Decidable (Unbordered mark) :=
  inferInstanceAs (Decidable (_ ∧ _))

theorem unbordered_singleton (c : Char) : Unbordered [c] := by
  refine ⟨by simp, fun n hn hpos => ?_⟩
  simp only [List.length_singleton] at hn
  omega

/-- The place of a mark that cannot overlap itself is the first one if the text before it, taken
alone, does not hold the mark. -/
theorem notBefore_iff {mark before after : List Char} (hmark : Unbordered mark) :
    NotBefore mark before (mark ++ after) ↔ ¬ mark <:+: before := by
  obtain ⟨hnonempty, hunbordered⟩ := hmark
  constructor
  · rintro hfirst ⟨early, late, rfl⟩
    exact hfirst early (mark ++ late) (by simp) (by simp [hnonempty]) (late ++ (mark ++ after))
      (by simp)
  · rintro hnot early late rfl hlate after' heq
    rcases List.append_eq_append_iff.mp heq with ⟨seam, rfl, hseam⟩ | ⟨within, rfl, -⟩
    · -- The mark would begin in `late` and end with `seam`, a piece of the mark itself.
      rcases eq_or_ne seam [] with rfl | hne
      · exact hnot ⟨early, [], by simp⟩
      · have hborder : seam <+: late ++ seam :=
          List.prefix_of_prefix_length_le ⟨after', hseam.symm⟩ ⟨after, rfl⟩ (by simp)
        refine hunbordered late.length ?_ (List.length_pos_iff.mpr hlate) (by simpa using hborder)
        simpa using List.length_pos_iff.mpr hne
    · exact hnot ⟨early, within, by simp⟩

theorem splitAtFirst_eq_some_iff_of_unbordered {mark text before after : List Char}
    (hmark : Unbordered mark) :
    splitAtFirst mark text = some (before, after) ↔
      text = before ++ (mark ++ after) ∧ ¬ mark <:+: before := by
  rw [splitAtFirst_eq_some_iff, notBefore_iff hmark]

theorem splitAtFirst_singleton_eq_some_iff {c : Char} {text before after : List Char} :
    splitAtFirst [c] text = some (before, after) ↔ text = before ++ c :: after ∧ c ∉ before := by
  rw [splitAtFirst_eq_some_iff_of_unbordered (unbordered_singleton c), List.singleton_infix_iff]
  rfl

end Text

open Text

theorem unbordered_protocolSeparator : Unbordered protocolSeparator := by
  decide

theorem splitAtProtocol_eq_some_iff {text protocol rest : List Char} :
    splitAtFirst protocolSeparator text = some (protocol, rest) ↔
      text = protocol ++ (protocolSeparator ++ rest) ∧ ¬ protocolSeparator <:+: protocol :=
  splitAtFirst_eq_some_iff_of_unbordered unbordered_protocolSeparator

/-! ## What can be read back -/

/-- The parts of a name that its text form keeps apart. -/
structure QualifiedName.IsReadable (name : QualifiedName) : Prop where
  space : '}' ∉ name.space.toList
  localName : name.localName ≠ ""

/-- The parts of a store reference that its text form keeps apart. -/
structure StoreRef.IsReadable (store : StoreRef) : Prop where
  protocol_ne : store.protocol ≠ ""
  protocol : ¬ protocolSeparator <:+: store.protocol.toList
  identifier_ne : store.identifier ≠ ""
  identifier : '/' ∉ store.identifier.toList

/-- The parts of a node reference that its text form keeps apart. -/
structure NodeRef.IsReadable (node : NodeRef) : Prop where
  store : node.store.IsReadable
  id_ne : node.id ≠ ""
  id : '/' ∉ node.id.toList

/-! ## Reading -/

theorem QualifiedName.toList_text (name : QualifiedName) :
    name.text.toList = '{' :: (name.space.toList ++ '}' :: name.localName.toList) := by
  simp [QualifiedName.text]

theorem QualifiedName.parse_ok_iff {input : String} {name : QualifiedName} :
    QualifiedName.parse input = .ok name ↔ name.IsReadable ∧ name.text = input := by
  constructor
  · intro h
    unfold QualifiedName.parse at h
    split at h
    · next rest hinput =>
      split at h
      · cases h
      · cases h
      · next space localName hne hsplit =>
        obtain ⟨rfl, hspace⟩ := splitAtFirst_singleton_eq_some_iff.mp hsplit
        obtain rfl := Except.ok.inj h
        refine ⟨⟨by simpa using hspace, ?_⟩, ?_⟩
        · intro hempty
          exact hne (String.ofList_eq_empty_iff.mp hempty)
        · rw [← String.toList_inj, hinput, toList_text]
          simp
    · cases h
  · rintro ⟨hreadable, rfl⟩
    have hsplit : splitAtFirst ['}'] (name.space.toList ++ '}' :: name.localName.toList) =
        some (name.space.toList, name.localName.toList) :=
      splitAtFirst_singleton_eq_some_iff.mpr ⟨rfl, hreadable.space⟩
    unfold QualifiedName.parse
    simp only [toList_text, hsplit]
    split
    · next hnone => cases hnone
    · next hempty =>
      have hlocal := (Prod.mk.inj (Option.some.inj hempty)).2
      exact absurd (String.toList_eq_nil_iff.mp hlocal) hreadable.localName
    · next hsome =>
      obtain ⟨rfl, rfl⟩ := Prod.mk.inj (Option.some.inj hsome)
      simp

theorem StoreRef.toList_text (store : StoreRef) :
    store.text.toList = store.protocol.toList ++ (protocolSeparator ++ store.identifier.toList) := by
  simp [StoreRef.text, protocolSeparator]

theorem StoreRef.parse_ok_iff {input : String} {store : StoreRef} :
    StoreRef.parse input = .ok store ↔ store.IsReadable ∧ store.text = input := by
  constructor
  · intro h
    unfold StoreRef.parse at h
    split at h
    · cases h
    · next protocol identifier hsplit =>
      obtain ⟨hinput, hprotocol⟩ := splitAtProtocol_eq_some_iff.mp hsplit
      split_ifs at h with hfault
      obtain rfl := Except.ok.inj h
      simp only [not_or] at hfault
      refine ⟨⟨?_, ?_, ?_, ?_⟩, ?_⟩
      · simpa using hfault.1
      · simpa using hprotocol
      · simpa using hfault.2.1
      · simpa using hfault.2.2
      · rw [← String.toList_inj, hinput, toList_text]
        simp
  · rintro ⟨hreadable, rfl⟩
    have hsplit : splitAtFirst protocolSeparator store.text.toList =
        some (store.protocol.toList, store.identifier.toList) :=
      splitAtProtocol_eq_some_iff.mpr ⟨store.toList_text, hreadable.protocol⟩
    unfold StoreRef.parse
    simp only [hsplit]
    rw [if_neg]
    · simp
    · simpa using ⟨hreadable.protocol_ne, hreadable.identifier_ne, hreadable.identifier⟩

theorem NodeRef.toList_text (node : NodeRef) :
    node.text.toList = node.store.text.toList ++ '/' :: node.id.toList := by
  simp [NodeRef.text]

theorem NodeRef.parse_ok_iff {input : String} {node : NodeRef} :
    NodeRef.parse input = .ok node ↔ node.IsReadable ∧ node.text = input := by
  constructor
  · intro h
    unfold NodeRef.parse at h
    split at h
    · cases h
    · next protocol rest hsplit =>
      split at h
      · cases h
      · next identifier id hrest =>
        obtain ⟨hinput, -⟩ := splitAtProtocol_eq_some_iff.mp hsplit
        obtain ⟨rfl, -⟩ := splitAtFirst_singleton_eq_some_iff.mp hrest
        cases hstore : StoreRef.parse (String.ofList (protocol ++ protocolSeparator ++ identifier)) with
        | error _ => simp only [hstore, bind, Except.bind, reduceCtorEq] at h
        | ok store =>
          obtain ⟨hreadable, htext⟩ := StoreRef.parse_ok_iff.mp hstore
          simp only [hstore, bind, Except.bind] at h
          split_ifs at h with hfault
          obtain rfl := Except.ok.inj h
          simp only [not_or] at hfault
          refine ⟨⟨hreadable, by simpa using hfault.1, by simpa using hfault.2⟩, ?_⟩
          rw [← String.toList_inj, hinput, toList_text, htext]
          simp
  · rintro ⟨hreadable, rfl⟩
    have hsplit : splitAtFirst protocolSeparator node.text.toList =
        some (node.store.protocol.toList, node.store.identifier.toList ++ '/' :: node.id.toList) := by
      refine splitAtProtocol_eq_some_iff.mpr ⟨?_, hreadable.store.protocol⟩
      simp [toList_text, StoreRef.toList_text]
    have hrest : splitAtFirst ['/'] (node.store.identifier.toList ++ '/' :: node.id.toList) =
        some (node.store.identifier.toList, node.id.toList) :=
      splitAtFirst_singleton_eq_some_iff.mpr ⟨rfl, hreadable.store.identifier⟩
    have hstore : StoreRef.parse (String.ofList (node.store.protocol.toList ++ protocolSeparator
        ++ node.store.identifier.toList)) = .ok node.store := by
      refine StoreRef.parse_ok_iff.mpr ⟨hreadable.store, ?_⟩
      rw [← String.toList_inj, StoreRef.toList_text]
      simp
    unfold NodeRef.parse
    simp only [hsplit, hrest, hstore, bind, Except.bind]
    rw [if_neg]
    · simp [pure, Except.pure]
    · simpa using ⟨hreadable.id_ne, hreadable.id⟩

/-! ## Which texts are text forms -/

theorem QualifiedName.exists_parse_iff (input : String) :
    (∃ name, QualifiedName.parse input = .ok name) ↔
      ∃ space localName, input = "\x7b" ++ space ++ "\x7d" ++ localName ∧
        '}' ∉ space.toList ∧ localName ≠ "" := by
  simp only [parse_ok_iff]
  constructor
  · rintro ⟨⟨space, localName⟩, ⟨hspace, hlocal⟩, rfl⟩
    exact ⟨space, localName, rfl, hspace, hlocal⟩
  · rintro ⟨space, localName, rfl, hspace, hlocal⟩
    exact ⟨⟨space, localName⟩, ⟨hspace, hlocal⟩, rfl⟩

theorem StoreRef.exists_parse_iff (input : String) :
    (∃ store, StoreRef.parse input = .ok store) ↔
      ∃ protocol identifier, input = protocol ++ "://" ++ identifier ∧
        protocol ≠ "" ∧ ¬ [':', '/', '/'] <:+: protocol.toList ∧
        identifier ≠ "" ∧ '/' ∉ identifier.toList := by
  simp only [parse_ok_iff]
  constructor
  · rintro ⟨⟨protocol, identifier⟩, ⟨hpne, hprotocol, hine, hidentifier⟩, rfl⟩
    exact ⟨protocol, identifier, rfl, hpne, hprotocol, hine, hidentifier⟩
  · rintro ⟨protocol, identifier, rfl, hpne, hprotocol, hine, hidentifier⟩
    exact ⟨⟨protocol, identifier⟩, ⟨hpne, hprotocol, hine, hidentifier⟩, rfl⟩

theorem NodeRef.exists_parse_iff (input : String) :
    (∃ node, NodeRef.parse input = .ok node) ↔
      ∃ store id, input = store ++ "/" ++ id ∧ (∃ ref, StoreRef.parse store = .ok ref) ∧
        id ≠ "" ∧ '/' ∉ id.toList := by
  simp only [parse_ok_iff, StoreRef.parse_ok_iff]
  constructor
  · rintro ⟨⟨store, id⟩, ⟨hstore, hne, hid⟩, rfl⟩
    exact ⟨store.text, id, rfl, ⟨store, hstore, rfl⟩, hne, hid⟩
  · rintro ⟨_, id, rfl, ⟨store, hstore, rfl⟩, hne, hid⟩
    exact ⟨⟨store, id⟩, ⟨hstore, hne, hid⟩, rfl⟩

/-- Writing undoes reading, and reading undoes writing for the readable values and for no others. -/
structure ReadsBack {α : Type} (parse : String → Except ReferenceError α) (text : α → String)
    (IsReadable : α → Prop) : Prop where
  text_of_parse : ∀ input value, parse input = .ok value → text value = input
  parse_text_iff : ∀ value, parse (text value) = .ok value ↔ IsReadable value

theorem ReadsBack.of_parse_ok_iff {α : Type} {parse : String → Except ReferenceError α}
    {text : α → String} {IsReadable : α → Prop}
    (hparse : ∀ {input value}, parse input = .ok value ↔ IsReadable value ∧ text value = input) :
    ReadsBack parse text IsReadable where
  text_of_parse _ _ h := (hparse.mp h).2
  parse_text_iff _ := hparse.trans (and_iff_left rfl)

/-- The three text forms are exact: the texts that are read are those of the stated shape, and a
value is read back from its text if and only if its parts are of that shape. -/
theorem textForms_exact :
    ((∀ input, (∃ name, QualifiedName.parse input = .ok name) ↔
        ∃ space localName, input = "\x7b" ++ space ++ "\x7d" ++ localName ∧
          '}' ∉ space.toList ∧ localName ≠ "") ∧
      ReadsBack QualifiedName.parse QualifiedName.text QualifiedName.IsReadable) ∧
    ((∀ input, (∃ store, StoreRef.parse input = .ok store) ↔
        ∃ protocol identifier, input = protocol ++ "://" ++ identifier ∧
          protocol ≠ "" ∧ ¬ [':', '/', '/'] <:+: protocol.toList ∧
          identifier ≠ "" ∧ '/' ∉ identifier.toList) ∧
      ReadsBack StoreRef.parse StoreRef.text StoreRef.IsReadable) ∧
    ((∀ input, (∃ node, NodeRef.parse input = .ok node) ↔
        ∃ store id, input = store ++ "/" ++ id ∧ (∃ ref, StoreRef.parse store = .ok ref) ∧
          id ≠ "" ∧ '/' ∉ id.toList) ∧
      ReadsBack NodeRef.parse NodeRef.text NodeRef.IsReadable) :=
  ⟨⟨QualifiedName.exists_parse_iff, .of_parse_ok_iff QualifiedName.parse_ok_iff⟩,
    ⟨StoreRef.exists_parse_iff, .of_parse_ok_iff StoreRef.parse_ok_iff⟩,
    ⟨NodeRef.exists_parse_iff, .of_parse_ok_iff NodeRef.parse_ok_iff⟩⟩

-- A protocol may end in the first characters of the separator; the first `://` is still the whole one.
example : StoreRef.parse "a:://b" = .ok ⟨"a:", "b"⟩ := by decide

end ContentRules
