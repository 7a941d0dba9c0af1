import ContentRules.Proofs.Json.RoundTrip
import ContentRules.Value.Json

/-!
# A value is read back from its JSON text

`Value.decode?_compact_iff`: a value without floats is read back from its compact text as long as the
text stays within the nesting that a reader enters, and two such values have the same text only if
they are the same.

**Strategy.**  That the text is read as the document it was written from is a fact about documents
(`Json.parse?_compact`), for which only the numerals of a value's integers have to be looked at
(`wellFormed_toJson`).  What is left is that the document is read as the value (`decoder_toJson`), by
recursion on the value: every array or object that the decoder enters costs one level, and a value
never has fewer left than its document nests.
-/

namespace ContentRules.Value

/-! ## Values without floats -/

mutual

/-- No float stands anywhere in the value. -/
def floatFree : Value → Bool
  | float _ => false
  | list items => floatFreeAll items
  | _ => true

def floatFreeAll : List Value → Bool
  | [] => true
  | item :: items => floatFree item && floatFreeAll items

end

/-! ## The document of a value -/

theorem wellFormed_name (name : QualifiedName) : name.toJson.WellFormed :=
  .ofMembers (by simp [Json.ofString, Json.WellFormed.str])

theorem wellFormed_node (node : NodeRef) : node.toJson.WellFormed := by
  have hstore : node.store.toJson.WellFormed :=
    .ofMembers (by simp [Json.ofString, Json.WellFormed.str])
  exact .ofMembers (by simp [Json.ofString, Json.WellFormed.str, hstore])

mutual

theorem wellFormed_toJson : ∀ value : Value, value.floatFree = true → value.toJson.WellFormed
  | null, _ => .str _
  | bool _, _ => .tagged (.bool _) "Bool"
  | int _, _ => .tagged (.num (Numeral.wellFormed_ofInt _)) "Int"
  | text _, _ => .tagged (.str _) "Text"
  | node _, _ => .tagged (wellFormed_node _) "Node"
  | name _, _ => .tagged (wellFormed_name _) "Name"
  | list items, hfree => .tagged (.arr (wellFormed_toJsonAll items hfree)) "List"

theorem wellFormed_toJsonAll : ∀ items : List Value, floatFreeAll items = true →
    ∀ json ∈ toJsonAll items, json.WellFormed
  | [], _ => by simp [toJsonAll]
  | item :: items, hfree => by
    obtain ⟨hitem, hitems⟩ := Bool.and_eq_true_iff.mp hfree
    exact List.forall_mem_cons.mpr
      ⟨wellFormed_toJson item hitem, wellFormed_toJsonAll items hitems⟩

end

/-! ## Reading the document -/

theorem decoder_tagged {kind : String} (hkind : kind ≠ "List") (depth : Nat) (content : Json) :
    decoder (depth + 1) (.tagged kind content) = scalar? depth kind content := by
  simp [decoder, Json.tagged, Json.ofMembers, hkind]

theorem scalar?_int (depth : Nat) (n : Int64) :
    scalar? depth "Int" (.ofInt n.toInt) = some (int n) := by
  have hleast : leastInt ≤ n.toInt := n.minValue_le_toInt
  have hgreatest : n.toInt ≤ greatestInt := n.toInt_le
  simp [scalar?, Decoder.int, Json.ofInt, Numeral.toInt?_ofInt, hleast, hgreatest]

/-- A value that is written as its kind and content is read back with one level for the two. -/
theorem decoder_of_scalar {value : Value} {kind : String} {content : Json}
    (hjson : value.toJson = .tagged kind content) (hkind : kind ≠ "List")
    (hscalar : ∀ depth, content.nesting ≤ depth → scalar? depth kind content = some value)
    (depth : Nat) (hdepth : value.toJson.nesting ≤ depth) :
    decoder depth value.toJson = some value := by
  rw [hjson, Json.nesting_tagged] at hdepth
  obtain ⟨depth, rfl⟩ : ∃ fewer, depth = fewer + 1 := ⟨depth - 1, by omega⟩
  rw [hjson, decoder_tagged hkind]
  exact hscalar depth (by omega)

theorem scalar?_node (depth : Nat) (ref : NodeRef) (hdepth : ref.toJson.nesting ≤ depth) :
    scalar? depth "Node" ref.toJson = some (node ref) := by
  have htwo : 2 ≤ depth := hdepth
  obtain ⟨depth, rfl⟩ : ∃ fewer, depth = fewer + 2 := ⟨depth - 2, by omega⟩
  simp [scalar?]

theorem scalar?_name (depth : Nat) (ref : QualifiedName) (hdepth : ref.toJson.nesting ≤ depth) :
    scalar? depth "Name" ref.toJson = some (name ref) := by
  have hone : 1 ≤ depth := hdepth
  obtain ⟨depth, rfl⟩ : ∃ fewer, depth = fewer + 1 := ⟨depth - 1, by omega⟩
  simp [scalar?]

mutual

theorem decoder_toJson : ∀ (value : Value) (depth : Nat), value.floatFree = true →
    value.toJson.nesting ≤ depth → decoder depth value.toJson = some value
  | null, _, _, _ => by simp [decoder, toJson, Json.ofString]
  | bool _, depth, _, hdepth => decoder_of_scalar rfl (by decide) (fun _ _ => rfl) depth hdepth
  | int n, depth, _, hdepth =>
    decoder_of_scalar rfl (by decide) (fun depth _ => scalar?_int depth n) depth hdepth
  | text _, depth, _, hdepth => decoder_of_scalar rfl (by decide) (fun _ _ => rfl) depth hdepth
  | node ref, depth, _, hdepth =>
    decoder_of_scalar rfl (by decide) (fun depth => scalar?_node depth ref) depth hdepth
  | name ref, depth, _, hdepth =>
    decoder_of_scalar rfl (by decide) (fun depth => scalar?_name depth ref) depth hdepth
  | list items, depth, hfree, hdepth => by
    simp only [toJson, Json.nesting_tagged, Json.nesting] at hdepth
    obtain ⟨depth, rfl⟩ : ∃ fewer, depth = fewer + 2 := ⟨depth - 2, by omega⟩
    have hitems := mapM_toJsonAll items depth hfree (by omega)
    simp [toJson, decoder, Json.tagged, Json.ofMembers, hitems]

theorem mapM_toJsonAll : ∀ (items : List Value) (depth : Nat), floatFreeAll items = true →
    Json.itemNesting (toJsonAll items) ≤ depth → (toJsonAll items).mapM (decoder depth) = some items
  | [], _, _, _ => rfl
  | item :: items, depth, hfree, hdepth => by
    obtain ⟨hitem, hitems⟩ := Bool.and_eq_true_iff.mp hfree
    obtain ⟨hfirst, hrest⟩ := Nat.max_le.mp hdepth
    simp [toJsonAll, decoder_toJson item depth hitem hfirst, mapM_toJsonAll items depth hitems hrest]

end

/-! ## The text of a value -/

/-- A value is read back from its text by a decoder that may enter enough levels. -/
theorem parse?_compact_bind {value : Value} (hfree : value.floatFree = true) {depth : Nat}
    (hdepth : value.toJson.nesting ≤ depth) :
    (Json.parse? value.toJson.compact).bind (decoder depth) = some value := by
  rw [Json.parse?_compact (wellFormed_toJson value hfree), Option.bind_some]
  exact decoder_toJson value depth hfree hdepth

/-- What can be carried by a text: no floats, and no more than 127 arrays and objects one inside the
other. -/
structure Portable (value : Value) : Prop where
  floatFree : value.floatFree = true
  nesting : value.toJson.nesting < 128

/-- Reading undoes writing, so that the text determines the value. -/
theorem decode?_compact_iff {value other : Value} (hvalue : value.Portable)
    (hother : other.Portable) :
    Json.decode? decoder value.toJson.compact = some value ∧
      (value.toJson.compact = other.toJson.compact ↔ value = other) := by
  have hread : Json.decode? decoder value.toJson.compact = some value :=
    parse?_compact_bind hvalue.floatFree (Nat.le_of_lt_succ hvalue.nesting)
  have hreadOther : Json.decode? decoder other.toJson.compact = some other :=
    parse?_compact_bind hother.floatFree (Nat.le_of_lt_succ hother.nesting)
  refine ⟨hread, ?_, ?_⟩
  · intro htext
    rw [htext, hreadOther] at hread
    exact (Option.some.inj hread).symm
  · rintro rfl
    rfl

/-- A list of every other kind of value, with characters that have to be escaped. -/
def assortment : Value :=
  list [null, bool true, int Int64.minValue, text "a \"b\\\n\x01",
    list [name ⟨"", "é"⟩, node ⟨⟨"workspace", "Spaces\tStore"⟩, "u1"⟩, list []]]

theorem decode?_compact_assortment :
    (assortment.Portable ∧ (list []).Portable) ∧
      Json.decode? decoder assortment.toJson.compact = some assortment ∧
      (assortment.toJson.compact = (list []).toJson.compact ↔ assortment = list []) := by
  have hassortment : assortment.Portable := ⟨by decide, by decide⟩
  have hempty : (list []).Portable := ⟨by decide, by decide⟩
  exact ⟨⟨hassortment, hempty⟩, decode?_compact_iff hassortment hempty⟩

end ContentRules.Value
