import ContentRules.Json.Decoder
import ContentRules.Json.Writer
import ContentRules.Reference.Basic

/-!
# Names and references in JSON

A name is a record of `namespace` and `local`, a store reference one of `protocol` and `identifier`,
a node reference one of `store` and `id`.  Each is read back from its document (`decoder_toJson`).
-/

namespace ContentRules

theorem Decoder.fields?_ofMembers {first second : String} (hne : first ≠ second) (a b : Json) :
    Decoder.fields? [first, second] (.ofMembers [(first, a), (second, b)]) =
      some [some a, some b] := by
  simp [Decoder.fields?, Decoder.member?, Json.ofMembers, hne, hne.symm]

/-- A record of two strings. -/
private def pairOfStrings (first second : String) : Decoder (String × String)
  | depth + 1, json =>
    match Decoder.fields? [first, second] json with
    | some [a, b] => do
      let a ← Decoder.required Decoder.string depth a
      let b ← Decoder.required Decoder.string depth b
      return (a, b)
    | _ => none
  | 0, _ => none

private theorem pairOfStrings_ofMembers {first second : String} (hne : first ≠ second)
    (depth : Nat) (a b : String) :
    pairOfStrings first second (depth + 1)
      (.ofMembers [(first, .ofString a), (second, .ofString b)]) = some (a, b) := by
  simp [pairOfStrings, Decoder.fields?_ofMembers hne, Decoder.required, Decoder.string,
    Json.ofString]

namespace QualifiedName

def toJson (name : QualifiedName) : Json :=
  .ofMembers [("namespace", .ofString name.space), ("local", .ofString name.localName)]

def decoder : Decoder QualifiedName := fun depth json =>
  (pairOfStrings "namespace" "local" depth json).map fun (space, name) => ⟨space, name⟩

@[simp] theorem decoder_toJson (depth : Nat) (name : QualifiedName) :
    decoder (depth + 1) name.toJson = some name := by
  simp [decoder, toJson, pairOfStrings_ofMembers]

end QualifiedName

namespace StoreRef

def toJson (store : StoreRef) : Json :=
  .ofMembers
    [("protocol", .ofString store.protocol), ("identifier", .ofString store.identifier)]

def decoder : Decoder StoreRef := fun depth json =>
  (pairOfStrings "protocol" "identifier" depth json).map fun (protocol, identifier) =>
    ⟨protocol, identifier⟩

@[simp] theorem decoder_toJson (depth : Nat) (store : StoreRef) :
    decoder (depth + 1) store.toJson = some store := by
  simp [decoder, toJson, pairOfStrings_ofMembers]

end StoreRef

namespace NodeRef

def toJson (node : NodeRef) : Json :=
  .ofMembers [("store", node.store.toJson), ("id", .ofString node.id)]

def decoder : Decoder NodeRef
  | depth + 1, json =>
    match Decoder.fields? ["store", "id"] json with
    | some [store, id] => do
      let store ← Decoder.required StoreRef.decoder depth store
      let id ← Decoder.required Decoder.string depth id
      return ⟨store, id⟩
    | _ => none
  | 0, _ => none

@[simp] theorem decoder_toJson (depth : Nat) (node : NodeRef) :
    decoder (depth + 2) node.toJson = some node := by
  simp [decoder, toJson, Decoder.fields?_ofMembers, Decoder.required, Decoder.string, Json.ofString]

end NodeRef

end ContentRules
