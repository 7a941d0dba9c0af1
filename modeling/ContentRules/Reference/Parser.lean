import ContentRules.Reference.Basic
import ContentRules.Text.Split

/-!
# Reading names and references

Each text form is read by one rule: a qualified name is `{namespace}local` with a local name that is
not empty; a store reference is `protocol://identifier`, split at the first `://`, with no `/` in
the identifier; a node reference is a store reference, a `/` and an id without `/`.
-/

namespace ContentRules

open Text (splitAtFirst)

/-- What keeps a text from being a name or a reference. -/
inductive ReferenceFault where
  | missingOpeningBrace
  | unterminatedNamespace
  | emptyLocalName
  | missingProtocolSeparator
  | missingNodeId
  | notAStore
  | notANode
deriving DecidableEq, Repr

/-- A text that could not be read, with the fault found in it. -/
structure ReferenceError where
  input : String
  fault : ReferenceFault
deriving DecidableEq, Repr

namespace ReferenceFault

/-- The wording of a fault. -/
def text : ReferenceFault → String
  | missingOpeningBrace => "qualified name must start with '\x7b'"
  | unterminatedNamespace => "unterminated namespace"
  | emptyLocalName => "empty local name"
  | missingProtocolSeparator => "missing protocol separator"
  | missingNodeId => "missing node id"
  | notAStore => "expected protocol://identifier"
  | notANode => "expected protocol://identifier/id"

end ReferenceFault

/-- The text that was read, and why it was refused. -/
def ReferenceError.message (error : ReferenceError) : String :=
  error.input ++ ": " ++ error.fault.text

/-- The mark between a store's protocol and the rest. -/
def protocolSeparator : List Char := [':', '/', '/']

/-- Reads `{namespace}local`; the namespace ends at the first closing brace. -/
def QualifiedName.parse (input : String) : Except ReferenceError QualifiedName :=
  match input.toList with
  | '{' :: rest =>
    match splitAtFirst ['}'] rest with
    | none => .error ⟨input, .unterminatedNamespace⟩
    | some (_, []) => .error ⟨input, .emptyLocalName⟩
    | some (space, name) => .ok ⟨String.ofList space, String.ofList name⟩
  | _ => .error ⟨input, .missingOpeningBrace⟩

/-- Reads `protocol://identifier`. -/
def StoreRef.parse (input : String) : Except ReferenceError StoreRef :=
  match splitAtFirst protocolSeparator input.toList with
  | none => .error ⟨input, .missingProtocolSeparator⟩
  | some (protocol, identifier) =>
    if protocol = [] ∨ identifier = [] ∨ '/' ∈ identifier then
      .error ⟨input, .notAStore⟩
    else
      .ok ⟨String.ofList protocol, String.ofList identifier⟩

/-- Reads `protocol://identifier/id`.  The text before the first `/` behind the separator is read as
a store reference of its own, so a fault in it is reported of that text alone. -/
def NodeRef.parse (input : String) : Except ReferenceError NodeRef :=
  match splitAtFirst protocolSeparator input.toList with
  | none => .error ⟨input, .missingProtocolSeparator⟩
  | some (protocol, rest) =>
    match splitAtFirst ['/'] rest with
    | none => .error ⟨input, .missingNodeId⟩
    | some (identifier, id) => do
      let store ← StoreRef.parse (String.ofList (protocol ++ protocolSeparator ++ identifier))
      if id = [] ∨ '/' ∈ id then
        throw ⟨input, .notANode⟩
      return ⟨store, String.ofList id⟩

end ContentRules
