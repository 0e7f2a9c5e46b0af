import EnumRegistry.Text.Quoted

/-!
Findings that do not stop a run: what was found, about which item of the registry, and the words
for it.
-/

namespace EnumRegistry

inductive DiagnosticKind
  /-- A text yields no identifier. -/
  | malformedText
  /-- A reference names nothing declared. -/
  | unresolvedReference
  /-- A declared type has no text to name it by. -/
  | missingName
  /-- A UID is declared again. -/
  | duplicateUid
  /-- The rows of a bitfield do not fit its size. -/
  | bitfieldOverflow
  deriving DecidableEq, Repr

namespace DiagnosticKind

def tag : DiagnosticKind → String
  | malformedText => "malformed-text"
  | unresolvedReference => "unresolved-reference"
  | missingName => "missing-name"
  | duplicateUid => "duplicate-uid"
  | bitfieldOverflow => "bitfield-overflow"

def all : List DiagnosticKind :=
  [malformedText, unresolvedReference, missingName, duplicateUid, bitfieldOverflow]

end DiagnosticKind

structure Diagnostic where
  kind : DiagnosticKind
  subject : String
  message : String
  deriving DecidableEq, Repr

namespace Diagnostic

def malformedText (subject raw : String) : Diagnostic where
  kind := .malformedText
  subject
  message := "description " ++ Text.quoted raw ++ " yields no identifier; using undefinedName"

def unresolvedReference (subject uid : String) : Diagnostic where
  kind := .unresolvedReference
  subject
  message := "UID " ++ uid ++ " is not declared; field is emitted untyped"

/-- How many of the findings are of a kind. -/
def count (kind : DiagnosticKind) (found : List Diagnostic) : Nat :=
  found.countP (·.kind == kind)

end Diagnostic

end EnumRegistry
