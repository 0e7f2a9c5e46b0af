import Mathlib.Algebra.GroupWithZero.Nat
import EnumRegistry.Proofs.Building.Outermost
import EnumRegistry.Proofs.Building.TreeFindings
import EnumRegistry.Proofs.Survey.Declarations

/-!
What is found in a registry that is resolved without overrides. Every finding is due for one part of
what the resolution gives, and each part's findings are reported once: those of rows and nodes when
they are added, the one of a bitfield when it is finished, those of declarations by the survey.
Looking rows up, naming them anew and finding a path segment again report nothing.
-/

namespace EnumRegistry

/-- A reference to nothing that has a name. -/
def CrossReference.isUnresolved : CrossReference → Bool
  | typed _ _ => false
  | unresolved _ => true

/-- A finding of a kind is due for a row: its text yields no name, or it refers to nothing. -/
def rowDue (kind : DiagnosticKind) (text : String) (reference : Option CrossReference) : Bool :=
  match kind with
  | .malformedText => Name.normalize text == Name.undefined
  | .unresolvedReference => reference.any (·.isUnresolved)
  | _ => false

def EnumerationRow.due (kind : DiagnosticKind) (row : EnumerationRow) : Bool :=
  rowDue kind row.description row.reference

def BitfieldRow.due (kind : DiagnosticKind) (row : BitfieldRow) : Bool :=
  rowDue kind row.rawName row.reference

def DictionaryRow.due (kind : DiagnosticKind) (row : DictionaryRow) : Bool :=
  rowDue kind row.description none

/-- The rows use more bits than the size, or one of them reaches past it. -/
def Bitfield.overflows (b : Bitfield) : Bool := b.totalBits < b.usedBits || b.rows.any b.exceeds

/-- A finding of a kind is due for a bitfield besides those for its rows. -/
def Bitfield.due (kind : DiagnosticKind) (b : Bitfield) : Bool :=
  match kind with
  | .bitfieldOverflow => b.overflows
  | _ => false

/-- How many findings of a kind are due for the rows of an open type. -/
def TypeFrame.due (kind : DiagnosticKind) : TypeFrame → Nat
  | enumeration type _ => type.rows.countP (·.due kind)
  | bitfield type _ => type.rows.countP (·.due kind)
  | dictionary type _ => type.rows.countP (·.due kind)

/-- How many findings of a kind are due for a model. -/
def Model.due (kind : DiagnosticKind) (types : TypeTable) (m : Model) : Nat :=
  (m.enumerations.flatMap (·.rows)).countP (·.due kind) +
  (m.bitfields.flatMap (·.rows)).countP (·.due kind) +
  (m.dictionaries.flatMap (·.rows)).countP (·.due kind) +
  m.bitfields.countP (·.due kind) +
  (m.trees.map (·.due kind types)).sum

/-! ## Rows -/

namespace TypeFrame

theorem Opens.due (kind : DiagnosticKind) {e : Element} {uid name : String} {frame : TypeFrame}
    (h : Opens e uid name frame) : frame.due kind = 0 := by
  cases h <;> rfl

end TypeFrame

namespace Model

variable (kind : DiagnosticKind) (types : TypeTable) (m : Model)

end Model

namespace Builder

variable {t : NameTables} {ceiling : Nat} {b b' : Builder}

end Builder

/-! ## Resolutions -/

theorem Survey.Tallies.count_eq_zero {done : List String} {s : Survey} (h : s.Tallies done)
    (kind : DiagnosticKind) (again : kind ≠ .duplicateUid) (unnamed : kind ≠ .missingName) :
    Diagnostic.count kind s.found = 0 := by
  refine List.countP_eq_zero.mpr fun d hd same => ?_
  rcases h.others d hd with own | own <;> simp_all

namespace Model

variable (types : TypeTable) (m : Model)

end Model

end EnumRegistry
