import Std.Data.TreeMap
import EnumRegistry.Text.Blank
import EnumRegistry.Text.Integer

/-!
Names fixed by hand: for types by UID, for rows of one enumeration by value, and for descriptions
inside a subtree. A fixed name wins over any name derived from registry text.
-/

namespace EnumRegistry

/-- Row names of one enumeration; the keys are values as text. -/
structure ValueAliases where
  uid : String
  values : Std.TreeMap String String := {}

structure Overrides where
  uidNames : Std.TreeMap String String := {}
  valueAliases : Option ValueAliases := none
  specialCases : Std.TreeMap String (Std.TreeMap String String) := {}

/-- The value an alias key stands for. -/
def aliasValue? (key : String) : Option Int :=
  Text.int64? 10 (Text.trimEnds Text.isBlank key.toList)

namespace Overrides

def uidName? (o : Overrides) (uid : String) : Option String := o.uidNames[uid]?

/-- The alias of a row, of several keys for its value the first. -/
def valueAlias? (o : Overrides) (uid : String) (value : Int) : Option String := do
  let aliases ← o.valueAliases.filter (·.uid == uid)
  let entry ← aliases.values.toList.find? fun (key, _) => aliasValue? key == some value
  return entry.2

def specialCase? (o : Overrides) (scope description : String) : Option String := do
  let cases ← o.specialCases[scope]?
  cases[Text.trim description]?

/-- The fixed name of a row: its alias, or else the special case for its enumeration. -/
def row? (o : Overrides) (uid : String) (value : Int) (description : String) : Option String :=
  (o.valueAlias? uid value).or (o.specialCase? uid description)

/-- The first alias key, in ascending order, that is no value. -/
def badAliasKey? (o : Overrides) : Option String := do
  let aliases ← o.valueAliases
  aliases.values.keys.find? fun key => (aliasValue? key).isNone

/-- The tables the generator comes with. -/
def builtin : Overrides where
  uidNames := Std.TreeMap.ofList [
    ("3", "DisProtocolVersion"), ("4", "DisPduType"), ("5", "DisProtocolFamily"),
    ("6", "ForceId"), ("7", "EntityKind"), ("8", "PlatformDomain"), ("14", "MunitionDomain"),
    ("29", "Country"), ("225", "ObjectKind"), ("600", "SupplyDomain")]
  valueAliases := some {
    uid := "4"
    values := Std.TreeMap.ofList [
      ("0", "OtherPdu"), ("1", "EntityStatePdu"), ("2", "FirePdu"), ("3", "DetonationPdu"),
      ("4", "CollisionPdu"), ("5", "ServiceRequestPdu"), ("13", "StartResumePdu"),
      ("14", "StopFreezePdu"), ("22", "CommentPdu")] }
  specialCases := Std.TreeMap.ofList [("226", Std.TreeMap.ofList [
    ("Object Types-Areal Object", "ArealObject"),
    ("Object Types-Linear Object", "LinearObject"),
    ("Object Types-Point Object", "PointObject")])]

end Overrides

end EnumRegistry
