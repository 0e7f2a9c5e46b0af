import EnumRegistry.Classification.Level

/-!
The enumerations that name path segments: countries, kinds, and a domain table for each sort of
kind.
-/

namespace EnumRegistry

inductive LookupTable
  | country
  | entityKind
  | platformDomain
  | munitionDomain
  | supplyDomain
  | objectKind
  deriving DecidableEq, Repr

namespace LookupTable

def all : List LookupTable :=
  [country, entityKind, platformDomain, munitionDomain, supplyDomain, objectKind]

/-- UID of the enumeration behind a table. -/
def uid : LookupTable → String
  | country => "29"
  | entityKind => "7"
  | platformDomain => "8"
  | munitionDomain => "14"
  | supplyDomain => "600"
  | objectKind => "225"

def ofUid? (uid : String) : Option LookupTable := all.find? (·.uid == uid)

/-- The level whose segments a table names. -/
def level : LookupTable → Level
  | country => .country
  | entityKind | objectKind => .kind
  | platformDomain | munitionDomain | supplyDomain => .domain

/-- The domain table of an entity kind: munitions and supplies have their own. -/
def domainOf (kind : Int) : LookupTable :=
  if kind = 2 then munitionDomain else if kind = 9 then supplyDomain else platformDomain

end LookupTable

end EnumRegistry
