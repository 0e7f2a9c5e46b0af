/-!
Levels of classification nodes and which may stand under which.
-/

namespace EnumRegistry

inductive Level
  | country
  | kind
  | domain
  | category
  | subCategory
  | specific
  | extra
  | jammerKind
  | jammerCategory
  | jammerSubCategory
  | jammerSpecific
  deriving DecidableEq, Repr

namespace Level

def label : Level → String
  | country => "Country"
  | kind => "Kind"
  | domain => "Domain"
  | category => "Category"
  | subCategory => "SubCategory"
  | specific => "Specific"
  | extra => "Extra"
  | jammerKind => "JammerKind"
  | jammerCategory => "JammerCategory"
  | jammerSubCategory => "JammerSubCategory"
  | jammerSpecific => "JammerSpecific"

def all : List Level :=
  [country, kind, domain, category, subCategory, specific, extra, jammerKind, jammerCategory,
    jammerSubCategory, jammerSpecific]

/-- The one level that may stand right under a level. -/
def below? : Level → Option Level
  | country => some kind
  | kind => some domain
  | domain => some category
  | category => some subCategory
  | subCategory => some specific
  | specific => some extra
  | jammerKind => some jammerCategory
  | jammerCategory => some jammerSubCategory
  | jammerSubCategory => some jammerSpecific
  | extra | jammerSpecific => none

def accepts (parent child : Level) : Bool := parent.below? == some child

def isRoot : Level → Bool
  | country | kind | jammerKind => true
  | _ => false

/-- Levels that only give a path segment and no symbol of their own. -/
def isPathOnly : Level → Bool
  | country | kind | domain => true
  | _ => false

end Level

inductive Hierarchy
  | entityTypes
  | objectTypes
  | jammerTechniques
  deriving DecidableEq, Repr

/-- The package that a hierarchy's symbols are placed in. -/
def Hierarchy.package : Hierarchy → String
  | .entityTypes => "entities"
  | .objectTypes => "objecttypes"
  | .jammerTechniques => "jammers"

end EnumRegistry
