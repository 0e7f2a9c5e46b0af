import Std.Data.TreeSet
import EnumRegistry.Text.Casing
import EnumRegistry.Text.Quoted

/-!
Scopes of names that must differ by more than case. A claim takes the first free one of `base`,
`base1`, `base2` and so on.
-/

namespace EnumRegistry

/-- The form in which names are compared. -/
def lookupKey (name : String) : String := Text.upperCase name

/-- How many spellings a claim tries. -/
def maxAttempts : Nat := 1000

/-- All spellings of a base name are taken. -/
structure Exhausted where
  base : String
  deriving DecidableEq, Repr

def Exhausted.message (e : Exhausted) : String :=
  "no unique identifier for " ++ Text.quoted e.base ++ " after " ++ toString maxAttempts ++
    " attempts; the registry scope is anomalous"

/-- The names taken under one parent, by lookup key. -/
structure NameScope where
  taken : Std.TreeSet String := {}

namespace NameScope

def empty : NameScope := {}

def contains (s : NameScope) (name : String) : Bool := s.taken.contains (lookupKey name)

def size (s : NameScope) : Nat := s.taken.size

def isEmpty (s : NameScope) : Bool := s.taken.isEmpty

def insert (s : NameScope) (name : String) : NameScope := ⟨s.taken.insert (lookupKey name)⟩

def insertAll (s : NameScope) (names : List String) : NameScope := names.foldl insert s

/-- Takes a name as it stands, and tells whether it was free. -/
def reserve (s : NameScope) (name : String) : Bool × NameScope :=
  (!s.contains name, s.insert name)

/-- The spelling of a base name at an attempt. -/
def spelling (base : String) (attempt : Nat) : String :=
  if attempt = 0 then base else base ++ toString attempt

/-- The first attempt from `attempt` on, of `count`, whose spelling is free. -/
def freeFrom (s : NameScope) (base : String) : (attempt count : Nat) → Option Nat
  | _, 0 => none
  | attempt, count + 1 =>
    if s.contains (spelling base attempt) then freeFrom s base (attempt + 1) count
    else some attempt

/-- Takes the first free spelling of a base name. -/
def claim (s : NameScope) (base : String) : Except Exhausted (String × NameScope) :=
  match s.freeFrom base 0 maxAttempts with
  | some attempt => .ok (spelling base attempt, s.insert (spelling base attempt))
  | none => .error ⟨base⟩

/-- Claims base names one after the other. -/
def claimAll (s : NameScope) : List String → Except Exhausted (List String × NameScope)
  | [] => .ok ([], s)
  | base :: rest => do
    let (name, s) ← s.claim base
    let (names, s) ← s.claimAll rest
    return (name :: names, s)

end NameScope

end EnumRegistry
