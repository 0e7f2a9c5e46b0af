import Std.Data.TreeMap
import EnumRegistry.Files.Path
import EnumRegistry.Files.Store

/-!
A tree of files: directories and texts by path. The root is its own parent.
-/

namespace EnumRegistry

inductive FileEntry
  | file (content : String)
  | directory
  deriving DecidableEq, Repr

/-- A place in a tree, by the names on the way down from the root. -/
abbrev FilePlace := List String

structure FileTree where
  /-- Where paths begin that are not absolute. -/
  home : FilePlace := []
  /-- What there is besides the home and the directories around it. -/
  entries : Std.TreeMap FilePlace FileEntry := {}

/-- A name has at most 255 bytes, none of them zero. -/
def nameFailure? (name : String) : Option FileFailure :=
  if name.contains (Char.ofNat 0) then some .unusableName
  else if 255 < name.utf8ByteSize then some .nameTooLong
  else none

namespace FileTree

def entry? (t : FileTree) (place : FilePlace) : Option FileEntry :=
  if place.isPrefixOf t.home then some .directory else t.entries[place]?

def insert (t : FileTree) (place : FilePlace) (entry : FileEntry) : FileTree :=
  { t with entries := t.entries.insert place entry }

/-- Walks from a place through directories. -/
def walk (t : FileTree) (place : FilePlace) : List PathPart → Except FileFailure FilePlace
  | [] => .ok place
  | part :: rest =>
    match t.entry? place with
    | none => .error .missing
    | some (.file _) => .error .notDirectory
    | some .directory =>
      match part with
      | .root => t.walk [] rest
      | .here => t.walk place rest
      | .up => t.walk place.dropLast rest
      | .name name =>
        match nameFailure? name with
        | some failure => .error failure
        | none => t.walk (place ++ [name]) rest

/-- Only a directory has a path with such an end. -/
def namesDirectory (path : String) : Bool := path.endsWith "/" || path.endsWith "/."

def read (t : FileTree) (path : String) : Except FileFailure String := do
  if path.isEmpty then throw .missing
  match t.entry? (← t.walk t.home (pathParts path)) with
  | none => .error .missing
  | some .directory => .error .isDirectory
  | some (.file content) =>
    if namesDirectory path then .error .notDirectory else .ok content

/-- Walks from a directory, making the directories that are not there. A file in the place of the
last directory, or of one behind a directory just made, occupies it. -/
def enter (t : FileTree) (made : Bool) (dir : FilePlace) :
    List PathPart → Except FileFailure (FileTree × FilePlace)
  | [] => .ok (t, dir)
  | .root :: rest => t.enter made [] rest
  | .here :: rest => t.enter made dir rest
  | .up :: rest => t.enter made dir.dropLast rest
  | .name name :: rest => do
    if let some failure := nameFailure? name then throw failure
    let dir := dir ++ [name]
    match t.entry? dir with
    | some .directory => t.enter made dir rest
    | some (.file _) => .error (if made || rest.isEmpty then .occupied else .notDirectory)
    | none => (t.insert dir .directory).enter true dir rest

def makeDirectory (t : FileTree) (path : String) : Except FileFailure FileTree :=
  (t.enter false t.home (pathParts path)).map (·.1)

def write (t : FileTree) (path content : String) : Except FileFailure FileTree :=
  match (pathParts path).getLast? with
  | some (.name name) => do
    let (t, dir) ← t.enter false t.home (pathParts path).dropLast
    if let some failure := nameFailure? name then throw failure
    let place := dir ++ [name]
    match t.entry? place with
    | some .directory => .error .isDirectory
    | some (.file _) | none => .ok (t.insert place (.file content))
  | _ => .error .isDirectory

/-- The texts of all files below the home, by their paths from there. -/
def files (t : FileTree) : Std.TreeMap String String :=
  t.entries.foldl (fun files place entry => match entry with
    | .file content =>
      if t.home.isPrefixOf place then
        files.insert ("/".intercalate (place.drop t.home.length)) content
      else files
    | .directory => files) {}

/-- The tree as a store. -/
def store : FileStore (StateM FileTree) where
  read path := do
    return ((← get).read path).map (·.toUTF8.toList)
  write path content := do
    match (← get).write path content with
    | .ok t => set t; return .ok ()
    | .error e => return .error e

end FileTree

end EnumRegistry
