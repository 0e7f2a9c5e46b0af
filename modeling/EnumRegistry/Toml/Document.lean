import EnumRegistry.Toml.Scalar
import EnumRegistry.Toml.Value

/-!
TOML documents: lines of headers and of keys with values. Headers of repeated tables are refused,
since no table of names can hold them, and so are values that nest too deep.
-/

namespace EnumRegistry.Toml

mutual

/-- Reads a value in so many steps, with room for so many values inside each other. -/
def value? (room : Nat) : Nat → List Char → Option (Value × List Char)
  | 0, _ => none
  | _ + 1, '"' :: rest => (string? ('"' :: rest)).map fun (s, rest) => (.text s, rest)
  | _ + 1, '\'' :: rest => (string? ('\'' :: rest)).map fun (s, rest) => (.text s, rest)
  | steps + 1, '[' :: rest => do
    guard (0 < room)
    let (items, rest) ← items? (room - 1) steps [] rest
    return (.array items, rest)
  | steps + 1, '\x7b' :: rest => do
    guard (0 < room)
    match skipWs rest with
    | '\x7d' :: rest => return (.table .inline [], rest)
    | rest =>
      let (entries, rest) ← pairs? (room - 1) steps [] rest
      return (.table .inline entries, rest)
  | _ + 1, cs => scalar? cs

/-- The rest of an array behind some items. -/
def items? (room : Nat) : Nat → List Value → List Char → Option (List Value × List Char)
  | 0, _, _ => none
  | steps + 1, items, cs => do
    match ← skipLines false cs with
    | ']' :: rest => return (items, rest)
    | cs =>
      let (item, rest) ← value? room steps cs
      match ← skipLines false rest with
      | ',' :: rest => items? room steps (items ++ [item]) rest
      | ']' :: rest => return (items ++ [item], rest)
      | _ => none

/-- The rest of a table between braces behind some entries. -/
def pairs? (room : Nat) : Nat → Entries → List Char → Option (Entries × List Char)
  | 0, _, _ => none
  | steps + 1, entries, cs => do
    let ((path, key), rest) ← key? cs
    let '=' :: rest := rest | none
    let (value, rest) ← value? room steps (skipWs rest)
    let entries ← put key value path entries
    match skipWs rest with
    | ',' :: rest => pairs? room steps entries rest
    | '\x7d' :: rest => return (entries, rest)
    | _ => none

end

/-- A document being read: its tables, and the header that new pairs stand under. -/
structure Document where
  root : Entries := []
  header : List String := []

/-- Reads a line, which may be blank. -/
def line? (doc : Document) (cs : List Char) : Option (Document × List Char) := do
  match skipWs cs with
  | '[' :: '[' :: _ => none
  | '[' :: rest =>
    let ((path, key), rest) ← key? rest
    let ']' :: rest := rest | none
    let root ← editAt (openTable key) path doc.root
    return (⟨root, path ++ [key]⟩, ← endLine? rest)
  | cs =>
    match endLine? cs with
    | some rest => return (doc, rest)
    | none =>
      let ((path, key), rest) ← key? cs
      let '=' :: rest := rest | none
      let (value, rest) ← value? maxDepth (rest.length + 1) (skipWs rest)
      let root ← editAt (put key value path) doc.header doc.root
      return ({ doc with root }, ← endLine? rest)

/-- Reads lines, at most as many as given. -/
def lines? : Nat → Document → List Char → Option Document
  | 0, _, _ => none
  | _ + 1, doc, [] => some doc
  | count + 1, doc, cs => do
    let (doc, rest) ← line? doc cs
    lines? count doc rest

/-- The entries of a document. A byte order mark before it does not count. -/
def read? (text : String) : Option Entries := do
  let cs := match text.toList with
    | '\ufeff' :: rest => rest
    | cs => cs
  return (← lines? (cs.length + 1) {} cs).root

end EnumRegistry.Toml
