import EnumRegistry.Markup.Lexeme
import EnumRegistry.Registry.Element

/-!
Reading a registry as events: an element starts, an element ends. A self-closing element gives
both. Elements are properly nested, and a document that ends inside one is an error.
-/

namespace EnumRegistry

inductive Event
  | start (element : Element)
  | finish (kind : ElementKind)

/-- What a document is made of, an empty tag taken as two pieces. -/
inductive Piece
  /-- A start tag, open for matching by its full name even if its element cannot be read. -/
  | opening (name : List UInt8) (position : Nat) (element : Except Markup.Fault Element)
  | closing (name : List UInt8) (position : Nat)
  | whole (element : Element)
  | wholeEnd (kind : ElementKind)
  | broken (position : Nat) (fault : Markup.Fault)

def Piece.ofLexeme : Markup.Lexeme → List Piece
  | .start position content =>
    [.opening (tagName content) position (Element.ofTag position content)]
  | .empty position content =>
    match Element.ofTag position content with
    | .ok element => [.whole element, .wholeEnd element.kind]
    | .error fault => [.broken position fault]
  | .close position name => [.closing name position]
  | .fault position fault => [.broken position fault]

/-- What is open: full names for matching end tags, and tags of the elements delivered. -/
structure Nesting where
  names : List (List UInt8) := []
  tags : List String := []

namespace Nesting

/-- Delivers a piece. -/
def step (n : Nesting) : Piece → Except RegistryError Event × Nesting
  | .opening name position element =>
    match element with
    | .ok element => (.ok (.start element), ⟨name :: n.names, element.tag :: n.tags⟩)
    | .error fault => (.error (.markup position fault), { n with names := name :: n.names })
  | .closing name position =>
    match n.names with
    | [] =>
      (.error (.markup position (.form (.unmatchedEnd (Text.Utf8.decodeOrEmpty name)))), n)
    | expected :: names =>
      if name == expected then
        (.ok (.finish (.ofTag (localText name))), ⟨names, n.tags.drop 1⟩)
      else
        let fault := Markup.FormFault.mismatchedEnd (Text.Utf8.decodeOrEmpty expected)
          (Text.Utf8.decodeOrEmpty name)
        (.error (.markup position (.form fault)), { n with names })
  | .whole element => (.ok (.start element), n)
  | .wholeEnd kind => (.ok (.finish kind), n)
  | .broken position fault => (.error (.markup position fault), n)

/-- What the end of the document gives, each open element being told once. -/
def atEnd (n : Nesting) : Except RegistryError Unit × Nesting :=
  match n.tags with
  | [] => (.ok (), n)
  | tag :: tags => (.error (.endedInside tag), { n with tags })

end Nesting

/-- A place in a document. -/
structure Reader where
  pieces : List Piece
  nesting : Nesting := {}

namespace Reader

def ofBytes (document : List UInt8) : Reader :=
  { pieces := (Markup.lexemes document).flatMap Piece.ofLexeme }

def ofString (document : String) : Reader := ofBytes document.toUTF8.toList

/-- The next event; none at the end of the document. -/
def next (r : Reader) : Except RegistryError (Option Event) × Reader :=
  match r.pieces with
  | [] =>
    let (result, nesting) := r.nesting.atEnd
    (result.map fun _ => none, { r with nesting })
  | piece :: pieces =>
    let (result, nesting) := r.nesting.step piece
    (result.map some, ⟨pieces, nesting⟩)

/-- Reads on until `depth` more elements have ended than started. -/
def skipFrom (nesting : Nesting) : Nat → List Piece → Except RegistryError Unit × Reader
  | 0, pieces => (.ok (), ⟨pieces, nesting⟩)
  | _ + 1, [] =>
    let (result, nesting) := nesting.atEnd
    (result, ⟨[], nesting⟩)
  | depth + 1, piece :: pieces =>
    match nesting.step piece with
    | (.ok (.start _), nesting) => skipFrom nesting (depth + 2) pieces
    | (.ok (.finish _), nesting) => skipFrom nesting depth pieces
    | (.error e, nesting) => (.error e, ⟨pieces, nesting⟩)

/-- Reads to the end of the element that has just started. -/
def skipElement (r : Reader) : Except RegistryError Unit × Reader := skipFrom r.nesting 1 r.pieces

/-- All events up to the end or the first error. -/
def eventsFrom (nesting : Nesting) : List Piece → List Event × Option RegistryError
  | [] =>
    match nesting.atEnd.1 with
    | .ok () => ([], none)
    | .error e => ([], some e)
  | piece :: pieces =>
    match nesting.step piece with
    | (.ok event, nesting) =>
      let (events, failure) := eventsFrom nesting pieces
      (event :: events, failure)
    | (.error e, _) => ([], some e)

def events (r : Reader) : List Event × Option RegistryError := eventsFrom r.nesting r.pieces

end Reader

end EnumRegistry
