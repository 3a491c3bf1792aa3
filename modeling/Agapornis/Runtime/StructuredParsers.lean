import Agapornis.Core.Failure
import Agapornis.Foundations.Utf8
import Agapornis.Runtime.Replacements

namespace Agapornis
namespace Runtime

open Foundations Agapornis.Core

/-!
# Configuration files that are edited as values

A path leads through a JSON or YAML document by keys, indexes and wildcards.
Where a key or an index leads nowhere, the way to it is made first, and a
value that is in the way is replaced by an empty object or array.
-/

inductive PathSegment where
  | key (name : Text)
  | index (number : Nat)
  | wildcard
  deriving DecidableEq, Repr

/-- The numbers in brackets at the end of a part, which is passed in parts no longer than the fuel. -/
def bracketIndexes : Nat -> Text -> List PathSegment
  | 0, _ => []
  | fuel + 1, rest =>
      match Text.stripPrefix ['['] rest with
      | none => []
      | some tail =>
          match Text.splitOnce ']' tail with
          | none => []
          | some (inside, after) =>
              ((Text.parseUnsigned (2 ^ 64 - 1) inside).map PathSegment.index).toList ++
                bracketIndexes fuel after

def partSegments (part : Text) : List PathSegment :=
  if part = ['*'] then [.wildcard]
  else if '[' ∈ part then
    let name := part.takeWhile (· ≠ '[')
    (if name.isEmpty then [] else [.key name]) ++
      bracketIndexes part.length (part.dropWhile (· ≠ '['))
  else [.key part]

def parsePath (path : Text) : List PathSegment :=
  ((path.splitOn '.').filter (fun part => !part.isEmpty)).flatMap partSegments

example : parsePath "listeners[0][1].*.port".toList =
    [.key "listeners".toList, .index 0, .index 1, .wildcard, .key "port".toList] := by
  decide +kernel

/-! ## Objects -/

/-- Put a value in the place of the one under a name. -/
def setEntry (name : Text) (value : Value) : List (Text × Value) -> List (Text × Value)
  | [] => []
  | entry :: entries =>
      if entry.1 == name then (name, value) :: entries else entry :: setEntry name value entries

/-- Add an entry before the first with a greater name. -/
def insertEntry (name : Text) (value : Value) : List (Text × Value) -> List (Text × Value)
  | [] => [(name, value)]
  | entry :: entries =>
      if name < entry.1 then (name, value) :: entry :: entries
      else entry :: insertEntry name value entries

/-! ## Setting a path -/

/-- What is put where a path leads on into nothing. -/
def initialValue : Option PathSegment -> Value
  | some (.index _) => .array []
  | _ => .object []

def asArray : Value -> Option (List Value)
  | .array elements => some elements
  | _ => none

def setStructuredPath (texts : ValueTexts) (replacement : Value) : List PathSegment -> Value -> Value
  | [], node =>
      match replacementForCurrent replacement (scalarText texts node) with
      | some value => structuredValue texts value
      | none => node
  | .wildcard :: rest, node =>
      match node with
      | .object entries =>
          .object (entries.map (fun entry => (entry.1, setStructuredPath texts replacement rest entry.2)))
      | .array elements => .array (elements.map (setStructuredPath texts replacement rest))
      | other => other
  | .key name :: rest, node =>
      let entries := node.asObject.getD []
      match (Value.object entries).get name with
      | some child => .object (setEntry name (setStructuredPath texts replacement rest child) entries)
      | none =>
          let child := initialValue rest.head?
          .object (insertEntry name (setStructuredPath texts replacement rest child) entries)
  | .index number :: rest, node =>
      let elements := (asArray node).getD []
      let child := initialValue rest.head?
      let padded := elements ++ List.replicate (number + 1 - elements.length) child
      .array (padded.modify number (setStructuredPath texts replacement rest))

def structuredEdit (texts : ValueTexts) (document : Value) (entry : Text × Value) : Value :=
  setStructuredPath texts entry.2 (parsePath entry.1) document

def applyStructuredReplacements (texts : ValueTexts) (document : Value) (find : List (Text × Value)) : Value :=
  find.foldl (structuredEdit texts) document

/-- How documents of one kind are read and written. -/
structure Documents (Document : Type) where
  parse : Bytes -> Except Failure Document
  write : Document -> Except Failure Bytes

def applyJsonParser (texts : ValueTexts) (documents : Documents Value) (bytes : Bytes)
    (find : List (Text × Value)) : Except Failure Bytes := do
  let document <- withContext "parse JSON configuration" (documents.parse bytes)
  documents.write (applyStructuredReplacements texts document find)

def applyYamlParser (texts : ValueTexts) (documents : Documents Value) (bytes : Bytes)
    (find : List (Text × Value)) : Except Failure Bytes := do
  let document <- withContext "parse YAML configuration" (documents.parse bytes)
  documents.write (applyStructuredReplacements texts document find)

end Runtime
end Agapornis
