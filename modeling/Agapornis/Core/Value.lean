import Agapornis.Foundations.Text

namespace Agapornis
namespace Core

open Foundations

/-!
# Configuration values

The values of JSON and YAML documents, with the entries of an object in the
order in which its map holds them.
-/

inductive Number where
  | integer (value : Int)
  | float (shown : Text)
  deriving DecidableEq, Repr

inductive Value where
  | null
  | bool (value : Bool)
  | number (value : Number)
  | string (text : Text)
  | array (elements : List Value)
  | object (entries : List (Text × Value))

namespace Value

/-- The entry of an object under a name. -/
def get (name : Text) : Value -> Option Value
  | .object entries => (entries.find? (fun entry => entry.1 == name)).map Prod.snd
  | _ => none

def asStr : Value -> Option Text
  | .string text => some text
  | _ => none

/-- The value under a sequence of names, one object inside the other. -/
def pointer (names : List Text) (value : Value) : Option Value :=
  names.foldlM (fun inner name => inner.get name) value

def asBool : Value -> Option Bool
  | .bool value => some value
  | _ => none

/-- An integer of 64 bits. -/
def asI64 : Value -> Option Int
  | .number (.integer value) => if -2 ^ 63 <= value && value < 2 ^ 63 then some value else none
  | _ => none

def asObject : Value -> Option (List (Text × Value))
  | .object entries => some entries
  | _ => none

mutual

/-- Change every text of a value, leaving the names of entries as they are. -/
def mapText (change : Text -> Text) : Value -> Value
  | .string text => .string (change text)
  | .array elements => .array (mapElements change elements)
  | .object entries => .object (mapEntries change entries)
  | other => other

def mapElements (change : Text -> Text) : List Value -> List Value
  | [] => []
  | element :: elements => mapText change element :: mapElements change elements

def mapEntry (change : Text -> Text) : Text × Value -> Text × Value
  | (name, value) => (name, mapText change value)

def mapEntries (change : Text -> Text) : List (Text × Value) -> List (Text × Value)
  | [] => []
  | entry :: entries => mapEntry change entry :: mapEntries change entries

end

end Value

end Core
end Agapornis
