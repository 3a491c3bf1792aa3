import Agapornis.Core.Value
import Agapornis.Foundations.Numerals

namespace Agapornis
namespace Runtime

open Foundations Agapornis.Core

/-!
# Replacements in configuration files

A replacement is a value which is written in any case, or a map from the
values that may be found at its place to those that are written for them.
-/

/-- What the libraries make of a value: the text of an array or an object, and the finite number
which a text is read as. -/
structure ValueTexts where
  composite : Value -> Text
  float : Text -> Option Number

def numberText : Number -> Text
  | .integer value => Text.signedDecimal value
  | .float shown => shown

def scalarText (texts : ValueTexts) : Value -> Text
  | .null => []
  | .bool value => if value then "true".toList else "false".toList
  | .number value => numberText value
  | .string text => text
  | other => texts.composite other

/-- The value to be written where something is found now. -/
def replacementForCurrent (replacement : Value) (current : Text) : Option Value :=
  match replacement with
  | .object options => (Value.object options).get current
  | value => some value

def isObject : Value -> Bool
  | .object _ => true
  | _ => false

/-- The value that a text is written as in a structured document. -/
def structuredValue (texts : ValueTexts) : Value -> Value
  | .string text =>
      match Text.parseSigned 64 text with
      | some value => .number (.integer value)
      | none =>
          match Text.parseUnsigned (2 ^ 64 - 1) text with
          | some value => .number (.integer value)
          | none =>
              match texts.float text with
              | some value => .number value
              | none => .string text
  | other => other

/-- A map has nothing to say about what is found. -/
def Unmatched (options : List (Text × Value)) (current : Text) : Prop :=
  current ∉ options.map Prod.fst

theorem replacementForCurrent_of_unmatched {options : List (Text × Value)} {current : Text}
    (unmatched : Unmatched options current) :
    replacementForCurrent (.object options) current = none := by
  rw [replacementForCurrent, Value.get, Option.map_eq_none_iff, List.find?_eq_none]
  intro entry member same
  apply unmatched
  rw [← eq_of_beq same]
  exact List.mem_map_of_mem member

end Runtime
end Agapornis
