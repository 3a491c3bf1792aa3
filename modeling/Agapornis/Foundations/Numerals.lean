import Agapornis.Foundations.Text

namespace Agapornis
namespace Foundations

/-!
# Numbers as texts

Numbers are written in decimal digits and read back, with a sign where the
type has one, up to a limit.
-/

namespace Text

/-- The value of a text of decimal digits. -/
def digitsValue (text : Text) : Option Nat :=
  if !text.isEmpty && text.all Char.isDigit then some (Nat.ofDigitChars 10 text 0) else none

/-- Read an unsigned number up to a limit; a plus sign may stand in front. -/
def parseUnsigned (limit : Nat) (text : Text) : Option Nat :=
  match text with
  | '+' :: rest => (digitsValue rest).filter (fun value => value ≤ limit)
  | _ => (digitsValue text).filter (fun value => value ≤ limit)

/-- Read a signed number of the given number of bits. -/
def parseSigned (bits : Nat) (text : Text) : Option Int :=
  match text with
  | '-' :: rest =>
      ((digitsValue rest).filter (fun value => value ≤ 2 ^ (bits - 1))).map (fun value => -(value : Int))
  | _ => (parseUnsigned (2 ^ (bits - 1) - 1) text).map Int.ofNat

/-- What is said of a text that is no unsigned number within the limit. -/
def parseError (text : Text) : String :=
  if text.isEmpty then "cannot parse integer from empty string"
  else if (parseUnsigned (text.length * 10 ^ text.length) text).isSome then
    "number too large to fit in target type"
  else "invalid digit found in string"

/-- A natural number in decimal digits. -/
def decimal (value : Nat) : Text :=
  Nat.toDigits 10 value

/-- A number in decimal digits. -/
def signedDecimal : Int -> Text
  | .ofNat value => decimal value
  | .negSucc value => '-' :: decimal (value + 1)

theorem digitsValue_decimal (value : Nat) : digitsValue (decimal value) = some value := by
  have digits : (decimal value).all Char.isDigit = true := by
    rw [List.all_eq_true]
    intro character member
    exact Nat.isDigit_of_mem_toDigits (by decide) (by decide) member
  have nonempty : (decimal value).isEmpty = false := by
    cases empty : decimal value with
    | nil => exact absurd empty Nat.toDigits_ne_nil
    | cons => rfl
  rw [digitsValue, digits, nonempty]
  simp only [Bool.not_false, Bool.and_self, if_true, decimal, Nat.ofDigitChars_ten_toDigits]

theorem decimal_head (value : Nat) {sign : Char} (notDigit : sign.isDigit = false) (rest : Text) :
    Not (decimal value = sign :: rest) := by
  intro same
  have digit : sign.isDigit = true :=
    Nat.isDigit_of_mem_toDigits (by decide) (by decide) (same ▸ List.mem_cons_self)
  rw [notDigit] at digit
  cases digit

theorem not_mem_decimal {character : Char} (notDigit : character.isDigit = false) (value : Nat) :
    character ∉ decimal value := by
  intro member
  have digit : character.isDigit = true :=
    Nat.isDigit_of_mem_toDigits (by decide) (by decide) member
  rw [notDigit] at digit
  cases digit

theorem decimal_injective : Function.Injective decimal := by
  intro first second same
  have read := digitsValue_decimal first
  rw [same, digitsValue_decimal] at read
  exact (Option.some.inj read).symm

/-- A number within the limit is read back as it was written. -/
theorem parseUnsigned_decimal {limit value : Nat} (within : value ≤ limit) :
    parseUnsigned limit (decimal value) = some value := by
  unfold parseUnsigned
  split
  · next rest same => exact absurd same (decimal_head value (by decide) rest)
  · rw [digitsValue_decimal, Option.filter_some, if_pos (decide_eq_true within)]

/-- A number that is read is written with digits, and a plus sign at most in front. -/
theorem parseUnsigned_characters {limit value : Nat} {text : Text}
    (read : parseUnsigned limit text = some value) :
    Not (text = []) /\ forall character, character ∈ text -> character.isDigit = true \/ character = '+' := by
  have ofDigits {digits : Text} (read : (digitsValue digits).filter (fun value => value ≤ limit) = some value) :
      Not (digits = []) /\ forall character, character ∈ digits -> character.isDigit = true := by
    rcases Option.filter_eq_some_iff.mp read with ⟨found, _⟩
    unfold digitsValue at found
    split at found
    · next good =>
        simp only [Bool.and_eq_true, Bool.not_eq_true', List.isEmpty_eq_false_iff, List.all_eq_true] at good
        exact good
    · cases found
  unfold parseUnsigned at read
  split at read
  · next rest =>
      rcases ofDigits read with ⟨_, digits⟩
      refine ⟨List.cons_ne_nil _ _, ?_⟩
      intro character member
      rcases List.mem_cons.mp member with same | inside
      · exact Or.inr same
      · exact Or.inl (digits character inside)
  · rcases ofDigits read with ⟨nonempty, digits⟩
    exact ⟨nonempty, fun character member => Or.inl (digits character member)⟩

theorem parseUnsigned_le {limit value : Nat} {text : Text}
    (read : parseUnsigned limit text = some value) : value ≤ limit := by
  unfold parseUnsigned at read
  split at read <;> exact of_decide_eq_true (Option.filter_eq_some_iff.mp read).2

theorem parseSigned_signedDecimal {bits : Nat} {value : Int} (low : -(2 ^ (bits - 1) : Nat) ≤ value)
    (high : value < (2 ^ (bits - 1) : Nat)) : parseSigned bits (signedDecimal value) = some value := by
  cases value with
  | ofNat value =>
      have within : value ≤ 2 ^ (bits - 1) - 1 := by
        have bound : (value : Int) < (2 ^ (bits - 1) : Nat) := high
        omega
      unfold parseSigned signedDecimal
      split
      · next rest same => exact absurd same (decimal_head value (by decide) rest)
      · rw [parseUnsigned_decimal within]
        rfl
  | negSucc value =>
      have within : value + 1 ≤ 2 ^ (bits - 1) := by omega
      simp only [parseSigned, signedDecimal, digitsValue_decimal]
      rw [Option.filter_some, if_pos (decide_eq_true within)]
      rfl

end Text

end Foundations
end Agapornis
