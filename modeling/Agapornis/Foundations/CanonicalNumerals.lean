import Agapornis.Foundations.Numerals

namespace Agapornis
namespace Foundations

/-!
# Numbers as they are written

A number is written in one way and read in many.  A text that is read as a
number is written as it was when it has no plus sign, no zero in front of
other digits and no minus in front of zero.
-/

namespace Text

/-- A number as it is written. -/
def Canonical : Text -> Prop
  | '-' :: digits => Not (digits.head? = some '0')
  | '+' :: _ => False
  | text => text = ['0'] \/ Not (text.head? = some '0')

theorem digitsValue_eq_some {text : Text} {number : Nat} (value : digitsValue text = some number) :
    Not (text = []) /\ (forall character, character ∈ text -> character.isDigit = true) /\
      number = Nat.ofDigitChars 10 text 0 := by
  unfold digitsValue at value
  split at value
  · next good =>
      simp only [Bool.and_eq_true, Bool.not_eq_true', List.isEmpty_eq_false_iff, List.all_eq_true] at good
      exact ⟨good.1, good.2, (Option.some.inj value).symm⟩
  · cases value

/-- Zero alone is written with a zero in front. -/
theorem eq_zero_of_decimal_head (value : Nat) : (decimal value).head? = some '0' -> value = 0 := by
  induction value using Nat.base_induction 10 (by decide) with
  | single digit small =>
      intro head
      rw [decimal, Nat.toDigits_of_lt_base small, List.head?_cons] at head
      have read := Nat.toNat_digitChar_sub_48_of_lt_ten small
      rw [Option.some.inj head] at read
      exact read.symm
  | digit front digit small positive induction =>
      intro head
      rw [decimal, ← Nat.toDigits_append_toDigits (by decide) positive small] at head
      cases digits : Nat.toDigits 10 front with
      | nil => exact absurd digits Nat.toDigits_ne_nil
      | cons first rest =>
          rw [digits, List.cons_append, List.head?_cons] at head
          have zero := induction (by rw [decimal, digits, List.head?_cons, head])
          omega

theorem exists_digitChar {character : Char} (digit : character.isDigit = true) :
    Exists fun value => value < 10 /\ character = Nat.digitChar value := by
  have known : forall value : Nat, value < 10 -> Char.ofNat (value + 48) = Nat.digitChar value := by decide
  have bounds : 48 <= character.toNat /\ character.toNat <= 57 := by
    simpa [Char.isDigit, UInt32.le_iff_toNat_le] using digit
  have found := known (character.toNat - 48) (by omega)
  rw [Nat.sub_add_cancel bounds.1, Char.ofNat_toNat] at found
  exact ⟨character.toNat - 48, by omega, found⟩

/-- Digits without a zero in front are those of their value. -/
theorem decimal_ofDigitChars {text : Text} : Not (text = []) ->
    (forall character, character ∈ text -> character.isDigit = true) ->
    (text = ['0'] \/ Not (text.head? = some '0')) -> decimal (Nat.ofDigitChars 10 text 0) = text := by
  induction text using List.reverseRecOn with
  | nil => exact fun nonempty => absurd rfl nonempty
  | append_singleton front last induction =>
      intro _ digits canonical
      rcases exists_digitChar (digits last (List.mem_append_right front List.mem_cons_self)) with ⟨digit, small, isLast⟩
      rw [Nat.ofDigitChars_append, isLast, Nat.ofDigitChars_cons_digitChar_of_lt_ten small, Nat.ofDigitChars_nil]
      cases front with
      | nil => rw [Nat.ofDigitChars_nil, Nat.mul_zero, Nat.zero_add, decimal, Nat.toDigits_of_lt_base small,
          List.nil_append]
      | cons first rest =>
          have noZero : Not ((first :: rest).head? = some '0') := by
            rcases canonical with alone | noZero
            · have lengths := congrArg List.length alone
              rw [List.length_append, List.length_cons, List.length_singleton, List.length_singleton] at lengths
              omega
            · exact noZero
          have written := induction (List.cons_ne_nil first rest)
            (fun character member => digits character (List.mem_append_left _ member)) (Or.inr noZero)
          have positive : 0 < Nat.ofDigitChars 10 (first :: rest) 0 := by
            apply Nat.pos_of_ne_zero
            intro zero
            rw [zero, decimal, Nat.toDigits_zero] at written
            rw [← written] at noZero
            exact noZero rfl
          rw [decimal, ← Nat.toDigits_append_toDigits (by decide) positive small, Nat.toDigits_of_lt_base small]
          exact congrArg (· ++ [Nat.digitChar digit]) written

theorem decimal_eq_iff {text : Text} {value : Nat} (read : digitsValue text = some value) :
    decimal value = text <-> text = ['0'] \/ Not (text.head? = some '0') := by
  rcases digitsValue_eq_some read with ⟨nonempty, digits, isValue⟩
  constructor
  · intro written
    by_cases zero : text.head? = some '0'
    · rw [← written] at zero
      rw [← written, eq_zero_of_decimal_head value zero]
      exact Or.inl rfl
    · exact Or.inr zero
  · intro canonical
    rw [isValue]
    exact decimal_ofDigitChars nonempty digits canonical

/-- Of the texts for a number only the canonical one is written. -/
theorem decimal_eq_iff_canonical {limit value : Nat} {text : Text} (read : parseUnsigned limit text = some value) :
    decimal value = text <-> Canonical text := by
  unfold parseUnsigned at read
  split at read
  · next rest => exact iff_of_false (decimal_head value (by decide) rest) id
  · next unsigned =>
      have digits := (Option.filter_eq_some_iff.mp read).1
      rw [decimal_eq_iff digits]
      unfold Canonical
      split
      · next rest =>
          have minus := (digitsValue_eq_some digits).2.1 '-' List.mem_cons_self
          cases minus
      · next rest => exact absurd rfl (unsigned rest)
      · rfl

theorem signedDecimal_eq_iff_canonical {bits : Nat} {value : Int} {text : Text}
    (read : parseSigned bits text = some value) : signedDecimal value = text <-> Canonical text := by
  unfold parseSigned at read
  split at read
  · next rest =>
      rcases Option.map_eq_some_iff.mp read with ⟨magnitude, found, same⟩
      rcases Option.bind_eq_some_iff.mp found with ⟨number, filtered, isNumber⟩
      have digits := (Option.filter_eq_some_iff.mp filtered).1
      have written := decimal_eq_iff digits
      rw [← same, ← Option.some.inj isNumber, Canonical]
      cases number with
      | zero =>
          refine iff_of_false (decimal_head 0 (by decide) rest) ?_
          intro noZero
          have zero := written.mpr (Or.inr noZero)
          rw [← zero] at noZero
          exact noZero rfl
      | succ number =>
          rw [show signedDecimal (-((number + 1 : Nat) : Int)) = '-' :: decimal (number + 1) from rfl,
            List.cons_eq_cons,
            and_iff_right rfl, written]
          constructor
          · rintro (zero | noZero)
            · rw [zero] at digits
              cases digits
            · exact noZero
          · exact Or.inr
  · rcases Option.map_eq_some_iff.mp read with ⟨number, found, same⟩
    rw [← same]
    exact decimal_eq_iff_canonical found

end Text

end Foundations
end Agapornis
