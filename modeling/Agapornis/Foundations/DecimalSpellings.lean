import Mathlib.Algebra.Order.Ring.Abs
import Mathlib.Tactic.FieldSimp
import Agapornis.Foundations.BinaryRounding
import Agapornis.Foundations.CanonicalNumerals

namespace Agapornis
namespace Foundations

/-!
# Binary numbers in decimal spellings

A decimal text is read as the binary number nearest to it.  A binary number is
written as one of the decimals that are read as it: one with the fewest digits,
and of these the nearest.
-/

open BinaryFormat

/-- Digits before a power of ten. -/
structure Decimal where
  digits : Nat
  exponent : Int

namespace Decimal

def value (decimal : Decimal) : Rat :=
  decimal.digits * 10 ^ decimal.exponent

/-- The number of its digits. -/
def size (decimal : Decimal) : Nat :=
  (Text.decimal decimal.digits).length

theorem value_nonneg (decimal : Decimal) : 0 ≤ decimal.value :=
  mul_nonneg (Nat.cast_nonneg _) (zpow_pos (by norm_num) _).le

theorem value_shift (digits zeros : Nat) (exponent : Int) :
    (Decimal.mk (digits * 10 ^ zeros) exponent).value = (Decimal.mk digits (zeros + exponent)).value := by
  rw [value, value, Nat.cast_mul, Nat.cast_pow, Nat.cast_ofNat, mul_assoc, zpow_add₀ (by norm_num), zpow_natCast]

end Decimal

/-! ## Reading -/

namespace Text

/-- A sign, which may be missing, and what is behind it. -/
def signed : Text -> Bool × Text
  | '-' :: rest => (true, rest)
  | '+' :: rest => (false, rest)
  | text => (false, text)

/-- An exponent of any size. -/
def readExponent (text : Text) : Option Int :=
  (digitsValue (signed text).2).map fun number => if (signed text).1 then -(number : Int) else number

/-- Digits before and behind a point. -/
def readMantissa (text : Text) : Option Decimal :=
  let whole := text.takeWhile (· ≠ '.')
  let fraction := (text.dropWhile (· ≠ '.')).tail
  (digitsValue (whole ++ fraction)).map fun digits => ⟨digits, -(fraction.length : Int)⟩

/-- The decimal that is spelled by digits with or without a point and an exponent. -/
def readDecimal (text : Text) : Option Decimal :=
  let behind := text.dropWhile fun character => character ≠ 'e' && character ≠ 'E'
  (readMantissa (text.takeWhile fun character => character ≠ 'e' && character ≠ 'E')).bind fun mantissa =>
    match behind with
    | [] => some mantissa
    | _ :: exponent =>
        (readExponent exponent).map fun exponent => ⟨mantissa.digits, mantissa.exponent + exponent⟩

end Text

/-- A binary number with its sign, which zero has too. -/
structure Float64 where
  negative : Bool
  magnitude : Rat
  deriving DecidableEq

/-- The finite number that a text is read as; infinities and what is no number are none. -/
def parseFloat (text : Text) : Option Float64 :=
  (Text.readDecimal (Text.signed text).2).bind fun decimal =>
    (binary64.finite decimal.value).map fun magnitude => ⟨(Text.signed text).1, magnitude⟩

example : parseFloat "-12.5E-1".toList = some ⟨true, 5 / 4⟩ := by
  decide +kernel

/-! ## Writing -/

/-- Of two decimals for a number the one that is written. -/
def Decimal.Before (magnitude : Rat) (decimal other : Decimal) : Prop :=
  decimal.size < other.size \/
    (decimal.size = other.size /\
      (|decimal.value - magnitude| < |other.value - magnitude| \/
        (|decimal.value - magnitude| = |other.value - magnitude| /\
          -- As far as the last digit of either reaches, the other one is odd.
          other.exponent ≤ decimal.exponent /\ other.digits % 2 = 1)))

/-- The decimal that is written for a number. -/
structure Decimal.Shortest (magnitude : Rat) (decimal : Decimal) : Prop where
  filled : Not (decimal.digits % 10 = 0)
  reads : binary64.nearest decimal.value = magnitude
  before : forall other : Decimal, binary64.nearest other.value = magnitude -> Not (other.value = decimal.value) ->
    decimal.Before magnitude other

/-- How decimals are laid out: for which exponents of the first digit without an exponent, and
how an exponent is spelled. -/
structure FloatStyle where
  plain : Int -> Bool
  exponentText : Int -> Text
  reads : forall exponent, Text.readExponent (exponentText exponent) = some exponent

/-- The digits of a decimal that are in front of its point. -/
def Decimal.point (decimal : Decimal) : Int :=
  decimal.size + decimal.exponent

/-- All digits, with a point somewhere. -/
def Decimal.plainText (decimal : Decimal) : Text :=
  let digits := Text.decimal decimal.digits
  if 0 ≤ decimal.exponent then digits ++ List.replicate decimal.exponent.toNat '0' ++ ['.', '0']
  else if 0 < decimal.point then digits.take decimal.point.toNat ++ '.' :: digits.drop decimal.point.toNat
  else '0' :: '.' :: (List.replicate (-decimal.point).toNat '0' ++ digits)

/-- The digits, with a point behind the first if there are more. -/
def Decimal.leadText (decimal : Decimal) : Text :=
  match Text.decimal decimal.digits with
  | first :: second :: rest => first :: '.' :: second :: rest
  | short => short

def FloatStyle.spell (style : FloatStyle) (decimal : Decimal) : Text :=
  if style.plain (decimal.point - 1) then decimal.plainText
  else decimal.leadText ++ 'e' :: style.exponentText (decimal.point - 1)

/-- A minus in front of a negative number. -/
def signText (negative : Bool) : Text :=
  if negative then ['-'] else []

/-- A text that the number library writes for a number. -/
def FloatStyle.Printed (style : FloatStyle) (number : Float64) (shown : Text) : Prop :=
  if number.magnitude = 0 then shown = signText number.negative ++ ['0', '.', '0']
  else Exists fun decimal : Decimal =>
    decimal.Shortest number.magnitude /\ shown = signText number.negative ++ style.spell decimal

/-! ## What is written is read -/

namespace Text

/-- Digits only. -/
def Digits (text : Text) : Prop :=
  forall character, character ∈ text -> character.isDigit = true

theorem digits_append {front back : Text} : Digits (front ++ back) <-> Digits front /\ Digits back :=
  List.forall_mem_append

theorem digits_decimal (number : Nat) : Digits (decimal number) :=
  fun _ member => Nat.isDigit_of_mem_toDigits (by decide) (by decide) member

theorem digits_zeros (count : Nat) : Digits (List.replicate count '0') := by
  intro character member
  rw [List.eq_of_mem_replicate member]
  rfl

theorem digitsValue_digits {text : Text} (digits : Digits text) (filled : Not (text = [])) :
    digitsValue text = some (Nat.ofDigitChars 10 text 0) := by
  rw [digitsValue, if_pos]
  rw [Bool.and_eq_true, Bool.not_eq_true', List.isEmpty_eq_false_iff, List.all_eq_true]
  exact ⟨filled, digits⟩

theorem ofDigitChars_decimal (number : Nat) : Nat.ofDigitChars 10 (decimal number) 0 = number :=
  Nat.ofDigitChars_ten_toDigits

variable {whole fraction : Text}

theorem ne_of_digit {character other : Char} (digit : character.isDigit = true) (isOther : other.isDigit = false) :
    Not (character = other) := by
  intro same
  rw [same, isOther] at digit
  cases digit

theorem readMantissa_point (digits : Digits (whole ++ fraction)) (filled : Not (whole ++ fraction = [])) :
    readMantissa (whole ++ '.' :: fraction) =
      some ⟨Nat.ofDigitChars 10 (whole ++ fraction) 0, -(fraction.length : Int)⟩ := by
  have noPoint : forall character, character ∈ whole -> decide (character ≠ '.') = true :=
    fun character member => decide_eq_true (ne_of_digit (digits character (List.mem_append_left _ member)) rfl)
  rw [readMantissa, List.takeWhile_append_of_pos noPoint, List.dropWhile_append_of_pos noPoint]
  rw [List.takeWhile_cons_of_neg (by decide), List.dropWhile_cons_of_neg (by decide), List.append_nil, List.tail_cons,
    digitsValue_digits digits filled]
  rfl

theorem readMantissa_whole (digits : Digits whole) (filled : Not (whole = [])) :
    readMantissa whole = some ⟨Nat.ofDigitChars 10 whole 0, 0⟩ := by
  have noPoint : forall character, character ∈ whole -> decide (character ≠ '.') = true :=
    fun character member => decide_eq_true (ne_of_digit (digits character member) rfl)
  rw [readMantissa, List.takeWhile_eq_self_iff.mpr noPoint, List.dropWhile_eq_nil_iff.mpr noPoint]
  rw [List.tail_nil, List.append_nil, digitsValue_digits digits filled]
  rfl

/-- No mark of an exponent. -/
def Unmarked (text : Text) : Prop :=
  forall character, character ∈ text -> (decide (character ≠ 'e') && decide (character ≠ 'E')) = true

theorem unmarked_digits (digits : Digits whole) : Unmarked whole := by
  intro character member
  rw [Bool.and_eq_true]
  exact ⟨decide_eq_true (ne_of_digit (digits character member) rfl),
    decide_eq_true (ne_of_digit (digits character member) rfl)⟩

theorem unmarked_point (digits : Digits (whole ++ fraction)) : Unmarked (whole ++ '.' :: fraction) := by
  rcases digits_append.mp digits with ⟨front, back⟩
  intro character member
  rcases List.mem_append.mp member with before | behind
  · exact unmarked_digits front character before
  · rcases List.mem_cons.mp behind with point | after
    · rw [point]
      rfl
    · exact unmarked_digits back character after

theorem readExponent_signedDecimal (exponent : Int) : readExponent (signedDecimal exponent) = some exponent := by
  cases exponent with
  | ofNat number =>
      have unsigned : signed (decimal number) = (false, decimal number) := by
        unfold signed
        split
        · next same => exact absurd same (decimal_head number rfl _)
        · next same => exact absurd same (decimal_head number rfl _)
        · rfl
      rw [readExponent, signedDecimal, unsigned, digitsValue_decimal]
      rfl
  | negSucc number =>
      rw [readExponent, signedDecimal, signed, digitsValue_decimal]
      rfl

theorem readDecimal_unmarked {text : Text} (unmarked : Unmarked text) : readDecimal text = readMantissa text := by
  rw [readDecimal, List.takeWhile_eq_self_iff.mpr unmarked, List.dropWhile_eq_nil_iff.mpr unmarked]
  cases readMantissa text <;> rfl

theorem readDecimal_exponent {text spelled : Text} {exponent : Int} (unmarked : Unmarked text)
    (reads : readExponent spelled = some exponent) : readDecimal (text ++ 'e' :: spelled) =
      (readMantissa text).map fun mantissa => ⟨mantissa.digits, mantissa.exponent + exponent⟩ := by
  rw [readDecimal, List.takeWhile_append_of_pos unmarked, List.dropWhile_append_of_pos unmarked]
  rw [List.takeWhile_cons_of_neg (by decide), List.dropWhile_cons_of_neg (by decide), List.append_nil]
  dsimp only
  rw [reads]
  cases readMantissa text <;> rfl

end Text


namespace Decimal

open Text

theorem text_ne_nil (number : Nat) : Not (Text.decimal number = []) :=
  Nat.toDigits_ne_nil

variable (decimal : Decimal)

theorem readDecimal_plainText :
    Exists fun read => readDecimal decimal.plainText = some read /\ read.value = decimal.value := by
  have digits := digits_decimal decimal.digits
  have isValue := ofDigitChars_decimal decimal.digits
  have zero : (['0'] : Text) = List.replicate 1 '0' := rfl
  have length : decimal.size = (Text.decimal decimal.digits).length := rfl
  unfold plainText point
  dsimp only
  split
  · next nonneg =>
      have all : Digits ((Text.decimal decimal.digits ++ List.replicate decimal.exponent.toNat '0') ++ ['0']) :=
        digits_append.mpr ⟨digits_append.mpr ⟨digits, digits_zeros _⟩, digits_zeros 1⟩
      have filled := List.append_ne_nil_of_right_ne_nil
        (Text.decimal decimal.digits ++ List.replicate decimal.exponent.toNat '0') (List.cons_ne_nil '0' [])
      have number : Nat.ofDigitChars 10
          ((Text.decimal decimal.digits ++ List.replicate decimal.exponent.toNat '0') ++ ['0']) 0 =
          decimal.digits * 10 ^ (decimal.exponent.toNat + 1) := by
        rw [List.append_assoc, Nat.ofDigitChars_append, isValue, zero, ← List.replicate_add,
          Nat.ofDigitChars_replicate_zero, Nat.mul_comm]
      have same : ((decimal.exponent.toNat + 1 : Nat) : Int) + -((1 : Nat) : Int) = decimal.exponent := by omega
      refine ⟨_, (readDecimal_unmarked (unmarked_point all)).trans (readMantissa_point all filled), ?_⟩
      rw [number, value_shift, List.length_singleton, same]
  · split
    · next positive =>
        have whole := List.take_append_drop (decimal.size + decimal.exponent).toNat (Text.decimal decimal.digits)
        have all := digits
        have filled := text_ne_nil decimal.digits
        rw [← whole] at all filled
        have same : -((decimal.size - (decimal.size + decimal.exponent).toNat : Nat) : Int) = decimal.exponent := by
          omega
        refine ⟨_, (readDecimal_unmarked (unmarked_point all)).trans (readMantissa_point all filled), ?_⟩
        rw [whole, isValue, List.length_drop, ← length, same]
    · next small =>
        have all : Digits (['0'] ++
            (List.replicate (-(decimal.size + decimal.exponent)).toNat '0' ++ Text.decimal decimal.digits)) :=
          digits_append.mpr ⟨digits_zeros 1, digits_append.mpr ⟨digits_zeros _, digits⟩⟩
        have same : -(((-(decimal.size + decimal.exponent)).toNat + decimal.size : Nat) : Int) = decimal.exponent := by
          omega
        refine ⟨_, (readDecimal_unmarked (unmarked_point all)).trans
          (readMantissa_point all (List.cons_ne_nil _ _)), ?_⟩
        rw [zero, ← List.append_assoc, ← List.replicate_add, Nat.ofDigitChars_append, Nat.ofDigitChars_replicate_zero,
          Nat.mul_zero, isValue, List.length_append, List.length_replicate, ← length, same]

theorem readMantissa_leadText : Unmarked decimal.leadText /\
    readMantissa decimal.leadText = some ⟨decimal.digits, 1 - decimal.size⟩ := by
  have digits := digits_decimal decimal.digits
  have isValue := ofDigitChars_decimal decimal.digits
  have length : decimal.size = (Text.decimal decimal.digits).length := rfl
  unfold leadText
  split
  · next first second rest shape =>
      rw [shape] at digits isValue length
      have all : Digits ([first] ++ second :: rest) := digits
      have same : -((second :: rest).length : Int) = 1 - decimal.size := by
        rw [length, List.length_cons, List.length_cons, List.length_cons]
        omega
      refine ⟨unmarked_point all, (readMantissa_point all (List.cons_ne_nil _ _)).trans ?_⟩
      rw [List.singleton_append, isValue, same]
  · next short =>
      have one : decimal.size = 1 := by
        cases shape : Text.decimal decimal.digits with
        | nil => exact absurd shape (text_ne_nil decimal.digits)
        | cons first rest =>
            cases rest with
            | nil =>
                rw [length, shape]
                rfl
            | cons second rest => exact absurd shape (short first second rest)
      refine ⟨unmarked_digits digits, ?_⟩
      rw [readMantissa_whole digits (text_ne_nil _), isValue, one]
      rfl

/-- A decimal that is laid out is read with its value. -/
theorem readDecimal_spell (style : FloatStyle) :
    Exists fun read => readDecimal (style.spell decimal) = some read /\ read.value = decimal.value := by
  rw [FloatStyle.spell]
  split
  · exact decimal.readDecimal_plainText
  · rcases decimal.readMantissa_leadText with ⟨unmarked, mantissa⟩
    refine ⟨decimal, ?_, rfl⟩
    have same : (1 : Int) - decimal.size + (decimal.point - 1) = decimal.exponent := by
      rw [point]
      omega
    rw [readDecimal_exponent unmarked (style.reads _), mantissa, Option.map_some, same]

/-- It begins with a digit. -/
theorem spell_head (style : FloatStyle) :
    Exists fun first => (style.spell decimal).head? = some first /\ first.isDigit = true := by
  have digits := digits_decimal decimal.digits
  rcases List.exists_cons_of_ne_nil (text_ne_nil decimal.digits) with ⟨first, rest, shape⟩
  rw [shape] at digits
  have isDigit := digits first List.mem_cons_self
  rw [FloatStyle.spell]
  split
  · rw [plainText]
    split
    · rw [shape]
      exact ⟨first, rfl, isDigit⟩
    · split
      · next positive =>
          obtain ⟨before, isBefore⟩ := Nat.exists_eq_add_one.mpr (show 0 < decimal.point.toNat by omega)
          rw [shape, isBefore]
          exact ⟨first, rfl, isDigit⟩
      · exact ⟨'0', rfl, rfl⟩
  · rw [leadText, shape]
    cases rest with
    | nil => exact ⟨first, rfl, isDigit⟩
    | cons second rest => exact ⟨first, rfl, isDigit⟩

end Decimal

/-! ## One decimal is written -/

namespace Decimal

variable {magnitude : Rat} {first second : Decimal}

/-- A decimal between two that are read as a number is read as it. -/
theorem reads_between {between : Decimal} (low : binary64.nearest first.value = magnitude)
    (high : binary64.nearest second.value = magnitude) (after : first.value ≤ between.value)
    (before : between.value ≤ second.value) : binary64.nearest between.value = magnitude := by
  apply le_antisymm
  · rw [← high]
    exact nearest_mono _ between.value_nonneg before
  · rw [← low]
    exact nearest_mono _ first.value_nonneg after

theorem value_lt_iff (exponent : Int) (low high : Nat) :
    (Decimal.mk low exponent).value < (Decimal.mk high exponent).value <-> low < high := by
  rw [value, value, mul_lt_mul_iff_left₀ (zpow_pos (by norm_num) exponent), Nat.cast_lt]

theorem eq_of_value_eq (filled : Not (first.digits % 10 = 0))
    (same : first.value = second.value) (above : first.exponent ≤ second.exponent) : first = second := by
  obtain ⟨zeros, isAbove⟩ := Int.le.dest above
  have shifted := value_shift second.digits zeros first.exponent
  rw [Int.add_comm, isAbove] at shifted
  have digits : first.digits = second.digits * 10 ^ zeros := by
    have noLess := value_lt_iff first.exponent first.digits (second.digits * 10 ^ zeros)
    have noMore := value_lt_iff first.exponent (second.digits * 10 ^ zeros) first.digits
    rw [shifted] at noLess noMore
    have least := noLess.not.mp (not_lt_of_ge (le_of_eq same.symm))
    have most := noMore.not.mp (not_lt_of_ge (le_of_eq same))
    omega
  cases zeros with
  | zero =>
      rw [Nat.pow_zero, Nat.mul_one] at digits
      exact congrArg₂ Decimal.mk digits (by omega)
  | succ zeros =>
      rw [digits, Nat.pow_succ, ← Nat.mul_assoc, Nat.mul_mod_left] at filled
      exact absurd rfl filled

theorem size_le_iff (decimal : Decimal) {count : Nat} (some : 0 < count) :
    decimal.size ≤ count <-> decimal.digits < 10 ^ count :=
  Nat.length_toDigits_le_iff (by decide) some

/-- What is between two equally far numbers is nearer. -/
theorem nearer_between {low middle high centre : Rat} (after : low < middle) (before : middle < high)
    (far : |low - centre| = |high - centre|) : |middle - centre| < |low - centre| := by
  rcases abs_eq_abs.mp far with same | opposite
  · linarith
  · have below : low - centre < 0 := by linarith
    rw [abs_of_neg below, abs_lt]
    constructor <;> linarith

/-- Of two different shortest decimals neither is before the other. -/
theorem Shortest.below (one : first.Shortest magnitude) (other : second.Shortest magnitude)
    (different : Not (second.value = first.value)) :
    second.exponent = first.exponent /\ second.digits ≤ first.digits := by
  have before := one.before second other.reads different
  have behind := other.before first one.reads (Ne.symm different)
  have sizes : first.size = second.size := by
    rcases before with less | ⟨same, _⟩
    · rcases behind with more | ⟨same, _⟩
      · omega
      · exact same.symm
    · exact same
  have ties : |first.value - magnitude| = |second.value - magnitude| /\ second.exponent = first.exponent /\
      first.digits % 2 = 1 /\ second.digits % 2 = 1 := by
    rcases before with less | ⟨_, nearer | ⟨tie, low, odd⟩⟩
    · omega
    · rcases behind with less | ⟨_, farther | ⟨tie, _⟩⟩
      · omega
      · exact absurd nearer (not_lt_of_gt farther)
      · exact absurd nearer (not_lt_of_ge (le_of_eq tie))
    · rcases behind with less | ⟨_, farther | ⟨_, high, otherOdd⟩⟩
      · omega
      · exact absurd farther (not_lt_of_ge (le_of_eq tie))
      · exact ⟨tie, by omega, otherOdd, odd⟩
  rcases ties with ⟨tie, exponents, odd, otherOdd⟩
  refine ⟨exponents, ?_⟩
  by_contra more
  -- The even digits between the two are a decimal that is nearer than both.
  have after : first.value < (Decimal.mk (first.digits + 1) first.exponent).value :=
    (value_lt_iff _ _ _).mpr (Nat.lt_succ_self _)
  have ahead : (Decimal.mk (first.digits + 1) first.exponent).value < second.value := by
    have less : first.digits + 1 < second.digits := by omega
    have values := (value_lt_iff first.exponent _ _).mpr less
    rw [← exponents] at values ⊢
    exact values
  have reads := reads_between one.reads other.reads after.le ahead.le
  have small : (Decimal.mk (first.digits + 1) first.exponent).size ≤ first.size := by
    have some : 0 < second.size := Nat.length_toDigits_pos
    have own := (second.size_le_iff some).mp (le_refl second.size)
    rw [sizes, size_le_iff _ some]
    have less : first.digits + 1 ≤ second.digits := by omega
    exact Nat.lt_of_le_of_lt less own
  have nearer := nearer_between after ahead tie
  rcases one.before _ reads after.ne' with less | ⟨_, farther | ⟨equal, _⟩⟩
  · omega
  · exact absurd nearer (not_lt_of_gt farther)
  · exact absurd nearer (not_lt_of_ge (le_of_eq equal))

theorem Shortest.value_eq (one : first.Shortest magnitude) (other : second.Shortest magnitude) :
    first.value = second.value := by
  by_contra different
  have below := one.below other (Ne.symm different)
  have above := other.below one different
  have digits : first.digits = second.digits := by omega
  apply different
  rw [value, value, digits, below.1]

theorem Shortest.unique (one : first.Shortest magnitude) (other : second.Shortest magnitude) : first = second := by
  have same := one.value_eq other
  rcases le_total first.exponent second.exponent with above | below
  · exact eq_of_value_eq one.filled same above
  · exact (eq_of_value_eq other.filled same.symm below).symm

/-- A single digit is written for its own value. -/
theorem shortest_of_digit {decimal : Decimal} (filled : Not (decimal.digits % 10 = 0)) (single : decimal.size = 1)
    (exact : binary64.nearest decimal.value = decimal.value) : decimal.Shortest decimal.value := by
  refine ⟨filled, exact, ?_⟩
  intro other _ different
  have least : 0 < other.size := Nat.length_toDigits_pos
  rw [Before, single]
  by_cases longer : 1 < other.size
  · exact Or.inl longer
  · refine Or.inr ⟨by omega, Or.inl ?_⟩
    rw [sub_self, abs_zero]
    exact abs_pos.mpr (sub_ne_zero.mpr different)

/-- Nothing with a digit is the shortest decimal for zero. -/
theorem not_shortest_zero (decimal : Decimal) : Not (decimal.Shortest 0) := by
  intro shortest
  have positive : 0 < decimal.value := by
    have digits : 0 < decimal.digits := by
      have filled := shortest.filled
      omega
    exact mul_pos (by exact_mod_cast digits) (zpow_pos (by norm_num) _)
  have zero : (Decimal.mk 0 0).value = 0 := by
    rw [value, Nat.cast_zero, zero_mul]
  have reads : binary64.nearest (Decimal.mk 0 0).value = 0 := by
    rw [zero, nearest_zero]
  have least : 0 < decimal.size := Nat.length_toDigits_pos
  have single : (Decimal.mk 0 0).size = 1 := rfl
  have nearest : |(Decimal.mk 0 0).value - 0| < |decimal.value - 0| := by
    rw [zero, sub_zero, sub_zero, abs_zero]
    exact abs_pos.mpr positive.ne'
  rcases shortest.before _ reads (by rw [zero]; exact positive.ne) with less | ⟨_, farther | ⟨equal, _⟩⟩
  · omega
  · exact absurd nearest (not_lt_of_gt farther)
  · exact absurd nearest (not_lt_of_ge (le_of_eq equal))

end Decimal

/-! ## A text and the number it is read as -/

namespace FloatStyle

variable {style : FloatStyle}

theorem signed_signText {text : Text} (digit : Exists fun first => text.head? = some first /\ first.isDigit = true)
    (negative : Bool) : Text.signed (signText negative ++ text) = (negative, text) := by
  rcases digit with ⟨first, isHead, isDigit⟩
  obtain ⟨rest, shape⟩ := List.head?_eq_some_iff.mp isHead
  rw [shape]
  cases negative with
  | true => rfl
  | false =>
      rw [show signText false ++ first :: rest = first :: rest from rfl]
      unfold Text.signed
      split
      · next same =>
          rw [(List.cons_eq_cons.mp same).1] at isDigit
          cases isDigit
      · next same =>
          rw [(List.cons_eq_cons.mp same).1] at isDigit
          cases isDigit
      · rfl

/-- A text that some number may be written as. -/
def Spelling (style : FloatStyle) (text : Text) : Prop :=
  Exists fun negative => text = signText negative ++ ['0', '.', '0'] \/
    Exists fun decimal : Decimal =>
      text = signText negative ++ style.spell decimal /\ decimal.Shortest (binary64.nearest decimal.value)

/-- The number which a text is read as is written as the text exactly if the text is a spelling. -/
theorem printed_iff_spelling {text shown : Text} {number : Float64} (read : parseFloat text = some number)
    (printed : style.Printed number shown) : shown = text <-> style.Spelling text := by
  unfold Printed at printed
  constructor
  · intro same
    subst same
    refine ⟨number.negative, ?_⟩
    split at printed
    · exact Or.inl printed
    · rcases printed with ⟨decimal, shortest, isShown⟩
      refine Or.inr ⟨decimal, isShown, ?_⟩
      rw [shortest.reads]
      exact shortest
  · rintro ⟨negative, zero | ⟨decimal, isText, shortest⟩⟩
    · have isZero : parseFloat (signText negative ++ ['0', '.', '0']) = some ⟨negative, 0⟩ := by
        cases negative <;> decide +kernel
      rw [zero, isZero] at read
      rw [← Option.some.inj read, if_pos rfl] at printed
      rw [printed, zero]
    · rcases decimal.readDecimal_spell style with ⟨parsed, reads, value⟩
      rw [isText, parseFloat, signed_signText (decimal.spell_head style)] at read
      dsimp only at read
      rw [reads, Option.bind_some, Option.map_eq_some_iff] at read
      rcases read with ⟨magnitude, finite, isNumber⟩
      rw [value] at finite
      rw [nearest_of_finite finite] at shortest
      rw [← isNumber] at printed
      split at printed
      · next zero =>
          rw [show magnitude = 0 from zero] at shortest
          exact absurd shortest decimal.not_shortest_zero
      · rcases printed with ⟨other, otherShortest, isShown⟩
        rw [isShown, isText, otherShortest.unique shortest]

end FloatStyle

end Foundations
end Agapornis
