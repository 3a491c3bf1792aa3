import Agapornis.Foundations.DecimalSpellings
import Agapornis.Runtime.StructuredPlaces

namespace Agapornis
namespace Runtime

open Foundations Agapornis.Core

/-!
# Texts that are written as numbers

A text which is read as a number is put into a document as this number, and
rendered again it is the text only if numbers are written so.
-/

/-- A text which is no number, or an integer or a float as they are written. -/
def KeptText (style : FloatStyle) (text : Text) : Prop :=
  if (Text.parseSigned 64 text).isSome = true \/ (Text.parseUnsigned (2 ^ 64 - 1) text).isSome = true then
    Text.Canonical text
  else parseFloat text = none \/ style.Spelling text

/-- A text is read as the nearest float, if there is a finite one, and this is written with
the fewest digits which are read as it. -/
def FloatText (style : FloatStyle) (texts : ValueTexts) (text : Text) : Prop :=
  match parseFloat text with
  | none => texts.float text = none
  | some number => Exists fun shown => texts.float text = some (.float shown) /\ style.Printed number shown

section Kept

variable {style : FloatStyle} {texts : ValueTexts} {text : Text}

theorem scalarText_structuredValue (documented : FloatText style texts text) :
    scalarText texts (structuredValue texts (.string text)) = text <-> KeptText style text := by
  rw [structuredValue, KeptText]
  cases signed : Text.parseSigned 64 text with
  | some value =>
      rw [if_pos (Or.inl Option.isSome_some)]
      exact Text.signedDecimal_eq_iff_canonical signed
  | none =>
      cases unsigned : Text.parseUnsigned (2 ^ 64 - 1) text with
      | some value =>
          rw [if_pos (Or.inr Option.isSome_some)]
          exact Text.decimal_eq_iff_canonical unsigned
      | none =>
          have noInteger : Not ((none : Option Int).isSome = true \/ (none : Option Nat).isSome = true) := by decide
          rw [if_neg noInteger]
          unfold FloatText at documented
          split at documented
          · next noFloat =>
              rw [documented]
              exact iff_of_true rfl (Or.inl noFloat)
          · next number read =>
              rcases documented with ⟨shown, isFloat, printed⟩
              rw [isFloat, read]
              exact (FloatStyle.printed_iff_spelling read printed).trans
                (or_iff_right (Option.some_ne_none number)).symm

end Kept

/-- A text is read back from where it was set exactly if it is no number or is written as numbers are. -/
theorem text_kept_iff (style : FloatStyle) (texts : ValueTexts) (document : Value) (place : List ChildStep)
    (text : Text) (documented : FloatText style texts text) :
    ((setStructuredPath texts (.string text) (place.map stepSegment) document).lookup place).map (scalarText texts) =
      some text <-> KeptText style text := by
  rcases exists_reaches place document with ⟨found, reaches⟩
  rw [lookup_of_reaches reaches, setStructuredPath_nil rfl, Option.map_some, Option.some.injEq]
  exact scalarText_structuredValue documented

/-- Floats without an exponent from a hundred-thousandth to sixteen digits. -/
def someStyle : FloatStyle where
  plain exponent := decide (-5 ≤ exponent) && decide (exponent ≤ 15)
  exponentText := Text.signedDecimal
  reads := Text.readExponent_signedDecimal

/-- Every float is a half. -/
def halfTexts : ValueTexts :=
  ⟨fun _ => [], fun _ => some (.float "0.5".toList)⟩

theorem text_kept_iff_half :
    ((setStructuredPath halfTexts (.string "0.5".toList) ([.key "rate".toList].map stepSegment) (.object [])).lookup
        [.key "rate".toList]).map (scalarText halfTexts) = some "0.5".toList <->
      KeptText someStyle "0.5".toList := by
  apply text_kept_iff
  have read : parseFloat "0.5".toList = some ⟨false, 1 / 2⟩ := by decide +kernel
  rw [FloatText, read]
  refine ⟨_, rfl, ?_⟩
  have value : (Decimal.mk 5 (-1)).value = 1 / 2 := by decide +kernel
  have shortest : (Decimal.mk 5 (-1)).Shortest (Decimal.mk 5 (-1)).value :=
    Decimal.shortest_of_digit (by decide) rfl (by decide +kernel)
  rw [value] at shortest
  rw [FloatStyle.Printed, if_neg (by norm_num)]
  exact ⟨⟨5, -1⟩, shortest, by decide +kernel⟩

/-- A text with zeros in front loses them. -/
theorem leading_zeros_lost :
    let document := setStructuredPath someTexts (.string "007".toList)
      ([.key "pin".toList].map stepSegment) (.object [])
    let read := (document.lookup [.key "pin".toList]).map (scalarText someTexts)
    read = some "7".toList /\ Not (read = some "007".toList) := by
  decide

end Runtime
end Agapornis
