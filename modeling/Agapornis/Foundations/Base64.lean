import Agapornis.Foundations.Utf8Lossy

namespace Agapornis
namespace Foundations

/-!
# Base64

Three bytes are written as four symbols.  The last group may be filled up, and
the bits that the filling stands for are zero, so that no bytes have two
spellings.
-/

namespace Base64

def padding : Char := '='

def symbol (value : Nat) : Char :=
  Char.ofNat (
    if value < 26 then value + 65
    else if value < 52 then value + 71
    else if value < 62 then value - 4
    else if value = 62 then 43
    else 47)

def value (character : Char) : Option Nat :=
  let code := character.toNat
  if 65 <= code && code <= 90 then some (code - 65)
  else if 97 <= code && code <= 122 then some (code - 71)
  else if 48 <= code && code <= 57 then some (code + 4)
  else if code = 43 then some 62
  else if code = 47 then some 63
  else none

def encode : Bytes -> Text
  | [] => []
  | [a] => [symbol (a.toNat / 4), symbol (a.toNat % 4 * 16), padding, padding]
  | [a, b] =>
      [symbol (a.toNat / 4), symbol (a.toNat % 4 * 16 + b.toNat / 16), symbol (b.toNat % 16 * 4), padding]
  | a :: b :: c :: rest =>
      symbol (a.toNat / 4) :: symbol (a.toNat % 4 * 16 + b.toNat / 16) ::
        symbol (b.toNat % 16 * 4 + c.toNat / 64) :: symbol (c.toNat % 64) :: encode rest

/-- The bytes of a group that is not filled up. -/
def group (w x y z : Char) : Option Bytes := do
  let first <- value w
  let second <- value x
  let third <- value y
  let fourth <- value z
  some [UInt8.ofNat (first * 4 + second / 16), UInt8.ofNat (second % 16 * 16 + third / 4),
    UInt8.ofNat (third % 4 * 64 + fourth)]

/-- The bytes of the last group. -/
def lastGroup (w x y z : Char) : Option Bytes :=
  if z = padding then
    if y = padding then do
      let first <- value w
      let second <- value x
      if second % 16 = 0 then some [UInt8.ofNat (first * 4 + second / 16)] else none
    else do
      let first <- value w
      let second <- value x
      let third <- value y
      if third % 4 = 0 then
        some [UInt8.ofNat (first * 4 + second / 16), UInt8.ofNat (second % 16 * 16 + third / 4)]
      else none
  else group w x y z

def decode : Text -> Option Bytes
  | [] => some []
  | [w, x, y, z] => lastGroup w x y z
  | w :: x :: y :: z :: rest => do
      let front <- group w x y z
      let back <- decode rest
      some (front ++ back)
  | _ => none

example : encode (encodeUtf8 "fooba".toList) = "Zm9vYmE=".toList := by
  decide

theorem toNat_symbol {value : Nat} (small : value < 64) :
    (symbol value).toNat =
      if value < 26 then value + 65
      else if value < 52 then value + 71
      else if value < 62 then value - 4
      else if value = 62 then 43
      else 47 := by
  refine val_ofNat (Or.inl ?_)
  split_ifs <;> omega

theorem value_symbol {number : Nat} (small : number < 64) : value (symbol number) = some number := by
  rw [value, toNat_symbol small]
  grind

theorem symbol_ne_padding {number : Nat} (small : number < 64) : symbol number ≠ padding := by
  intro same
  have code := congrArg Char.toNat same
  rw [toNat_symbol small] at code
  have filled : padding.toNat = 61 := rfl
  grind

/-! ## Reading what was written -/

theorem group_encode (a b c : UInt8) (rest : Bytes) :
    Exists fun w => Exists fun x => Exists fun y => Exists fun z =>
      encode (a :: b :: c :: rest) = w :: x :: y :: z :: encode rest /\ z ≠ padding /\
        group w x y z = some [a, b, c] := by
  have belowA := a.toNat_lt
  have belowB := b.toNat_lt
  have belowC := c.toNat_lt
  refine ⟨_, _, _, _, rfl, symbol_ne_padding (by omega), ?_⟩
  simp only [group, value_symbol (by omega : a.toNat / 4 < 64),
    value_symbol (by omega : a.toNat % 4 * 16 + b.toNat / 16 < 64),
    value_symbol (by omega : b.toNat % 16 * 4 + c.toNat / 64 < 64),
    value_symbol (by omega : c.toNat % 64 < 64), Option.bind_eq_bind, Option.bind_some]
  rw [byte_eq a (by omega), byte_eq b (by omega), byte_eq c (by omega)]

theorem lastGroup_encode_one (a : UInt8) :
    lastGroup (symbol (a.toNat / 4)) (symbol (a.toNat % 4 * 16)) padding padding = some [a] := by
  have below := a.toNat_lt
  rw [lastGroup, if_pos rfl, if_pos rfl]
  simp only [value_symbol (by omega : a.toNat / 4 < 64), value_symbol (by omega : a.toNat % 4 * 16 < 64),
    Option.bind_eq_bind, Option.bind_some]
  rw [if_pos (by omega), byte_eq a (by omega)]

theorem lastGroup_encode_two (a b : UInt8) :
    lastGroup (symbol (a.toNat / 4)) (symbol (a.toNat % 4 * 16 + b.toNat / 16)) (symbol (b.toNat % 16 * 4))
      padding = some [a, b] := by
  have belowA := a.toNat_lt
  have belowB := b.toNat_lt
  rw [lastGroup, if_pos rfl, if_neg (symbol_ne_padding (by omega))]
  simp only [value_symbol (by omega : a.toNat / 4 < 64),
    value_symbol (by omega : a.toNat % 4 * 16 + b.toNat / 16 < 64),
    value_symbol (by omega : b.toNat % 16 * 4 < 64), Option.bind_eq_bind, Option.bind_some]
  rw [if_pos (by omega), byte_eq a (by omega), byte_eq b (by omega)]

theorem decode_group {w x y z next : Char} {rest : Text} :
    decode (w :: x :: y :: z :: next :: rest) =
      (group w x y z).bind fun front => (decode (next :: rest)).map (front ++ ·) := by
  rw [decode]
  · cases group w x y z <;> cases decode (next :: rest) <;> rfl
  · intro impossible
    cases impossible

/-- What was written is read back. -/
theorem decode_encode (bytes : Bytes) : decode (encode bytes) = some bytes := by
  fun_induction encode bytes with
  | case1 => rfl
  | case2 a => exact lastGroup_encode_one a
  | case3 a b => exact lastGroup_encode_two a b
  | case4 a b c rest induction =>
      rcases group_encode a b c rest with ⟨w, x, y, z, spelled, unfilled, read⟩
      rw [encode] at spelled
      rw [spelled]
      cases later : encode rest with
      | nil =>
          rw [later] at induction
          cases induction
          show lastGroup w x y z = some [a, b, c]
          rw [lastGroup, if_neg unfilled, read]
      | cons next tail =>
          rw [later] at induction
          rw [decode_group, read, induction]
          rfl

/-! ## The spelling -/

theorem encode_length (bytes : Bytes) : (encode bytes).length = 4 * ((bytes.length + 2) / 3) := by
  fun_induction encode bytes with
  | case1 => rfl
  | case2 a => simp only [List.length_cons, List.length_nil]
  | case3 a b => simp only [List.length_cons, List.length_nil]
  | case4 a b c rest induction =>
      simp only [List.length_cons, induction]
      omega



theorem not_isWhitespace_symbol {number : Nat} (small : number < 64) :
    Text.isWhitespace (symbol number) = false := by
  have low : 43 <= (symbol number).toNat := by
    rw [toNat_symbol small]
    grind
  have high : (symbol number).toNat <= 122 := by
    rw [toNat_symbol small]
    grind
  simp only [Text.isWhitespace, Bool.or_eq_false_iff, Bool.and_eq_false_iff, decide_eq_false_iff_not,
    beq_eq_false_iff_ne]
  omega

/-- A spelling has no white space, so what is put between its symbols can be dropped. -/
theorem filter_encode (bytes : Bytes) :
    (encode bytes).filter (fun character => !Text.isWhitespace character) = encode bytes := by
  apply List.filter_eq_self.mpr
  intro character member
  rw [Bool.not_eq_true']
  fun_induction encode bytes with
  | case1 => exact absurd member List.not_mem_nil
  | case2 a =>
      have below := a.toNat_lt
      simp only [List.mem_cons, List.not_mem_nil, or_false] at member
      rcases member with rfl | rfl | rfl | rfl
      · exact not_isWhitespace_symbol (by omega)
      · exact not_isWhitespace_symbol (by omega)
      · rfl
      · rfl
  | case3 a b =>
      have belowA := a.toNat_lt
      have belowB := b.toNat_lt
      simp only [List.mem_cons, List.not_mem_nil, or_false] at member
      rcases member with rfl | rfl | rfl | rfl
      · exact not_isWhitespace_symbol (by omega)
      · exact not_isWhitespace_symbol (by omega)
      · exact not_isWhitespace_symbol (by omega)
      · rfl
  | case4 a b c rest induction =>
      have belowA := a.toNat_lt
      have belowB := b.toNat_lt
      have belowC := c.toNat_lt
      simp only [List.mem_cons] at member
      rcases member with rfl | rfl | rfl | rfl | later
      · exact not_isWhitespace_symbol (by omega)
      · exact not_isWhitespace_symbol (by omega)
      · exact not_isWhitespace_symbol (by omega)
      · exact not_isWhitespace_symbol (by omega)
      · exact induction later

end Base64

end Foundations
end Agapornis
