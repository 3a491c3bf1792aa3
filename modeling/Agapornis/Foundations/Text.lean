import Mathlib.Algebra.Group.Int.Defs
import Mathlib.Algebra.Group.Nat.Defs
import Mathlib.Algebra.GroupWithZero.Nat
import Mathlib.Data.Char
import Mathlib.Data.List.Basic
import Mathlib.Data.List.DropRight
import Mathlib.Data.List.Infix
import Mathlib.Data.List.Lex

namespace Agapornis
namespace Foundations

/-!
# Texts and byte strings

Texts are lists of characters and byte strings lists of bytes.  Splitting at
a character is the library's `List.splitOn`; this module adds the few
operations on texts which the modelled code uses besides it, under the names
they have there.
-/

abbrev Text := List Char

abbrev Bytes := List UInt8

instance : LawfulBEq Text := List.instLawfulBEq

namespace Text

/-- Replace one character by another throughout. -/
def replaceChar (old new : Char) (text : Text) : Text :=
  text.map (fun character => if character = old then new else character)

theorem not_mem_replaceChar {old new : Char} (different : new ≠ old) (text : Text) :
    old ∉ replaceChar old new text := by
  intro member
  rcases List.mem_map.mp member with ⟨character, _, replaced⟩
  split at replaced
  · exact different replaced
  · next kept => exact kept replaced

theorem replaceChar_of_not_mem {old new : Char} {text : Text} (absent : old ∉ text) :
    replaceChar old new text = text := by
  rw [replaceChar]
  conv => rhs; rw [← List.map_id text]
  apply List.map_congr_left
  intro character member
  rw [if_neg]
  · rfl
  · intro same
    exact absent (same ▸ member)

/-- Drop the longest initial part made of the given characters. -/
def trimStartMatches (characters : List Char) (text : Text) : Text :=
  text.dropWhile (fun character => characters.contains character)

theorem mem_trimStartMatches {characters : List Char} {text : Text} {character : Char}
    (kept : character ∉ characters) :
    character ∈ trimStartMatches characters text <-> character ∈ text := by
  rw [trimStartMatches]
  induction text with
  | nil => rfl
  | cons head tail ih =>
      by_cases dropped : characters.contains head = true
      · have different : character ≠ head := fun same =>
          kept (same ▸ List.contains_iff_mem.mp dropped)
        rw [List.dropWhile_cons_of_pos dropped, ih, List.mem_cons, or_iff_right different]
      · rw [List.dropWhile_cons_of_neg dropped]

theorem mem_replaceChar {old new character : Char} (text : Text) (notOld : character ≠ old)
    (notNew : character ≠ new) : character ∈ replaceChar old new text <-> character ∈ text := by
  rw [replaceChar]
  rw [List.mem_map]
  constructor
  · rintro ⟨origin, member, replaced⟩
    split at replaced
    · exact absurd replaced.symm notNew
    · exact replaced ▸ member
  · intro member
    exact ⟨character, member, if_neg notOld⟩

/-- What follows a given beginning of a text. -/
def stripPrefix (front text : Text) : Option Text :=
  if front.isPrefixOf text then some (text.drop front.length) else none

/-- A text without the ending it has. -/
def stripSuffix (ending text : Text) : Option Text :=
  if ending.isSuffixOf text then some (text.take (text.length - ending.length)) else none

theorem stripSuffix_eq_some {ending text stem : Text} :
    stripSuffix ending text = some stem <-> text = stem ++ ending := by
  rw [stripSuffix]
  split
  · next ends =>
      rcases List.isSuffixOf_iff_suffix.mp ends with ⟨front, same⟩
      rw [← same, List.length_append, Nat.add_sub_cancel, List.take_left, Option.some_inj]
      exact (List.append_left_inj ending).symm
  · next other =>
      constructor
      · exact nofun
      · intro same
        exact absurd (List.isSuffixOf_iff_suffix.mpr ⟨stem, same.symm⟩) other

/-- The characters with the white-space property. -/
def isWhitespace (character : Char) : Bool :=
  let code := character.toNat
  (0x9 <= code && code <= 0xd) || code == 0x20 || code == 0x85 || code == 0xa0 ||
    code == 0x1680 || (0x2000 <= code && code <= 0x200a) || code == 0x2028 ||
    code == 0x2029 || code == 0x202f || code == 0x205f || code == 0x3000

/-- Drop white space at both ends. -/
def trim (text : Text) : Text :=
  ((text.dropWhile isWhitespace).reverse.dropWhile isWhitespace).reverse

theorem trim_trim (text : Text) : trim (trim text) = trim text := by
  have prefixed : trim text <+: text.dropWhile isWhitespace := List.rdropWhile_prefix isWhitespace _
  have front : (trim text).dropWhile isWhitespace = trim text := by
    cases trimmed : trim text with
    | nil => rfl
    | cons head rest =>
        rw [trimmed] at prefixed
        rcases prefixed with ⟨tail, whole⟩
        apply List.dropWhile_cons_of_neg
        intro white
        have again := List.dropWhile_idempotent isWhitespace text
        rw [<- whole] at again
        rw [List.cons_append, List.dropWhile_cons_of_pos white] at again
        have lengths := congrArg List.length again
        have shorter := (List.dropWhile_suffix isWhitespace (l := rest ++ tail)).length_le
        rw [List.length_cons] at lengths
        omega
  have back : List.rdropWhile isWhitespace (trim text) = trim text := List.rdropWhile_idempotent isWhitespace _
  calc trim (trim text) = List.rdropWhile isWhitespace ((trim text).dropWhile isWhitespace) := rfl
    _ = trim text := by rw [front, back]

/-- There is nothing to drop where a text begins and ends otherwise. -/
theorem trim_of_ends {text : Text} (front : forall character, text.head? = some character ->
      isWhitespace character = false)
    (back : forall character, text.getLast? = some character -> isWhitespace character = false) :
    trim text = text := by
  have drop {other : Text} (first : forall character, other.head? = some character ->
      isWhitespace character = false) : other.dropWhile isWhitespace = other := by
    cases other with
    | nil => rfl
    | cons head tail =>
        apply List.dropWhile_cons_of_neg
        rw [first head rfl]
        decide
  unfold trim
  rw [drop front, drop, List.reverse_reverse]
  intro character last
  rw [List.head?_reverse] at last
  exact back character last

/-- Split at the first occurrence of a character. -/
def splitOnce (separator : Char) : Text -> Option (Text × Text)
  | [] => none
  | head :: tail =>
      if head = separator then some ([], tail)
      else (splitOnce separator tail).map (fun parts => (head :: parts.1, parts.2))

theorem splitOnce_mem {separator character : Char} {text first second : Text}
    (parts : splitOnce separator text = some (first, second)) (inside : character ∈ second) :
    character ∈ text := by
  induction text generalizing first with
  | nil => cases parts
  | cons head tail ih =>
      rw [splitOnce] at parts
      split at parts
      · cases parts
        exact List.mem_cons_of_mem head inside
      · rcases Option.map_eq_some_iff.mp parts with ⟨⟨front, back⟩, found, same⟩
        cases same
        exact List.mem_cons_of_mem head (ih found)

theorem splitOnce_append {separator : Char} {front : Text} (absent : separator ∉ front)
    (tail : Text) : splitOnce separator (front ++ separator :: tail) = some (front, tail) := by
  induction front with
  | nil => simp only [List.nil_append, splitOnce, if_true]
  | cons head front ih =>
      have different : head ≠ separator := fun same => absent (same ▸ List.mem_cons_self)
      have later : separator ∉ front := fun member => absent (List.mem_cons_of_mem head member)
      simp only [List.cons_append, splitOnce, if_neg different, ih later, Option.map_some]

theorem splitOnce_eq_none {separator : Char} {text : Text} :
    splitOnce separator text = none <-> separator ∉ text := by
  induction text with
  | nil => simp [splitOnce]
  | cons head tail ih =>
      rw [splitOnce]
      split
      · next same => simp [same]
      · next different =>
          rw [Option.map_eq_none_iff, ih, List.mem_cons, not_or]
          exact (and_iff_right fun same => different same.symm).symm

theorem splitOnce_eq_some {separator : Char} {text front back : Text} :
    splitOnce separator text = some (front, back) <->
      separator ∉ front /\ text = front ++ separator :: back := by
  constructor
  · intro parts
    induction text generalizing front with
    | nil => cases parts
    | cons head tail ih =>
        rw [splitOnce] at parts
        split at parts
        · next same =>
            cases parts
            exact ⟨List.not_mem_nil, by rw [same]; rfl⟩
        · next different =>
            rcases Option.map_eq_some_iff.mp parts with ⟨⟨first, rest⟩, found, same⟩
            cases same
            rcases ih found with ⟨absent, whole⟩
            refine ⟨?_, by rw [whole]; rfl⟩
            rw [List.mem_cons, not_or]
            exact ⟨fun same => different same.symm, absent⟩
  · rintro ⟨absent, whole⟩
    rw [whole]
    exact splitOnce_append absent back

/-- Split at the last occurrence of a character. -/
def rsplitOnce (separator : Char) (text : Text) : Option (Text × Text) :=
  (splitOnce separator text.reverse).map (fun parts => (parts.2.reverse, parts.1.reverse))

theorem rsplitOnce_append {separator : Char} {tail : Text} (absent : separator ∉ tail)
    (front : Text) : rsplitOnce separator (front ++ separator :: tail) = some (front, tail) := by
  rw [rsplitOnce]
  have reversed : (front ++ separator :: tail).reverse = tail.reverse ++ separator :: front.reverse := by
    simp
  rw [reversed, splitOnce_append (by simpa using absent)]
  simp

theorem rsplitOnce_eq_none {separator : Char} {text : Text} :
    rsplitOnce separator text = none <-> separator ∉ text := by
  rw [rsplitOnce, Option.map_eq_none_iff, splitOnce_eq_none, List.mem_reverse]

theorem rsplitOnce_eq_some {separator : Char} {text front back : Text} :
    rsplitOnce separator text = some (front, back) <->
      separator ∉ back /\ text = front ++ separator :: back := by
  constructor
  · intro parts
    rcases Option.map_eq_some_iff.mp parts with ⟨⟨first, rest⟩, found, same⟩
    cases same
    rcases splitOnce_eq_some.mp found with ⟨absent, whole⟩
    refine ⟨by simpa using absent, ?_⟩
    rw [<- List.reverse_reverse text, whole]
    simp
  · rintro ⟨absent, whole⟩
    rw [whole]
    exact rsplitOnce_append absent front

/-- Replace the occurrences of a nonempty text from left to right; the counter
passes over the rest of the occurrence just replaced. -/
def replaceFrom (needle replacement : Text) : Nat -> Text -> Text
  | _, [] => []
  | passing + 1, _ :: tail => replaceFrom needle replacement passing tail
  | 0, head :: tail =>
      if needle.isPrefixOf (head :: tail) then
        replacement ++ replaceFrom needle replacement (needle.length - 1) tail
      else head :: replaceFrom needle replacement 0 tail

def replace (needle replacement text : Text) : Text :=
  replaceFrom needle replacement 0 text

/-- Two runs of texts with separators between them make one. -/
theorem intercalate_append (separator next : Text) (back front : List Text) : forall first : Text,
    separator.intercalate (first :: front ++ next :: back) =
      separator.intercalate (first :: front) ++ (separator ++ separator.intercalate (next :: back)) := by
  induction front with
  | nil =>
      intro first
      rw [List.singleton_append, List.intercalate_cons_cons, List.intercalate_singleton, List.append_assoc]
  | cons second rest induction =>
      intro first
      have later := induction second
      rw [List.cons_append] at later
      rw [List.cons_append, List.cons_append, List.intercalate_cons_cons, later, List.intercalate_cons_cons]
      simp only [List.append_assoc]

/-- Drop a carriage return at the end. -/
def dropReturn (line : Text) : Text :=
  if line.getLast? = some '\r' then line.dropLast else line

/-- The lines of a text; nothing after the last line feed is no line. -/
def lines (text : Text) : List Text :=
  let parts := text.splitOn '\n'
  let last := parts.getLast?.getD []
  parts.dropLast.map dropReturn ++ (if last.isEmpty then [] else [last])

/-- A line ends at the first line feed. -/
theorem lines_cons {line : Text} (plain : '\n' ∉ line) (rest : Text) :
    lines (line ++ '\n' :: rest) = dropReturn line :: lines rest := by
  have parts : (line ++ '\n' :: rest).splitOn '\n' = line :: rest.splitOn '\n' := by
    rw [List.splitOn_append_cons_self, List.splitOn_eq_singleton plain]
    rfl
  rw [lines, lines, parts]
  cases behind : rest.splitOn '\n' with
  | nil => exact absurd behind (List.splitOn_ne_nil '\n' rest)
  | cons next others =>
      simp only [List.dropLast_cons_cons, List.map_cons, List.getLast?_cons_cons, List.cons_append]

theorem mem_of_mem_dropReturn {line : Text} {character : Char} (inside : character ∈ dropReturn line) :
    character ∈ line := by
  rw [dropReturn] at inside
  split at inside
  · exact List.dropLast_subset line inside
  · exact inside

example : lines "one\r\n\ntwo\r".toList = ["one".toList, [], "two\r".toList] := by decide

/-- The value of a hexadecimal digit. -/
def hexDigit (character : Char) : Option Nat :=
  if '0' <= character /\ character <= '9' then some (character.toNat - '0'.toNat)
  else if 'a' <= character /\ character <= 'f' then some (character.toNat - 'a'.toNat + 10)
  else if 'A' <= character /\ character <= 'F' then some (character.toNat - 'A'.toNat + 10)
  else none

/-- The bytes that a text of hexadecimal digits stands for, two digits each. -/
def hexDecode : Text -> Option Bytes
  | [] => some []
  | [_] => none
  | high :: low :: rest => do
      let first ← hexDigit high
      let second ← hexDigit low
      let bytes ← hexDecode rest
      return UInt8.ofNat (first * 16 + second) :: bytes

end Text

end Foundations
end Agapornis
