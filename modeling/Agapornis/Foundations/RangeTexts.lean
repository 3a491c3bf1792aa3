import Mathlib.Data.List.Forall2
import Agapornis.Foundations.CanonicalNumerals
import Agapornis.Foundations.PathText

namespace Agapornis
namespace Foundations

/-!
# Ranges of numbers as texts

A text that lists numbers and ranges of numbers, with commas between them and
a dash within a range.  How a number is written is left open: with blanks
around it, or as some reader takes it once all blanks are gone.  The two agree
where no number has a blank in it or a sign in front.
-/

namespace RangeTexts

open Text

/-- The numbers of a range, from the first to the last. -/
def InRange (range : Nat × Nat) (number : Nat) : Prop :=
  range.1 <= number /\ number <= range.2

section Grammar

variable (Number : Text -> Nat -> Prop)

/-- A number by itself, or a first and a last one. -/
inductive Segment : Text -> Nat × Nat -> Prop
  | single {text : Text} {number : Nat} (read : Number text number) : Segment text (number, number)
  | range {first last : Text} {start stop : Nat} (readFirst : Number first start) (readLast : Number last stop) :
      Segment (first ++ '-' :: last) (start, stop)

/-- The ranges that a text lists, all below a bound and without a common number. -/
structure RangeListing (bound : Nat) (text : Text) (ranges : List (Nat × Nat)) : Prop where
  segments : List.Forall₂ (Segment Number) (text.splitOn ',') ranges
  ordered : forall range, range ∈ ranges -> range.1 <= range.2 /\ range.2 < bound
  apart : ranges.Pairwise (fun first second => forall number, Not (InRange first number /\ InRange second number))

end Grammar

/-- A number with blanks around it at most. -/
def Numeral (text : Text) (number : Nat) : Prop :=
  digitsValue (trim text) = some number

/-- A number as it is read up to a limit, where it may have a plus sign. -/
def Readable (limit : Nat) (text : Text) (number : Nat) : Prop :=
  parseUnsigned limit text = some number

def nonblank (character : Char) : Bool :=
  !isWhitespace character

/-- The numbers that a text of ranges names. -/
def Names (text : Text) (number : Nat) : Prop :=
  Exists fun segment => segment ∈ text.splitOn ',' /\ Exists fun range =>
    Segment Numeral segment range /\ InRange range number

/-- Whatever stands between commas and dashes has no blank and no plus sign
but for the blanks around it. -/
def Tidy (text : Text) : Prop :=
  forall segment, segment ∈ text.splitOn ',' -> forall token, token ∈ segment.splitOn '-' ->
    forall character, character ∈ trim token -> nonblank character = true /\ Not (character = '+')

theorem nonblank_of_isDigit {character : Char} (digit : character.isDigit = true) : nonblank character = true := by
  have low : 48 <= character.toNat /\ character.toNat <= 57 := by
    simpa [Char.isDigit, UInt32.le_iff_toNat_le] using digit
  unfold nonblank isWhitespace
  simp only [Bool.not_eq_true', Bool.or_eq_false_iff, Bool.and_eq_false_iff, decide_eq_false_iff_not,
    beq_eq_false_iff_ne]
  omega

/-- Without a plus sign the digits are all there is to read. -/
theorem parseUnsigned_unsigned {limit : Nat} {text : Text} (unsigned : '+' ∉ text) :
    parseUnsigned limit text = (digitsValue text).filter (fun value => value ≤ limit) := by
  unfold parseUnsigned
  split
  · exact absurd List.mem_cons_self unsigned
  · rfl

theorem not_digit_plus : Char.isDigit '+' = false := rfl

/-- Trimming takes blanks alone. -/
theorem filter_trim (text : Text) : (trim text).filter nonblank = text.filter nonblank := by
  have dropped (other : Text) : (other.dropWhile isWhitespace).filter nonblank = other.filter nonblank := by
    induction other with
    | nil => rfl
    | cons head tail induction =>
        rw [List.dropWhile_cons]
        split
        · next blank =>
            rw [induction, List.filter_cons_of_neg]
            rw [nonblank, blank]
            decide
        · rfl
  rw [trim, List.filter_reverse, dropped, ← List.filter_reverse, List.reverse_reverse, dropped]

/-- A separator that is kept separates what is kept. -/
theorem splitOn_filter {separator : Char} {keep : Char -> Bool} (kept : keep separator = true) (text : Text) :
    (text.filter keep).splitOn separator = (text.splitOn separator).map (List.filter keep) := by
  induction text with
  | nil => rfl
  | cons head tail induction =>
      by_cases same : head = separator
      · rw [same, List.filter_cons_of_pos kept, List.splitOn_cons_eq_if_modifyHead, List.splitOn_cons_eq_if_modifyHead,
          if_pos (beq_self_eq_true separator), if_pos (beq_self_eq_true separator), induction, List.map_cons,
          List.filter_nil]
      · have other : Not ((head == separator) = true) := fun equal => same (eq_of_beq equal)
        cases pieces : tail.splitOn separator with
        | nil => exact absurd pieces (List.splitOn_ne_nil separator tail)
        | cons first rest =>
            rw [pieces, List.map_cons] at induction
            rw [List.splitOn_cons_eq_if_modifyHead, if_neg other, pieces, List.modifyHead_cons, List.map_cons]
            by_cases keeps : keep head = true
            · rw [List.filter_cons_of_pos keeps, List.filter_cons_of_pos keeps, List.splitOn_cons_eq_if_modifyHead,
                if_neg other, induction, List.modifyHead_cons]
            · rw [List.filter_cons_of_neg keeps, List.filter_cons_of_neg keeps, induction]

section Numbers

variable {limit number : Nat} {token : Text}

/-- A number with blanks around it is read as it is without them. -/
theorem readable_of_numeral (numeral : Numeral token number) (within : number <= limit) :
    Readable limit (token.filter nonblank) number := by
  have digits := (digitsValue_eq_some numeral).2.1
  have alone : (trim token).filter nonblank = trim token :=
    List.filter_eq_self.mpr (fun character member => nonblank_of_isDigit (digits character member))
  have unsigned : '+' ∉ trim token := by
    intro plus
    have digit := digits '+' plus
    rw [not_digit_plus] at digit
    cases digit
  rw [← filter_trim, alone, Readable, parseUnsigned_unsigned unsigned, show digitsValue (trim token) = some number
    from numeral, Option.filter_some, if_pos (decide_eq_true within)]

theorem tidy_of_numeral (numeral : Numeral token number) {character : Char} (member : character ∈ trim token) :
    nonblank character = true /\ Not (character = '+') := by
  have digit := (digitsValue_eq_some numeral).2.1 character member
  refine ⟨nonblank_of_isDigit digit, ?_⟩
  intro plus
  rw [plus, not_digit_plus] at digit
  cases digit

/-- Without a blank and without a sign there is only one way to read a number. -/
theorem numeral_of_readable (read : Readable limit (token.filter nonblank) number)
    (tidy : forall character, character ∈ trim token -> nonblank character = true /\ Not (character = '+')) :
    Numeral token number := by
  have alone : (trim token).filter nonblank = trim token :=
    List.filter_eq_self.mpr (fun character member => (tidy character member).1)
  have unsigned : '+' ∉ trim token := fun plus => (tidy '+' plus).2 rfl
  rw [← filter_trim, alone, Readable, parseUnsigned_unsigned unsigned] at read
  exact (Option.filter_eq_some_iff.mp read).1

theorem numeral_filter (numeral : Numeral token number) : Numeral (token.filter nonblank) number := by
  have alone : (trim token).filter nonblank = trim token := List.filter_eq_self.mpr
    (fun character member => nonblank_of_isDigit ((digitsValue_eq_some numeral).2.1 character member))
  rw [← filter_trim, alone, Numeral, trim_trim]
  exact numeral

/-- There is no dash in a number. -/
theorem no_dash_of_readable (read : Readable limit token number) : '-' ∉ token := by
  intro inside
  rcases (parseUnsigned_characters read).2 '-' inside with digit | plus
  · cases digit
  · cases plus

theorem no_dash_of_filter (none : '-' ∉ token.filter nonblank) : '-' ∉ token := by
  intro inside
  exact none (List.mem_filter.mpr ⟨inside, rfl⟩)

end Numbers

theorem splitOn_range {first last : Text} (noneFirst : '-' ∉ first) (noneLast : '-' ∉ last) :
    (first ++ '-' :: last).splitOn '-' = [first, last] := by
  rw [List.splitOn_append_cons_self, List.splitOn_eq_singleton noneFirst, List.splitOn_eq_singleton noneLast,
    List.singleton_append]

section Segments

variable {limit : Nat} {segment : Text} {range : Nat × Nat}

theorem readable_segment (written : Segment Numeral segment range) (first : range.1 <= limit)
    (last : range.2 <= limit) : Segment (Readable limit) (segment.filter nonblank) range := by
  cases written with
  | single numeral => exact Segment.single (readable_of_numeral numeral first)
  | range numeralFirst numeralLast =>
      rw [List.filter_append, List.filter_cons_of_pos (show nonblank '-' = true by rfl)]
      exact Segment.range (readable_of_numeral numeralFirst first) (readable_of_numeral numeralLast last)

theorem no_dash_of_numeral {token : Text} {number : Nat} (numeral : Numeral token number) : '-' ∉ token :=
  no_dash_of_filter (no_dash_of_readable (readable_of_numeral numeral (Nat.le_refl number)))

theorem tidy_segment (written : Segment Numeral segment range) {token : Text} (member : token ∈ segment.splitOn '-')
    {character : Char} (inside : character ∈ trim token) :
    nonblank character = true /\ Not (character = '+') := by
  cases written with
  | single numeral =>
      rw [List.splitOn_eq_singleton (no_dash_of_numeral numeral), List.mem_singleton] at member
      rw [member] at inside
      exact tidy_of_numeral numeral inside
  | range numeralFirst numeralLast =>
      rw [splitOn_range (no_dash_of_numeral numeralFirst) (no_dash_of_numeral numeralLast)] at member
      rcases List.mem_cons.mp member with isFirst | isLast
      · rw [isFirst] at inside
        exact tidy_of_numeral numeralFirst inside
      · rw [List.mem_singleton.mp isLast] at inside
        exact tidy_of_numeral numeralLast inside

theorem numeral_segment (read : Segment (Readable limit) (segment.filter nonblank) range)
    (tidy : forall token, token ∈ segment.splitOn '-' -> forall character, character ∈ trim token ->
      nonblank character = true /\ Not (character = '+')) : Segment Numeral segment range := by
  generalize stripped : segment.filter nonblank = other at read
  cases read with
  | single read =>
      rw [← stripped] at read
      have none := no_dash_of_filter (no_dash_of_readable read)
      rw [List.splitOn_eq_singleton none] at tidy
      exact Segment.single (numeral_of_readable read (tidy segment List.mem_cons_self))
  | @range first last start stop readFirst readLast =>
      rcases List.filter_eq_append_iff.mp stripped with ⟨front, behind, whole, frontIs, behindIs⟩
      rcases List.filter_eq_cons_iff.mp behindIs with ⟨blanks, back, behindWhole, allBlank, _, backIs⟩
      have blankFront : (front ++ blanks).filter nonblank = first := by
        rw [List.filter_append, frontIs, List.filter_eq_nil_iff.mpr allBlank, List.append_nil]
      have together : segment = (front ++ blanks) ++ '-' :: back := by
        rw [whole, behindWhole, List.append_assoc]
      rw [← blankFront] at readFirst
      rw [← backIs] at readLast
      have noneFirst := no_dash_of_filter (no_dash_of_readable readFirst)
      have noneLast := no_dash_of_filter (no_dash_of_readable readLast)
      rw [together] at tidy ⊢
      rw [splitOn_range noneFirst noneLast] at tidy
      exact Segment.range (numeral_of_readable readFirst (tidy _ List.mem_cons_self))
        (numeral_of_readable readLast (tidy _ (List.mem_cons_of_mem _ List.mem_cons_self)))

theorem segment_filter (written : Segment Numeral segment range) :
    Segment Numeral (segment.filter nonblank) range := by
  cases written with
  | single numeral => exact Segment.single (numeral_filter numeral)
  | range numeralFirst numeralLast =>
      rw [List.filter_append, List.filter_cons_of_pos (show nonblank '-' = true by rfl)]
      exact Segment.range (numeral_filter numeralFirst) (numeral_filter numeralLast)

theorem numeral_unique {token : Text} {first second : Nat} (one : Numeral token first)
    (other : Numeral token second) : first = second :=
  Option.some.inj (one.symm.trans other)

/-- A segment is written for one range. -/
theorem segment_unique {other : Nat × Nat} (written : Segment Numeral segment range)
    (again : Segment Numeral segment other) : range = other := by
  generalize same : segment = text at again
  cases written with
  | single numeral =>
      cases again with
      | single numeralAgain =>
          rw [same] at numeral
          rw [numeral_unique numeral numeralAgain]
      | range _ _ =>
          rw [same] at numeral
          exact absurd (List.mem_append_right _ List.mem_cons_self) (no_dash_of_numeral numeral)
  | range numeralFirst numeralLast =>
      cases again with
      | single numeralAgain =>
          rw [← same] at numeralAgain
          exact absurd (List.mem_append_right _ List.mem_cons_self) (no_dash_of_numeral numeralAgain)
      | range firstAgain lastAgain =>
          have parts := congrArg (List.splitOn '-') same
          rw [splitOn_range (no_dash_of_numeral numeralFirst) (no_dash_of_numeral numeralLast),
            splitOn_range (no_dash_of_numeral firstAgain) (no_dash_of_numeral lastAgain)] at parts
          rcases List.cons.inj parts with ⟨sameFirst, rest⟩
          rw [sameFirst] at numeralFirst
          rw [(List.cons.inj rest).1] at numeralLast
          rw [numeral_unique numeralFirst firstAgain, numeral_unique numeralLast lastAgain]

end Segments

section RangeListings

variable {bound limit : Nat} {text : Text} {ranges : List (Nat × Nat)}

/-- The members of a matched list, each with what it is matched with. -/
theorem exists_of_forall₂ {First Second : Type} {Related : First -> Second -> Prop} {firsts : List First}
    {seconds : List Second} (matched : List.Forall₂ Related firsts seconds) {first : First}
    (member : first ∈ firsts) : Exists fun second => second ∈ seconds /\ Related first second := by
  induction matched with
  | nil => cases member
  | cons related later induction =>
      rcases List.mem_cons.mp member with same | inRest
      · rw [same]
        exact ⟨_, List.mem_cons_self, related⟩
      · rcases induction inRest with ⟨second, inSeconds, relatedSecond⟩
        exact ⟨second, List.mem_cons_of_mem _ inSeconds, relatedSecond⟩

theorem RangeListing.tidy (listing : RangeListing Numeral bound text ranges) : Tidy text := by
  intro segment member token inSegment character inside
  rcases exists_of_forall₂ listing.segments member with ⟨range, _, written⟩
  exact tidy_segment written inSegment inside

/-- A list with blanks is read as it is without them. -/
theorem RangeListing.readable (fits : bound <= limit + 1) (listing : RangeListing Numeral bound text ranges) :
    RangeListing (Readable limit) bound (text.filter nonblank) ranges where
  segments := by
    rw [splitOn_filter (show nonblank ',' = true by rfl), List.forall₂_map_left_iff]
    have small : forall range, range ∈ ranges -> range.1 <= limit /\ range.2 <= limit := by
      intro range member
      have ordered := listing.ordered range member
      omega
    have segments := listing.segments
    generalize text.splitOn ',' = pieces at segments
    clear listing
    induction segments with
    | nil => exact List.Forall₂.nil
    | cons written later induction =>
        have here := small _ List.mem_cons_self
        exact List.Forall₂.cons (readable_segment written here.1 here.2)
          (induction (fun range member => small range (List.mem_cons_of_mem _ member)))
  ordered := listing.ordered
  apart := listing.apart

/-- A tidy list that is read without its blanks is one with them. -/
theorem RangeListing.numeral (tidy : Tidy text)
    (listing : RangeListing (Readable limit) bound (text.filter nonblank) ranges) :
    RangeListing Numeral bound text ranges where
  segments := by
    have segments := listing.segments
    rw [splitOn_filter (show nonblank ',' = true by rfl), List.forall₂_map_left_iff] at segments
    have both := (List.forall₂_and_left _ _).mpr ⟨tidy, segments⟩
    exact both.imp (fun segment range here => numeral_segment here.2 here.1)
  ordered := listing.ordered
  apart := listing.apart

/-- Without its blanks a text lists the same ranges. -/
theorem RangeListing.filter (listing : RangeListing Numeral bound text ranges) :
    RangeListing Numeral bound (text.filter nonblank) ranges where
  segments := by
    rw [splitOn_filter (show nonblank ',' = true by rfl), List.forall₂_map_left_iff]
    exact listing.segments.imp (fun segment range written => segment_filter written)
  ordered := listing.ordered
  apart := listing.apart

/-- A text names the numbers of the ranges that it lists. -/
theorem RangeListing.names_iff (listing : RangeListing Numeral bound text ranges) (number : Nat) :
    Names text number <-> Exists fun range => range ∈ ranges /\ InRange range number := by
  constructor
  · rintro ⟨segment, member, range, written, inside⟩
    rcases exists_of_forall₂ listing.segments member with ⟨other, inRanges, again⟩
    rw [segment_unique written again] at inside
    exact ⟨other, inRanges, inside⟩
  · rintro ⟨range, inRanges, inside⟩
    rcases exists_of_forall₂ listing.segments.flip inRanges with ⟨segment, member, written⟩
    exact ⟨segment, member, range, written, inside⟩

end RangeListings

end RangeTexts

end Foundations
end Agapornis
