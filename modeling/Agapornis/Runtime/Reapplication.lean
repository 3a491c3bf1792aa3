import Agapornis.Foundations.PrefixRules
import Agapornis.Foundations.TextLines
import Agapornis.Runtime.LineOrigins

namespace Agapornis
namespace Runtime

open Foundations Agapornis.Core

/-!
# Editing a file again

The parser for plain files is run over its own output at every start.  Each
line goes through the entries by itself, so that the output stays as it is when
each of its lines does and nothing is added to them.
-/

/-- The entries with the texts of their replacements. -/
def fileRules (texts : ValueTexts) (find : List (Text × Value)) : List (Rule Char) :=
  find.map fun entry => ⟨entry.1, scalarText texts entry.2⟩

theorem foldl_fileEdit (texts : ValueTexts) (find : List (Text × Value)) (lines : List Text) :
    find.foldl (fileEdit texts) lines = Rule.left (fileRules texts find) lines := by
  rw [← foldl_edit, fileRules, List.foldl_map]
  rfl

section Plain

variable {texts : ValueTexts} {find : List (Text × Value)}
  (single : forall entry, entry ∈ find -> '\n' ∉ scalarText texts entry.2)

include single

theorem plain_left {lines : List Text} (plain : forall line, line ∈ lines -> '\n' ∉ line) :
    forall line, line ∈ Rule.left (fileRules texts find) lines -> '\n' ∉ line := by
  intro line member
  rcases mem_left member with old | ⟨rule, inside, same⟩
  · exact plain line old
  · rcases List.mem_map.mp inside with ⟨entry, isEntry, isRule⟩
    rw [same, ← isRule]
    exact single entry isEntry

end Plain

/-! ## What is seen of lines that are put together -/

/-- The text of some lines. -/
def finishedText (lines : List Text) (ended : Bool) : Text :=
  let output := ['\n'].intercalate lines
  if ended && !(['\n'].isSuffixOf output) then output ++ ['\n'] else output

/-- A blank line at the end is seen only when it is alone and ended. -/
def visible (lines : List Text) (ended : Bool) : List (Text × Bool) :=
  if lines.getLast? = some [] /\ Not (lines.length = 1 /\ ended = true) then
    lines.dropLast.map (fun line => (line, true))
  else if ended then lines.map (fun line => (line, true))
  else lines.dropLast.map (fun line => (line, true)) ++ (lines.getLast?.map fun line => (line, false)).toList

theorem intercalate_concat {front : List Text} (more : Not (front = [])) (last : Text) :
    ['\n'].intercalate (front ++ [last]) = ['\n'].intercalate front ++ '\n' :: last := by
  rcases List.exists_cons_of_ne_nil more with ⟨first, rest, shape⟩
  rw [shape, Text.intercalate_append, List.intercalate_singleton, List.singleton_append]

/-- Lines that do not end in a blank one do not end in a line feed. -/
theorem not_endsInFeed {front : List Text} {last : Text} (plain : '\n' ∉ last) (filled : Not (last = [])) :
    ['\n'].isSuffixOf (['\n'].intercalate (front ++ [last])) = false := by
  rw [Text.isSuffixOf_singleton]
  apply decide_eq_false
  intro ends
  rcases List.eq_nil_or_concat last with empty | ⟨others, final, shape⟩
  · exact filled empty
  · rw [List.concat_eq_append] at shape
    have isFinal : (['\n'].intercalate (front ++ [last])).getLast? = some final := by
      by_cases alone : front = []
      · rw [alone, List.nil_append, List.intercalate_singleton, shape, List.getLast?_concat]
      · rw [intercalate_concat alone, shape, ← List.cons_append, ← List.append_assoc, List.getLast?_concat]
    rw [isFinal] at ends
    rw [shape, Option.some.inj ends] at plain
    exact plain (List.mem_append_right _ (List.mem_singleton_self _))

theorem rawLines_finishedText {lines : List Text} {ended : Bool} (plain : forall line, line ∈ lines -> '\n' ∉ line)
    (filled : ended = true -> Not (lines = [])) : Text.rawLines (finishedText lines ended) = visible lines ended := by
  rcases List.eq_nil_or_concat lines with empty | ⟨front, last, shape⟩
  · cases closed : ended with
    | true => exact absurd empty (filled closed)
    | false =>
        rw [empty]
        rfl
  · rw [List.concat_eq_append] at shape
    subst shape
    have frontPlain (line : Text) (member : line ∈ front) := plain line (List.mem_append_left _ member)
    have lastPlain := plain last (List.mem_append_right _ (List.mem_singleton_self last))
    rw [visible, List.getLast?_concat, List.dropLast_concat, List.length_append, List.length_singleton]
    by_cases blank : last = []
    · subst blank
      by_cases alone : front = []
      · subst alone
        cases ended <;> decide
      · have several : Not (front.length + 1 = 1 /\ ended = true) := by
          rintro ⟨one, _⟩
          exact alone (List.eq_nil_of_length_eq_zero (by omega))
        have ends : ['\n'].isSuffixOf (['\n'].intercalate (front ++ [[]])) = true := by
          rw [intercalate_concat alone, List.isSuffixOf_iff_suffix]
          exact ⟨_, rfl⟩
        rw [if_pos ⟨rfl, several⟩, finishedText, ends, Bool.not_true, Bool.and_false, if_neg Bool.false_ne_true,
          Text.rawLines_intercalate frontPlain]
        exact List.append_nil _
    · have seen : Not (some last = some [] /\ Not (front.length + 1 = 1 /\ ended = true)) :=
        fun both => blank (Option.some.inj both.1)
      rw [if_neg seen, finishedText, not_endsInFeed lastPlain blank, Bool.not_false, Bool.and_true]
      cases ended with
      | true =>
          have behind := Text.rawLines_intercalate plain []
          rw [intercalate_concat (List.append_ne_nil_of_right_ne_nil _ (List.cons_ne_nil _ _))] at behind
          rw [if_pos rfl, if_pos rfl, behind]
          exact List.append_nil _
      | false =>
          rw [if_neg Bool.false_ne_true, if_neg Bool.false_ne_true, Text.rawLines_intercalate frontPlain,
            Text.rawLines_plain lastPlain, if_neg fun empty => blank (List.isEmpty_iff.mp empty)]
          rfl

/-- Two blank lines at the end, or one behind a line, of which the last is not seen again. -/
def BlankBehind (lines : List (Text × Bool)) : Prop :=
  1 < lines.length /\ lines.getLast?.map Prod.fst = some []

theorem visible_texts (lines : List Text) (ended : Bool) :
    (visible lines ended).map Prod.fst =
      if lines.getLast? = some [] /\ Not (lines.length = 1 /\ ended = true) then lines.dropLast else lines := by
  have ownTexts (some : List Text) : (some.map fun line => (line, true)).map Prod.fst = some := by
    rw [List.map_map]
    exact List.map_id _
  rw [visible]
  split
  · exact ownTexts _
  · split
    · exact ownTexts _
    · rw [List.map_append, ownTexts]
      rcases List.eq_nil_or_concat lines with empty | ⟨front, last, shape⟩
      · rw [empty]
        rfl
      · rw [shape, List.concat_eq_append, List.getLast?_concat, List.dropLast_concat]
        rfl

/-- Only the last of some lines can be without a line feed, and is not blank then. -/
def Rows (lines : List (Text × Bool)) : Prop :=
  forall front last, lines = front ++ [last] ->
    (forall line, line ∈ front -> line.2 = true) /\ (last.1 = [] -> last.2 = true)

section Rows

variable {lines : List (Text × Bool)}

theorem pair_ended (ended : forall line, line ∈ lines -> line.2 = true) :
    (lines.map Prod.fst).map (fun line => (line, true)) = lines := by
  rw [List.map_map]
  conv_rhs => rw [← List.map_id lines]
  apply List.map_congr_left
  intro line member
  exact Prod.ext rfl (ended line member).symm

theorem ended_of_pair (same : (lines.map Prod.fst).map (fun line => (line, true)) = lines) :
    forall line, line ∈ lines -> line.2 = true := by
  intro line member
  rw [← same] at member
  rcases List.mem_map.mp member with ⟨text, _, rfl⟩
  rfl

/-- The texts of the lines are seen as the lines, unless there is a blank one behind another. -/
theorem visible_rows (rows : Rows lines) (seen : Not (BlankBehind lines)) :
    visible (lines.map Prod.fst) (lines.getLast?.any Prod.snd) = lines := by
  rcases List.eq_nil_or_concat lines with empty | ⟨front, last, shape⟩
  · rw [empty]
    rfl
  · rw [List.concat_eq_append] at shape
    rcases rows front last shape with ⟨frontEnded, blankEnded⟩
    subst shape
    rw [List.getLast?_concat, Option.any_some, List.map_append, List.map_singleton, visible, List.getLast?_concat,
      List.dropLast_concat, List.length_append, List.length_map, List.length_singleton, pair_ended frontEnded]
    have notDropped : Not (some last.1 = some [] /\ Not (front.length + 1 = 1 /\ last.2 = true)) := by
      rintro ⟨blank, several⟩
      have isBlank := Option.some.inj blank
      apply seen
      refine ⟨?_, by rw [List.getLast?_concat, Option.map_some, isBlank]⟩
      rw [List.length_append, List.length_singleton]
      have more : Not (front.length + 1 = 1) := fun one => several ⟨one, blankEnded isBlank⟩
      omega
    rw [if_neg notDropped]
    cases isEnded : last.2 with
    | true =>
        rw [if_pos rfl, List.map_append, pair_ended frontEnded, List.map_singleton, ← isEnded]
    | false =>
        rw [if_neg Bool.false_ne_true, Option.map_some, ← isEnded]
        rfl

/-- A blank line behind them is not seen. -/
theorem visible_rows_blank (rows : Rows lines) (ended : lines.getLast?.any Prod.snd = true \/ lines = []) :
    visible (lines.map Prod.fst ++ [[]]) (lines.getLast?.any Prod.snd) = lines := by
  have notAlone : Not ((lines.map Prod.fst ++ [[]]).length = 1 /\ lines.getLast?.any Prod.snd = true) := by
    rintro ⟨one, last⟩
    rw [List.length_append, List.length_map, List.length_singleton] at one
    rw [List.eq_nil_of_length_eq_zero (by omega : lines.length = 0)] at last
    cases last
  rw [visible, List.getLast?_concat, if_pos ⟨rfl, notAlone⟩, List.dropLast_concat]
  apply pair_ended
  rcases List.eq_nil_or_concat lines with empty | ⟨front, last, shape⟩
  · rw [empty]
    exact nofun
  · rw [List.concat_eq_append] at shape
    subst shape
    rcases ended with isEnded | empty
    · rw [List.getLast?_concat, Option.any_some] at isEnded
      intro line member
      rcases List.mem_append.mp member with early | isLast
      · exact (rows front last rfl).1 line early
      · rw [List.mem_singleton.mp isLast]
        exact isEnded
    · exact absurd empty (List.append_ne_nil_of_right_ne_nil _ (List.cons_ne_nil _ _))

/-- Lines that are changed one by one, with some more, are seen as they were when
none is changed and no line or only a blank one is added. -/
theorem visible_eq_iff (rows : Rows lines) (change : Text × Bool -> Text) (more : List Text) :
    visible (lines.map change ++ more) (lines.getLast?.any Prod.snd) = lines <->
      (forall line, line ∈ lines -> change line = line.1) /\
        ((more = [] /\ Not (BlankBehind lines)) \/
          (more = [[]] /\ (lines.getLast?.any Prod.snd = true \/ lines = []))) := by
  constructor
  · intro same
    have texts := congrArg (List.map Prod.fst) same
    rw [visible_texts] at texts
    split at texts
    · next dropped =>
        rcases List.eq_nil_or_concat more with nothing | ⟨others, last, shape⟩
        · subst nothing
          rw [List.append_nil] at texts dropped
          have lengths := congrArg List.length texts
          rw [List.length_dropLast, List.length_map, List.length_map] at lengths
          have empty : lines = [] := List.eq_nil_of_length_eq_zero (by omega)
          rw [empty] at dropped
          cases dropped.1
        · rw [List.concat_eq_append] at shape
          subst shape
          rw [← List.append_assoc] at same texts dropped
          rw [List.dropLast_concat] at texts
          have blank := dropped.1
          rw [List.getLast?_concat] at blank
          have lengths := congrArg List.length texts
          rw [List.length_append, List.length_map, List.length_map] at lengths
          have nothing : others = [] := List.eq_nil_of_length_eq_zero (by omega)
          subst nothing
          rw [visible, if_pos dropped, List.dropLast_concat, texts] at same
          rw [List.append_nil] at texts
          refine ⟨List.map_inj_left.mp texts, Or.inr ⟨by rw [Option.some.inj blank]; rfl, ?_⟩⟩
          rcases List.eq_nil_or_concat lines with empty | ⟨front, final, shape⟩
          · exact Or.inr empty
          · left
            rw [shape, List.concat_eq_append, List.getLast?_concat]
            apply ended_of_pair same
            rw [shape, List.concat_eq_append]
            exact List.mem_append_right _ (List.mem_singleton_self final)
    · next whole =>
        have lengths := congrArg List.length texts
        rw [List.length_append, List.length_map, List.length_map] at lengths
        have nothing : more = [] := List.eq_nil_of_length_eq_zero (by omega)
        subst nothing
        rw [List.append_nil] at texts whole
        refine ⟨List.map_inj_left.mp texts, Or.inl ⟨rfl, ?_⟩⟩
        rintro ⟨several, blank⟩
        apply whole
        rw [texts, List.getLast?_map, List.length_map]
        exact ⟨blank, fun one => by omega⟩
  · rintro ⟨unchanged, added⟩
    rw [List.map_inj_left.mpr unchanged]
    rcases added with ⟨nothing, seen⟩ | ⟨blank, ended⟩
    · rw [nothing, List.append_nil]
      exact visible_rows rows seen
    · rw [blank]
      exact visible_rows_blank rows ended

end Rows

/-! ## The parser over its own output -/

/-- What the rules must do to the lines that are seen of an output. -/
def LinesSettled (rules : List (Rule Char)) (lines : List (Text × Bool)) : Prop :=
  (forall line, line ∈ lines -> Rule.settle rules (Text.readBack line) = line.1) /\
    ((Rule.added rules (lines.map Text.readBack) = [] /\ Not (BlankBehind lines)) \/
      (Rule.added rules (lines.map Text.readBack) = [[]] /\ (lines.getLast?.any Prod.snd = true \/ lines = [])))

section Output

variable {texts : ValueTexts} {find : List (Text × Value)}

theorem applyFileParser_eq (bytes : Bytes) : applyFileParser texts bytes find =
    encodeUtf8 (finishedText (Rule.left (fileRules texts find) (linesOf bytes).1) (linesOf bytes).2) := by
  rw [applyFileParser, foldl_fileEdit]
  rfl

theorem linesOf_encodeUtf8 (text : Text) : linesOf (encodeUtf8 text) =
    ((Text.rawLines text).map Text.readBack, (Text.rawLines text).getLast?.any Prod.snd) := by
  rw [← Text.readLines_eq, ← Text.endsLine_eq, linesOf, fromUtf8Lossy_encodeUtf8]
  rfl

theorem plain_linesOf (bytes : Bytes) : forall line, line ∈ (linesOf bytes).1 -> '\n' ∉ line := by
  have read : (linesOf bytes).1 = (byteLines bytes).map lineText := readLines_fromUtf8Lossy bytes
  rw [read]
  intro line member
  rcases List.mem_map.mp member with ⟨own, inside, same⟩
  rw [← same]
  exact plain_lineText (plain_of_mem_byteLines bytes own inside)

theorem filled_linesOf (bytes : Bytes) (ended : (linesOf bytes).2 = true) : Not ((linesOf bytes).1 = []) := by
  have read : (linesOf bytes).1 = (byteLines bytes).map lineText := readLines_fromUtf8Lossy bytes
  have ends : (linesOf bytes).2 = (byteLines bytes).getLast?.any Prod.snd := endsLine_fromUtf8Lossy bytes
  rw [read]
  intro empty
  rw [ends, List.map_eq_nil_iff.mp empty] at ended
  cases ended

theorem filled_left {rules : List (Rule Char)} {lines : List Text} (filled : Not (lines = [])) :
    Not (Rule.left rules lines = []) := by
  intro empty
  exact filled (List.map_eq_nil_iff.mp (List.append_eq_nil_iff.mp empty).1)

/-- The parser leaves its own output as it is exactly when the rules do so with
each line that is seen of it, and nothing that can be seen is added. -/
theorem applyFileParser_again_iff (bytes : Bytes)
    (single : forall entry, entry ∈ find -> '\n' ∉ scalarText texts entry.2) :
    applyFileParser texts (applyFileParser texts bytes find) find = applyFileParser texts bytes find <->
      LinesSettled (fileRules texts find)
        (visible (Rule.left (fileRules texts find) (linesOf bytes).1) (linesOf bytes).2) := by
  have plain := plain_left single (plain_linesOf bytes)
  have first := rawLines_finishedText plain fun ended => filled_left (filled_linesOf bytes ended)
  rw [applyFileParser_eq bytes]
  generalize text_eq :
    finishedText (Rule.left (fileRules texts find) (linesOf bytes).1) (linesOf bytes).2 = text at first ⊢
  have rows : Rows (Text.rawLines text) := fun front last => Text.rawLines_ended
  have readPlain : forall line, line ∈ (linesOf (encodeUtf8 text)).1 -> '\n' ∉ line := plain_linesOf _
  have second := rawLines_finishedText (plain_left single readPlain)
    fun ended => filled_left (filled_linesOf (encodeUtf8 text) ended)
  rw [applyFileParser_eq, ← first]
  have encoded (other : Text) : encodeUtf8 other = encodeUtf8 text <-> Text.rawLines other = Text.rawLines text := by
    rw [Text.rawLines_inj]
    exact ⟨encodeUtf8_injective, congrArg encodeUtf8⟩
  rw [encoded, second, linesOf_encodeUtf8, Rule.left, List.map_map]
  exact visible_eq_iff rows (Rule.settle (fileRules texts find) ∘ Text.readBack) _

end Output

end Runtime
end Agapornis
