import Agapornis.Runtime.Reapplication

namespace Agapornis
namespace Runtime

open Foundations Agapornis.Core

/-!
# Files that stay as they are when they are edited again

Whether the parser for plain files changes its own output is told by the file
and the entries of the map.  The replacements which no later needle begins are
what is read again, beside the lines that no needle begins.
-/

variable (rules : List (Rule Char)) (lines : List Text) (ended : Bool)

/-- Some of the lines and the added replacements come to a text. -/
def ComesFrom (origins : List (Text × List (Rule Char))) (text : Text) : Prop :=
  Exists fun start => start ∈ origins /\ Brought start.2 start.1 text

/-- The last line is not seen when it is blank, unless it is alone and ended. -/
def LastSeen (text : Text) : Prop :=
  ComesFrom (starts rules lines).getLast?.toList text /\
    Not (text = [] /\ Not ((starts rules lines).length = 1 /\ ended = true))

/-- How a text that is left is read again: in front of the last line it has a line feed behind it. -/
def ReadAgain (text again : Text) : Prop :=
  (ComesFrom (starts rules lines).dropLast text /\ again = Text.readBack (text, true)) \/
    (LastSeen rules lines ended text /\ again = Text.readBack (text, ended))

/-- A rule finds a replacement that is read again, or what an earlier rule has put. -/
def FoundAgain (turn : Turn Char) : Prop :=
  (Exists fun last => last ∈ Rule.turns rules /\ last.Final /\ Exists fun again =>
      ReadAgain rules lines ended last.replacement again /\ Rule.taker rules again = some turn) \/
    Exists fun other => other ∈ Rule.turns rules /\ other.next = some turn

/-- Two blank lines at the end, of which the last is not seen, and another in front of them. -/
def BlankEnd : Prop :=
  Exists fun front => Not (front = []) /\ Exists fun one => Exists fun last =>
    starts rules lines = front ++ [one] ++ [last] /\ Brought one.2 one.1 [] /\ Brought last.2 last.1 []

/-- A file which the parser leaves as it is from the second time on. -/
structure FileSettled : Prop where
  /-- A line that no needle begins has no carriage return which is lost. -/
  untouched : forall line, line ∈ lines -> Rule.taker rules line = none ->
    forall again, ReadAgain rules lines ended line again -> again = line
  /-- A replacement that no later needle begins is put back in its own place. -/
  returned : forall turn, turn ∈ Rule.turns rules -> turn.Final ->
    forall again, ReadAgain rules lines ended turn.replacement again -> Brought rules again turn.replacement
  /-- Every rule finds something again, but for one that adds a blank line which is not seen. -/
  found : ((forall turn, turn ∈ Rule.turns rules -> FoundAgain rules lines ended turn) /\ Not (BlankEnd rules lines)) \/
    Exists fun lost => lost ∈ Rule.turns rules /\
      (forall turn, turn ∈ Rule.turns rules -> (FoundAgain rules lines ended turn <-> Not (turn = lost))) /\
      Brought lost.later lost.replacement [] /\
      (ended = true \/ forall text, ComesFrom (starts rules lines).getLast?.toList text -> text = [])

/-! ## The lines that are seen -/

variable {rules lines ended}

theorem comesFrom_iff {origins : List (Text × List (Rule Char))} {text : Text} :
    ComesFrom origins text <-> text ∈ origins.map fun start => Rule.settle start.2 start.1 := by
  rw [List.mem_map]
  exact exists_congr fun start => and_congr_right fun _ => brought_iff

/-- A line that is seen stands in front of the last, or is the last. -/
theorem mem_visible {all : List Text} {line : Text × Bool} : line ∈ visible all ended <->
    (line.1 ∈ all.dropLast /\ line.2 = true) \/
      ((line.1 ∈ all.getLast?.toList /\ Not (line.1 = [] /\ Not (all.length = 1 /\ ended = true))) /\
        line.2 = ended) := by
  have mem_map_ended {texts : List Text} {flag : Bool} :
      line ∈ texts.map (fun text => (text, flag)) <-> line.1 ∈ texts /\ line.2 = flag := by
    rw [List.mem_map]
    constructor
    · rintro ⟨text, member, same⟩
      rw [← same]
      exact ⟨member, rfl⟩
    · rintro ⟨member, isFlag⟩
      exact ⟨line.1, member, Prod.ext rfl isFlag.symm⟩
  rcases List.eq_nil_or_concat all with empty | ⟨front, last, shape⟩
  · rw [empty]
    cases ended <;>
      exact iff_of_false List.not_mem_nil (by rintro (⟨impossible, _⟩ | ⟨⟨impossible, _⟩, _⟩) <;> cases impossible)
  · rw [List.concat_eq_append] at shape
    subst shape
    rw [visible, List.getLast?_concat, List.dropLast_concat, Option.toList_some, List.mem_singleton]
    split
    · next unseen =>
        rw [mem_map_ended]
        refine (or_iff_left ?_).symm
        rintro ⟨⟨isLast, seen⟩, _⟩
        exact seen ⟨isLast.trans (Option.some.inj unseen.1), unseen.2⟩
    · next seen =>
        have isSeen : line.1 = last -> Not (line.1 = [] /\ Not ((front ++ [last]).length = 1 /\ ended = true)) :=
          fun isLast unseen => seen ⟨congrArg Option.some (isLast.symm.trans unseen.1), unseen.2⟩
        rw [and_iff_left_of_imp isSeen]
        split
        · next isEnded =>
            rw [List.map_append, List.mem_append, mem_map_ended, mem_map_ended, List.mem_singleton, isEnded]
        · next unended =>
            rw [List.mem_append, mem_map_ended, Option.map_some, Option.toList_some, List.mem_singleton,
              Prod.ext_iff, Bool.eq_false_iff.mpr unended]

theorem mem_seen {line : Text × Bool} : line ∈ visible (Rule.left rules lines) ended <->
    (ComesFrom (starts rules lines).dropLast line.1 /\ line.2 = true) \/
      (LastSeen rules lines ended line.1 /\ line.2 = ended) := by
  have last : (((starts rules lines).getLast?.map fun start => Rule.settle start.2 start.1)).toList =
      (starts rules lines).getLast?.toList.map fun start => Rule.settle start.2 start.1 := by
    cases (starts rules lines).getLast? <;> rfl
  rw [mem_visible, LastSeen, comesFrom_iff, comesFrom_iff, left_eq, List.map_dropLast, List.getLast?_map,
    List.length_map, last]

theorem readAgain_iff {text again : Text} : ReadAgain rules lines ended text again <->
    Exists fun line => line ∈ visible (Rule.left rules lines) ended /\ line.1 = text /\ Text.readBack line = again := by
  constructor
  · rintro (⟨comes, same⟩ | ⟨seen, same⟩)
    · exact ⟨(text, true), mem_seen.mpr (Or.inl ⟨comes, rfl⟩), rfl, same.symm⟩
    · exact ⟨(text, ended), mem_seen.mpr (Or.inr ⟨seen, rfl⟩), rfl, same.symm⟩
  · rintro ⟨⟨own, isEnded⟩, member, rfl, rfl⟩
    rcases mem_seen.mp member with ⟨comes, flag⟩ | ⟨seen, flag⟩
    · exact Or.inl ⟨comes, congrArg (fun flag => Text.readBack (own, flag)) flag⟩
    · exact Or.inr ⟨seen, congrArg (fun flag => Text.readBack (own, flag)) flag⟩

/-- A line that is seen is one that no needle begins or the replacement of a last rule. -/
theorem origin_of_visible {line : Text × Bool} (member : line ∈ visible (Rule.left rules lines) ended) :
    (line.1 ∈ lines /\ Rule.taker rules line.1 = none) \/
      Exists fun last => last ∈ Rule.turns rules /\ last.Final /\ line.1 = last.replacement := by
  have isStart : Exists fun start => start ∈ starts rules lines /\ Rule.settle start.2 start.1 = line.1 := by
    rcases mem_seen.mp member with ⟨⟨start, inside, comes⟩, _⟩ | ⟨⟨⟨start, inside, comes⟩, _⟩, _⟩
    · exact ⟨start, List.dropLast_subset _ inside, brought_iff.mp comes⟩
    · exact ⟨start, List.mem_of_getLast? (Option.mem_toList.mp inside), brought_iff.mp comes⟩
  rcases isStart with ⟨start, inside, same⟩
  rw [← same]
  exact settle_start inside

theorem readBack_begins (line : Text × Bool) : Text.readBack line <+: line.1 := by
  have less (text : Text) : Text.dropReturn text <+: text := by
    rw [Text.dropReturn]
    split
    · exact List.dropLast_prefix text
    · exact List.prefix_refl text
  rw [Text.readBack]
  split
  · exact (less _).trans (less _)
  · exact List.prefix_refl _

theorem foundAgain_iff {turn : Turn Char} : FoundAgain rules lines ended turn <->
    Found rules ((visible (Rule.left rules lines) ended).map Text.readBack) turn := by
  refine or_congr_left ?_
  constructor
  · rintro ⟨last, _, _, again, read, takes⟩
    rcases readAgain_iff.mp read with ⟨line, member, _, same⟩
    exact ⟨again, List.mem_map.mpr ⟨line, member, same⟩, takes⟩
  · rintro ⟨again, member, takes⟩
    rcases List.mem_map.mp member with ⟨line, inside, same⟩
    rcases origin_of_visible inside with ⟨_, untaken⟩ | ⟨last, isTurn, final, isReplacement⟩
    · rw [← same, untaken_of_prefix_of (readBack_begins line) untaken] at takes
      cases takes
    · exact ⟨last, isTurn, final, again, readAgain_iff.mpr ⟨line, inside, isReplacement, same⟩, takes⟩

theorem blankEnd_iff : BlankEnd rules lines <-> BlankBehind (visible (Rule.left rules lines) ended) := by
  have texts := visible_texts (Rule.left rules lines) ended
  have count : (visible (Rule.left rules lines) ended).length =
      ((visible (Rule.left rules lines) ended).map Prod.fst).length := (List.length_map _).symm
  rw [BlankBehind, ← List.getLast?_map, count, texts, left_eq]
  constructor
  · rintro ⟨front, more, one, last, shape, oneBlank, lastBlank⟩
    rw [brought_iff] at oneBlank lastBlank
    have filled : 0 < front.length := List.length_pos_of_ne_nil more
    rw [shape, List.map_append, List.map_append, List.map_singleton, List.map_singleton, oneBlank, lastBlank,
      List.getLast?_concat, List.dropLast_concat, List.length_append, List.length_append, List.length_map,
      List.length_singleton]
    rw [if_pos ⟨rfl, fun both => by omega⟩, List.getLast?_concat, List.length_append, List.length_map,
      List.length_singleton]
    exact ⟨by omega, rfl⟩
  · rintro ⟨several, blank⟩
    split at several
    · next unseen =>
        rw [if_pos unseen] at blank
        rcases List.eq_nil_or_concat (starts rules lines) with empty | ⟨before, last, shape⟩
        · rw [empty] at unseen
          cases unseen.1
        · rw [List.concat_eq_append] at shape
          rw [shape, List.map_append, List.map_singleton, List.dropLast_concat] at several blank
          have lastBlank := unseen.1
          rw [shape, List.map_append, List.map_singleton, List.getLast?_concat] at lastBlank
          rcases List.eq_nil_or_concat before with empty | ⟨front, one, isBefore⟩
          · rw [empty] at several
            cases several
          · rw [List.concat_eq_append] at isBefore
            rw [isBefore, List.map_append, List.map_singleton] at several blank
            rw [List.getLast?_concat] at blank
            refine ⟨front, ?_, one, last, by rw [shape, isBefore], brought_iff.mpr (Option.some.inj blank),
              brought_iff.mpr (Option.some.inj lastBlank)⟩
            intro empty
            rw [empty] at several
            exact absurd several (Nat.lt_irrefl 1)
    · next seen =>
        rw [if_neg seen] at blank
        exact absurd ⟨blank, fun both => by omega⟩ seen

theorem lastEnded_iff :
    (ended = true \/ forall text, ComesFrom (starts rules lines).getLast?.toList text -> text = []) <->
    ((visible (Rule.left rules lines) ended).getLast?.any Prod.snd = true \/
      visible (Rule.left rules lines) ended = []) := by
  have ofAll (all : forall line, line ∈ visible (Rule.left rules lines) ended -> line.2 = true) :
      (visible (Rule.left rules lines) ended).getLast?.any Prod.snd = true \/
        visible (Rule.left rules lines) ended = [] := by
    rcases List.eq_nil_or_concat (visible (Rule.left rules lines) ended) with empty | ⟨front, last, shape⟩
    · exact Or.inr empty
    · rw [List.concat_eq_append] at shape
      rw [shape] at all ⊢
      rw [List.getLast?_concat]
      exact Or.inl (all last (List.mem_append_right _ (List.mem_singleton_self last)))
  constructor
  · intro ends
    apply ofAll
    intro line member
    rcases mem_seen.mp member with ⟨_, isEnded⟩ | ⟨⟨comes, seen⟩, isEnded⟩
    · exact isEnded
    · rcases ends with closed | blank
      · rw [isEnded, closed]
      · by_contra unended
        rw [isEnded] at unended
        exact seen ⟨blank _ comes, fun both => unended both.2⟩
  · intro last
    cases ended with
    | true => exact Or.inl rfl
    | false =>
        refine Or.inr fun text comes => ?_
        by_contra filled
        -- An unended last line that is not blank is the last that is seen.
        rcases comes with ⟨start, isLast, brought⟩
        rcases List.getLast?_eq_some_iff.mp (Option.mem_toList.mp isLast) with ⟨front, shape⟩
        have all : Rule.left rules lines = front.map (fun start => Rule.settle start.2 start.1) ++ [text] := by
          rw [left_eq, shape, List.map_append, List.map_singleton, brought_iff.mp brought]
        have seen : Not ((some text : Option Text) = some [] /\
            Not ((front.map (fun start => Rule.settle start.2 start.1) ++ [text]).length = 1 /\ false = true)) :=
          fun both => filled (Option.some.inj both.1)
        rw [all, visible, List.getLast?_concat, if_neg seen, if_neg Bool.false_ne_true, Option.map_some,
          Option.toList_some, List.getLast?_concat] at last
        rcases last with isEnded | empty
        · cases isEnded
        · exact List.append_ne_nil_of_right_ne_nil _ (List.cons_ne_nil _ _) empty

theorem fileSettled_iff : FileSettled rules lines ended <->
    LinesSettled rules (visible (Rule.left rules lines) ended) := by
  have found : (forall turn, turn ∈ Rule.turns rules -> FoundAgain rules lines ended turn) <->
      Rule.added rules ((visible (Rule.left rules lines) ended).map Text.readBack) = [] := by
    rw [added_eq_nil_iff]
    exact forall_congr' fun turn => imp_congr_right fun _ => foundAgain_iff
  have lost : (Exists fun lost => lost ∈ Rule.turns rules /\
      (forall turn, turn ∈ Rule.turns rules -> (FoundAgain rules lines ended turn <-> Not (turn = lost))) /\
      Brought lost.later lost.replacement []) <->
      Rule.added rules ((visible (Rule.left rules lines) ended).map Text.readBack) = [[]] := by
    rw [added_eq_singleton_iff]
    refine exists_congr fun lost => and_congr_right fun _ => and_congr_left fun _ => ?_
    exact forall_congr' fun turn => imp_congr_right fun _ => iff_congr foundAgain_iff Iff.rfl
  constructor
  · rintro ⟨untouched, returned, again⟩
    refine ⟨?_, ?_⟩
    · intro line member
      have read := readAgain_iff.mpr ⟨line, member, rfl, rfl⟩
      rcases origin_of_visible member with ⟨old, untaken⟩ | ⟨last, isTurn, final, isReplacement⟩
      · rw [untouched line.1 old untaken _ read]
        exact settle_of_no_taker untaken
      · rw [isReplacement] at read ⊢
        exact brought_iff.mp (returned last isTurn final _ read)
    · rcases again with ⟨all, noBlank⟩ | ⟨turn, isTurn, others, blank, ends⟩
      · exact Or.inl ⟨found.mp all, fun behind => noBlank (blankEnd_iff.mpr behind)⟩
      · exact Or.inr ⟨lost.mp ⟨turn, isTurn, others, blank⟩, lastEnded_iff.mp ends⟩
  · rintro ⟨settled, again⟩
    refine ⟨?_, ?_, ?_⟩
    · intro text _ untaken other read
      rcases readAgain_iff.mp read with ⟨line, member, rfl, rfl⟩
      rw [← settled line member]
      exact (settle_of_no_taker (untaken_of_prefix_of (readBack_begins line) untaken)).symm
    · intro turn _ _ other read
      rcases readAgain_iff.mp read with ⟨line, member, isReplacement, rfl⟩
      rw [← isReplacement]
      exact brought_iff.mpr (settled line member)
    · rcases again with ⟨nothing, noBlank⟩ | ⟨blank, ends⟩
      · exact Or.inl ⟨found.mpr nothing, fun behind => noBlank (blankEnd_iff.mp behind)⟩
      · rcases lost.mpr blank with ⟨turn, isTurn, others, brought⟩
        exact Or.inr ⟨turn, isTurn, others, brought, lastEnded_iff.mpr ends⟩

/-! ## What the map alone decides -/

/-- Entries that find their own replacements again and put them back. -/
structure MapSettled (rules : List (Rule Char)) : Prop where
  returned : forall turn, turn ∈ Rule.turns rules -> turn.Final ->
    Brought rules (Text.readBack (turn.replacement, true)) turn.replacement
  found : forall turn, turn ∈ Rule.turns rules ->
    (Exists fun last => last ∈ Rule.turns rules /\ last.Final /\
        Rule.taker rules (Text.readBack (last.replacement, true)) = some turn) \/
      Exists fun other => other ∈ Rule.turns rules /\ other.next = some turn

section Filled

variable (filled : [] ∉ Rule.left rules lines)

include filled

/-- Without blank lines and with a line feed at the end, a text that is left is read again in one way. -/
theorem readAgain_ended {text again : Text} : ReadAgain rules lines true text again <->
    text ∈ Rule.left rules lines /\ again = Text.readBack (text, true) := by
  have seen : Not ((Rule.left rules lines).getLast? = some [] /\
      Not ((Rule.left rules lines).length = 1 /\ true = true)) :=
    fun unseen => filled (List.mem_of_getLast? unseen.1)
  rw [readAgain_iff, visible, if_neg seen, if_pos rfl]
  constructor
  · rintro ⟨line, member, rfl, rfl⟩
    rcases List.mem_map.mp member with ⟨text, inside, rfl⟩
    exact ⟨inside, rfl⟩
  · rintro ⟨member, rfl⟩
    exact ⟨(text, true), List.mem_map.mpr ⟨text, member, rfl⟩, rfl, rfl⟩

theorem foundAgain_ended {turn : Turn Char} : FoundAgain rules lines true turn <->
    (Exists fun last => last ∈ Rule.turns rules /\ last.Final /\
        Rule.taker rules (Text.readBack (last.replacement, true)) = some turn) \/
      Exists fun other => other ∈ Rule.turns rules /\ other.next = some turn := by
  refine or_congr_left (exists_congr fun last => and_congr_right fun isTurn => and_congr_right fun final => ?_)
  constructor
  · rintro ⟨again, read, takes⟩
    rw [((readAgain_ended filled).mp read).2] at takes
    exact takes
  · exact fun takes => ⟨_, (readAgain_ended filled).mpr ⟨final.left isTurn lines, rfl⟩, takes⟩

end Filled

/-- For a file without blank lines that ends in a line feed the map decides, and the lines which no needle
begins have no carriage returns to lose. -/
theorem fileSettled_ended_iff (filled : [] ∉ lines)
    (visible : forall rule, rule ∈ rules -> Not (rule.replacement = [])) :
    FileSettled rules lines true <->
      (forall line, line ∈ lines -> Rule.taker rules line = none -> Text.readBack (line, true) = line) /\
        MapSettled rules := by
  have noBlank : [] ∉ Rule.left rules lines := by
    intro member
    rcases mem_left member with old | ⟨rule, isRule, blank⟩
    · exact filled old
    · exact visible rule isRule blank.symm
  have stays {line : Text} (member : line ∈ lines) (untaken : Rule.taker rules line = none) :
      line ∈ Rule.left rules lines :=
    List.mem_append_left _ (List.mem_map.mpr ⟨line, member, settle_of_no_taker untaken⟩)
  have shown {turn : Turn Char} (isTurn : turn ∈ Rule.turns rules) : Not (turn.replacement = []) :=
    visible turn.rule (rule_mem_of_mem_turns isTurn)
  constructor
  · rintro ⟨untouched, returned, again⟩
    refine ⟨?_, ?_, ?_⟩
    · intro line member untaken
      exact untouched line member untaken _ ((readAgain_ended noBlank).mpr ⟨stays member untaken, rfl⟩)
    · intro turn isTurn final
      exact returned turn isTurn final _ ((readAgain_ended noBlank).mpr ⟨final.left isTurn lines, rfl⟩)
    · intro turn isTurn
      rcases again with ⟨all, _⟩ | ⟨lost, isLost, _, brought, _⟩
      · exact (foundAgain_ended noBlank).mp (all turn isTurn)
      · rcases brought with ⟨_, blank⟩ | ⟨first, takes, last, leads, _, blank⟩
        · exact absurd blank.symm (shown isLost)
        · exact absurd blank.symm (shown (Turn.mem_of_leads (Turn.mem_of_next isLost takes) leads))
  · rintro ⟨untouched, returned, found⟩
    refine ⟨?_, ?_, Or.inl ⟨?_, ?_⟩⟩
    · intro line member untaken again read
      rw [((readAgain_ended noBlank).mp read).2]
      exact untouched line member untaken
    · intro turn isTurn final again read
      rw [((readAgain_ended noBlank).mp read).2]
      exact returned turn isTurn final
    · exact fun turn isTurn => (foundAgain_ended noBlank).mpr (found turn isTurn)
    · rintro ⟨front, _, one, last, shape, _, brought⟩
      apply noBlank
      rw [left_eq, shape, List.map_append, List.map_singleton, brought_iff.mp brought]
      exact List.mem_append_right _ (List.mem_singleton_self _)

/-! ## The parser over its own output -/

/-- The parser leaves its own output as it is exactly when the lines that no needle begins keep what
they end in, the replacements that no later needle begins are put back, and every rule finds something. -/
theorem file_parser_settles (texts : ValueTexts) (bytes : Bytes) (find : List (Text × Value))
    (single : forall entry, entry ∈ find -> '\n' ∉ scalarText texts entry.2) :
    applyFileParser texts (applyFileParser texts bytes find) find = applyFileParser texts bytes find <->
      FileSettled (fileRules texts find) (linesOf bytes).1 (linesOf bytes).2 :=
  (applyFileParser_again_iff bytes single).trans fileSettled_iff.symm

/-- A needle that its replacement does not begin with. -/
def growing : Bytes × List (Text × Value) :=
  (encodeUtf8 "port=0\n".toList, [("port".toList, .string "x=1".toList)])

theorem file_parser_settles_growing :
    applyFileParser ⟨fun _ => [], fun _ => none⟩ (applyFileParser ⟨fun _ => [], fun _ => none⟩ growing.1 growing.2)
        growing.2 = applyFileParser ⟨fun _ => [], fun _ => none⟩ growing.1 growing.2 <->
      FileSettled (fileRules ⟨fun _ => [], fun _ => none⟩ growing.2) (linesOf growing.1).1 (linesOf growing.1).2 :=
  file_parser_settles ⟨fun _ => [], fun _ => none⟩ growing.1 growing.2 (by decide)

theorem file_grows :
    Not (applyFileParser ⟨fun _ => [], fun _ => none⟩ (applyFileParser ⟨fun _ => [], fun _ => none⟩ growing.1 growing.2)
      growing.2 = applyFileParser ⟨fun _ => [], fun _ => none⟩ growing.1 growing.2) := by
  decide

end Runtime
end Agapornis
