import Mathlib.Data.List.TakeDrop
import Agapornis.Foundations.KeyedEdits
import Agapornis.Runtime.LineParsers

namespace Agapornis
namespace Runtime

open Foundations Agapornis.Core KeyedEdits

/-!
# Several keys at once

The parsers for properties and for sections edit the lines of a file for one
key after the other.  What they write for a key is read as a line of that key
again, so that the edits of one key are not disturbed by those of the others.
-/

variable {texts : ValueTexts}

/-! ## Properties -/

/-- A key that a line of properties can have. -/
def PropertyKey (key : Text) : Prop :=
  (forall character, character ∈ key ->
    isSeparator character = false /\ Text.isWhitespace character = false) /\
    Not (key.head? = some '#') /\ Not (key.head? = some '!')

instance (key : Text) : Decidable (PropertyKey key) :=
  have : Decidable (forall character, character ∈ key ->
      isSeparator character = false /\ Text.isWhitespace character = false) :=
    List.decidableBAll _ _
  inferInstanceAs (Decidable (_ /\ Not (key.head? = some '#') /\ Not (key.head? = some '!')))

/-- The key of a line. -/
def lineKey (line : Text) : Option Text :=
  (propertiesKey line).map Prod.fst

/-- The line which is written for an entry. -/
def writtenLine (texts : ValueTexts) (key : Text) (value : Value) : Text :=
  key ++ '=' :: scalarText texts value

theorem propertiesKey_written {key : Text} (plain : PropertyKey key) (value : Text) :
    (propertiesKey (key ++ '=' :: value)).map Prod.fst = some key := by
  have blank : Text.isWhitespace '=' = false := by decide
  have starts : (key ++ '=' :: value).dropWhile Text.isWhitespace = key ++ '=' :: value := by
    cases key with
    | nil => rw [List.nil_append, List.dropWhile_cons_of_neg (by rw [blank]; decide)]
    | cons first rest =>
        have solid := (plain.1 first List.mem_cons_self).2
        rw [List.cons_append, List.dropWhile_cons_of_neg (by rw [solid]; decide)]
  have noComment : (key ++ '=' :: value).head? = some '#' -> False := by
    cases key with
    | nil => exact fun impossible => by cases impossible
    | cons first rest => exact plain.2.1
  have noBang : (key ++ '=' :: value).head? = some '!' -> False := by
    cases key with
    | nil => exact fun impossible => by cases impossible
    | cons first rest => exact plain.2.2
  have filled : (key ++ '=' :: value).isEmpty = false := by
    cases key <;> rfl
  rw [propertiesKey, starts]
  dsimp only
  rw [filled, if_neg]
  · rw [Option.map_some, List.takeWhile_append_of_pos, List.takeWhile_cons_of_neg, List.append_nil]
    · decide
    · intro character member
      rw [(plain.1 character member).1, (plain.1 character member).2]
      rfl
  · simp only [Bool.or_eq_true, decide_eq_true_eq, not_or]
    exact ⟨⟨Bool.false_ne_true, noComment⟩, noBang⟩

theorem replacementForCurrent_scalar {value : Value} (scalar : isObject value = false) (current : Text) :
    replacementForCurrent value current = some value := by
  cases value with
  | object entries => cases scalar
  | _ => rfl

theorem propertiesLine_scalar {key : Text} {value : Value} (scalar : isObject value = false) (line : Text) :
    propertiesLine texts key value line =
      if lineKey line = some key then (writtenLine texts key value, true) else (line, false) := by
  rw [propertiesLine, lineKey]
  cases propertiesKey line with
  | none => rfl
  | some parts =>
      rcases parts with ⟨own, rest⟩
      dsimp only
      rw [replacementForCurrent_scalar scalar, Option.map_some]
      by_cases same : own = key
      · rw [if_pos same, if_pos (congrArg some same)]
        rfl
      · rw [if_neg same, if_neg fun other => same (Option.some.inj other)]

/-- A scalar is written at each line of its key, or behind them all. -/
theorem propertiesEdit_scalar {key : Text} {value : Value} (scalar : isObject value = false) (lines : List Text) :
    propertiesEdit texts lines (key, value) =
      replaceKey lineKey key (writtenLine texts key value) lines ++
        if lines.any (fun line => lineKey line = some key) then [] else [writtenLine texts key value] := by
  have firsts : (lines.map (propertiesLine texts key value)).map Prod.fst =
      replaceKey lineKey key (writtenLine texts key value) lines := by
    rw [replaceKey, List.map_map]
    apply List.map_congr_left
    intro line _
    rw [Function.comp_apply, propertiesLine_scalar scalar]
    split <;> rfl
  have seconds : (lines.map (propertiesLine texts key value)).any Prod.snd =
      lines.any (fun line => lineKey line = some key) := by
    rw [List.any_map]
    congr 1
    funext line
    rw [Function.comp_apply, propertiesLine_scalar scalar]
    split
    · next same => exact (decide_eq_true same).symm
    · next different => exact (decide_eq_false different).symm
  rw [propertiesEdit]
  dsimp only
  rw [firsts, seconds, scalar, Bool.not_false, Bool.and_true]
  cases lines.any (fun line => lineKey line = some key) <;> rfl

theorem propertiesEdit_sets {key : Text} {value : Value} (plain : PropertyKey key)
    (scalar : isObject value = false) (lines : List Text) :
    SetsKey (fun before after => after = before) lineKey key (writtenLine texts key value) lines
      (propertiesEdit texts lines (key, value)) := by
  have named : lineKey (writtenLine texts key value) = some key :=
    propertiesKey_written plain (scalarText texts value)
  rw [propertiesEdit_scalar scalar]
  cases found : lines.any (fun line => lineKey line = some key) with
  | true =>
      rw [if_pos rfl, List.append_nil]
      apply sets_replaceKey preserves_eq named
      rcases List.any_eq_true.mp found with ⟨line, member, belongs⟩
      exact ⟨line, member, of_decide_eq_true belongs⟩
  | false =>
      have absent : forall line, line ∈ lines -> Not (lineKey line = some key) := by
        intro line member
        have other := List.any_eq_false.mp found line member
        rwa [decide_eq_true_eq] at other
      rw [if_neg Bool.false_ne_true, replaceKey_of_absent absent]
      exact sets_concat named absent

/-- Properties are updated: every line of a key in the map reads as the map
says, each key has a line, and the lines of no such key are the lines read. -/
theorem properties_updated (texts : ValueTexts) (bytes : Bytes) (find : List (Text × Value))
    (distinct : (find.map Prod.fst).Nodup) (plain : forall entry, entry ∈ find -> PropertyKey entry.1)
    (scalar : forall entry, entry ∈ find -> isObject entry.2 = false) :
    (forall entry, entry ∈ find -> forall line, line ∈ find.foldl (propertiesEdit texts) (linesOf bytes).1 ->
      lineKey line = some entry.1 -> line = writtenLine texts entry.1 entry.2) /\
    (forall entry, entry ∈ find -> Exists fun line =>
      line ∈ find.foldl (propertiesEdit texts) (linesOf bytes).1 /\ lineKey line = some entry.1) /\
    others lineKey (find.map Prod.fst) (find.foldl (propertiesEdit texts) (linesOf bytes).1) =
      others lineKey (find.map Prod.fst) (linesOf bytes).1 := by
  have named (entry : Text × Value) (member : entry ∈ find) :
      lineKey (writtenLine texts entry.1 entry.2) = some entry.1 :=
    propertiesKey_written (plain entry member) _
  have updates : Updates (fun before after => after = before) lineKey Prod.fst
      (fun entry => writtenLine texts entry.1 entry.2) find (linesOf bytes).1
      (find.foldl (propertiesEdit texts) (linesOf bytes).1) :=
    foldl_updates preserves_eq id named
      (fun entry member lines => propertiesEdit_sets (plain entry member) (scalar entry member) lines) distinct _
  exact ⟨updates.own, fun entry member => ⟨_, updates.present entry member, named entry member⟩, updates.kept⟩

def sampleProperties : List (Text × Value) :=
  [("port".toList, .string "2".toList), ("motd".toList, .bool true)]

theorem properties_updated_two_keys :
    (forall entry, entry ∈ sampleProperties -> forall line,
      line ∈ sampleProperties.foldl (propertiesEdit ⟨fun _ => [], fun _ => none⟩)
        (linesOf (encodeUtf8 "# motd\n port : 1\nport=3\n".toList)).1 ->
      lineKey line = some entry.1 -> line = writtenLine ⟨fun _ => [], fun _ => none⟩ entry.1 entry.2) /\
    (forall entry, entry ∈ sampleProperties -> Exists fun line =>
      line ∈ sampleProperties.foldl (propertiesEdit ⟨fun _ => [], fun _ => none⟩)
        (linesOf (encodeUtf8 "# motd\n port : 1\nport=3\n".toList)).1 /\ lineKey line = some entry.1) /\
    others lineKey (sampleProperties.map Prod.fst) (sampleProperties.foldl
        (propertiesEdit ⟨fun _ => [], fun _ => none⟩) (linesOf (encodeUtf8 "# motd\n port : 1\nport=3\n".toList)).1) =
      others lineKey (sampleProperties.map Prod.fst)
        (linesOf (encodeUtf8 "# motd\n port : 1\nport=3\n".toList)).1 :=
  properties_updated ⟨fun _ => [], fun _ => none⟩ (encodeUtf8 "# motd\n port : 1\nport=3\n".toList)
    sampleProperties (by decide)
    (List.forall_mem_cons.mpr ⟨by decide, List.forall_mem_singleton.mpr (by decide)⟩)
    (List.forall_mem_cons.mpr ⟨rfl, List.forall_mem_singleton.mpr rfl⟩)

/-! ## Sections -/

/-- The section which a line opens, or else the one that it stands in. -/
def sectionAfter (current line : Text) : Text :=
  if isHeader line then (Text.trim line).tail.dropLast else current

/-- Lines with the sections in which they stand. -/
def located : Text -> List Text -> List (Text × Text)
  | _, [] => []
  | current, line :: lines => (sectionAfter current line, line) :: located (sectionAfter current line) lines

/-- The section and the key of a line which is no header. -/
def pairOf (item : Text × Text) : Option (Text × Text) :=
  if isHeader item.2 then none
  else (splitAtSeparator (Text.trim item.2)).map (fun parts => (item.1, Text.trim parts.1))

/-- A key that a line in a section can have. -/
structure IniKey (key : Text) : Prop where
  trimmed : Text.trim key = key
  noSeparator : forall character, character ∈ key -> isSeparator character = false
  noBracket : Not (key.head? = some '[')

theorem noSeparator_of_all {key : Text} (plain : key.all (fun character => !isSeparator character) = true) :
    forall character, character ∈ key -> isSeparator character = false :=
  fun character member => Bool.not_eq_true' _ ▸ List.all_eq_true.mp plain character member

theorem located_append (front back : List Text) : forall current : Text,
    located current (front ++ back) =
      located current front ++ located (front.foldl sectionAfter current) back := by
  induction front with
  | nil => exact fun _ => rfl
  | cons line rest induction =>
      intro current
      rw [List.cons_append, located, induction, located, List.cons_append, List.foldl_cons]

theorem splitAtSeparator_append {key : Text}
    (plain : forall character, character ∈ key -> isSeparator character = false)
    (value : Text) : splitAtSeparator (key ++ '=' :: value) = some (key, value) := by
  induction key with
  | nil => rfl
  | cons first rest induction =>
      have later := induction fun character member => plain character (List.mem_cons_of_mem first member)
      rw [List.cons_append, splitAtSeparator, if_neg (by rw [plain first List.mem_cons_self]; decide), later]
      rfl

/-- What is dropped from the end is behind the last item that stays. -/
theorem rdropWhile_append_cons {Item : Type} {drops : Item -> Bool} {stays : Item} (kept : Not (drops stays = true))
    (front back : List Item) :
    List.rdropWhile drops (front ++ stays :: back) = front ++ stays :: List.rdropWhile drops back := by
  induction back using List.reverseRecOn with
  | nil => exact List.rdropWhile_concat_neg _ _ _ kept
  | append_singleton back last induction =>
      rw [← List.cons_append, ← List.append_assoc]
      by_cases dropped : drops last = true
      · rw [List.rdropWhile_concat_pos _ _ _ dropped, List.rdropWhile_concat_pos _ _ _ dropped]
        exact induction
      · rw [List.rdropWhile_concat_neg _ _ _ dropped, List.rdropWhile_concat_neg _ _ _ dropped, List.append_assoc,
          List.cons_append]

/-- Only white space behind the value is dropped. -/
theorem trim_written {key : Text} (keyed : IniKey key) (value : Text) :
    Text.trim (key ++ '=' :: value) = key ++ '=' :: List.rdropWhile Text.isWhitespace value := by
  have front : (key ++ '=' :: value).dropWhile Text.isWhitespace = key ++ '=' :: value := by
    cases key with
    | nil => exact List.dropWhile_cons_of_neg (by decide)
    | cons first rest =>
        apply List.dropWhile_cons_of_neg
        intro white
        have shorter : (Text.trim (first :: rest)).length <= rest.length := by
          rw [Text.trim, List.dropWhile_cons_of_pos white]
          exact ((List.rdropWhile_prefix Text.isWhitespace _).length_le).trans
            (List.dropWhile_suffix Text.isWhitespace).length_le
        rw [keyed.trimmed, List.length_cons] at shorter
        omega
  change List.rdropWhile Text.isWhitespace ((key ++ '=' :: value).dropWhile Text.isWhitespace) = _
  rw [front]
  exact rdropWhile_append_cons (by decide) key value

theorem isHeader_written {key : Text} (keyed : IniKey key) (value : Text) :
    isHeader (key ++ '=' :: value) = false := by
  have first : Not ((Text.trim (key ++ '=' :: value)).head? = some '[') := by
    rw [trim_written keyed]
    cases key with
    | nil => exact fun impossible => by cases impossible
    | cons head rest => exact keyed.noBracket
  rw [isHeader, decide_eq_false first, Bool.false_and]

theorem pairOf_written {key : Text} (keyed : IniKey key) (inSection value : Text) :
    pairOf (inSection, key ++ '=' :: value) = some (inSection, key) := by
  rw [pairOf]
  dsimp only
  rw [isHeader_written keyed, if_neg Bool.false_ne_true, trim_written keyed, splitAtSeparator_append keyed.noSeparator,
    Option.map_some, keyed.trimmed]

theorem iniLines_scalar {wantedSection wantedKey : Text} {value : Value} (scalar : isObject value = false)
    (current line : Text) (lines : List Text) :
    iniLines texts wantedSection wantedKey value current (line :: lines) =
      if pairOf (sectionAfter current line, line) = some (wantedSection, wantedKey) then
        (writtenLine texts wantedKey value ::
          (iniLines texts wantedSection wantedKey value (sectionAfter current line) lines).1, true)
      else
        (line :: (iniLines texts wantedSection wantedKey value (sectionAfter current line) lines).1,
          (iniLines texts wantedSection wantedKey value (sectionAfter current line) lines).2) := by
  rw [iniLines, sectionAfter, pairOf]
  dsimp only
  by_cases header : isHeader line = true
  · rw [if_pos header, if_pos header, if_pos header, if_neg (by simp)]
  · rw [if_neg header, if_neg header, if_neg header]
    by_cases elsewhere : current = wantedSection
    · subst elsewhere
      rw [if_neg (fun different => different rfl)]
      cases splitAtSeparator (Text.trim line) with
      | none => rfl
      | some parts =>
          rcases parts with ⟨own, found⟩
          dsimp only
          rw [Option.map_some, replacementForCurrent_scalar scalar]
          by_cases same : Text.trim own = wantedKey
          · rw [if_neg (fun different => different same), if_pos (by rw [same])]
            rfl
          · rw [if_pos same, if_neg fun other => same (Prod.mk.inj (Option.some.inj other)).2]
    · rw [if_pos elsewhere, if_neg]
      intro other
      rcases Option.map_eq_some_iff.mp other with ⟨parts, _, same⟩
      exact elsewhere (Prod.mk.inj same).1

/-- A scalar is written at each line of its pair. -/
theorem located_iniLines {wantedSection wantedKey : Text} {value : Value} (keyed : IniKey wantedKey)
    (scalar : isObject value = false) (lines : List Text) : forall current : Text,
    located current (iniLines texts wantedSection wantedKey value current lines).1 =
      replaceKey pairOf (wantedSection, wantedKey) (wantedSection, writtenLine texts wantedKey value)
        (located current lines) /\
    (iniLines texts wantedSection wantedKey value current lines).2 =
      (located current lines).any (fun item => pairOf item = some (wantedSection, wantedKey)) := by
  induction lines with
  | nil => exact fun _ => ⟨rfl, rfl⟩
  | cons line lines induction =>
      intro current
      rw [iniLines_scalar scalar, located, replaceKey, List.map_cons, List.any_cons, ← replaceKey]
      rcases induction (sectionAfter current line) with ⟨edited, replaced⟩
      by_cases belongs : pairOf (sectionAfter current line, line) = some (wantedSection, wantedKey)
      · have noHeader : isHeader line = false := by
          rw [pairOf] at belongs
          split at belongs
          · cases belongs
          · next plain => exact Bool.eq_false_iff.mpr plain
        have here : sectionAfter current line = current := by rw [sectionAfter, noHeader, if_neg Bool.false_ne_true]
        have inSection : current = wantedSection := by
          rw [here, pairOf] at belongs
          dsimp only at belongs
          rw [noHeader, if_neg Bool.false_ne_true] at belongs
          rcases Option.map_eq_some_iff.mp belongs with ⟨parts, _, same⟩
          exact (Prod.mk.inj same).1
        have still : sectionAfter current (writtenLine texts wantedKey value) = current := by
          rw [sectionAfter, writtenLine, isHeader_written keyed, if_neg Bool.false_ne_true]
        rw [if_pos belongs, if_pos belongs, decide_eq_true belongs, Bool.true_or]
        rw [here] at edited ⊢
        dsimp only
        rw [located, still, edited, inSection]
        exact ⟨rfl, rfl⟩
      · rw [if_neg belongs, if_neg belongs, decide_eq_false belongs, Bool.false_or]
        dsimp only
        rw [located, edited]
        exact ⟨rfl, replaced⟩

/-- A section goes on up to the next header. -/
theorem section_beforeHeader (current : Text) (lines : List Text) :
    (beforeHeader lines).1.foldl sectionAfter current = current := by
  have plain : forall line, line ∈ (beforeHeader lines).1 -> isHeader line = false := by
    intro line member
    rw [beforeHeader, List.span_eq_takeWhile_dropWhile] at member
    simpa using List.mem_takeWhile_imp member
  generalize (beforeHeader lines).1 = front at plain
  induction front with
  | nil => rfl
  | cons line rest induction =>
      rw [List.foldl_cons, sectionAfter, plain line List.mem_cons_self, if_neg Bool.false_ne_true]
      exact induction fun other member => plain other (List.mem_cons_of_mem line member)

theorem beforeHeader_append (lines : List Text) : (beforeHeader lines).1 ++ (beforeHeader lines).2 = lines := by
  rw [beforeHeader, List.span_eq_takeWhile_dropWhile]
  exact List.takeWhile_append_dropWhile

/-- A line that is added before the next header stands in the section. -/
theorem located_beforeHeader {added : Text} (plain : isHeader added = false) (current : Text) (lines : List Text) :
    located current ((beforeHeader lines).1 ++ added :: (beforeHeader lines).2) =
      located current (beforeHeader lines).1 ++ (current, added) :: located current (beforeHeader lines).2 := by
  have still : sectionAfter current added = current := by rw [sectionAfter, plain, if_neg Bool.false_ne_true]
  rw [located_append, section_beforeHeader, located, still]

theorem located_split (current : Text) (lines : List Text) :
    located current lines = located current (beforeHeader lines).1 ++ located current (beforeHeader lines).2 := by
  have parts := located_append (beforeHeader lines).1 (beforeHeader lines).2 current
  rw [beforeHeader_append, section_beforeHeader] at parts
  exact parts

theorem trim_header (name : Text) : Text.trim ('[' :: name ++ [']']) = '[' :: name ++ [']'] := by
  apply Text.trim_of_ends
  · intro character first
    cases first
    decide
  · intro character last
    rw [List.getLast?_concat] at last
    cases last
    decide

theorem isHeader_header (name : Text) : isHeader ('[' :: name ++ [']']) = true := by
  rw [isHeader, trim_header, List.getLast?_concat]
  rfl

theorem sectionAfter_header {line name : Text} (opens : Text.trim line = '[' :: name ++ [']']) (current : Text) :
    sectionAfter current line = name := by
  have header : isHeader line = true := by
    rw [isHeader, opens, List.getLast?_concat]
    rfl
  rw [sectionAfter, if_pos header, opens, List.cons_append, List.tail_cons, List.dropLast_concat]

/-- What is added comes to stand in its section, behind nothing but a blank line
and a header that are new. -/
theorem located_iniInsert {wantedSection added : Text} (plain : isHeader added = false) (lines : List Text) :
    Exists fun front => Exists fun back => Exists fun extra =>
      located [] lines = front ++ back /\
        located [] (iniInsert wantedSection added lines) = front ++ (extra ++ (wantedSection, added) :: back) /\
        forall item, item ∈ extra -> pairOf item = none := by
  rw [iniInsert]
  by_cases root : wantedSection.isEmpty = true
  · rw [if_pos root, List.isEmpty_iff.mp root]
    exact ⟨_, _, [], located_split [] lines, located_beforeHeader plain [] lines, nofun⟩
  · rw [if_neg root]
    dsimp only
    have whole := List.takeWhile_append_dropWhile
      (p := fun line => decide (Text.trim line ≠ '[' :: wantedSection ++ [']'])) (l := lines)
    rw [List.span_eq_takeWhile_dropWhile]
    cases found : lines.dropWhile (fun line => decide (Text.trim line ≠ '[' :: wantedSection ++ [']'])) with
    | nil =>
        have here : sectionAfter (lines.foldl sectionAfter []) ('[' :: wantedSection ++ [']']) = wantedSection :=
          sectionAfter_header (trim_header wantedSection) _
        have still : sectionAfter wantedSection added = wantedSection := by
          rw [sectionAfter, plain, if_neg Bool.false_ne_true]
        dsimp only
        split
        · refine ⟨located [] lines, [], [(wantedSection, '[' :: wantedSection ++ [']'])],
            (List.append_nil _).symm, ?_, ?_⟩
          · rw [List.append_nil, located_append, located, here, located, still]
            rfl
          · intro item member
            rw [List.mem_singleton.mp member, pairOf, if_pos (isHeader_header wantedSection)]
        · refine ⟨located [] lines, [], [(lines.foldl sectionAfter [], []),
            (wantedSection, '[' :: wantedSection ++ [']'])], (List.append_nil _).symm, ?_, ?_⟩
          · have blank : sectionAfter (lines.foldl sectionAfter []) [] = lines.foldl sectionAfter [] := rfl
            rw [List.append_assoc, located_append, List.singleton_append, located, blank, located, here, located, still]
            rfl
          · intro item member
            rcases List.mem_cons.mp member with isBlank | isHeader
            · rw [isBlank]
              rfl
            · rw [List.mem_singleton.mp isHeader, pairOf, if_pos (isHeader_header wantedSection)]
    | cons start rest =>
        rw [found] at whole
        have opens : Text.trim start = '[' :: wantedSection ++ [']'] := by
          have stopped := List.head?_dropWhile_not
            (fun line => decide (Text.trim line ≠ '[' :: wantedSection ++ [']'])) lines
          rw [found] at stopped
          simpa using stopped
        dsimp only
        generalize lines.takeWhile (fun line => decide (Text.trim line ≠ '[' :: wantedSection ++ [']'])) =
          front at whole
        rw [← whole]
        have here : sectionAfter (front.foldl sectionAfter []) start = wantedSection := sectionAfter_header opens _
        refine ⟨located [] front ++ (wantedSection, start) :: located wantedSection (beforeHeader rest).1,
          located wantedSection (beforeHeader rest).2, [], ?_, ?_, nofun⟩
        · rw [located_append, located, here, located_split wantedSection rest, List.append_assoc, List.cons_append]
        · rw [located_append, located, here, located_beforeHeader plain, List.append_assoc, List.cons_append]
          rfl

theorem iniEdit_sets {path : Text} {value : Value} (keyed : IniKey (sectionAndKey path).2)
    (scalar : isObject value = false) (lines : List Text) :
    SetsKey List.Sublist pairOf (sectionAndKey path)
      ((sectionAndKey path).1, writtenLine texts (sectionAndKey path).2 value) (located [] lines)
      (located [] (iniEdit texts lines (path, value))) := by
  have named : pairOf ((sectionAndKey path).1, writtenLine texts (sectionAndKey path).2 value) =
      some (sectionAndKey path) := pairOf_written keyed _ _
  have edit := @located_iniLines texts (sectionAndKey path).1 _ _ keyed scalar lines []
  rw [iniEdit]
  dsimp only
  rw [scalar, Bool.not_false, Bool.and_true, edit.2]
  cases found : (located [] lines).any (fun item => pairOf item =
      some ((sectionAndKey path).1, (sectionAndKey path).2)) with
  | true =>
      rw [Bool.not_true, if_neg Bool.false_ne_true, edit.1]
      apply sets_replaceKey preserves_sublist named
      rcases List.any_eq_true.mp found with ⟨item, member, belongs⟩
      exact ⟨item, member, of_decide_eq_true belongs⟩
  | false =>
      have absent : forall item, item ∈ located [] lines -> Not (pairOf item = some (sectionAndKey path)) := by
        intro item member
        have other := List.any_eq_false.mp found item member
        rwa [decide_eq_true_eq] at other
      rw [replaceKey_of_absent absent] at edit
      rw [Bool.not_false, if_pos rfl]
      rcases located_iniInsert (isHeader_written keyed (scalarText texts value))
        (iniLines texts (sectionAndKey path).1 (sectionAndKey path).2 value [] lines).1 with
        ⟨front, back, extra, before, after, keyless⟩
      rw [edit.1] at before
      rw [before] at absent ⊢
      rw [after]
      exact sets_insert named absent keyless

/-- Sections are updated: every line of a pair in the map reads as the map says,
each pair has a line in its section, and all other lines stay where they are. -/
theorem sections_updated (texts : ValueTexts) (bytes : Bytes) (find : List (Text × Value))
    (distinct : (find.map (fun entry => sectionAndKey entry.1)).Nodup)
    (keyed : forall entry, entry ∈ find -> IniKey (sectionAndKey entry.1).2)
    (scalar : forall entry, entry ∈ find -> isObject entry.2 = false) :
    (forall entry, entry ∈ find -> forall item,
      item ∈ located [] (find.foldl (iniEdit texts) (linesOf bytes).1) ->
        pairOf item = some (sectionAndKey entry.1) ->
          item.2 = writtenLine texts (sectionAndKey entry.1).2 entry.2) /\
    (forall entry, entry ∈ find -> Exists fun item =>
      item ∈ located [] (find.foldl (iniEdit texts) (linesOf bytes).1) /\
        pairOf item = some (sectionAndKey entry.1)) /\
    (others pairOf (find.map fun entry => sectionAndKey entry.1) (located [] (linesOf bytes).1)).Sublist
      (others pairOf (find.map fun entry => sectionAndKey entry.1)
        (located [] (find.foldl (iniEdit texts) (linesOf bytes).1))) := by
  have named (entry : Text × Value) (member : entry ∈ find) :
      pairOf ((sectionAndKey entry.1).1, writtenLine texts (sectionAndKey entry.1).2 entry.2) =
        some (sectionAndKey entry.1) := pairOf_written (keyed entry member) _ _
  have updates : Updates List.Sublist pairOf (fun entry : Text × Value => sectionAndKey entry.1)
      (fun entry => ((sectionAndKey entry.1).1, writtenLine texts (sectionAndKey entry.1).2 entry.2)) find
      (located [] (linesOf bytes).1) (located [] (find.foldl (iniEdit texts) (linesOf bytes).1)) :=
    foldl_updates preserves_sublist (located []) named
      (fun entry member lines => iniEdit_sets (keyed entry member) (scalar entry member) lines) distinct _
  refine ⟨?_, fun entry member => ⟨_, updates.present entry member, named entry member⟩, updates.kept⟩
  intro entry member item inside belongs
  rw [updates.own entry member item inside belongs]

def sampleSections : List (Text × Value) :=
  [("network.port".toList, .number (.integer 25565)), ("motd".toList, .string "x".toList),
    ("rcon.port".toList, .null)]

def sampleIni : Bytes := encodeUtf8 "root=yes\n[network]\nport : 1\n".toList

theorem sections_updated_three_pairs :
    (forall entry, entry ∈ sampleSections -> forall item,
      item ∈ located [] (sampleSections.foldl (iniEdit ⟨fun _ => [], fun _ => none⟩) (linesOf sampleIni).1) ->
        pairOf item = some (sectionAndKey entry.1) ->
          item.2 = writtenLine ⟨fun _ => [], fun _ => none⟩ (sectionAndKey entry.1).2 entry.2) /\
    (forall entry, entry ∈ sampleSections -> Exists fun item =>
      item ∈ located [] (sampleSections.foldl (iniEdit ⟨fun _ => [], fun _ => none⟩) (linesOf sampleIni).1) /\
        pairOf item = some (sectionAndKey entry.1)) /\
    (others pairOf (sampleSections.map fun entry => sectionAndKey entry.1) (located [] (linesOf sampleIni).1)).Sublist
      (others pairOf (sampleSections.map fun entry => sectionAndKey entry.1)
        (located [] (sampleSections.foldl (iniEdit ⟨fun _ => [], fun _ => none⟩) (linesOf sampleIni).1))) :=
  sections_updated ⟨fun _ => [], fun _ => none⟩ sampleIni sampleSections (by decide)
    (List.forall_mem_cons.mpr ⟨⟨by decide, noSeparator_of_all rfl, by decide⟩, List.forall_mem_cons.mpr
      ⟨⟨by decide, noSeparator_of_all rfl, by decide⟩, List.forall_mem_singleton.mpr
        ⟨by decide, noSeparator_of_all rfl, by decide⟩⟩⟩)
    (List.forall_mem_cons.mpr ⟨rfl, List.forall_mem_cons.mpr ⟨rfl, List.forall_mem_singleton.mpr rfl⟩⟩)

end Runtime
end Agapornis
