import Agapornis.Runtime.XmlParser

namespace Agapornis
namespace Runtime

open Foundations Agapornis.Core

/-!
# Replacements that depend on what is found

A replacement which is a map from values to values is meant for what is in
the file.  Where nothing in the file is one of its keys, the parsers for
lines leave the file alone; the others still make the way to the place that
the path names.
-/

variable {texts : ValueTexts} {getText : Element -> Option Text} {options : List (Text × Value)}

theorem map_eq_self_iff {Item : Type} {change : Item -> Item} {items : List Item} :
    items.map change = items <-> forall item, item ∈ items -> change item = item := by
  have same := @List.map_inj_left Item Item items change id
  rw [List.map_id] at same
  exact same

/-! ## Lines -/

/-- The values of a key in the lines of properties. -/
def propertiesValues (key : Text) (lines : List Text) : List Text :=
  lines.filterMap (fun line =>
    match propertiesKey line with
    | some (lineKey, rest) => if lineKey = key then some (Text.trim rest) else none
    | none => none)

theorem propertiesEdit_eq_self {key : Text} {lines : List Text}
    (unmatched : forall value, value ∈ propertiesValues key lines -> Unmatched options value) :
    propertiesEdit texts lines (key, .object options) = lines := by
  have noAddition : isObject (.object options) = true := rfl
  rw [propertiesEdit]
  dsimp only
  rw [noAddition, Bool.not_true, Bool.and_false, if_neg Bool.false_ne_true, List.append_nil, List.map_map,
    map_eq_self_iff]
  intro line member
  rw [Function.comp_apply, propertiesLine]
  cases found : propertiesKey line with
  | none => rfl
  | some parts =>
      rcases parts with ⟨lineKey, rest⟩
      dsimp only
      by_cases same : lineKey = key
      · have value : Text.trim rest ∈ propertiesValues key lines := by
          apply List.mem_filterMap.mpr
          exact ⟨line, member, by rw [found]; exact if_pos same⟩
        rw [if_pos same, replacementForCurrent_of_unmatched (unmatched _ value)]
      · rw [if_neg same]

/-- The values of a key in a section, from the section on in which the lines begin. -/
def iniValues (wantedSection wantedKey : Text) : Text -> List Text -> List Text
  | _, [] => []
  | current, line :: lines =>
      let trimmed := Text.trim line
      if isHeader line then iniValues wantedSection wantedKey trimmed.tail.dropLast lines
      else
        let rest := iniValues wantedSection wantedKey current lines
        if current ≠ wantedSection then rest
        else
          match splitAtSeparator trimmed with
          | none => rest
          | some (key, found) => if Text.trim key ≠ wantedKey then rest else Text.trim found :: rest

theorem iniLines_eq_self {wantedSection wantedKey : Text} (lines : List Text) : forall current : Text,
    (forall value, value ∈ iniValues wantedSection wantedKey current lines -> Unmatched options value) ->
      (iniLines texts wantedSection wantedKey (.object options) current lines).1 = lines := by
  induction lines with
  | nil => exact fun _ _ => rfl
  | cons line lines induction =>
      intro current unmatched
      rw [iniValues] at unmatched
      rw [iniLines]
      dsimp only at unmatched ⊢
      split_ifs at unmatched ⊢ with header elsewhere
      · exact congrArg (line :: ·) (induction _ unmatched)
      · exact congrArg (line :: ·) (induction _ unmatched)
      · cases parts : splitAtSeparator (Text.trim line) with
        | none =>
            rw [parts] at unmatched
            exact congrArg (line :: ·) (induction _ unmatched)
        | some found =>
            rcases found with ⟨key, found⟩
            rw [parts] at unmatched
            dsimp only at unmatched ⊢
            split_ifs at unmatched ⊢ with other
            · exact congrArg (line :: ·) (induction _ unmatched)
            · rw [List.forall_mem_cons] at unmatched
              rw [replacementForCurrent_of_unmatched unmatched.1]
              exact congrArg (line :: ·) (induction _ unmatched.2)

theorem iniEdit_eq_self {path : Text} {lines : List Text}
    (unmatched : forall value,
      value ∈ iniValues (sectionAndKey path).1 (sectionAndKey path).2 [] lines -> Unmatched options value) :
    iniEdit texts lines (path, .object options) = lines := by
  have noAddition : isObject (.object options) = true := rfl
  rw [iniEdit]
  dsimp only
  rw [noAddition, Bool.not_true, Bool.and_false, if_neg Bool.false_ne_true]
  exact iniLines_eq_self lines [] unmatched

/-! ## Values -/

/-- The values in an object or an array. -/
def childValues : Value -> List Value
  | .object entries => entries.map Prod.snd
  | .array elements => elements
  | _ => []

/-- The values which a path leads to. -/
def valuesAt : List PathSegment -> Value -> List Value
  | [], node => [node]
  | .wildcard :: rest, node => (childValues node).flatMap (valuesAt rest)
  | .key name :: rest, node => (node.get name).toList.flatMap (valuesAt rest)
  | .index number :: rest, node => (((asArray node).getD [])[number]?).toList.flatMap (valuesAt rest)

/-- Each key and each index on the way of a path is there. -/
def Leads : List PathSegment -> Value -> Prop
  | [], _ => True
  | .wildcard :: rest, node => forall child, child ∈ childValues node -> Leads rest child
  | .key name :: rest, node => Exists fun child => node.get name = some child /\ Leads rest child
  | .index number :: rest, node =>
      Exists fun child => ((asArray node).getD [])[number]? = some child /\ Leads rest child

theorem setEntry_eq_self_iff {name : Text} {value child : Value} {entries : List (Text × Value)}
    (found : (Value.object entries).get name = some child) :
    setEntry name value entries = entries <-> value = child := by
  induction entries with
  | nil => cases found
  | cons entry entries induction =>
      rw [Value.get, List.find?_cons] at found
      rw [setEntry]
      by_cases same : (entry.1 == name) = true
      · rw [same] at found
        rw [if_pos same, ← eq_of_beq same]
        cases found
        rw [List.cons_eq_cons, Prod.ext_iff]
        simp
      · rw [Bool.eq_false_iff.mpr same] at found
        rw [if_neg same, List.cons_eq_cons, and_iff_right rfl]
        exact induction found

theorem length_insertEntry (name : Text) (value : Value) (entries : List (Text × Value)) :
    (insertEntry name value entries).length = entries.length + 1 := by
  induction entries with
  | nil => rfl
  | cons entry entries induction =>
      rw [insertEntry]
      split
      · rfl
      · rw [List.length_cons, induction]
        rfl

theorem modify_eq_self_iff {Item : Type} {change : Item -> Item} {items : List Item} : forall {number : Nat}
    {item : Item}, items[number]? = some item -> (items.modify number change = items <-> change item = item) := by
  induction items with
  | nil =>
      intro number item found
      cases found
  | cons first items induction =>
      intro number item found
      cases number with
      | zero =>
          cases found
          rw [List.modify_zero_cons, List.cons_eq_cons, and_iff_left rfl]
      | succ number =>
          rw [List.modify_succ_cons, List.cons_eq_cons, and_iff_right rfl]
          exact induction found

theorem asObject_eq_some {node : Value} {entries : List (Text × Value)} :
    node.asObject = some entries <-> node = .object entries := by
  cases node <;> simp [Value.asObject]

theorem asArray_eq_some {node : Value} {elements : List Value} :
    asArray node = some elements <-> node = .array elements := by
  cases node <;> simp [asArray]

theorem get_of_asObject_none {node : Value} (notObject : node.asObject = none) (name : Text) :
    node.get name = none := by
  cases node with
  | object entries => cases notObject
  | _ => rfl

/-! Of each kind of segment, a node stays as it is when the values that the segment
leads to do. -/

theorem wildcard_eq_self_iff {rest : List PathSegment} {node : Value}
    (each : forall child, child ∈ childValues node ->
      (setStructuredPath texts (.object options) rest child = child <-> Leads rest child)) :
    setStructuredPath texts (.object options) (.wildcard :: rest) node = node <->
      Leads (.wildcard :: rest) node := by
  cases node with
  | object entries =>
      rw [setStructuredPath, Leads, Value.object.injEq, map_eq_self_iff]
      constructor
      · intro same child member
        rcases List.mem_map.mp member with ⟨entry, inside, rfl⟩
        exact (each entry.2 member).mp (congrArg Prod.snd (same entry inside))
      · intro leads entry inside
        have member := List.mem_map_of_mem (f := Prod.snd) inside
        rw [(each entry.2 member).mpr (leads entry.2 member)]
  | array elements =>
      rw [setStructuredPath, Leads, Value.array.injEq, map_eq_self_iff]
      exact forall₂_congr each
  | null => exact iff_of_true rfl nofun
  | bool value => exact iff_of_true rfl nofun
  | number value => exact iff_of_true rfl nofun
  | string text => exact iff_of_true rfl nofun

theorem key_eq_self_iff {rest : List PathSegment} {node : Value} {name : Text}
    (each : forall child, node.get name = some child ->
      (setStructuredPath texts (.object options) rest child = child <-> Leads rest child)) :
    setStructuredPath texts (.object options) (.key name :: rest) node = node <->
      Leads (.key name :: rest) node := by
  rw [setStructuredPath, Leads]
  cases isObject : node.asObject with
  | none =>
      apply iff_of_false
      · intro same
        have object := congrArg Value.asObject same
        rw [isObject] at object
        split at object <;> cases object
      · rintro ⟨child, found, _⟩
        rw [get_of_asObject_none isObject] at found
        cases found
  | some entries =>
      rw [asObject_eq_some.mp isObject] at each ⊢
      rw [Option.getD_some]
      cases found : (Value.object entries).get name with
      | none =>
          dsimp only
          rw [Value.object.injEq]
          apply iff_of_false
          · intro same
            have lengths := congrArg List.length same
            rw [length_insertEntry] at lengths
            omega
          · rintro ⟨child, impossible, _⟩
            cases impossible
      | some child =>
          dsimp only
          rw [Value.object.injEq, setEntry_eq_self_iff found, each child found]
          simp only [Option.some.injEq, exists_eq_left']

theorem index_eq_self_iff {rest : List PathSegment} {node : Value} {number : Nat}
    (each : forall child, ((asArray node).getD [])[number]? = some child ->
      (setStructuredPath texts (.object options) rest child = child <-> Leads rest child)) :
    setStructuredPath texts (.object options) (.index number :: rest) node = node <->
      Leads (.index number :: rest) node := by
  rw [setStructuredPath, Leads]
  cases isArray : asArray node with
  | none =>
      apply iff_of_false
      · intro same
        have array := congrArg asArray same
        rw [isArray] at array
        cases array
      · rintro ⟨child, found, _⟩
        cases found
  | some elements =>
      rw [isArray] at each
      rw [asArray_eq_some.mp isArray, Option.getD_some, Value.array.injEq]
      cases found : elements[number]? with
      | none =>
          apply iff_of_false
          · intro same
            have lengths := congrArg List.length same
            rw [List.length_modify, List.length_append, List.length_replicate] at lengths
            have outside := List.getElem?_eq_none_iff.mp found
            omega
          · rintro ⟨child, impossible, _⟩
            cases impossible
      | some child =>
          have inside := (List.getElem?_eq_some_iff.mp found).1
          have enough : number + 1 - elements.length = 0 := by omega
          rw [enough, List.replicate_zero, List.append_nil, modify_eq_self_iff found, each child found]
          simp only [Option.some.injEq, exists_eq_left']

/-- Where a value map matches nothing, a document stays as it is exactly when the path leads through
it. -/
theorem setStructuredPath_eq_self_iff (path : List PathSegment) : forall node : Value,
    (forall value, value ∈ valuesAt path node -> Unmatched options (scalarText texts value)) ->
      (setStructuredPath texts (.object options) path node = node <-> Leads path node) := by
  induction path with
  | nil =>
      intro node unmatched
      rw [setStructuredPath, replacementForCurrent_of_unmatched (unmatched node (List.mem_singleton_self _))]
      exact iff_of_true rfl trivial
  | cons segment rest induction =>
      intro node unmatched
      cases segment with
      | wildcard =>
          apply wildcard_eq_self_iff
          intro child member
          apply induction
          intro value inside
          exact unmatched value (List.mem_flatMap.mpr ⟨child, member, inside⟩)
      | key name =>
          apply key_eq_self_iff
          intro child found
          apply induction
          intro value inside
          apply unmatched
          rw [valuesAt, found]
          exact List.mem_flatMap.mpr ⟨child, List.mem_singleton_self _, inside⟩
      | index number =>
          apply index_eq_self_iff
          intro child found
          apply induction
          intro value inside
          apply unmatched
          rw [valuesAt, found]
          exact List.mem_flatMap.mpr ⟨child, List.mem_singleton_self _, inside⟩

/-! ## Elements -/

/-- Whether a part of a path names an element. -/
def isNamed (part : Text) (element : Element) : Bool :=
  part = ['*'] || element.name = part

/-- The elements which a path leads to. -/
def elementsAt : List Text -> Element -> List Element
  | [], element => [element]
  | part :: rest, element => (element.elements.filter (isNamed part)).flatMap (elementsAt rest)

/-- The elements that an entry is about; a path without parts is about none. -/
def xmlElements (root : Element) (path : Text) : List Element :=
  if ((path.splitOn '.').filter (fun part => !part.isEmpty)).isEmpty then []
  else elementsAt (xmlParts root path) root

/-- Each name on the way of a path is that of an element there. -/
def XmlLeads : List Text -> Element -> Prop
  | [], _ => True
  | part :: rest, element =>
      (part = ['*'] \/ Exists fun child => child ∈ element.elements /\ child.name = part) /\
        forall child, child ∈ element.elements -> isNamed part child = true -> XmlLeads rest child

theorem withChildren_eq_self_iff {element : Element} {children : List XmlNode} :
    element.withChildren children = element <-> children = element.children := by
  cases element with
  | mk name attributes nodes =>
      rw [Element.withChildren, Element.mk.injEq]
      exact ⟨fun same => same.2.2, fun same => ⟨rfl, rfl, same⟩⟩

theorem editElements_eq_self_iff {wanted : Element -> Bool} {change : Element -> Element}
    {nodes : List XmlNode} : editElements wanted change nodes = nodes <->
      forall child, child ∈ nodes.filterMap XmlNode.asElement -> wanted child = true -> change child = child := by
  rw [editElements, map_eq_self_iff]
  constructor
  · intro same child member isWanted
    rcases List.mem_filterMap.mp member with ⟨node, inside, isElement⟩
    cases node with
    | element other =>
        cases isElement
        have unchanged := same _ inside
        dsimp only at unchanged
        rw [if_pos isWanted] at unchanged
        exact XmlNode.element.inj unchanged
    | text text => cases isElement
    | cdata text => cases isElement
    | comment text => cases isElement
    | processingInstruction target data => cases isElement
  · intro same node inside
    cases node with
    | element child =>
        dsimp only
        split_ifs with isWanted
        · rw [same child (List.mem_filterMap.mpr ⟨_, inside, rfl⟩) isWanted]
        · rfl
    | text text => rfl
    | cdata text => rfl
    | comment text => rfl
    | processingInstruction target data => rfl

/-- Where a value map matches nothing, a tree stays as it is exactly when the path leads through it. -/
theorem setXmlPath_eq_self_iff (path : List Text) : forall element : Element,
    (forall found, found ∈ elementsAt path element -> Unmatched options (currentText getText found)) ->
      (setXmlPath texts getText (.object options) path element = element <-> XmlLeads path element) := by
  induction path with
  | nil =>
      intro element unmatched
      rw [setXmlPath, setXmlValue,
        replacementForCurrent_of_unmatched (unmatched element (List.mem_singleton_self _))]
      exact iff_of_true rfl trivial
  | cons part rest induction =>
      intro element unmatched
      have each : forall child, child ∈ element.elements -> isNamed part child = true ->
          (setXmlPath texts getText (.object options) rest child = child <-> XmlLeads rest child) := by
        intro child member named
        apply induction
        intro found inside
        apply unmatched
        exact List.mem_flatMap.mpr ⟨child, List.mem_filter.mpr ⟨member, named⟩, inside⟩
      rw [setXmlPath, XmlLeads]
      split_ifs with isWildcard present
      · have all (child : Element) : isNamed part child = true := by
          rw [isNamed, decide_eq_true isWildcard, Bool.true_or]
        rw [withChildren_eq_self_iff, editElements_eq_self_iff, and_iff_right (Or.inl isWildcard)]
        refine forall₂_congr (fun child member => ?_)
        rw [imp_iff_right rfl, imp_iff_right (all child)]
        exact each child member (all child)
      · have same (child : Element) : isNamed part child = decide (child.name = part) := by
          rw [isNamed, decide_eq_false isWildcard, Bool.false_or]
        have exists_child : Exists fun child => child ∈ element.elements /\ child.name = part := by
          simpa using present
        rw [withChildren_eq_self_iff, editElements_eq_self_iff, and_iff_right (Or.inr exists_child)]
        refine forall₂_congr (fun child member => ?_)
        rw [← same child]
        exact imp_congr_right (each child member)
      · apply iff_of_false
        · rw [withChildren_eq_self_iff]
          exact fun longer => absurd (List.append_right_eq_self.mp longer) (List.cons_ne_nil _ _)
        · rintro ⟨here, _⟩
          rcases here with wildcard | ⟨child, member, named⟩
          · exact isWildcard wildcard
          · exact present (List.any_eq_true.mpr ⟨child, member, decide_eq_true named⟩)

theorem xmlEdit_eq_self_iff {root : Element} {path : Text}
    (unmatched : forall found, found ∈ xmlElements root path -> Unmatched options (currentText getText found)) :
    xmlEdit texts getText root (path, .object options) = root <-> XmlLeads (xmlParts root path) root := by
  rw [xmlElements] at unmatched
  rw [xmlEdit]
  dsimp only
  split_ifs at unmatched ⊢ with noParts
  · rw [xmlParts, List.isEmpty_iff.mp noParts]
    exact iff_of_true rfl trivial
  · exact setXmlPath_eq_self_iff _ root unmatched

/-! ## Whole maps -/

theorem foldl_eq_self {Document Entry : Type} {edit : Document -> Entry -> Document} {document : Document}
    {find : List Entry} (each : forall entry, entry ∈ find -> edit document entry = document) :
    find.foldl edit document = document := by
  induction find with
  | nil => rfl
  | cons entry find induction =>
      rw [List.forall_mem_cons] at each
      rw [List.foldl_cons, each.1]
      exact induction each.2

/-- An entry with a value map, none of whose keys is among the values that are found. -/
def MatchesNothing (found : List Text) (replacement : Value) : Prop :=
  Exists fun options => replacement = .object options /\ forall value, value ∈ found -> Unmatched options value

theorem applyPropertiesParser_eq {bytes : Bytes} {find : List (Text × Value)}
    (passes : forall entry, entry ∈ find -> MatchesNothing (propertiesValues entry.1 (linesOf bytes).1) entry.2) :
    applyPropertiesParser texts bytes find = finishLines (linesOf bytes).1 (linesOf bytes).2 := by
  rw [applyPropertiesParser, foldl_eq_self]
  rintro ⟨key, replacement⟩ member
  rcases passes _ member with ⟨options, rfl, unmatched⟩
  exact propertiesEdit_eq_self unmatched

theorem applyIniParser_eq {bytes : Bytes} {find : List (Text × Value)}
    (passes : forall entry, entry ∈ find ->
      MatchesNothing (iniValues (sectionAndKey entry.1).1 (sectionAndKey entry.1).2 [] (linesOf bytes).1) entry.2) :
    applyIniParser texts bytes find = finishLines (linesOf bytes).1 (linesOf bytes).2 := by
  rw [applyIniParser, foldl_eq_self]
  rintro ⟨path, replacement⟩ member
  rcases passes _ member with ⟨options, rfl, unmatched⟩
  exact iniEdit_eq_self unmatched

/-- Maps that match nothing leave a document alone if their paths lead through it. -/
theorem applyStructuredReplacements_eq {document : Value} {find : List (Text × Value)}
    (passes : forall entry, entry ∈ find ->
      MatchesNothing ((valuesAt (parsePath entry.1) document).map (scalarText texts)) entry.2)
    (leads : forall entry, entry ∈ find -> Leads (parsePath entry.1) document) :
    applyStructuredReplacements texts document find = document := by
  apply foldl_eq_self
  rintro ⟨path, replacement⟩ member
  rcases passes _ member with ⟨options, rfl, unmatched⟩
  rw [List.forall_mem_map] at unmatched
  exact (setStructuredPath_eq_self_iff (parsePath path) document unmatched).mpr (leads _ member)

theorem foldl_xmlEdit_eq {root : Element} {find : List (Text × Value)}
    (passes : forall entry, entry ∈ find ->
      MatchesNothing ((xmlElements root entry.1).map (currentText getText)) entry.2)
    (leads : forall entry, entry ∈ find -> XmlLeads (xmlParts root entry.1) root) :
    find.foldl (xmlEdit texts getText) root = root := by
  apply foldl_eq_self
  rintro ⟨path, replacement⟩ member
  rcases passes _ member with ⟨options, rfl, unmatched⟩
  rw [List.forall_mem_map] at unmatched
  exact (xmlEdit_eq_self_iff unmatched).mpr (leads _ member)

/-- What the edits and the parsers do with maps that match nothing. -/
structure MapsIgnored (libraries : ParserLibraries) : Prop where
  properties : forall options path lines,
    (forall value, value ∈ propertiesValues path lines -> Unmatched options value) ->
      propertiesEdit libraries.texts lines (path, .object options) = lines
  ini : forall options path lines,
    (forall value, value ∈ iniValues (sectionAndKey path).1 (sectionAndKey path).2 [] lines ->
      Unmatched options value) -> iniEdit libraries.texts lines (path, .object options) = lines
  structured : forall options path document,
    (forall value, value ∈ valuesAt (parsePath path) document ->
      Unmatched options (scalarText libraries.texts value)) ->
        (structuredEdit libraries.texts document (path, .object options) = document <->
          Leads (parsePath path) document)
  xml : forall options path root,
    (forall found, found ∈ xmlElements root path -> Unmatched options (currentText libraries.getText found)) ->
      (xmlEdit libraries.texts libraries.getText root (path, .object options) = root <->
        XmlLeads (xmlParts root path) root)
  propertiesFile : forall bytes find,
    (forall entry, entry ∈ find -> MatchesNothing (propertiesValues entry.1 (linesOf bytes).1) entry.2) ->
      (configurationParsers libraries).properties bytes find = finishLines (linesOf bytes).1 (linesOf bytes).2
  iniFile : forall bytes find,
    (forall entry, entry ∈ find ->
      MatchesNothing (iniValues (sectionAndKey entry.1).1 (sectionAndKey entry.1).2 [] (linesOf bytes).1) entry.2) ->
        (configurationParsers libraries).ini bytes find = finishLines (linesOf bytes).1 (linesOf bytes).2
  jsonFile : forall bytes find document, libraries.json.parse bytes = .ok document ->
    (forall entry, entry ∈ find ->
      MatchesNothing ((valuesAt (parsePath entry.1) document).map (scalarText libraries.texts)) entry.2) ->
        (forall entry, entry ∈ find -> Leads (parsePath entry.1) document) ->
          (configurationParsers libraries).json bytes find = libraries.json.write document
  yamlFile : forall bytes find document, libraries.yaml.parse bytes = .ok document ->
    (forall entry, entry ∈ find ->
      MatchesNothing ((valuesAt (parsePath entry.1) document).map (scalarText libraries.texts)) entry.2) ->
        (forall entry, entry ∈ find -> Leads (parsePath entry.1) document) ->
          (configurationParsers libraries).yaml bytes find = libraries.yaml.write document
  xmlFile : forall bytes find root, libraries.xml.parse bytes = .ok root ->
    (forall entry, entry ∈ find ->
      MatchesNothing ((xmlElements root entry.1).map (currentText libraries.getText)) entry.2) ->
        (forall entry, entry ∈ find -> XmlLeads (xmlParts root entry.1) root) ->
          (configurationParsers libraries).xml bytes find = libraries.xml.write root

/-- A value map that matches nothing is ignored in lines, and in documents exactly when its path leads
through what is there; files in which no map matches are written as they were read. -/
theorem unmatched_map_ignored_iff (libraries : ParserLibraries) : MapsIgnored libraries where
  properties _ _ _ := propertiesEdit_eq_self
  ini _ _ _ := iniEdit_eq_self
  structured _ path document := setStructuredPath_eq_self_iff (parsePath path) document
  xml _ _ _ := xmlEdit_eq_self_iff
  propertiesFile _ _ := applyPropertiesParser_eq
  iniFile _ _ := applyIniParser_eq
  jsonFile bytes find document parsed passes leads := by
    have unchanged := applyStructuredReplacements_eq passes leads
    rw [configurationParsers]
    dsimp only
    rw [applyJsonParser, parsed]
    exact congrArg libraries.json.write unchanged
  yamlFile bytes find document parsed passes leads := by
    have unchanged := applyStructuredReplacements_eq passes leads
    rw [configurationParsers]
    dsimp only
    rw [applyYamlParser, parsed]
    exact congrArg libraries.yaml.write unchanged
  xmlFile bytes find root parsed passes leads := by
    have unchanged := @foldl_xmlEdit_eq libraries.texts libraries.getText root find passes leads
    rw [configurationParsers]
    dsimp only
    rw [applyXmlParser, parsed]
    exact congrArg libraries.xml.write unchanged

def someTexts : ValueTexts :=
  ⟨fun _ => [], fun _ => none⟩

def helloBytes : Bytes :=
  encodeUtf8 "\x7b\"motd\":\"hello\"\x7d".toList

def helloDocument : Value :=
  .object [("motd".toList, .string "hello".toList)]

/-- Libraries that know one file. -/
def helloLibraries : ParserLibraries :=
  let json : Documents Value :=
    { parse := fun bytes => if bytes = helloBytes then .ok helloDocument else .error (.bail "another file")
      write := fun
        | .object [(name, .string text)] =>
            .ok (encodeUtf8 ("\x7b\"".toList ++ name ++ "\":\"".toList ++ text ++ "\"\x7d".toList))
        | _ => .error (.bail "another document") }
  ⟨someTexts, fun _ => none, json, json,
    ⟨fun _ => .error (.bail "another file"), fun _ => .error (.bail "another document")⟩⟩

/-- A value which the map does not know stays, in the document and in its file. -/
theorem unmatched_map_ignored_iff_kept :
    let options := [("old".toList, Value.string "new".toList)]
    (structuredEdit someTexts helloDocument ("motd".toList, .object options) = helloDocument <->
        Leads (parsePath "motd".toList) helloDocument) /\
      (configurationParsers helloLibraries).json helloBytes [("motd".toList, .object options)] = .ok helloBytes := by
  intro options
  have path : parsePath "motd".toList = [.key "motd".toList] := by decide +kernel
  have unmatched : forall value, value ∈ valuesAt (parsePath "motd".toList) helloDocument ->
      Unmatched options (scalarText someTexts value) := by
    rw [path]
    intro value member
    have isMotd : value = .string "hello".toList := List.mem_singleton.mp member
    rw [isMotd, Unmatched]
    decide
  have ignored := unmatched_map_ignored_iff helloLibraries
  refine ⟨ignored.structured options "motd".toList helloDocument unmatched, ?_⟩
  have read : helloLibraries.json.parse helloBytes = .ok helloDocument := by
    rw [helloLibraries]
    dsimp only
    rw [if_pos rfl]
  refine (ignored.jsonFile helloBytes _ helloDocument read ?_ ?_).trans rfl
  · intro entry member
    rw [List.mem_singleton.mp member]
    exact ⟨options, rfl, List.forall_mem_map.mpr unmatched⟩
  · intro entry member
    rw [List.mem_singleton.mp member, path]
    exact ⟨_, rfl, trivial⟩

/-- No value is found at a missing key, and the key is added. -/
theorem missing_key_added :
    Not (forall (texts : ValueTexts) (options : List (Text × Value)) (path : Text) (document : Value),
      (forall value, value ∈ valuesAt (parsePath path) document -> Unmatched options (scalarText texts value)) ->
        structuredEdit texts document (path, .object options) = document) := by
  intro ignored
  have path : parsePath "motd".toList = [.key "motd".toList] := by decide +kernel
  have same := ignored someTexts [("old".toList, .string "new".toList)] "motd".toList (.object [])
  rw [structuredEdit, path] at same
  have unchanged := same (fun value member => by cases member)
  cases Value.object.inj unchanged

end Runtime
end Agapornis
