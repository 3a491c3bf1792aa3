import Agapornis.Runtime.ValueMaps

namespace Agapornis
namespace Runtime

open Foundations Agapornis.Core

/-!
# What an edit of a path does to an XML tree

A place in a tree is given by numbers, of an element among the elements of the
one above it.  The edit of a path goes to all elements with the names in the
path, of which it makes one where there is none.
-/

/-- The element at a place. -/
def Element.lookup : List Nat -> Element -> Option Element
  | [], element => some element
  | position :: place, element => (element.elements[position]?).bind (Element.lookup place)

/-- A place which the names of a path lead to. -/
def LeadsTo : List Text -> List Nat -> Element -> Element -> Prop
  | [], [], element, found => found = element
  | part :: rest, position :: place, element, found =>
      Exists fun child => element.elements[position]? = some child /\ child.name = part /\
        LeadsTo rest place child found
  | _, _, _, _ => False

/-- A place that is not on a path: an element with another name is in it, or it goes on where the
path ends. -/
def OffPath : List Text -> List Nat -> Element -> Prop
  | _, [], _ => False
  | [], _ :: _, _ => True
  | part :: rest, position :: place, element =>
      forall child, element.elements[position]? = some child -> Not (child.name = part) \/ OffPath rest place child

def XmlNode.asText : XmlNode -> Option Text
  | .text characters => some characters
  | .cdata characters => some characters
  | _ => none

/-- The text in an element. -/
def Element.text (element : Element) : Text :=
  (element.children.filterMap XmlNode.asText).flatten

def Element.attribute (name : Text) (element : Element) : Option Text :=
  (element.attributes.find? (fun entry => entry.1 == name)).map Prod.snd

/-- A replacement which is `[name='value']`. -/
def AttributeForm (replacement name value : Text) : Prop :=
  '=' ∉ name /\ replacement = "[".toList ++ name ++ "='".toList ++ value ++ "']".toList

/-- An element is as before but for an attribute or its text. -/
structure XmlWritten (replacement : Text) (before after : Element) : Prop where
  name : after.name = before.name
  elements : after.elements = before.elements
  asAttribute : forall name value, AttributeForm replacement name value -> after.children = before.children /\
    forall other, after.attribute other = if other = name then some value else before.attribute other
  asText : (forall name value, Not (AttributeForm replacement name value)) ->
    after.text = replacement /\ after.attributes = before.attributes

/-- A path is edited: it leads to at least one element, is written to all that it leads to, and all
others stay. -/
structure XmlEdited (replacement : Text) (path : List Text) (before after : Element) : Prop where
  reached : Exists fun place => Exists fun found => LeadsTo path place after found
  written : forall place found, LeadsTo path place after found -> Exists fun original =>
    (before.lookup place = some original \/
      before.lookup place = none /\ Exists fun name => original = .new name) /\
    XmlWritten replacement original found
  kept : forall place other, OffPath path place before -> before.lookup place = some other ->
    after.lookup place = some other
  /-- An element that was not there is on the path. -/
  made : forall place other, after.lookup place = some other -> before.lookup place = none ->
    Exists fun further => Exists fun found => LeadsTo path (place ++ further) after found

/-! ## Attributes -/

theorem stripPrefix_singleton_eq_some {character : Char} {text rest : Text} :
    Text.stripPrefix [character] text = some rest <-> text = character :: rest := by
  rw [Text.stripPrefix]
  cases text with
  | nil => exact iff_of_false (fun impossible => by cases impossible) (fun impossible => by cases impossible)
  | cons head tail =>
      by_cases same : character = head
      · subst same
        rw [List.isPrefixOf, beq_self_eq_true, List.isPrefixOf_nil_left, Bool.and_true, if_pos rfl, Option.some.injEq,
          List.length_singleton, List.drop_one, List.tail_cons, List.cons_eq_cons, and_iff_right rfl]
      · rw [List.isPrefixOf, beq_eq_false_iff_ne.mpr same, Bool.false_and, if_neg Bool.false_ne_true]
        refine iff_of_false (fun impossible => by cases impossible) ?_
        intro again
        exact same (List.cons.inj again).1.symm

theorem dropLast_of_getLast? {character : Char} {text : Text} (last : text.getLast? = some character) :
    text = text.dropLast ++ [character] :=
  (List.dropLast_append_getLast? character last).symm

/-- The replacements for attributes are those of the form for them. -/
theorem xmlAttributeReplacement_eq_some {replacement name value : Text} :
    xmlAttributeReplacement replacement = some (name, value) <-> AttributeForm replacement name value := by
  rw [xmlAttributeReplacement]
  constructor
  · intro found
    rcases Option.bind_eq_some_iff.mp found with ⟨behind, opened, closing⟩
    dsimp only at closing
    split at closing
    · next bracket =>
        rcases Option.bind_eq_some_iff.mp closing with ⟨inner, isInner, naming⟩
        rcases Option.bind_eq_some_iff.mp naming with ⟨parts, isSplit, quoting⟩
        rcases Option.bind_eq_some_iff.mp quoting with ⟨quoted, quoteOpened, unquoting⟩
        split at unquoting
        · next quote =>
            rcases Text.splitOnce_eq_some.mp isSplit with ⟨absent, whole⟩
            have both := Prod.mk.inj (Option.some.inj unquoting)
            rw [both.1] at absent whole
            refine ⟨absent, ?_⟩
            rw [stripPrefix_singleton_eq_some.mp opened, dropLast_of_getLast? bracket, Option.some.inj isInner, whole,
              stripPrefix_singleton_eq_some.mp quoteOpened, dropLast_of_getLast? quote, both.2]
            simp [List.append_assoc]
        · cases unquoting
    · cases closing
  · rintro ⟨absent, whole⟩
    let quoted := value ++ [Char.ofNat 39]
    let inner := name ++ '=' :: Char.ofNat 39 :: quoted
    have opened : Text.stripPrefix ['['] replacement = some (inner ++ [']']) := by
      rw [stripPrefix_singleton_eq_some, whole]
      simp [inner, quoted, List.append_assoc]
    have parts : Text.splitOnce '=' inner = some (name, Char.ofNat 39 :: quoted) :=
      Text.splitOnce_eq_some.mpr ⟨absent, rfl⟩
    have quoteOpened : Text.stripPrefix [Char.ofNat 39] (Char.ofNat 39 :: quoted) = some quoted :=
      stripPrefix_singleton_eq_some.mpr rfl
    refine Option.bind_eq_some_iff.mpr ⟨_, opened, ?_⟩
    dsimp only
    rw [if_pos List.getLast?_concat]
    refine Option.bind_eq_some_iff.mpr ⟨inner, congrArg some List.dropLast_concat, ?_⟩
    refine Option.bind_eq_some_iff.mpr ⟨_, parts, Option.bind_eq_some_iff.mpr ⟨quoted, quoteOpened, ?_⟩⟩
    rw [if_pos List.getLast?_concat, List.dropLast_concat]

theorem xmlAttributeReplacement_eq_none {replacement : Text} :
    xmlAttributeReplacement replacement = none <-> forall name value, Not (AttributeForm replacement name value) := by
  rw [Option.eq_none_iff_forall_ne_some]
  constructor
  · exact fun none name value form => none (name, value) (xmlAttributeReplacement_eq_some.mpr form)
  · exact fun none parts found => none parts.1 parts.2 (xmlAttributeReplacement_eq_some.mp found)

theorem find?_other {name other : Text} (different : Not (other = name)) (attributes : List (Text × Text)) :
    (attributes.filter (fun entry => entry.1 ≠ name)).find? (fun entry => entry.1 == other) =
      attributes.find? (fun entry => entry.1 == other) := by
  induction attributes with
  | nil => rfl
  | cons entry entries induction =>
      rw [List.filter_cons, List.find?_cons]
      split
      · rw [List.find?_cons, induction]
      · next same =>
          have isName : entry.1 = name := by simpa using same
          have elsewhere : (entry.1 == other) = false := by
            rw [isName]
            exact beq_eq_false_iff_ne.mpr (Ne.symm different)
          rw [induction, elsewhere]

theorem attribute_setAttribute (name value : Text) (attributes : List (Text × Text)) (other : Text) :
    ((setAttribute name value attributes).find? (fun entry => entry.1 == other)).map Prod.snd =
      if other = name then some value else (attributes.find? (fun entry => entry.1 == other)).map Prod.snd := by
  rw [setAttribute, List.find?_append]
  by_cases same : other = name
  · subst same
    have gone : (attributes.filter (fun entry => entry.1 ≠ other)).find? (fun entry => entry.1 == other) = none := by
      rw [List.find?_eq_none]
      intro entry member found
      exact of_decide_eq_true (List.mem_filter.mp member).2 (eq_of_beq found)
    rw [if_pos rfl, gone, Option.none_or, List.find?_singleton, beq_self_eq_true]
    rfl
  · rw [if_neg same, find?_other same, List.find?_singleton, beq_eq_false_iff_ne.mpr (Ne.symm same),
      if_neg Bool.false_ne_true, Option.or_none]

/-! ## The elements at the end of a path -/

section Edits

variable {texts : ValueTexts} {getText : Element -> Option Text} {replacement : Value}

theorem elements_of_texts (nodes : List XmlNode) (value : Text) :
    (nodes.filter (fun node : XmlNode => !node.isText) ++ [XmlNode.text value]).filterMap XmlNode.asElement =
      nodes.filterMap XmlNode.asElement := by
  rw [List.filterMap_append]
  induction nodes with
  | nil => rfl
  | cons node nodes induction =>
      cases node with
      | text characters => exact induction
      | cdata characters => exact induction
      | element child => exact congrArg (child :: ·) induction
      | comment characters => exact induction
      | processingInstruction target data => exact induction

theorem texts_of_texts (nodes : List XmlNode) (value : Text) :
    (nodes.filter (fun node : XmlNode => !node.isText) ++ [XmlNode.text value]).filterMap XmlNode.asText = [value] := by
  rw [List.filterMap_append, List.filterMap_eq_nil_iff.mpr]
  · rfl
  · intro node member
    have noText := (List.mem_filter.mp member).2
    cases node with
    | text characters => cases noText
    | cdata characters => cases noText
    | _ => rfl

theorem replacementForCurrent_of_scalar (scalar : isObject replacement = false) (current : Text) :
    replacementForCurrent replacement current = some replacement := by
  cases replacement with
  | object options => cases scalar
  | _ => rfl

theorem xmlWritten_setXmlValue (scalar : isObject replacement = false) (element : Element) :
    XmlWritten (scalarText texts replacement) element (setXmlValue texts getText replacement element) := by
  rw [setXmlValue, replacementForCurrent_of_scalar scalar]
  dsimp only
  cases form : xmlAttributeReplacement (scalarText texts replacement) with
  | some parts =>
      rcases parts with ⟨name, value⟩
      have isForm := xmlAttributeReplacement_eq_some.mp form
      refine ⟨rfl, rfl, ?_, fun noForm => absurd isForm (noForm name value)⟩
      intro other otherValue again
      rw [xmlAttributeReplacement_eq_some.mpr again] at form
      cases form
      exact ⟨rfl, attribute_setAttribute name value element.attributes⟩
  | none =>
      have noForm := xmlAttributeReplacement_eq_none.mp form
      refine ⟨rfl, elements_of_texts element.children _, fun name value again => absurd again (noForm name value), ?_⟩
      intro _
      refine ⟨?_, rfl⟩
      rw [Element.text, Element.withChildren, Element.children, texts_of_texts, List.flatten_singleton]

theorem setXmlValue_again (scalar : isObject replacement = false) (element : Element) :
    setXmlValue texts getText replacement (setXmlValue texts getText replacement element) =
      setXmlValue texts getText replacement element := by
  rw [setXmlValue, setXmlValue, replacementForCurrent_of_scalar scalar, replacementForCurrent_of_scalar scalar]
  dsimp only
  cases xmlAttributeReplacement (scalarText texts replacement) with
  | some parts =>
      rcases parts with ⟨name, value⟩
      dsimp only
      rw [Element.mk.injEq]
      refine ⟨rfl, ?_, rfl⟩
      rw [Element.attributes, setAttribute, setAttribute, List.filter_append, List.filter_filter]
      have gone : [(name, value)].filter (fun entry => decide (Not (entry.1 = name))) = [] := by
        rw [List.filter_cons_of_neg, List.filter_nil]
        rw [decide_eq_true_eq]
        exact fun different => different rfl
      rw [gone, List.append_nil]
      simp only [Bool.and_self]
  | none =>
      dsimp only
      have gone : [XmlNode.text (scalarText texts replacement)].filter (fun node => !node.isText) = [] := rfl
      rw [withChildren_eq_self_iff, Element.withChildren, Element.children, List.filter_append, List.filter_filter,
        gone, List.append_nil]
      simp only [Bool.and_self]

/-! ## One name of a path -/

theorem setXmlPath_name (path : List Text) (element : Element) :
    (setXmlPath texts getText replacement path element).name = element.name := by
  cases path with
  | nil =>
      rw [setXmlPath, setXmlValue]
      split
      · rfl
      · dsimp only
        split <;> rfl
  | cons part rest =>
      rw [setXmlPath]
      split_ifs <;> rfl

theorem elements_editElements (wanted : Element -> Bool) (change : Element -> Element) (nodes : List XmlNode) :
    (editElements wanted change nodes).filterMap XmlNode.asElement =
      (nodes.filterMap XmlNode.asElement).map (fun child => if wanted child = true then change child else child) := by
  induction nodes with
  | nil => rfl
  | cons node nodes induction =>
      cases node with
      | element child =>
          rw [List.filterMap_cons, show XmlNode.asElement (.element child) = some child from rfl,
            List.map_cons, ← induction,
            editElements, List.map_cons]
          dsimp only
          split <;> rfl
      | text characters => exact induction
      | cdata characters => exact induction
      | comment characters => exact induction
      | processingInstruction target data => exact induction

/-- The elements after an edit: those of the name are edited, and one is made where there is none. -/
theorem elements_setXmlPath {part : Text} (plain : Not (part = ['*'])) (rest : List Text) (element : Element) :
    (setXmlPath texts getText replacement (part :: rest) element).elements =
      element.elements.map (fun child =>
        if child.name = part then setXmlPath texts getText replacement rest child else child) ++
      if element.elements.any (fun child => child.name = part) = true then []
      else [setXmlPath texts getText replacement rest (.new part)] := by
  rw [setXmlPath, if_neg plain]
  by_cases present : element.elements.any (fun child => child.name = part) = true
  · rw [if_pos present, if_pos present, List.append_nil]
    refine (elements_editElements _ _ element.children).trans ?_
    simp only [decide_eq_true_eq]
    rfl
  · have unchanged : element.elements.map (fun child =>
        if child.name = part then setXmlPath texts getText replacement rest child else child) = element.elements := by
      rw [map_eq_self_iff]
      intro child member
      rw [if_neg (fun named => present (List.any_eq_true.mpr ⟨child, member, decide_eq_true named⟩))]
    rw [if_neg present, if_neg present, unchanged]
    exact List.filterMap_append

/-- An element stays in its position. -/
theorem getElem?_setXmlPath {part : Text} (plain : Not (part = ['*'])) (rest : List Text) {element child : Element}
    {position : Nat} (present : element.elements[position]? = some child) :
    (setXmlPath texts getText replacement (part :: rest) element).elements[position]? =
      some (if child.name = part then setXmlPath texts getText replacement rest child else child) := by
  have inside := (List.getElem?_eq_some_iff.mp present).1
  rw [elements_setXmlPath plain, List.getElem?_append_left (by rw [List.length_map]; exact inside), List.getElem?_map,
    present, Option.map_some]

/-! ## Whole paths -/

theorem reached_setXmlPath (path : List Text) : ['*'] ∉ path -> forall element : Element,
    Exists fun place => Exists fun found =>
      LeadsTo path place (setXmlPath texts getText replacement path element) found := by
  induction path with
  | nil => exact fun _ element => ⟨[], _, rfl⟩
  | cons part rest induction =>
      intro plain element
      rw [List.mem_cons, not_or] at plain
      have plainPart : Not (part = ['*']) := fun same => plain.1 same.symm
      by_cases present : element.elements.any (fun child => child.name = part) = true
      · rcases List.any_eq_true.mp present with ⟨child, member, isNamed⟩
        have named : child.name = part := of_decide_eq_true isNamed
        rcases List.getElem?_of_mem member with ⟨position, here⟩
        rcases induction plain.2 child with ⟨place, found, follows⟩
        have after := @getElem?_setXmlPath texts getText replacement part plainPart rest element child position here
        rw [if_pos named] at after
        exact ⟨position :: place, found, _, after, (setXmlPath_name rest child).trans named, follows⟩
      · rcases induction plain.2 (.new part) with ⟨place, found, follows⟩
        refine ⟨element.elements.length :: place, found, _, ?_, setXmlPath_name rest (.new part), follows⟩
        rw [elements_setXmlPath plainPart, if_neg present, List.getElem?_append_right (by rw [List.length_map]),
          List.length_map, Nat.sub_self]
        rfl

/-- What a path leads to after an edit is what was there before, or a new element, with the
replacement written to it. -/
theorem written_setXmlPath (scalar : isObject replacement = false) (path : List Text) : ['*'] ∉ path ->
    forall {element found : Element} {place : List Nat},
      LeadsTo path place (setXmlPath texts getText replacement path element) found -> Exists fun original =>
        (element.lookup place = some original \/
          element.lookup place = none /\ Exists fun name => original = .new name) /\
        XmlWritten (scalarText texts replacement) original found := by
  induction path with
  | nil =>
      intro _ element found place follows
      cases place with
      | cons position place => cases follows
      | nil =>
          rw [show found = setXmlValue texts getText replacement element from follows]
          exact ⟨element, Or.inl rfl, xmlWritten_setXmlValue scalar element⟩
  | cons part rest induction =>
      intro plain element found place follows
      rw [List.mem_cons, not_or] at plain
      have plainPart : Not (part = ['*']) := fun same => plain.1 same.symm
      cases place with
      | nil => cases follows
      | cons position place =>
          rcases follows with ⟨child, here, named, further⟩
          rw [Element.lookup]
          cases before : element.elements[position]? with
          | some original =>
              rw [getElem?_setXmlPath plainPart rest before, Option.some.injEq] at here
              by_cases named' : original.name = part
              · rw [if_pos named'] at here
                rw [← here] at further
                exact induction plain.2 further
              · rw [if_neg named'] at here
                rw [← here] at named
                exact absurd named named'
          | none =>
              have outside := List.getElem?_eq_none_iff.mp before
              rw [elements_setXmlPath plainPart,
                List.getElem?_append_right (by rw [List.length_map]; exact outside)] at here
              have made : child = setXmlPath texts getText replacement rest (.new part) := by
                split at here
                · cases here
                · exact (List.mem_singleton.mp (List.mem_of_getElem? here))
              rw [made] at further
              rcases induction plain.2 further with ⟨original, origin, written⟩
              refine ⟨original, Or.inr ⟨rfl, ?_⟩, written⟩
              rcases origin with inside | ⟨_, isNew⟩
              · cases place with
                | nil => exact ⟨part, (Option.some.inj inside).symm⟩
                | cons _ _ => cases inside
              · exact isNew

/-- What is not on a path stays. -/
theorem kept_setXmlPath (scalar : isObject replacement = false) (path : List Text) : ['*'] ∉ path ->
    forall {element other : Element} {place : List Nat}, OffPath path place element ->
      element.lookup place = some other ->
      (setXmlPath texts getText replacement path element).lookup place = some other := by
  induction path with
  | nil =>
      intro _ element other place off present
      cases place with
      | nil => cases off
      | cons position place =>
          rw [Element.lookup] at present ⊢
          rw [setXmlPath, (xmlWritten_setXmlValue scalar element).elements]
          exact present
  | cons part rest induction =>
      intro plain element other place off present
      rw [List.mem_cons, not_or] at plain
      have plainPart : Not (part = ['*']) := fun same => plain.1 same.symm
      cases place with
      | nil => cases off
      | cons position place =>
          rw [Element.lookup] at present ⊢
          rcases Option.bind_eq_some_iff.mp present with ⟨child, here, below⟩
          rw [getElem?_setXmlPath plainPart rest here, Option.bind_some]
          by_cases named : child.name = part
          · rw [if_pos named]
            exact induction plain.2 ((off child here).resolve_left (fun different => different named)) below
          · rw [if_neg named]
            exact below

/-- Below a new element nothing is there before the path is edited. -/
theorem lookup_new {part : Text} {place : List Nat} {found : Element}
    (present : (Element.new part).lookup place = some found) : place = [] := by
  cases place with
  | nil => rfl
  | cons position place => cases present

/-- What an edit makes is on the path. -/
theorem made_setXmlPath (scalar : isObject replacement = false) (path : List Text) : ['*'] ∉ path ->
    forall {element other : Element} {place : List Nat},
      (setXmlPath texts getText replacement path element).lookup place = some other ->
      element.lookup place = none -> Exists fun further => Exists fun found =>
        LeadsTo path (place ++ further) (setXmlPath texts getText replacement path element) found := by
  induction path with
  | nil =>
      intro _ element other place present absent
      cases place with
      | nil => cases absent
      | cons position place =>
          rw [Element.lookup] at present absent
          rw [setXmlPath, (xmlWritten_setXmlValue scalar element).elements, absent] at present
          cases present
  | cons part rest induction =>
      intro plain element other place present absent
      rw [List.mem_cons, not_or] at plain
      have plainPart : Not (part = ['*']) := fun same => plain.1 same.symm
      cases place with
      | nil => cases absent
      | cons position place =>
          rw [Element.lookup] at present absent
          rcases Option.bind_eq_some_iff.mp present with ⟨child, here, below⟩
          have goesOn (origin : Element) (isChild : child = setXmlPath texts getText replacement rest origin)
              (named : child.name = part) (missing : origin.lookup place = none \/ place = []) :
              Exists fun further => Exists fun found => LeadsTo (part :: rest) (position :: place ++ further)
                (setXmlPath texts getText replacement (part :: rest) element) found := by
            rcases missing with nothing | top
            · rw [isChild] at below
              rcases induction plain.2 below nothing with ⟨further, found, leads⟩
              exact ⟨further, found, child, here, named, isChild ▸ leads⟩
            · rcases @reached_setXmlPath texts getText replacement rest plain.2 origin with ⟨further, found, leads⟩
              rw [top]
              exact ⟨further, found, child, here, named, isChild ▸ leads⟩
          cases before : element.elements[position]? with
          | some original =>
              rw [before, Option.bind_some] at absent
              have after :=
                @getElem?_setXmlPath texts getText replacement part plainPart rest element original position before
              rw [here, Option.some.injEq] at after
              by_cases named : original.name = part
              · rw [if_pos named] at after
                exact goesOn original after (after ▸ (setXmlPath_name rest original).trans named) (Or.inl absent)
              · rw [if_neg named] at after
                rw [after, absent] at below
                cases below
          | none =>
              have outside := List.getElem?_eq_none_iff.mp before
              rw [elements_setXmlPath plainPart,
                List.getElem?_append_right (by rw [List.length_map]; exact outside)] at here
              have isMade : child = setXmlPath texts getText replacement rest (.new part) := by
                split at here
                · cases here
                · exact List.mem_singleton.mp (List.mem_of_getElem? here)
              refine goesOn (.new part) isMade (isMade ▸ setXmlPath_name rest (.new part)) ?_
              cases missing : (Element.new part).lookup place with
              | none => exact Or.inl rfl
              | some found => exact Or.inr (lookup_new missing)

theorem editElements_append (wanted : Element -> Bool) (change : Element -> Element) (front back : List XmlNode) :
    editElements wanted change (front ++ back) = editElements wanted change front ++ editElements wanted change back :=
  List.map_append

theorem editElements_editElements {wanted : Element -> Bool} {change : Element -> Element}
    (names : forall element, wanted (change element) = wanted element) (nodes : List XmlNode) :
    editElements wanted change (editElements wanted change nodes) =
      editElements wanted (fun element => change (change element)) nodes := by
  rw [editElements, editElements, editElements, List.map_map]
  apply List.map_congr_left
  intro node _
  cases node with
  | element child =>
      by_cases isWanted : wanted child = true
      · rw [Function.comp_apply]
        dsimp only
        rw [if_pos isWanted, if_pos isWanted]
        dsimp only
        rw [if_pos ((names child).trans isWanted)]
      · rw [Function.comp_apply]
        dsimp only
        rw [if_neg isWanted, if_neg isWanted]
        dsimp only
        rw [if_neg isWanted]
  | _ => rfl

/-- A path without wildcards is edited once. -/
theorem setXmlPath_again (scalar : isObject replacement = false) (path : List Text) : ['*'] ∉ path ->
    forall element : Element,
      setXmlPath texts getText replacement path (setXmlPath texts getText replacement path element) =
        setXmlPath texts getText replacement path element := by
  induction path with
  | nil => exact fun _ element => setXmlValue_again scalar element
  | cons part rest induction =>
      intro plain element
      rw [List.mem_cons, not_or] at plain
      have plainPart : Not (part = ['*']) := fun same => plain.1 same.symm
      have names (child : Element) : decide ((setXmlPath texts getText replacement rest child).name = part) =
          decide (child.name = part) := by
        rw [setXmlPath_name]
      have twice : (fun child => setXmlPath texts getText replacement rest
          (setXmlPath texts getText replacement rest child)) = setXmlPath texts getText replacement rest :=
        funext (induction plain.2)
      by_cases present : element.elements.any (fun child => child.name = part) = true
      · have once : setXmlPath texts getText replacement (part :: rest) element = element.withChildren
            (editElements (fun child => child.name = part) (setXmlPath texts getText replacement rest)
              element.children) := by
          rw [setXmlPath, if_neg plainPart, if_pos present]
        have still : (setXmlPath texts getText replacement (part :: rest) element).elements.any
            (fun child => child.name = part) = true := by
          rcases List.any_eq_true.mp present with ⟨child, member, named⟩
          rw [elements_setXmlPath plainPart, List.any_append, List.any_map]
          apply Bool.or_eq_true_iff.mpr
          refine Or.inl (List.any_eq_true.mpr ⟨child, member, ?_⟩)
          rw [Function.comp_apply, if_pos (of_decide_eq_true named), names child]
          exact named
        rw [setXmlPath, if_neg plainPart, if_pos still, once, withChildren_eq_self_iff]
        rw [Element.withChildren, Element.children, editElements_editElements names, twice]
      · have once : setXmlPath texts getText replacement (part :: rest) element = element.withChildren
            (element.children ++ [.element (setXmlPath texts getText replacement rest (.new part))]) := by
          rw [setXmlPath, if_neg plainPart, if_neg present]
        have still : (setXmlPath texts getText replacement (part :: rest) element).elements.any
            (fun child => child.name = part) = true := by
          rw [elements_setXmlPath plainPart, if_neg present, List.any_append, List.any_cons]
          rw [names (.new part), decide_eq_true (show (Element.new part).name = part from rfl),
            Bool.true_or, Bool.or_true]
        have others : editElements (fun child => child.name = part) (setXmlPath texts getText replacement rest)
            element.children = element.children := by
          rw [editElements_eq_self_iff]
          intro child member named
          exact absurd (List.any_eq_true.mpr ⟨child, member, named⟩) present
        have made : editElements (fun child => child.name = part) (setXmlPath texts getText replacement rest)
            [.element (setXmlPath texts getText replacement rest (.new part))] =
              [.element (setXmlPath texts getText replacement rest (.new part))] := by
          rw [editElements_eq_self_iff]
          intro child member _
          rw [show child = setXmlPath texts getText replacement rest (.new part) from List.mem_singleton.mp member]
          exact induction plain.2 (.new part)
        rw [setXmlPath, if_neg plainPart, if_pos still, once, withChildren_eq_self_iff]
        rw [Element.withChildren, Element.children, editElements_append, others, made]

theorem xmlEdited_setXmlPath (scalar : isObject replacement = false) {path : List Text} (plain : ['*'] ∉ path)
    (element : Element) : XmlEdited (scalarText texts replacement) path element
      (setXmlPath texts getText replacement path element) where
  reached := reached_setXmlPath path plain element
  written := fun _ _ => written_setXmlPath scalar path plain
  kept := fun _ _ => kept_setXmlPath scalar path plain
  made := fun _ _ => made_setXmlPath scalar path plain

/-- The names in the path of an entry. -/
def pathNames (path : Text) : List Text :=
  (path.splitOn '.').filter (fun part => !part.isEmpty)

theorem xmlEdit_eq (root : Element) {path : Text} (named : Not (pathNames path = [])) :
    xmlEdit texts getText root (path, replacement) =
      setXmlPath texts getText replacement (xmlParts root path) root := by
  rw [xmlEdit, if_neg]
  exact fun empty => named (List.isEmpty_iff.mp empty)

theorem xmlEdit_name (root : Element) (entry : Text × Value) :
    (xmlEdit texts getText root entry).name = root.name := by
  rw [xmlEdit]
  split
  · rfl
  · exact setXmlPath_name _ root

theorem xmlParts_congr {root other : Element} (same : other.name = root.name) (path : Text) :
    xmlParts other path = xmlParts root path := by
  rw [xmlParts, xmlParts, same]

end Edits

/-- The edit of a path is written to the elements that the path leads to and to no others, and made
again it changes nothing; the name of the root may be in front. -/
theorem xml_edit_exact (texts : ValueTexts) (getText : Element -> Option Text) {replacement : Value}
    (scalar : isObject replacement = false) :
    (forall path : List Text, ['*'] ∉ path -> forall element : Element,
      let edited := setXmlPath texts getText replacement path element
      XmlEdited (scalarText texts replacement) path element edited /\
        setXmlPath texts getText replacement path edited = edited) /\
      (forall (path : Text) (root : Element), Not (pathNames path = []) -> ['*'] ∉ pathNames path ->
        let edited := xmlEdit texts getText root (path, replacement)
        (pathNames path = root.name :: xmlParts root path \/ pathNames path = xmlParts root path) /\
          XmlEdited (scalarText texts replacement) (xmlParts root path) root edited /\
          xmlEdit texts getText edited (path, replacement) = edited) := by
  constructor
  · intro path plain element
    exact ⟨xmlEdited_setXmlPath scalar plain element, setXmlPath_again scalar path plain element⟩
  · intro path root named plainNames
    have front : pathNames path = root.name :: xmlParts root path \/ pathNames path = xmlParts root path := by
      unfold xmlParts
      rw [show (path.splitOn '.').filter (fun part => !part.isEmpty) = pathNames path from rfl]
      split
      · next empty => exact absurd empty named
      · next first rest names =>
          split
          · next same => exact Or.inl (by rw [names, same])
          · exact Or.inr names
    have plain : ['*'] ∉ xmlParts root path := by
      rcases front with withRoot | without
      · rw [withRoot] at plainNames
        exact fun member => plainNames (List.mem_cons_of_mem _ member)
      · rw [without] at plainNames
        exact plainNames
    refine ⟨front, ?_, ?_⟩
    · rw [xmlEdit_eq root named]
      exact xmlEdited_setXmlPath scalar plain root
    · rw [xmlEdit_eq _ named, xmlParts_congr (xmlEdit_name root _), xmlEdit_eq root named]
      exact setXmlPath_again scalar _ plain root

/-- Elements are made under the root, which the path names, and an attribute is set. -/
theorem xml_edit_exact_attribute :
    let root := Element.new "configuration".toList
    let path := "configuration.server.bind".toList
    let replacement := "[address='0.0.0.0']".toList
    xmlParts root path = ["server".toList, "bind".toList] /\
      XmlEdited replacement (xmlParts root path) root
        (xmlEdit someTexts (fun _ => none) root (path, .string replacement)) := by
  intro root path replacement
  have names : pathNames path = ["configuration".toList, "server".toList, "bind".toList] := by decide +kernel
  have parts : xmlParts root path = ["server".toList, "bind".toList] := by decide +kernel
  have named : Not (pathNames path = []) := by
    rw [names]
    exact List.cons_ne_nil _ _
  have plain : ['*'] ∉ pathNames path := by
    rw [names]
    decide
  have scalar : isObject (.string replacement) = false := rfl
  exact ⟨parts, ((xml_edit_exact someTexts (fun _ => none) scalar).2 path root named plain).2.1⟩

end Runtime
end Agapornis
