import Agapornis.Runtime.StructuredPlaces

namespace Agapornis
namespace Runtime

open Foundations Agapornis.Core

/-!
# Edits of a value and of its children

The entries of a map are edits of a document, one after the other.  Edits for
an object and for an array, or of a whole value, leave nothing of what was
there before.  All other edits go to the children of a value, once these are
there.
-/

/-- The path and the replacement of an edit. -/
abbrev PathEdit := List PathSegment × Value

variable (texts : ValueTexts)

def applyEdits (edits : List PathEdit) (node : Value) : Value :=
  edits.foldl (fun node edit => setStructuredPath texts edit.2 edit.1 node) node

/-- The entries of a map as edits. -/
def parsedEdits (find : List (Text × Value)) : List PathEdit :=
  find.map (fun entry => (parsePath entry.1, entry.2))

theorem applyStructuredReplacements_eq_edits (document : Value) (find : List (Text × Value)) :
    applyStructuredReplacements texts document find = applyEdits texts (parsedEdits find) document := by
  rw [applyStructuredReplacements, applyEdits, parsedEdits, List.foldl_map]
  rfl

theorem applyEdits_append (front back : List PathEdit) (node : Value) :
    applyEdits texts (front ++ back) node = applyEdits texts back (applyEdits texts front node) :=
  List.foldl_append

/-- An edit as the child sees it that a step leads to, if it goes there. -/
def editFor (step : ChildStep) : PathEdit -> Option PathEdit
  | ([], _) => none
  | (segment :: rest, value) =>
      if segment = .wildcard \/ segment = stepSegment step then some (rest, value) else none

def editsFor (step : ChildStep) (edits : List PathEdit) : List PathEdit :=
  edits.filterMap (editFor step)

/-- What a value with children is. -/
inductive Kind where
  | object
  | array
  deriving DecidableEq, Repr

def kindOf : Value -> Option Kind
  | .object _ => some .object
  | .array _ => some .array
  | _ => none

/-- What a value is made to be by a segment. -/
def segmentKind : PathSegment -> Option Kind
  | .key _ => some .object
  | .index _ => some .array
  | .wildcard => none

/-- Some edit makes an object or an array of any value. -/
def Wants (edits : List PathEdit) (kind : Kind) : Prop :=
  Exists fun edit => edit ∈ edits /\ edit.1.head?.bind segmentKind = some kind

/-! ## Edits that leave nothing of a value -/

section Constant

variable {texts} {edits : List PathEdit}

/-- Each replacement is written as it is. -/
def AllScalar (edits : List PathEdit) : Prop :=
  forall edit, edit ∈ edits -> isObject edit.2 = false

theorem applyEdits_cons (edit : PathEdit) (edits : List PathEdit) (node : Value) :
    applyEdits texts (edit :: edits) node = applyEdits texts edits (setStructuredPath texts edit.2 edit.1 node) := rfl

/-- The whole of a value is replaced by an edit without a path. -/
theorem constant_of_whole (scalar : AllScalar edits) (whole : Exists fun edit => edit ∈ edits /\ edit.1 = []) :
    forall node other, applyEdits texts edits node = applyEdits texts edits other := by
  induction edits with
  | nil =>
      rcases whole with ⟨edit, impossible, _⟩
      cases impossible
  | cons edit edits induction =>
      intro node other
      have scalars := List.forall_mem_cons.mp scalar
      rw [applyEdits_cons, applyEdits_cons]
      by_cases here : edit.1 = []
      · rw [here, setStructuredPath_nil scalars.1, setStructuredPath_nil scalars.1]
      · rcases whole with ⟨found, member, isWhole⟩
        rcases List.mem_cons.mp member with same | later
        · rw [same] at isWhole
          exact absurd isWhole here
        · exact induction scalars.2 ⟨found, later, isWhole⟩ _ _

theorem Wants.tail {edit : PathEdit} {kind : Kind} (wants : Wants (edit :: edits) kind)
    (other : Not (edit.1.head?.bind segmentKind = some kind)) : Wants edits kind := by
  rcases wants with ⟨found, member, head⟩
  rcases List.mem_cons.mp member with same | later
  · rw [same] at head
    exact absurd head other
  · exact ⟨found, later, head⟩

theorem kindOf_set {segment : PathSegment} {kind : Kind} (wants : segmentKind segment = some kind)
    (replacement : Value) (rest : List PathSegment) (node : Value) :
    kindOf (setStructuredPath texts replacement (segment :: rest) node) = some kind := by
  cases segment with
  | wildcard => cases wants
  | index position => exact wants
  | key name =>
      rw [setStructuredPath]
      dsimp only
      split <;> exact wants

theorem kindOf_set_wildcard (replacement : Value) (rest : List PathSegment) (node : Value) :
    kindOf (setStructuredPath texts replacement (.wildcard :: rest) node) = kindOf node := by
  cases node <;> rfl

/-- Nothing is left of a value of the wrong kind. -/
theorem set_congr {segment : PathSegment} {kind : Kind} (wants : segmentKind segment = some kind)
    (replacement : Value) (rest : List PathSegment) {node other : Value} (wrong : Not (kindOf node = some kind))
    (wrongToo : Not (kindOf other = some kind)) :
    setStructuredPath texts replacement (segment :: rest) node =
      setStructuredPath texts replacement (segment :: rest) other := by
  have noEntries {value : Value} (notObject : Not (kindOf value = some .object)) : value.asObject = none := by
    cases value with
    | object entries => exact absurd rfl notObject
    | _ => rfl
  have noElements {value : Value} (notArray : Not (kindOf value = some .array)) : asArray value = none := by
    cases value with
    | array elements => exact absurd rfl notArray
    | _ => rfl
  cases segment with
  | wildcard => cases wants
  | key name =>
      cases wants
      rw [setStructuredPath, setStructuredPath, noEntries wrong, noEntries wrongToo]
  | index position =>
      cases wants
      rw [setStructuredPath, setStructuredPath, noElements wrong, noElements wrongToo]

/-- An edit for one kind leaves nothing of a value that is of another kind when the edits begin. -/
theorem constant_on_kind (scalar : AllScalar edits) {kind wanted : Kind} (different : Not (kind = wanted))
    (wants : Wants edits wanted) : forall {node other : Value}, kindOf node = some kind -> kindOf other = some kind ->
      applyEdits texts edits node = applyEdits texts edits other := by
  induction edits with
  | nil =>
      rcases wants with ⟨edit, impossible, _⟩
      cases impossible
  | cons edit edits induction =>
      intro node other isKind isKindToo
      have scalars := List.forall_mem_cons.mp scalar
      rcases edit with ⟨path, value⟩
      rw [applyEdits_cons, applyEdits_cons]
      cases path with
      | nil => rw [setStructuredPath_nil scalars.1, setStructuredPath_nil scalars.1]
      | cons segment rest =>
          cases segmentIs : segmentKind segment with
          | none =>
              have wildcard : segment = .wildcard := by
                cases segment with
                | wildcard => rfl
                | _ => cases segmentIs
              subst wildcard
              apply induction scalars.2 (wants.tail (fun impossible => by cases impossible))
              · rw [kindOf_set_wildcard, isKind]
              · rw [kindOf_set_wildcard, isKindToo]
          | some own =>
              by_cases same : own = kind
              · rw [same] at segmentIs
                apply induction scalars.2 _ (kindOf_set segmentIs value rest node)
                  (kindOf_set segmentIs value rest other)
                apply wants.tail
                intro again
                rw [List.head?_cons, Option.bind_some, segmentIs] at again
                exact different (Option.some.inj again)
              · apply congrArg (applyEdits texts edits)
                apply set_congr segmentIs
                · rw [isKind]
                  exact fun again => same (Option.some.inj again).symm
                · rw [isKindToo]
                  exact fun again => same (Option.some.inj again).symm

/-- Edits for both kinds leave nothing of a value. -/
theorem constant_of_kinds (scalar : AllScalar edits) (objects : Wants edits .object) (arrays : Wants edits .array) :
    forall node other, applyEdits texts edits node = applyEdits texts edits other := by
  induction edits with
  | nil =>
      rcases objects with ⟨edit, impossible, _⟩
      cases impossible
  | cons edit edits induction =>
      intro node other
      have scalars := List.forall_mem_cons.mp scalar
      rcases edit with ⟨path, value⟩
      rw [applyEdits_cons, applyEdits_cons]
      cases path with
      | nil => rw [setStructuredPath_nil scalars.1, setStructuredPath_nil scalars.1]
      | cons segment rest =>
          cases segment with
          | wildcard =>
              exact induction scalars.2 (objects.tail (fun impossible => by cases impossible))
                (arrays.tail (fun impossible => by cases impossible)) _ _
          | key name =>
              exact constant_on_kind scalars.2 (by decide)
                (arrays.tail (fun impossible => by cases impossible)) (kindOf_set rfl _ _ _) (kindOf_set rfl _ _ _)
          | index position =>
              exact constant_on_kind scalars.2 (by decide)
                (objects.tail (fun impossible => by cases impossible)) (kindOf_set rfl _ _ _) (kindOf_set rfl _ _ _)

end Constant

/-! ## Edits of children that are there -/

section Children

variable {texts} {edits : List PathEdit}

theorem setEntry_eq_map {name : Text} {value child : Value} {entries : List (Text × Value)}
    (nodup : (entries.map Prod.fst).Nodup) (found : (Value.object entries).get name = some child) :
    setEntry name value entries =
      entries.map (fun entry => (entry.1, if entry.1 = name then value else entry.2)) := by
  induction entries with
  | nil => rfl
  | cons entry entries induction =>
      rw [List.map_cons, List.nodup_cons] at nodup
      rw [Value.get, List.find?_cons] at found
      rw [setEntry, List.map_cons]
      by_cases same : entry.1 = name
      · have others : entries.map (fun entry => (entry.1, if entry.1 = name then value else entry.2)) = entries := by
          rw [map_eq_self_iff]
          intro other member
          have different : Not (other.1 = name) := by
            intro again
            apply nodup.1
            rw [same, ← again]
            exact List.mem_map_of_mem member
          rw [if_neg different]
        rw [if_pos (beq_iff_eq.mpr same), if_pos same, others, same]
      · rw [beq_eq_false_iff_ne.mpr same] at found
        rw [beq_eq_false_iff_ne.mpr same, if_neg Bool.false_ne_true, if_neg same, induction nodup.2 found]

/-- What an edit does to a child. -/
def childEdit (texts : ValueTexts) (edit : PathEdit) (step : ChildStep) (child : Value) : Value :=
  match editFor step edit with
  | some rest => setStructuredPath texts rest.2 rest.1 child
  | none => child

theorem childEdit_of_ne {segment : PathSegment} {step : ChildStep} (rest : List PathSegment) (value child : Value)
    (other : Not (segment = .wildcard \/ segment = stepSegment step)) :
    childEdit texts (segment :: rest, value) step child = child := by
  rw [childEdit, editFor, if_neg other]

theorem childEdit_of_eq {segment : PathSegment} {step : ChildStep} (rest : List PathSegment) (value child : Value)
    (here : segment = .wildcard \/ segment = stepSegment step) :
    childEdit texts (segment :: rest, value) step child = setStructuredPath texts value rest child := by
  rw [childEdit, editFor, if_pos here]

/-- Where the child that it names is there, an edit goes to the children of a value only. -/
theorem set_eq_editChildren {segment : PathSegment} {node : Value} (nodup : node.NodupNames)
    (present : forall step, segment = stepSegment step -> (node.child step).isSome = true)
    (rest : List PathSegment) (value : Value) :
    setStructuredPath texts value (segment :: rest) node =
      node.editChildren (childEdit texts (segment :: rest, value)) := by
  cases segment with
  | wildcard =>
      have every : childEdit texts (.wildcard :: rest, value) = fun _ child =>
        setStructuredPath texts value rest child := by
        funext step child
        exact childEdit_of_eq rest value child (Or.inl rfl)
      rw [every]
      cases node with
      | array elements =>
          rw [setStructuredPath, Value.editChildren, Value.array.injEq]
          apply List.ext_getElem?
          intro position
          rw [List.getElem?_map, List.getElem?_mapIdx]
      | _ => rfl
  | key name =>
      have found := present (.key name) rfl
      cases node with
      | object entries =>
          rcases Option.isSome_iff_exists.mp found with ⟨child, isChild⟩
          rw [setStructuredPath, Value.editChildren]
          dsimp only
          have here : (Value.object ((Value.object entries).asObject.getD [])).get name = some child := isChild
          rw [here]
          dsimp only
          rw [Value.object.injEq]
          refine (setEntry_eq_map (nodup entries rfl) isChild).trans (List.map_inj_left.mpr ?_)
          intro entry member
          rw [Prod.mk.injEq]
          refine ⟨rfl, ?_⟩
          split
          · next same =>
              have isEntry := Value.get_of_mem (nodup entries rfl) member
              rw [same, show (Value.object entries).get name = some child from isChild] at isEntry
              rw [childEdit_of_eq rest value entry.2 (Or.inr (congrArg PathSegment.key same.symm)),
                Option.some.inj isEntry]
          · next different =>
              rw [childEdit_of_ne]
              rintro (impossible | same)
              · cases impossible
              · exact different (PathSegment.key.inj same).symm
      | _ => cases found
  | index position =>
      have found := present (.index position) rfl
      cases node with
      | array elements =>
          rcases Option.isSome_iff_exists.mp found with ⟨child, isChild⟩
          have inside : position < elements.length := (List.getElem?_eq_some_iff.mp isChild).1
          have enough : position + 1 - elements.length = 0 := by omega
          rw [setStructuredPath, Value.editChildren]
          rw [asArray, Option.getD_some, enough, List.replicate_zero, List.append_nil, Value.array.injEq]
          apply List.ext_getElem?
          intro other
          rw [List.getElem?_modify, List.getElem?_mapIdx]
          apply congrArg (fun change => Option.map change elements[other]?)
          funext element
          split
          · next same => rw [childEdit_of_eq rest value element (Or.inr (congrArg PathSegment.index same))]
          · next different =>
              rw [childEdit_of_ne]
              rintro (impossible | same)
              · cases impossible
              · exact different (PathSegment.index.inj same)
      | _ => cases found

theorem applyEdits_editsFor_cons (edit : PathEdit) (edits : List PathEdit) (step : ChildStep) (child : Value) :
    applyEdits texts (editsFor step (edit :: edits)) child =
      applyEdits texts (editsFor step edits) (childEdit texts edit step child) := by
  rw [editsFor, List.filterMap_cons, childEdit]
  cases editFor step edit with
  | none => rfl
  | some rest => rfl

/-- Where the children that they name are there, each child has the edits that go to it. -/
theorem applyEdits_eq_editChildren (paths : forall edit, edit ∈ edits -> Not (edit.1 = [])) : forall {node : Value},
    node.NodupNames ->
    (forall edit, edit ∈ edits -> forall step, edit.1.head? = some (stepSegment step) ->
      (node.child step).isSome = true) ->
    applyEdits texts edits node =
      node.editChildren (fun step child => applyEdits texts (editsFor step edits) child) := by
  induction edits with
  | nil => exact fun _ _ => (Value.editChildren_id _).symm
  | cons edit edits induction =>
      intro node nodup present
      rw [List.forall_mem_cons] at paths present
      rcases edit with ⟨path, value⟩
      cases path with
      | nil => exact absurd rfl paths.1
      | cons segment rest =>
          have first : setStructuredPath texts value (segment :: rest) node =
              node.editChildren (childEdit texts (segment :: rest, value)) := by
            apply set_eq_editChildren nodup
            exact fun step same => present.1 step (congrArg some same)
          rw [applyEdits_cons, first, induction paths.2 (nodup.editChildren _), Value.editChildren_editChildren]
          · apply Value.editChildren_congr nodup
            intro step child _
            exact (applyEdits_editsFor_cons _ edits step child).symm
          · intro other member step head
            rw [Value.child_editChildren, Option.isSome_map]
            exact present.2 other member step head

end Children

end Runtime
end Agapornis
