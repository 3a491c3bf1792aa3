import Agapornis.Core.ValuePlaces
import Agapornis.Runtime.ValueMaps

namespace Agapornis
namespace Runtime

open Foundations Agapornis.Core

/-!
# What an edit of a path does to a document

Each segment of a path is told by the children that a value has after it: the
one which the segment names is edited, those that are missing up to an index
are made, and all others are as before if the value had the right type.
-/

variable {texts : ValueTexts} {replacement : Value}

/-- The segment for a step. -/
def stepSegment : ChildStep -> PathSegment
  | .key name => .key name
  | .index position => .index position

theorem get_setEntry {name : Text} {value child : Value} (other : Text) {entries : List (Text × Value)}
    (found : (Value.object entries).get name = some child) :
    (Value.object (setEntry name value entries)).get other =
      if other = name then some value else (Value.object entries).get other := by
  induction entries with
  | nil => cases found
  | cons entry entries induction =>
      rw [Value.get, List.find?_cons] at found
      rw [setEntry]
      by_cases same : (entry.1 == name) = true
      · rw [if_pos same, Value.get, Value.get, List.find?_cons, List.find?_cons, eq_of_beq same]
        by_cases asked : other = name
        · rw [if_pos asked, asked, beq_self_eq_true]
          rfl
        · rw [if_neg asked, beq_eq_false_iff_ne.mpr (Ne.symm asked)]
      · rw [Bool.eq_false_iff.mpr same] at found
        rw [if_neg same, Value.get, Value.get, List.find?_cons, List.find?_cons]
        by_cases asked : (entry.1 == other) = true
        · have different : Not (other = name) := by
            intro again
            rw [again] at asked
            exact same asked
          rw [asked, if_neg different]
        · rw [Bool.eq_false_iff.mpr asked]
          exact induction found

theorem get_insertEntry {name : Text} {value : Value} (other : Text) {entries : List (Text × Value)}
    (missing : (Value.object entries).get name = none) :
    (Value.object (insertEntry name value entries)).get other =
      if other = name then some value else (Value.object entries).get other := by
  have here (rest : List (Text × Value)) : (Value.object ((name, value) :: rest)).get other =
      if other = name then some value else (Value.object rest).get other := by
    rw [Value.get, Value.get, List.find?_cons]
    by_cases asked : other = name
    · rw [if_pos asked, asked, beq_self_eq_true]
      rfl
    · rw [if_neg asked, beq_eq_false_iff_ne.mpr (Ne.symm asked)]
  induction entries with
  | nil => exact here []
  | cons entry entries induction =>
      rw [Value.get, List.find?_cons] at missing
      rw [insertEntry]
      split
      · exact here (entry :: entries)
      · by_cases same : (entry.1 == name) = true
        · rw [same] at missing
          cases missing
        · rw [Bool.eq_false_iff.mpr same] at missing
          rw [Value.get, Value.get, List.find?_cons, List.find?_cons]
          by_cases asked : (entry.1 == other) = true
          · have different : Not (other = name) := by
              intro again
              rw [again] at asked
              exact same asked
            rw [asked, if_neg different]
          · rw [Bool.eq_false_iff.mpr asked]
            exact induction missing

/-! ## Single segments -/

section Segments

variable (texts replacement)

/-- The value that a segment edits: the child which it names, or a new one. -/
def childOrInitial (step : ChildStep) (rest : List PathSegment) (node : Value) : Value :=
  (node.child step).getD (initialValue rest.head?)

theorem get_of_asObject (node : Value) (name : Text) :
    (Value.object (node.asObject.getD [])).get name = node.get name := by
  cases node <;> rfl

theorem child_key_set (name : Text) (rest : List PathSegment) (node : Value) (other : Text) :
    (setStructuredPath texts replacement (.key name :: rest) node).child (.key other) =
      if other = name then some (setStructuredPath texts replacement rest (childOrInitial (.key name) rest node))
      else node.child (.key other) := by
  have before := get_of_asObject node
  rw [setStructuredPath]
  dsimp only
  cases found : (Value.object (node.asObject.getD [])).get name with
  | none =>
      have missing : childOrInitial (.key name) rest node = initialValue rest.head? := by
        rw [childOrInitial, Value.child, ← before, found, Option.getD_none]
      rw [Value.child, get_insertEntry other found, before, missing]
      rfl
  | some child =>
      have present : childOrInitial (.key name) rest node = child := by
        rw [childOrInitial, Value.child, ← before, found, Option.getD_some]
      rw [Value.child, get_setEntry other found, before, present]
      rfl

theorem child_key_set_index (name : Text) (rest : List PathSegment) (node : Value) (position : Nat) :
    (setStructuredPath texts replacement (.key name :: rest) node).child (.index position) = none := by
  rw [setStructuredPath]
  dsimp only
  split <;> rfl

theorem child_index_of_asArray (node : Value) (position : Nat) :
    ((asArray node).getD [])[position]? = node.child (.index position) := by
  cases node <;> rfl

theorem child_index_set (position : Nat) (rest : List PathSegment) (node : Value) (other : Nat) :
    (setStructuredPath texts replacement (.index position :: rest) node).child (.index other) =
      if other = position then
        some (setStructuredPath texts replacement rest (childOrInitial (.index position) rest node))
      else if other < position then some (childOrInitial (.index other) rest node)
      else node.child (.index other) := by
  have before := child_index_of_asArray node
  have padded (number : Nat) (within : number <= position) :
      (((asArray node).getD []) ++ List.replicate (position + 1 - ((asArray node).getD []).length)
        (initialValue rest.head?))[number]? = some (childOrInitial (.index number) rest node) := by
    rw [childOrInitial, ← before]
    by_cases inside : number < ((asArray node).getD []).length
    · rw [List.getElem?_append_left inside, List.getElem?_eq_getElem inside, Option.getD_some]
    · have outside : ((asArray node).getD []).length <= number := Nat.le_of_not_lt inside
      rw [List.getElem?_append_right outside, List.getElem?_replicate, if_pos (by omega),
        List.getElem?_eq_none outside, Option.getD_none]
  rw [setStructuredPath]
  rw [Value.child, List.getElem?_modify]
  by_cases same : other = position
  · subst same
    simp only [if_true]
    rw [padded other (Nat.le_refl other)]
    rfl
  · simp only [if_neg same, if_neg (Ne.symm same), Option.map_eq_map, Option.map_id']
    split
    · next below => exact padded other (Nat.le_of_lt below)
    · next above =>
        rw [← before]
        by_cases inside : other < ((asArray node).getD []).length
        · rw [List.getElem?_append_left inside]
        · have outside : ((asArray node).getD []).length <= other := Nat.le_of_not_lt inside
          rw [List.getElem?_append_right outside, List.getElem?_replicate, if_neg (by omega),
            List.getElem?_eq_none outside]

theorem child_wildcard_set (rest : List PathSegment) (node : Value) (step : ChildStep) :
    (setStructuredPath texts replacement (.wildcard :: rest) node).child step =
      (node.child step).map (setStructuredPath texts replacement rest) := by
  cases node with
  | object entries =>
      rw [setStructuredPath]
      cases step with
      | key name =>
          rw [Value.child, Value.child, Value.get, Value.get, List.find?_map, Option.map_map, Option.map_map]
          rfl
      | index position => rfl
  | array elements =>
      rw [setStructuredPath]
      cases step with
      | key name => rfl
      | index position => exact List.getElem?_map
  | null => cases step <;> rfl
  | bool value => cases step <;> rfl
  | number value => cases step <;> rfl
  | string text => cases step <;> rfl

theorem childSteps_wildcard_set (rest : List PathSegment) (node : Value) :
    (setStructuredPath texts replacement (.wildcard :: rest) node).childSteps = node.childSteps := by
  cases node with
  | object entries =>
      rw [setStructuredPath, Value.childSteps, Value.childSteps, List.map_map]
      rfl
  | array elements => rw [setStructuredPath, Value.childSteps, Value.childSteps, List.length_map]
  | _ => rfl

theorem child_step_set (step : ChildStep) (rest : List PathSegment) (node : Value) :
    (setStructuredPath texts replacement (stepSegment step :: rest) node).child step =
      some (setStructuredPath texts replacement rest (childOrInitial step rest node)) := by
  cases step with
  | key name => rw [stepSegment, child_key_set, if_pos rfl]
  | index position => rw [stepSegment, child_index_set, if_pos rfl]

end Segments

/-! ## Whole paths -/

/-- The place that a path comes to by some of its segments, with the rest of the path and the value
which is there or is made. -/
inductive Reaches : List PathSegment -> Value -> List ChildStep -> List PathSegment -> Value -> Prop
  | here (path : List PathSegment) (node : Value) : Reaches path node [] path node
  | step {rest left : List PathSegment} {node found : Value} {place : List ChildStep} (step : ChildStep)
      (further : Reaches rest (childOrInitial step rest node) place left found) :
      Reaches (stepSegment step :: rest) node (step :: place) left found
  | each {rest left : List PathSegment} {node child found : Value} {place : List ChildStep} {step : ChildStep}
      (present : node.child step = some child) (further : Reaches rest child place left found) :
      Reaches (.wildcard :: rest) node (step :: place) left found

/-- A place that is not on a path: at some value the two go on to different entries or to different
elements. -/
def Leaves : List PathSegment -> List ChildStep -> Prop
  | .key name :: rest, .key other :: place => Not (other = name) \/ Leaves rest place
  | .index position :: rest, .index other :: place => Not (other = position) \/ Leaves rest place
  | .wildcard :: rest, _ :: place => Leaves rest place
  | _, _ => False

variable {path left : List PathSegment} {node found : Value} {place : List ChildStep}

/-- What is left of a path is set at the place that it comes to. -/
theorem lookup_of_reaches (reaches : Reaches path node place left found) :
    (setStructuredPath texts replacement path node).lookup place =
      some (setStructuredPath texts replacement left found) := by
  induction reaches with
  | here path node => rfl
  | step step further induction =>
      rw [Value.lookup, child_step_set, Option.bind_some]
      exact induction
  | each present further induction =>
      rw [Value.lookup, child_wildcard_set, present, Option.map_some, Option.bind_some]
      exact induction

theorem lookup_initialValue (next : Option PathSegment) (step : ChildStep) (place : List ChildStep) :
    (initialValue next).lookup (step :: place) = none := by
  have childless : (initialValue next).child step = none := by
    unfold initialValue
    split <;> cases step <;> rfl
  rw [Value.lookup, childless, Option.bind_none]

theorem childOrInitial_of_none {step : ChildStep} {rest : List PathSegment} {node : Value}
    (missing : node.child step = none) : childOrInitial step rest node = initialValue rest.head? := by
  rw [childOrInitial, missing, Option.getD_none]

theorem childOrInitial_of_some {step : ChildStep} {rest : List PathSegment} {node child : Value}
    (present : node.child step = some child) : childOrInitial step rest node = child := by
  rw [childOrInitial, present, Option.getD_some]

/-- A path comes to what is at the place, or to a new value where nothing is. -/
theorem found_of_reaches (reaches : Reaches path node place left found) :
    node.lookup place = some found \/ node.lookup place = none /\ found = initialValue left.head? := by
  induction reaches with
  | here path node => exact Or.inl rfl
  | @step rest left node found place step further induction =>
      rw [Value.lookup]
      cases child : node.child step with
      | some child' =>
          rw [childOrInitial_of_some child] at induction
          exact induction
      | none =>
          refine Or.inr ⟨rfl, ?_⟩
          rw [childOrInitial_of_none child] at induction further
          cases further with
          | here => rfl
          | step _ _ =>
              rw [lookup_initialValue] at induction
              rcases induction with impossible | made
              · cases impossible
              · exact made.2
          | each _ _ =>
              rw [lookup_initialValue] at induction
              rcases induction with impossible | made
              · cases impossible
              · exact made.2
  | each present further induction =>
      rw [Value.lookup, present, Option.bind_some]
      exact induction

/-- A path without wildcards comes to its end. -/
theorem exists_reaches (place : List ChildStep) : forall node : Value,
    Exists fun found => Reaches (place.map stepSegment) node place [] found := by
  induction place with
  | nil => exact fun node => ⟨node, Reaches.here [] node⟩
  | cons step rest induction =>
      intro node
      rcases induction (childOrInitial step (rest.map stepSegment) node) with ⟨found, further⟩
      exact ⟨found, Reaches.step step further⟩

/-- What is not on a path stays. -/
theorem lookup_of_leaves (path : List PathSegment) : forall {place : List ChildStep} {node value : Value},
    Leaves path place -> node.lookup place = some value ->
      (setStructuredPath texts replacement path node).lookup place = some value := by
  induction path with
  | nil =>
      intro place node value leaves
      cases place <;> cases leaves
  | cons segment rest induction =>
      intro place node value leaves present
      cases place with
      | nil => cases segment <;> cases leaves
      | cons step place =>
          rw [Value.lookup] at present ⊢
          rcases Option.bind_eq_some_iff.mp present with ⟨child, isChild, below⟩
          cases segment with
          | wildcard =>
              rw [child_wildcard_set, isChild, Option.map_some, Option.bind_some]
              exact induction leaves below
          | key name =>
              cases step with
              | index position => cases leaves
              | key other =>
                  rw [child_key_set]
                  by_cases same : other = name
                  · subst same
                    rw [if_pos rfl, childOrInitial_of_some isChild, Option.bind_some]
                    exact induction (leaves.resolve_left (fun different => different rfl)) below
                  · rw [if_neg same]
                    exact present
          | index position =>
              cases step with
              | key name => cases leaves
              | index other =>
                  rw [child_index_set]
                  by_cases same : other = position
                  · subst same
                    rw [if_pos rfl, childOrInitial_of_some isChild, Option.bind_some]
                    exact induction (leaves.resolve_left (fun different => different rfl)) below
                  · rw [if_neg same]
                    split
                    · rw [childOrInitial_of_some isChild]
                      exact below
                    · exact present

theorem setStructuredPath_nil (scalar : isObject replacement = false) (node : Value) :
    setStructuredPath texts replacement [] node = structuredValue texts replacement := by
  rw [setStructuredPath]
  cases replacement with
  | object options => cases scalar
  | _ => rfl

/-- An edit sets the place that its path names, and what its wildcards stand for, and nothing else. -/
theorem structured_edit_exact (texts : ValueTexts) {replacement : Value} (scalar : isObject replacement = false)
    (document : Value) :
    (forall place : List ChildStep,
      (setStructuredPath texts replacement (place.map stepSegment) document).lookup place =
        some (structuredValue texts replacement)) /\
      (forall path place value, Leaves path place -> document.lookup place = some value ->
        (setStructuredPath texts replacement path document).lookup place = some value) /\
      (forall path place rest node, Reaches path document place (.wildcard :: rest) node ->
        (document.lookup place = some node \/ document.lookup place = none /\ node = .object []) /\
          Exists fun after => (setStructuredPath texts replacement path document).lookup place = some after /\
            after.childSteps = node.childSteps /\
            forall step, after.child step = (node.child step).map (setStructuredPath texts replacement rest)) := by
  refine ⟨?_, fun path _ _ => lookup_of_leaves path, ?_⟩
  · intro place
    rcases exists_reaches place document with ⟨found, reaches⟩
    rw [lookup_of_reaches reaches, setStructuredPath_nil scalar]
  · intro path place rest node reaches
    exact ⟨found_of_reaches reaches, _, lookup_of_reaches reaches, childSteps_wildcard_set texts replacement rest node,
      child_wildcard_set texts replacement rest node⟩

/-- An array and the elements up to the index are made for a value in an element. -/
theorem structured_edit_exact_made :
    let place : List ChildStep := [.key "a".toList, .index 1, .key "b".toList]
    (setStructuredPath someTexts (.bool true) (place.map stepSegment) (.object [])).lookup place = some (.bool true) :=
  (structured_edit_exact someTexts rfl (.object [])).1 _

end Runtime
end Agapornis
