import Agapornis.Core.Value

namespace Agapornis
namespace Core

open Foundations

/-!
# Places in a value

A place is reached by steps from a value to one of its children: to the entry
of an object under a name, or to an element of an array.
-/

inductive ChildStep where
  | key (name : Text)
  | index (position : Nat)
  deriving DecidableEq, Repr

namespace Value

/-- The child that a step leads to. -/
def child : ChildStep -> Value -> Option Value
  | .key name, node => node.get name
  | .index position, .array elements => elements[position]?
  | .index _, _ => none

/-- The value at a place. -/
def lookup : List ChildStep -> Value -> Option Value
  | [], node => some node
  | step :: rest, node => (node.child step).bind (lookup rest)

/-- The steps to the children of a value, in their order. -/
def childSteps : Value -> List ChildStep
  | .object entries => entries.map (fun entry => .key entry.1)
  | .array elements => (List.range elements.length).map .index
  | _ => []

/-! ## Children -/

/-- Change each child, with the step to it. -/
def editChildren (change : ChildStep -> Value -> Value) : Value -> Value
  | .object entries => .object (entries.map (fun entry => (entry.1, change (.key entry.1) entry.2)))
  | .array elements => .array (elements.mapIdx (fun position element => change (.index position) element))
  | other => other

/-- An object has no name twice. -/
def NodupNames (node : Value) : Prop :=
  forall entries, node = .object entries -> (entries.map Prod.fst).Nodup

/-- No object in a document has a name twice. -/
def DistinctNames (document : Value) : Prop :=
  forall place node, document.lookup place = some node -> node.NodupNames

theorem DistinctNames.here {document : Value} (distinct : document.DistinctNames) : document.NodupNames :=
  distinct [] document rfl

theorem DistinctNames.below {document child : Value} (distinct : document.DistinctNames) {step : ChildStep}
    (present : document.child step = some child) : child.DistinctNames := by
  intro place node found
  apply distinct (step :: place) node
  rw [lookup, present, Option.bind_some]
  exact found

theorem get_map_snd (change : Text -> Value -> Value) (name : Text) (entries : List (Text × Value)) :
    (object (entries.map (fun entry => (entry.1, change entry.1 entry.2)))).get name =
      ((object entries).get name).map (change name) := by
  induction entries with
  | nil => rfl
  | cons entry entries induction =>
      rw [List.map_cons, get, get, List.find?_cons, List.find?_cons]
      cases same : entry.1 == name with
      | true => rw [Option.map_some, Option.map_some, Option.map_some, eq_of_beq same]
      | false => exact induction

theorem child_editChildren (change : ChildStep -> Value -> Value) (node : Value) (step : ChildStep) :
    (node.editChildren change).child step = (node.child step).map (change step) := by
  cases node with
  | object entries =>
      cases step with
      | key name => exact get_map_snd (fun name => change (.key name)) name entries
      | index position => rfl
  | array elements =>
      cases step with
      | key name => rfl
      | index position =>
          rw [editChildren, child, List.getElem?_mapIdx]
          rfl
  | null => cases step <;> rfl
  | bool value => cases step <;> rfl
  | number value => cases step <;> rfl
  | string text => cases step <;> rfl

theorem editChildren_editChildren (second first : ChildStep -> Value -> Value) (node : Value) :
    (node.editChildren first).editChildren second =
      node.editChildren (fun step child => second step (first step child)) := by
  cases node with
  | object entries =>
      rw [editChildren, editChildren, List.map_map]
      rfl
  | array elements =>
      rw [editChildren, editChildren, List.mapIdx_mapIdx]
      rfl
  | _ => rfl

theorem NodupNames.editChildren {node : Value} (nodup : node.NodupNames) (change : ChildStep -> Value -> Value) :
    (node.editChildren change).NodupNames := by
  cases node with
  | object entries =>
      intro edited same
      cases same
      rw [List.map_map]
      exact nodup entries rfl
  | _ =>
      intro edited same
      cases same

theorem get_of_mem {entries : List (Text × Value)} (nodup : (entries.map Prod.fst).Nodup) {entry : Text × Value}
    (member : entry ∈ entries) : (object entries).get entry.1 = some entry.2 := by
  induction entries with
  | nil => cases member
  | cons first entries induction =>
      rw [List.map_cons, List.nodup_cons] at nodup
      rw [get, List.find?_cons]
      rcases List.mem_cons.mp member with same | later
      · rw [same, beq_self_eq_true]
        rfl
      · have different : Not (first.1 = entry.1) := by
          intro same
          rw [same] at nodup
          exact nodup.1 (List.mem_map_of_mem later)
        rw [beq_eq_false_iff_ne.mpr different]
        exact induction nodup.2 later

/-- Changes of children are the same where they are the same for each. -/
theorem editChildren_congr {node : Value} (nodup : node.NodupNames) {first second : ChildStep -> Value -> Value}
    (same : forall step child, node.child step = some child -> first step child = second step child) :
    node.editChildren first = node.editChildren second := by
  cases node with
  | object entries =>
      rw [editChildren, editChildren, object.injEq, List.map_inj_left]
      intro entry member
      rw [same (.key entry.1) entry.2 (get_of_mem (nodup entries rfl) member)]
  | array elements =>
      rw [editChildren, editChildren, array.injEq]
      apply List.ext_getElem?
      intro position
      rw [List.getElem?_mapIdx, List.getElem?_mapIdx]
      cases element : elements[position]? with
      | none => rfl
      | some child => rw [Option.map_some, Option.map_some, same (.index position) child element]
  | _ => rfl

theorem editChildren_id (node : Value) : node.editChildren (fun _ child => child) = node := by
  cases node with
  | object entries => rw [editChildren, List.map_id']
  | array elements =>
      rw [editChildren, array.injEq]
      apply List.ext_getElem?
      intro position
      rw [List.getElem?_mapIdx, Option.map_id']
  | _ => rfl

end Value

end Core
end Agapornis
