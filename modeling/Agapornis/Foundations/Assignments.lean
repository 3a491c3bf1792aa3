import Mathlib.Data.Char
import Mathlib.Data.List.Lex
import Mathlib.Data.List.Sort
import Agapornis.Foundations.Text

namespace Agapornis
namespace Foundations

/-!
# Lists of assignments

An environment is a list of entries, of which those with an equals sign assign
a value to a name.  The last assignment to a name wins.  One environment is
overridden by another when the assignments to the names of the other are
dropped and its entries are put behind the rest.
-/

namespace Assignments

/-- The name that an entry is about, the whole entry when it assigns nothing. -/
def entryKey (entry : Text) : Text :=
  ((Text.splitOnce '=' entry).map Prod.fst).getD entry

/-- The value which an entry assigns to a name. -/
def valueFor (key entry : Text) : Option Text :=
  match Text.splitOnce '=' entry with
  | some (name, value) => if name = key then some value else none
  | none => none

/-- The value that the last assignment to a name gives it. -/
def lastValue (key : Text) (entries : List Text) : Option Text :=
  entries.reverse.findSome? (valueFor key)

/-- The names to which some entries assign values. -/
def assignedKeys (entries : List Text) : List Text :=
  entries.filterMap (fun entry => (Text.splitOnce '=' entry).map Prod.fst)

/-- Whether an entry assigns a value to one of some names. -/
def assignsOneOf (keys : List Text) (entry : Text) : Bool :=
  match Text.splitOnce '=' entry with
  | some (name, _) => keys.contains name
  | none => false

/-- The assignments of one environment are replaced by those of another. -/
def override (base desired : List Text) : List Text :=
  base.filter (fun entry => !assignsOneOf (assignedKeys desired) entry) ++ desired

/-- An entry that assigns nothing. -/
def Valueless (entry : Text) : Prop :=
  Text.splitOnce '=' entry = none

theorem splitOnce_assignment {key : Text} (plain : '=' ∉ key) (value : Text) :
    Text.splitOnce '=' (key ++ '=' :: value) = some (key, value) :=
  Text.splitOnce_append plain value

theorem valueFor_isSome {key entry : Text} :
    (valueFor key entry).isSome = true <-> Exists fun value => Text.splitOnce '=' entry = some (key, value) := by
  unfold valueFor
  split
  · next name value split =>
      by_cases same : name = key
      · subst same
        rw [if_pos rfl, split]
        exact ⟨fun _ => ⟨value, rfl⟩, fun _ => rfl⟩
      · rw [if_neg same, split]
        constructor
        · intro impossible
          cases impossible
        · rintro ⟨other, equal⟩
          exact absurd (Prod.mk.inj (Option.some.inj equal)).1 same
  · next split =>
      rw [split]
      constructor
      · intro impossible
        cases impossible
      · rintro ⟨value, impossible⟩
        cases impossible

theorem mem_assignedKeys {key : Text} {entries : List Text} :
    key ∈ assignedKeys entries <-> Exists fun entry => entry ∈ entries /\ (valueFor key entry).isSome = true := by
  unfold assignedKeys
  rw [List.mem_filterMap]
  constructor
  · rintro ⟨entry, inside, found⟩
    rcases Option.map_eq_some_iff.mp found with ⟨⟨name, value⟩, split, same⟩
    cases same
    exact ⟨entry, inside, valueFor_isSome.mpr ⟨value, split⟩⟩
  · rintro ⟨entry, inside, assigned⟩
    rcases valueFor_isSome.mp assigned with ⟨value, split⟩
    exact ⟨entry, inside, by rw [split]; rfl⟩

theorem assignsOneOf_of_valueFor {keys : List Text} {key entry : Text}
    (assigned : (valueFor key entry).isSome = true) : assignsOneOf keys entry = keys.contains key := by
  rcases valueFor_isSome.mp assigned with ⟨value, split⟩
  unfold assignsOneOf
  rw [split]

theorem assignsOneOf_mono {few many : List Text} {entry : Text} (assigns : assignsOneOf few entry = true)
    (within : forall key, key ∈ few -> key ∈ many) : assignsOneOf many entry = true := by
  unfold assignsOneOf at assigns ⊢
  split at assigns
  · next name value split =>
      exact List.contains_iff_mem.mpr (within name (List.contains_iff_mem.mp assigns))
  · cases assigns

/-! ## The last value -/

theorem lastValue_append (key : Text) (front back : List Text) :
    lastValue key (front ++ back) = (lastValue key back).or (lastValue key front) := by
  unfold lastValue
  rw [List.reverse_append, List.findSome?_append]

theorem lastValue_eq_none {key : Text} {entries : List Text} :
    lastValue key entries = none <-> forall entry, entry ∈ entries -> valueFor key entry = none := by
  unfold lastValue
  rw [List.findSome?_eq_none_iff]
  simp only [List.mem_reverse]

theorem lastValue_isSome {key : Text} {entries : List Text} :
    (lastValue key entries).isSome = true <-> key ∈ assignedKeys entries := by
  rw [mem_assignedKeys]
  constructor
  · intro present
    by_contra nowhere
    have absent : lastValue key entries = none := by
      apply lastValue_eq_none.mpr
      intro entry inside
      by_contra assigned
      exact nowhere ⟨entry, inside, Option.isSome_iff_ne_none.mpr assigned⟩
    rw [absent] at present
    cases present
  · rintro ⟨entry, inside, assigned⟩
    rw [Option.isSome_iff_ne_none]
    intro absent
    rw [lastValue_eq_none.mp absent entry inside] at assigned
    cases assigned

/-- Entries that do not assign to a name can be left out. -/
theorem lastValue_filter {key : Text} {keep : Text -> Bool} {entries : List Text}
    (kept : forall entry, entry ∈ entries -> (valueFor key entry).isSome = true -> keep entry = true) :
    lastValue key (entries.filter keep) = lastValue key entries := by
  induction entries with
  | nil => rfl
  | cons entry rest induction =>
      have later := induction (fun other inside => kept other (List.mem_cons_of_mem entry inside))
      have split (tail : List Text) : lastValue key (entry :: tail) =
          (lastValue key tail).or (lastValue key [entry]) := lastValue_append key [entry] tail
      by_cases stays : keep entry = true
      · rw [List.filter_cons_of_pos stays, split (rest.filter keep), split rest, later]
      · have silent : lastValue key [entry] = none := by
          apply lastValue_eq_none.mpr
          intro other inside
          rw [List.mem_singleton.mp inside]
          by_contra assigned
          exact stays (kept entry List.mem_cons_self (Option.isSome_iff_ne_none.mpr assigned))
        rw [List.filter_cons_of_neg stays, split rest, silent, later, Option.or_none]

/-- The other environment decides, where it says anything. -/
theorem lastValue_override (key : Text) (base desired : List Text) :
    lastValue key (override base desired) = (lastValue key desired).or (lastValue key base) := by
  unfold override
  rw [lastValue_append]
  cases decided : lastValue key desired with
  | some value => rfl
  | none =>
      rw [lastValue_filter]
      intro entry _ assigned
      rw [assignsOneOf_of_valueFor assigned]
      have absent : Not (key ∈ assignedKeys desired) := by
        rw [<- lastValue_isSome, decided]
        exact Bool.false_ne_true
      simpa using absent

/-! ## Names -/

theorem entryKey_of_assigned {key entry : Text} (assigned : (valueFor key entry).isSome = true) :
    entryKey entry = key := by
  rcases valueFor_isSome.mp assigned with ⟨value, split⟩
  unfold entryKey
  rw [split]
  rfl

/-- Nothing is assigned to a name that no entry is about. -/
theorem lastValue_of_no_key {key : Text} {entries : List Text}
    (absent : Not (key ∈ entries.map entryKey)) : lastValue key entries = none := by
  apply lastValue_eq_none.mpr
  intro entry inside
  by_contra assigned
  apply absent
  rw [<- entryKey_of_assigned (Option.isSome_iff_ne_none.mpr assigned)]
  exact List.mem_map_of_mem inside

/-- What an override drops is named by the other environment, and so the
names of both remain. -/
theorem mem_keys_override {key : Text} {base desired : List Text} :
    key ∈ (override base desired).map entryKey <-> key ∈ base.map entryKey \/ key ∈ desired.map entryKey := by
  unfold override
  rw [List.map_append, List.mem_append]
  constructor
  · rintro (kept | inside)
    · rcases List.mem_map.mp kept with ⟨entry, inside, same⟩
      exact Or.inl (List.mem_map.mpr ⟨entry, (List.mem_filter.mp inside).1, same⟩)
    · exact Or.inr inside
  · rintro (before | inside)
    · rcases List.mem_map.mp before with ⟨entry, inside, same⟩
      by_cases dropped : assignsOneOf (assignedKeys desired) entry = true
      · right
        unfold assignsOneOf at dropped
        split at dropped
        · next name value split =>
            have named : entryKey entry = name := entryKey_of_assigned (valueFor_isSome.mpr ⟨value, split⟩)
            have assigned : name ∈ assignedKeys desired := by simpa using dropped
            rcases mem_assignedKeys.mp assigned with ⟨other, there, gives⟩
            rw [<- same, named, <- entryKey_of_assigned gives]
            exact List.mem_map_of_mem there
        · cases dropped
      · left
        refine List.mem_map.mpr ⟨entry, List.mem_filter.mpr ⟨inside, ?_⟩, same⟩
        simpa using dropped
    · exact Or.inr inside

/-! ## Order -/

/-- Sorted lists of entries are the same exactly if they have the same entries. -/
theorem mergeSort_eq_iff {first second : List Text} :
    first.mergeSort (fun left right => decide (left ≤ right)) =
        second.mergeSort (fun left right => decide (left ≤ right)) <-> first.Perm second := by
  constructor
  · intro same
    exact (List.mergeSort_perm first _).symm.trans (same ▸ List.mergeSort_perm second _)
  · intro same
    have sorted (entries : List Text) :
        (entries.mergeSort (fun left right => decide (left ≤ right))).Pairwise (· ≤ ·) := by
      have pairs : (entries.mergeSort (fun left right => decide (left ≤ right))).Pairwise
          (fun left right => decide (left ≤ right) = true) := List.pairwise_mergeSort
        (fun left middle right lower upper => by
          simp only [decide_eq_true_eq] at lower upper ⊢
          exact le_trans lower upper)
        (fun left right => by
          simp only [Bool.or_eq_true, decide_eq_true_eq]
          exact le_total left right) entries
      exact pairs.imp (fun lower => of_decide_eq_true lower)
    apply List.Perm.eq_of_pairwise _ (sorted first) (sorted second)
    · exact ((List.mergeSort_perm first _).trans same).trans (List.mergeSort_perm second _).symm
    · intro left right _ _ lower upper
      exact le_antisymm lower upper

/-- An override has the same entries as before exactly if it replaces
assignments by the same ones. -/
theorem perm_override_iff {base desired : List Text} :
    base.Perm (override base desired) <->
      (base.filter (assignsOneOf (assignedKeys desired))).Perm desired := by
  have parts := List.filter_append_perm (assignsOneOf (assignedKeys desired)) base
  unfold override
  constructor
  · intro same
    have swapped := (parts.trans same).trans List.perm_append_comm
    exact (List.perm_append_right_iff _).mp swapped
  · intro same
    exact parts.symm.trans (List.perm_append_comm.trans ((List.perm_append_left_iff _).mpr same))

end Assignments

end Foundations
end Agapornis
