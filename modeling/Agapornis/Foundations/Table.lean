import Mathlib.Algebra.GroupWithZero.Nat
import Mathlib.Data.List.AList
import Mathlib.Data.List.MinMax
import Mathlib.Algebra.BigOperators.Group.List.Basic

namespace Agapornis
namespace Foundations

/-!
# Tables and what their rows weigh

A table holds one entry a key.  The rows of a table have a total weight, of
which each row takes its part, and one of them has the least rank.
-/

abbrev Table (Key Entry : Type) := AList (fun _ : Key => Entry)

namespace Table

variable {Key Entry : Type}

/-- The weights of all rows together. -/
def total (weight : Key -> Entry -> Nat) (table : Table Key Entry) : Nat :=
  (table.entries.map fun row => weight row.1 row.2).sum

/-- The number of rows. -/
def size (table : Table Key Entry) : Nat :=
  table.entries.length

theorem total_le_total {first second : Key -> Entry -> Nat} (table : Table Key Entry)
    (less : forall key entry, first key entry <= second key entry) :
    total first table <= total second table := by
  rw [total, total]
  induction table.entries with
  | nil => exact Nat.le_refl _
  | cons row rest induction =>
      simp only [List.map_cons, List.sum_cons]
      exact Nat.add_le_add (less row.1 row.2) induction

/-- The size is the weight of rows that weigh one each. -/
theorem total_one (table : Table Key Entry) : total (fun _ _ => 1) table = size table := by
  rw [total, size]
  induction table.entries with
  | nil => rfl
  | cons row rest induction =>
      rw [List.map_cons, List.sum_cons, List.length_cons, induction, Nat.add_comm]

variable [DecidableEq Key]

theorem mem_entries {table : Table Key Entry} {key : Key} {entry : Entry} :
    (⟨key, entry⟩ : Sigma fun _ : Key => Entry) ∈ table.entries <->
      table.lookup key = some entry :=
  AList.mem_lookup_iff.symm

/-- The row of a key, with what stands before and behind it. -/
theorem entries_split {table : Table Key Entry} {key : Key} {entry : Entry}
    (found : table.lookup key = some entry) :
    Exists fun front => Exists fun back => table.entries = front ++ ⟨key, entry⟩ :: back /\
      (table.erase key).entries = front ++ back := by
  have inside : key ∈ table.entries.keys := by
    rw [<- AList.keys, <- AList.mem_keys, <- AList.lookup_isSome, found, Option.isSome_some]
  rcases List.exists_of_kerase inside with ⟨held, front, back, _, split, erased⟩
  have row : table.lookup key = some held := by
    rw [<- mem_entries, split]
    exact List.mem_append_right _ List.mem_cons_self
  cases found.symm.trans row
  exact ⟨front, back, split, erased⟩

theorem total_of_lookup (weight : Key -> Entry -> Nat) {table : Table Key Entry} {key : Key}
    {entry : Entry} (found : table.lookup key = some entry) :
    total weight table = weight key entry + total weight (table.erase key) := by
  rcases entries_split found with ⟨front, back, whole, erased⟩
  simp only [total, whole, erased, List.map_append, List.map_cons, List.sum_append, List.sum_cons]
  omega

theorem size_of_lookup {table : Table Key Entry} {key : Key} {entry : Entry}
    (found : table.lookup key = some entry) : size table = size (table.erase key) + 1 := by
  rcases entries_split found with ⟨front, back, whole, erased⟩
  simp only [size, whole, erased, List.length_append, List.length_cons]
  omega

theorem erase_of_absent {table : Table Key Entry} {key : Key} (absent : table.lookup key = none) :
    table.erase key = table := by
  apply AList.ext
  exact List.kerase_of_notMem_keys (AList.lookup_eq_none.mp absent)

theorem total_insert (weight : Key -> Entry -> Nat) (table : Table Key Entry) (key : Key)
    (entry : Entry) :
    total weight (table.insert key entry) = weight key entry + total weight (table.erase key) := by
  simp only [total, AList.entries_insert, List.map_cons, List.sum_cons]
  rfl

theorem lookup_insert_of_ne {table : Table Key Entry} {key other : Key} (entry : Entry)
    (different : Not (other = key)) : (table.insert key entry).lookup other = table.lookup other :=
  AList.lookup_insert_ne different

theorem lookup_erase_of_ne {table : Table Key Entry} {key other : Key}
    (different : Not (other = key)) : (table.erase key).lookup other = table.lookup other :=
  AList.lookup_erase_ne different

theorem size_insert (table : Table Key Entry) (key : Key) (entry : Entry) :
    size (table.insert key entry) = size (table.erase key) + 1 := by
  simp only [size, AList.entries_insert, List.length_cons]
  rfl

theorem size_erase_le (table : Table Key Entry) (key : Key) :
    size (table.erase key) <= size table := by
  cases found : table.lookup key with
  | none => rw [erase_of_absent found]
  | some entry =>
      rw [size_of_lookup found]
      exact Nat.le_succ _

/-- Weights which agree on the rows have the same total. -/
theorem total_congr {first second : Key -> Entry -> Nat} {table : Table Key Entry}
    (agree : forall key entry, table.lookup key = some entry -> first key entry = second key entry) :
    total first table = total second table := by
  rw [total, total]
  apply congrArg List.sum
  apply List.map_congr_left
  intro row member
  exact agree row.1 row.2 (mem_entries.mp member)

/-- Two keys have two rows. -/
theorem one_lt_size {table : Table Key Entry} {first second : Key} {one other : Entry}
    (foundFirst : table.lookup first = some one) (foundSecond : table.lookup second = some other)
    (different : Not (first = second)) : 1 < size table := by
  have inside : (table.erase second).lookup first = some one := by
    rw [lookup_erase_of_ne different]
    exact foundFirst
  rw [size_of_lookup foundSecond, size_of_lookup inside]
  omega

theorem total_of_empty (weight : Key -> Entry -> Nat) {table : Table Key Entry}
    (nothing : forall key, table.lookup key = none) : total weight table = 0 := by
  have none : table.entries = [] := by
    rw [List.eq_nil_iff_forall_not_mem]
    intro row member
    have held := mem_entries.mp member
    rw [nothing] at held
    cases held
  rw [total, none]
  rfl

/-- The key of the least row among those other than the protected one. -/
def leastOther (rank : Entry -> Nat) (guarded : Key) (table : Table Key Entry) : Option Key :=
  ((table.entries.filter fun row => row.1 ≠ guarded).argmin fun row => rank row.2).map Sigma.fst

theorem leastOther_some {rank : Entry -> Nat} {guarded least : Key} {table : Table Key Entry}
    (found : leastOther rank guarded table = some least) :
    Not (least = guarded) /\ Exists fun entry => table.lookup least = some entry /\
      forall key other, Not (key = guarded) -> table.lookup key = some other ->
        rank entry <= rank other := by
  rw [leastOther, Option.map_eq_some_iff] at found
  rcases found with ⟨row, minimal, same⟩
  have member := List.mem_filter.mp (List.argmin_mem minimal)
  have different : Not (row.1 = guarded) := by simpa using member.2
  subst same
  refine ⟨different, row.2, mem_entries.mp member.1, ?_⟩
  intro key other notGuarded held
  exact List.le_of_mem_argmin (f := fun row : Sigma fun _ : Key => Entry => rank row.2)
    (List.mem_filter.mpr ⟨mem_entries.mpr held, by simpa using notGuarded⟩) minimal

theorem leastOther_none {rank : Entry -> Nat} {guarded key : Key} {table : Table Key Entry}
    (nothing : leastOther rank guarded table = none) (different : Not (key = guarded)) :
    table.lookup key = none := by
  rw [leastOther, Option.map_eq_none_iff, List.argmin_eq_none, List.filter_eq_nil_iff] at nothing
  cases held : table.lookup key with
  | none => rfl
  | some entry =>
      have refused := nothing _ (mem_entries.mpr held)
      simp only [decide_not, Bool.not_eq_true', decide_eq_false_iff_not, Decidable.not_not] at refused
      exact absurd refused different

end Table

end Foundations
end Agapornis
