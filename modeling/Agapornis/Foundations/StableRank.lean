import Mathlib.Data.List.Sort
import Mathlib.Data.List.Basic

namespace Agapornis
namespace Foundations

/-!
# Places in a stable sort

The place of an item in a sorted list is the number of the items that are
strictly before it in the order, and of those which are no different from it in
the order and stood in front of it.
-/

namespace StableRank

variable {Item : Type} {before : Item -> Item -> Bool}

/-- Items that are alike keep their order. -/
theorem filter_mergeSort (transitive : forall first second third,
      before first second -> before second third -> before first third)
    (total : forall first second, before first second || before second first) (items : List Item) (item : Item) :
    (items.mergeSort before).filter (fun other => before item other && before other item) =
      items.filter (fun other => before item other && before other item) := by
  have alike : (items.filter (fun other => before item other && before other item)).Pairwise
      (fun first second => before first second = true) := by
    rw [List.pairwise_iff_forall_sublist]
    intro first second pair
    have firstIn := List.mem_filter.mp (pair.subset List.mem_cons_self)
    have secondIn := List.mem_filter.mp (pair.subset (List.mem_cons_of_mem _ List.mem_cons_self))
    rw [Bool.and_eq_true] at firstIn secondIn
    exact transitive first item second firstIn.2.2 secondIn.2.1
  have kept := List.sublist_mergeSort transitive total alike List.filter_sublist
  have inside := kept.filter (fun other => before item other && before other item)
  rw [List.filter_filter] at inside
  simp only [Bool.and_self] at inside
  have lengths := ((List.mergeSort_perm items before).filter
    (fun other => before item other && before other item)).length_eq
  exact (inside.eq_of_length lengths.symm).symm

variable [DecidableEq Item]

/-- The items that a stable sort puts in front of one. -/
def ahead (before : Item -> Item -> Bool) (items : List Item) (item : Item) : Nat :=
  items.countP (fun other => !before item other) +
    (items.takeWhile (fun other => decide (other ≠ item))).countP (fun other => before item other && before other item)

/-- What stands in front of an item that occurs once. -/
theorem takeWhile_ne {front : List Item} {item : Item} (back : List Item) (fresh : item ∉ front) :
    (front ++ item :: back).takeWhile (fun other => decide (other ≠ item)) = front := by
  rw [List.takeWhile_append_of_pos, List.takeWhile_cons_of_neg, List.append_nil]
  · simp
  · intro other member
    exact decide_eq_true fun same => fresh (same ▸ member)

/-- The place of an item. -/
theorem length_front (transitive : forall first second third,
      before first second -> before second third -> before first third)
    (total : forall first second, before first second || before second first) {items front back : List Item}
    {item : Item} (distinct : items.Nodup) (sorted : items.mergeSort before = front ++ item :: back) :
    front.length = ahead before items item := by
  have order := List.pairwise_mergeSort transitive total items
  have permuted := List.mergeSort_perm items before
  have sortedDistinct : (items.mergeSort before).Nodup := permuted.nodup_iff.mpr distinct
  have alike := filter_mergeSort transitive total items item
  rw [sorted] at order permuted sortedDistinct alike
  have reflexive : before item item = true := by
    have either := total item item
    rwa [Bool.or_self] at either
  have fresh : item ∉ front := fun member =>
    (List.nodup_append.mp sortedDistinct).2.2 item member item List.mem_cons_self rfl
  have member : item ∈ items := permuted.subset (List.mem_append_right _ List.mem_cons_self)
  rcases List.eq_append_cons_of_mem member with ⟨earlier, later, split, freshEarlier⟩
  have ahead_of (other : Item) (inFront : other ∈ front) : before other item = true :=
    (List.pairwise_append.mp order).2.2 other inFront item List.mem_cons_self
  have behind (other : Item) (inBack : other ∈ item :: back) : before item other = true := by
    rcases List.mem_cons.mp inBack with same | later
    · rw [same]
      exact reflexive
    · exact (List.pairwise_cons.mp (List.pairwise_append.mp order).2.1).1 other later
  -- the items strictly before it all stand in front of it
  have strict : items.countP (fun other => !before item other) = front.countP (fun other => !before item other) := by
    have none_behind : (item :: back).countP (fun other => !before item other) = 0 := by
      rw [List.countP_eq_zero]
      intro other inBack
      rw [behind other inBack]
      decide
    rw [← permuted.countP_eq, List.countP_append, none_behind, Nat.add_zero]
  -- of the others those stand in front of it which did so before
  have tied : front.filter (fun other => before item other && before other item) =
      earlier.filter (fun other => before item other && before other item) := by
    rw [split, List.filter_append, List.filter_append, List.filter_cons_of_pos (by rw [reflexive]; rfl),
      List.filter_cons_of_pos (by rw [reflexive]; rfl)] at alike
    have freshFront : item ∉ front.filter (fun other => before item other && before other item) :=
      fun inside => fresh (List.mem_of_mem_filter inside)
    have freshOthers : item ∉ earlier.filter (fun other => before item other && before other item) :=
      fun inside => freshEarlier (List.mem_of_mem_filter inside)
    have frontWhile := takeWhile_ne (back.filter (fun other => before item other && before other item)) freshFront
    rw [alike, takeWhile_ne _ freshOthers] at frontWhile
    exact frontWhile.symm
  have parts := List.length_eq_countP_add_countP (fun other => !before item other) (l := front)
  have rest : front.countP (fun other => decide (Not ((!before item other) = true))) =
      front.countP (fun other => before item other && before other item) := by
    apply List.countP_congr
    intro other inFront
    rw [ahead_of other inFront, Bool.and_true, decide_eq_true_eq, Bool.not_eq_true', Bool.not_eq_false]
  rw [ahead, split, takeWhile_ne _ freshEarlier, ← split, strict, List.countP_eq_length_filter (l := earlier), ← tied,
    ← List.countP_eq_length_filter, ← rest]
  exact parts

/-- An item is behind the first ones when as many are ahead of it. -/
theorem mem_drop_mergeSort (transitive : forall first second third,
      before first second -> before second third -> before first third)
    (total : forall first second, before first second || before second first) {items : List Item} {item : Item}
    (distinct : items.Nodup) (member : item ∈ items) (count : Nat) :
    item ∈ (items.mergeSort before).drop count <-> count <= ahead before items item := by
  have inside := (List.mergeSort_perm items before).mem_iff.mpr member
  have sortedDistinct : (items.mergeSort before).Nodup := (List.mergeSort_perm items before).nodup_iff.mpr distinct
  rcases List.append_of_mem inside with ⟨front, back, sorted⟩
  rw [← length_front transitive total distinct sorted]
  rw [sorted] at sortedDistinct ⊢
  constructor
  · intro dropped
    by_contra few
    have later : item ∈ (front ++ item :: back).drop (front.length + 1) := by
      have smaller : front.length + 1 <= count := by omega
      exact (List.drop_sublist_drop_left _ smaller).subset dropped
    rw [List.drop_append, List.drop_eq_nil_of_le (by omega), List.nil_append, Nat.add_sub_cancel_left,
      List.drop_succ_cons, List.drop_zero] at later
    exact (List.nodup_cons.mp (List.nodup_append.mp sortedDistinct).2.1).1 later
  · intro enough
    rw [List.drop_append_of_le_length enough]
    exact List.mem_append_right _ List.mem_cons_self

end StableRank

end Foundations
end Agapornis
