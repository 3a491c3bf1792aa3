import Mathlib.Data.List.DropRight

namespace Agapornis
namespace Foundations

/-!
# The ends of a stream

What is kept of a stream that comes in parts, where its first items are kept
and where its last ones are.  The last items are the library's `List.rtake`.
-/

namespace StreamEnds

variable {Item : Type} {limit : Nat}

theorem length_rtake (items : List Item) : (items.rtake limit).length = min limit items.length := by
  rw [List.rtake, List.length_drop]
  omega

/-- A part as long as the window leaves nothing of what was before it. -/
theorem rtake_append_of_le (front : List Item) {back : List Item} (long : limit <= back.length) :
    (front ++ back).rtake limit = back.rtake limit := by
  have behind : (front ++ back).length - limit = front.length + (back.length - limit) := by
    rw [List.length_append]
    omega
  rw [List.rtake, behind, List.drop_append, List.drop_eq_nil_of_le (Nat.le_add_right _ _), List.nil_append,
    Nat.add_sub_cancel_left, List.rtake]

/-- A shorter part leaves as much of the window as it does not fill. -/
theorem rtake_append_of_ge (front : List Item) {back : List Item} (short : back.length <= limit) :
    (front ++ back).rtake limit = front.rtake (limit - back.length) ++ back := by
  have within : (front ++ back).length - limit = front.length - (limit - back.length) := by
    rw [List.length_append]
    omega
  have inFront : front.length - (limit - back.length) - front.length = 0 := Nat.sub_eq_zero_of_le (Nat.sub_le _ _)
  rw [List.rtake, within, List.drop_append, inFront, List.drop_zero, List.rtake]

theorem rtake_rtake (items : List Item) {shorter : Nat} (within : shorter <= limit) :
    (items.rtake limit).rtake shorter = items.rtake shorter := by
  rw [List.rtake, length_rtake, List.rtake, List.rtake, List.drop_drop]
  congr 1
  omega

end StreamEnds

end Foundations
end Agapornis
