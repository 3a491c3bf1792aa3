import Mathlib.Data.List.Induction
import Mathlib.Data.List.Nodup
import Mathlib.Data.List.Flatten

namespace Agapornis
namespace Foundations

/-!
# Writers that take turns

A log tells who wrote what, in order.  Its writers are those who wrote, each
named anew where another one had written in between.  Where no writer is named
twice the whole is what each has written, one after the other.
-/

namespace Turns

variable {Writer Item : Type}

/-- Everything that was written. -/
def written (log : List (Writer × List Item)) : List Item :=
  log.flatMap Prod.snd

@[simp] theorem written_append (front back : List (Writer × List Item)) :
    written (front ++ back) = written front ++ written back :=
  List.flatMap_append

@[simp] theorem written_single (writer : Writer) (items : List Item) : written [(writer, items)] = items :=
  List.append_nil items

variable [DecidableEq Writer]

/-- One more writing by a writer. -/
def follow (writers : List Writer) (writer : Writer) : List Writer :=
  if writers.getLast? = some writer then writers else writers ++ [writer]

/-- The writers of a log, by their turns. -/
def writers (log : List (Writer × List Item)) : List Writer :=
  log.foldl (fun before entry => follow before entry.1) []

/-- What one of the writers wrote. -/
def portion (log : List (Writer × List Item)) (writer : Writer) : List Item :=
  written (log.filter fun entry => entry.1 = writer)

variable {log : List (Writer × List Item)} {writer other : Writer} {items : List Item}


theorem writers_append (log : List (Writer × List Item)) (writer : Writer) (items : List Item) :
    writers (log ++ [(writer, items)]) = follow (writers log) writer :=
  List.foldl_append

theorem portion_append_same (log : List (Writer × List Item)) (writer : Writer) (items : List Item) :
    portion (log ++ [(writer, items)]) writer = portion log writer ++ items := by
  have kept : [(writer, items)].filter (fun entry => entry.1 = writer) = [(writer, items)] :=
    List.filter_cons_of_pos (decide_eq_true rfl)
  rw [portion, List.filter_append, kept, written_append, written_single]
  rfl

theorem portion_append_other (differs : Not (writer = other)) (log : List (Writer × List Item)) (items : List Item) :
    portion (log ++ [(writer, items)]) other = portion log other := by
  have dropped : [(writer, items)].filter (fun entry => entry.1 = other) = [] :=
    List.filter_cons_of_neg (by rw [decide_eq_true_eq]; exact differs)
  rw [portion, List.filter_append, dropped, List.append_nil]
  rfl

theorem mem_follow {before : List Writer} : other ∈ follow before writer <-> other ∈ before \/ other = writer := by
  rw [follow]
  split
  · next last =>
      constructor
      · exact Or.inl
      · rintro (member | rfl)
        · exact member
        · exact List.mem_of_getLast? last
  · rw [List.mem_append, List.mem_singleton]

/-- The writers are those who wrote. -/
theorem mem_writers : writer ∈ writers log <-> Exists fun items => (writer, items) ∈ log := by
  induction log using List.reverseRecOn with
  | nil => exact iff_of_false List.not_mem_nil (fun ⟨items, impossible⟩ => List.not_mem_nil impossible)
  | append_singleton log entry induction =>
      rw [show entry = (entry.1, entry.2) from rfl, writers_append, mem_follow, induction]
      constructor
      · rintro (⟨items, member⟩ | rfl)
        · exact ⟨items, List.mem_append_left _ member⟩
        · exact ⟨entry.2, List.mem_append_right _ List.mem_cons_self⟩
      · rintro ⟨items, member⟩
        rcases List.mem_append.mp member with earlier | last
        · exact Or.inl ⟨items, earlier⟩
        · exact Or.inr (congrArg Prod.fst (List.mem_singleton.mp last))

/-- Who did not write has no portion. -/
theorem portion_absent (absent : Not (writer ∈ writers log)) : portion log writer = [] := by
  have none : log.filter (fun entry => entry.1 = writer) = [] := by
    refine List.filter_eq_nil_iff.mpr ?_
    intro entry member same
    exact absent (mem_writers.mpr ⟨entry.2, by rw [<- of_decide_eq_true same]; exact member⟩)
  rw [portion, none]
  rfl

/-- A writer goes on, or is a new one. -/
def MayFollow (before : List Writer) (writer : Writer) : Prop :=
  before.getLast? = some writer \/ Not (writer ∈ before)

theorem nodup_follow {before : List Writer} (distinct : before.Nodup) (may : MayFollow before writer) :
    (follow before writer).Nodup := by
  rw [follow]
  split
  · exact distinct
  · next last =>
      have absent := may.resolve_left last
      exact distinct.append (List.nodup_singleton writer) (List.disjoint_singleton.mpr absent)

theorem getLast?_follow (before : List Writer) (writer : Writer) : (follow before writer).getLast? = some writer := by
  rw [follow]
  split
  · next last => exact last
  · exact List.getLast?_concat

/-- A writer that another one follows was followed before, or is followed by the last one. -/
theorem mem_dropLast_follow {before : List Writer} (member : other ∈ (follow before writer).dropLast)
    (distinct : (follow before writer).Nodup) : other ∈ before /\ Not (other = writer) := by
  have last := getLast?_follow before writer
  have split := List.dropLast_append_getLast? _ last
  have apart : Not (other = writer) := by
    rintro rfl
    rw [<- split] at distinct
    exact (List.nodup_append.mp distinct).2.2 other member other List.mem_cons_self rfl
  refine ⟨?_, apart⟩
  exact (mem_follow.mp (List.dropLast_subset _ member)).resolve_right apart

/-- Where no writer is named twice, the portions come one after the other. -/
theorem written_eq_portions (distinct : (writers log).Nodup) : written log = (writers log).flatMap (portion log) := by
  induction log using List.reverseRecOn with
  | nil => rfl
  | append_singleton log entry induction =>
      rcases entry with ⟨writer, items⟩
      rw [writers_append] at distinct
      rw [writers_append, written_append, written_single]
      have others {before : List Writer} (absent : Not (writer ∈ before)) :
          before.flatMap (portion (log ++ [(writer, items)])) = before.flatMap (portion log) := by
        refine List.flatMap_congr ?_
        intro other member
        refine portion_append_other ?_ log items
        rintro rfl
        exact absent member
      by_cases last : (writers log).getLast? = some writer
      · rw [follow, if_pos last] at distinct ⊢
        have split := List.dropLast_append_getLast? _ last
        have absent : Not (writer ∈ (writers log).dropLast) := by
          intro member
          rw [<- split] at distinct
          exact (List.nodup_append.mp distinct).2.2 writer member writer List.mem_cons_self rfl
        rw [induction distinct, <- split, List.flatMap_append, List.flatMap_append, others absent]
        simp only [List.flatMap_cons, List.flatMap_nil, List.append_nil, portion_append_same, List.append_assoc]
      · rw [follow, if_neg last] at distinct ⊢
        have absent : Not (writer ∈ writers log) := fun member =>
          (List.nodup_append.mp distinct).2.2 writer member writer List.mem_cons_self rfl
        rw [induction (List.nodup_append.mp distinct).1, List.flatMap_append, others absent]
        simp only [List.flatMap_cons, List.flatMap_nil, List.append_nil, portion_append_same, portion_absent absent,
          List.nil_append]

end Turns

end Foundations
end Agapornis
