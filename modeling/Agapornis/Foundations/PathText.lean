import Mathlib.Data.List.Induction
import Agapornis.Foundations.PathWalk
import Agapornis.Foundations.Text

namespace Agapornis
namespace Foundations

/-!
# Path texts as the operating system reads them

A path text is cut at its slashes; empty pieces mean nothing, one dot stays
where it is and two dots go up.  Joining proper names with slashes and
cutting the result again gives the names back.
-/

/-- A text that names an entry of a directory. -/
structure ProperName (name : Text) : Prop where
  nonempty : name ≠ []
  not_current : name ≠ ['.']
  not_parent : name ≠ ['.', '.']
  no_slash : '/' ∉ name

/-- The component of one piece between slashes, if it counts as one. -/
def pieceComponent : Text -> Option (Component Text)
  | [] => none
  | ['.'] => some .current
  | ['.', '.'] => some .parent
  | name => some (.normal name)

def pathComponents (path : Text) : List (Component Text) :=
  (path.splitOn '/').filterMap pieceComponent

theorem pieceComponent_proper {name : Text} (proper : ProperName name) :
    pieceComponent name = some (.normal name) := by
  unfold pieceComponent
  split
  · exact absurd rfl proper.nonempty
  · exact absurd rfl proper.not_current
  · exact absurd rfl proper.not_parent
  · rfl

@[simp] theorem pathComponents_nil : pathComponents [] = [] := rfl

/-- A slash separates components. -/
theorem pathComponents_append (front back : Text) :
    pathComponents (front ++ '/' :: back) = pathComponents front ++ pathComponents back := by
  unfold pathComponents
  rw [List.splitOn_append_cons_self, List.filterMap_append]

theorem pathComponents_name {name : Text} (proper : ProperName name) :
    pathComponents name = [.normal name] := by
  rw [pathComponents]
  rw [List.splitOn_eq_singleton proper.no_slash, List.filterMap_cons, pieceComponent_proper proper]
  rfl

/-- Joining names with slashes and cutting the text again gives the names. -/
theorem pathComponents_intercalate {names : List Text}
    (proper : forall name, name ∈ names -> ProperName name) :
    pathComponents (['/'].intercalate names) = names.map .normal := by
  rw [pathComponents]
  cases names with
  | nil => rfl
  | cons first rest =>
      rw [List.splitOn_intercalate '/' (fun name member => (proper name member).no_slash)
        (List.cons_ne_nil first rest)]
      generalize first :: rest = names at proper
      induction names with
      | nil => rfl
      | cons name names ih =>
          rw [List.filterMap_cons, pieceComponent_proper (proper name List.mem_cons_self)]
          exact congrArg (Component.normal name :: ·)
            (ih (fun later member => proper later (List.mem_cons_of_mem name member)))

/-- The pieces of a cut text are made of its characters other than the
separator. -/
theorem mem_splitOn {separator : Char} {text piece : Text} (member : piece ∈ text.splitOn separator)
    {character : Char} (inside : character ∈ piece) :
    character ∈ text /\ character ≠ separator := by
  induction text generalizing piece with
  | nil =>
      rw [List.splitOn_nil, List.mem_singleton] at member
      subst member
      cases inside
  | cons head tail ih =>
      rw [List.splitOn_cons_eq_if_modifyHead] at member
      split at member
      · rcases List.mem_cons.mp member with empty | later
        · subst empty
          cases inside
        · have found := ih later inside
          exact ⟨List.mem_cons_of_mem head found.1, found.2⟩
      · next other =>
          cases pieces : tail.splitOn separator with
          | nil => exact absurd pieces (List.splitOn_ne_nil separator tail)
          | cons first rest =>
              rw [pieces, List.modifyHead_cons] at member
              rcases List.mem_cons.mp member with same | later
              · subst same
                rcases List.mem_cons.mp inside with isHead | inFirst
                · subst isHead
                  exact ⟨List.mem_cons_self, by simpa using other⟩
                · have found := ih (by rw [pieces]; exact List.mem_cons_self) inFirst
                  exact ⟨List.mem_cons_of_mem head found.1, found.2⟩
              · have found := ih (by rw [pieces]; exact List.mem_cons_of_mem first later) inside
                exact ⟨List.mem_cons_of_mem head found.1, found.2⟩

/-- A line of a text holds no line feed. -/
theorem not_mem_of_mem_lines {text line : Text} (member : line ∈ Text.lines text) : '\n' ∉ line := by
  intro inside
  rcases List.mem_append.mp member with ended | last
  · rcases List.mem_map.mp ended with ⟨piece, isPiece, same⟩
    rw [<- same] at inside
    exact (mem_splitOn (List.dropLast_subset _ isPiece) (Text.mem_of_mem_dropReturn inside)).2 rfl
  · cases pieces : (text.splitOn '\n').getLast? with
    | none =>
        rw [pieces] at last
        cases last
    | some piece =>
        rw [pieces, Option.getD_some] at last
        split at last
        · cases last
        · rw [List.mem_singleton.mp last] at inside
          exact (mem_splitOn (List.mem_of_getLast? pieces) inside).2 rfl

/-- Every character other than the separator is in one of the pieces. -/
theorem exists_mem_splitOn {separator character : Char} {text : Text}
    (member : character ∈ text) (different : character ≠ separator) :
    Exists fun piece => piece ∈ text.splitOn separator /\ character ∈ piece := by
  have joined : [separator].intercalate (text.splitOn separator) = text :=
    List.intercalate_splitOn separator
  rw [← joined] at member
  generalize text.splitOn separator = pieces at member
  clear joined
  induction pieces with
  | nil => cases member
  | cons first rest ih =>
      cases rest with
      | nil =>
          refine ⟨first, List.mem_cons_self, ?_⟩
          simpa [List.intercalate] using member
      | cons second rest =>
          have parts : character ∈ first \/ character ∈ [separator].intercalate (second :: rest) := by
            simpa [List.intercalate, different] using member
          rcases parts with here | later
          · exact ⟨first, List.mem_cons_self, here⟩
          · rcases ih later with ⟨piece, isPiece, inside⟩
            exact ⟨piece, List.mem_cons_of_mem first isPiece, inside⟩

end Foundations
end Agapornis
