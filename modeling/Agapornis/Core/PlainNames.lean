import Agapornis.Core.Paths

namespace Agapornis
namespace Core

open Foundations

/-!
# What a requested path comes to

A request is told by its pieces between slashes: two dots among them make it
refused, and otherwise the pieces that are neither empty nor a dot are its
names.  The paths below a root are told apart by these names alone.
-/

namespace Paths

/-- The pieces of a requested path between slashes of either kind. -/
def requestedPieces (requested : Text) : List Text :=
  (Text.replaceChar '\\' '/' requested).splitOn '/'

/-- A request that goes up somewhere. -/
def GoesUp (requested : Text) : Prop :=
  ['.', '.'] ∈ requestedPieces requested

instance (requested : Text) : Decidable (GoesUp requested) :=
  inferInstanceAs (Decidable (_ ∈ _))

/-- The pieces that say something. -/
def plainNames (requested : Text) : List Text :=
  (requestedPieces requested).filter fun piece => Not (piece = []) && Not (piece = ['.'])

/-- A piece is silent, goes up or is a name. -/
theorem pathPart_cases (piece : Text) :
    ((piece = [] \/ piece = ['.']) /\ pathPart piece = none) \/
      (piece = ['.', '.'] /\ pathPart piece = some .parentDir) \/
      ((piece ≠ [] /\ piece ≠ ['.'] /\ piece ≠ ['.', '.']) /\ pathPart piece = some (.normal piece)) := by
  unfold pathPart
  split
  · exact Or.inl ⟨Or.inl rfl, rfl⟩
  · exact Or.inl ⟨Or.inr rfl, rfl⟩
  · exact Or.inr (Or.inl ⟨rfl, rfl⟩)
  · next notEmpty notDot notParent => exact Or.inr (Or.inr ⟨⟨notEmpty, notDot, notParent⟩, rfl⟩)

/-- The parts of pieces are taken for names up to one that goes up. -/
theorem relativeLoop_pieces (pieces : List Text) : forall (index : Nat) (output : List Text),
    relativeLoop index output (pieces.filterMap pathPart) =
      if ['.', '.'] ∈ pieces then .error (.bail "invalid file path")
      else .ok (output ++ pieces.filter fun piece => Not (piece = []) && Not (piece = ['.'])) := by
  induction pieces with
  | nil =>
      intro index output
      rw [List.filterMap_nil, relativeLoop, if_neg List.not_mem_nil, List.filter_nil, List.append_nil]
  | cons piece pieces induction =>
      intro index output
      rcases pathPart_cases piece with ⟨silent, part⟩ | ⟨up, part⟩ | ⟨⟨notEmpty, notDot, notParent⟩, part⟩
      · rw [List.filterMap_cons_none part, induction]
        rcases silent with empty | dot
        · simp [empty]
        · simp [dot]
      · rw [List.filterMap_cons_some part, relativeLoop, if_pos]
        rw [up]
        exact List.mem_cons_self
      · rw [List.filterMap_cons_some part, relativeLoop, induction]
        simp [notEmpty, notDot, notParent.symm]

/-- The root and a dot before the other parts are passed over. -/
theorem relativeLoop_components (path : Text) :
    relativeLoop 0 [] (components path) =
      if ['.', '.'] ∈ path.splitOn '/' then .error (.bail "invalid file path")
      else .ok ((path.splitOn '/').filter fun piece => Not (piece = []) && Not (piece = ['.'])) := by
  unfold components
  split
  · rw [relativeLoop, if_pos rfl, relativeLoop_pieces, List.nil_append]
  · split
    · rw [relativeLoop, relativeLoop_pieces, List.nil_append]
    · rw [relativeLoop_pieces, List.nil_append]

/-- What `relative` does with every request. -/
theorem relative_eq (requested : Text) :
    relative requested =
      if GoesUp requested then .error (.bail "invalid file path") else .ok (plainNames requested) :=
  relativeLoop_components _

theorem relative_ok {requested : Text} (stays : Not (GoesUp requested)) :
    relative requested = .ok (plainNames requested) := by
  rw [relative_eq, if_neg stays]

theorem plainNames_requested {requested : Text} (stays : Not (GoesUp requested)) :
    forall name, name ∈ plainNames requested -> RequestedName name :=
  relative_names (relative_ok stays)

/-! ## Below a container directory -/

/-- The directory without the slashes at its end. -/
def trimmed (root : Text) : Text :=
  (root.reverse.dropWhile (· = '/')).reverse

/-- The text of the names below a directory. -/
def containerText (root : Text) (names : List Text) : Text :=
  if names = [] then root else trimmed root ++ '/' :: display names

theorem containerPath_eq (root requested : Text) :
    containerPath root requested =
      if GoesUp requested then .error (.bail "invalid file path")
      else .ok (containerText root (plainNames requested)) := by
  rw [containerPath, relative_eq]
  by_cases up : GoesUp requested
  · rw [if_pos up, if_pos up]
  · have names := plainNames_requested up
    rw [if_neg up, if_neg up]
    dsimp only
    rw [Text.replaceChar_of_not_mem (no_backslash_display names), containerText]
    by_cases empty : plainNames requested = []
    · rw [if_pos empty, empty]
      rfl
    · rw [if_neg empty, if_neg]
      · rfl
      · rw [List.isEmpty_iff, display_eq_nil names]
        exact empty

theorem components_append {front : Text} (nonempty : front ≠ []) (back : Text) :
    components (front ++ '/' :: back) = components front ++ (back.splitOn '/').filterMap pathPart := by
  have head : (front ++ '/' :: back).head? = front.head? := List.head?_append_of_ne_nil front nonempty
  have pieces : (front ++ '/' :: back).splitOn '/' = front.splitOn '/' ++ back.splitOn '/' :=
    List.splitOn_append_cons_self front back
  have first : (front.splitOn '/' ++ back.splitOn '/').head? = (front.splitOn '/').head? :=
    List.head?_append_of_ne_nil _ (List.splitOn_ne_nil '/' front)
  unfold components
  rw [head, pieces, first, List.filterMap_append]
  split
  · rfl
  · split <;> rfl

/-- The slashes at the end of a directory do not matter for what is below it. -/
theorem components_trimmed (root : Text) (back : Text) : root ≠ [] ->
    components (trimmed root ++ '/' :: back) = components root ++ (back.splitOn '/').filterMap pathPart := by
  induction root using List.reverseRecOn with
  | nil => exact fun nonempty => absurd rfl nonempty
  | append_singleton front last induction =>
      intro nonempty
      unfold trimmed at *
      by_cases slash : last = '/'
      · subst slash
        rw [List.reverse_concat, List.dropWhile_cons_of_pos (by simp)]
        by_cases top : front = []
        · subst top
          have shown : components ('/' :: back) = .rootDir :: (back.splitOn '/').filterMap pathPart := by
            rw [components, List.head?_cons, if_pos rfl]
            have pieces : ('/' :: back).splitOn '/' = [] :: back.splitOn '/' :=
              List.splitOn_append_cons_self [] back
            rw [pieces, List.filterMap_cons_none rfl]
          exact shown
        · rw [induction top, components_append top]
          rw [List.splitOn_nil, List.filterMap_cons_none rfl, List.filterMap_nil, List.append_nil]
      · rw [List.reverse_concat, List.dropWhile_cons_of_neg (by simpa using slash), List.reverse_cons,
          List.reverse_reverse, components_append nonempty]

theorem filterMap_display {names : List Text} (requested : forall name, name ∈ names -> RequestedName name) :
    ((display names).splitOn '/').filterMap pathPart = names.map .normal := by
  cases names with
  | nil => rfl
  | cons first rest =>
      rw [display, List.splitOn_intercalate '/' (fun name member => (requested name member).no_slash)
        (List.cons_ne_nil first rest)]
      refine List.filterMap_eq_map_iff_forall_eq_some.mpr fun name member => ?_
      have proper := requested name member
      unfold pathPart
      split
      · exact absurd rfl proper.nonempty
      · exact absurd rfl proper.not_current
      · exact absurd rfl proper.not_parent
      · rfl

/-- Below a directory the components are its own and then the names. -/
theorem components_containerText {root : Text} (nonempty : root ≠ []) {names : List Text}
    (requested : forall name, name ∈ names -> RequestedName name) :
    components (containerText root names) = components root ++ names.map .normal := by
  unfold containerText
  split
  · next empty => rw [empty, List.map_nil, List.append_nil]
  · rw [components_trimmed root _ nonempty, filterMap_display requested]

/-! ## The paths of requests -/

theorem display_injective {names others : List Text}
    (requested : forall name, name ∈ names -> RequestedName name)
    (requestedOthers : forall name, name ∈ others -> RequestedName name)
    (same : display names = display others) : names = others := by
  have read := relative_display requested
  rw [same, relative_display requestedOthers] at read
  exact (Except.ok.inj read).symm

theorem trimmed_eq_append (root : Text) : Exists fun count => root = trimmed root ++ List.replicate count '/' := by
  induction root using List.reverseRecOn with
  | nil => exact ⟨0, rfl⟩
  | append_singleton front last induction =>
      unfold trimmed at *
      by_cases slash : last = '/'
      · rcases induction with ⟨count, shape⟩
        refine ⟨count + 1, ?_⟩
        rw [List.reverse_concat, List.dropWhile_cons_of_pos (by simpa using slash), List.replicate_succ',
          ← List.append_assoc, ← shape, slash]
      · refine ⟨0, ?_⟩
        rw [List.reverse_concat, List.dropWhile_cons_of_neg (by simpa using slash), List.reverse_cons,
          List.reverse_reverse, List.replicate_zero, List.append_nil]

theorem pathComponents_slashes (path : Text) (count : Nat) :
    pathComponents (path ++ List.replicate count '/') = pathComponents path := by
  induction count with
  | zero => rw [List.replicate_zero, List.append_nil]
  | succ count induction =>
      rw [List.replicate_succ', ← List.append_assoc, pathComponents_append, induction, pathComponents_nil,
        List.append_nil]

theorem pathComponents_containerText (root : Text) {names : List Text}
    (requested : forall name, name ∈ names -> RequestedName name) :
    pathComponents (containerText root names) = pathComponents root ++ names.map .normal := by
  unfold containerText
  split
  · next empty => rw [empty, List.map_nil, List.append_nil]
  · rcases trimmed_eq_append root with ⟨count, shape⟩
    have same : pathComponents root = pathComponents (trimmed root) :=
      (congrArg pathComponents shape).trans (pathComponents_slashes _ count)
    rw [pathComponents_append, same]
    exact congrArg _ (pathComponents_intercalate fun name member => (requested name member).toProperName)

/-- Other names make another text. -/
theorem containerText_injective {root : Text} {names others : List Text}
    (requested : forall name, name ∈ names -> RequestedName name)
    (requestedOthers : forall name, name ∈ others -> RequestedName name)
    (same : containerText root names = containerText root others) : names = others := by
  -- A directory is no text of something below it: only slashes stand at its end.
  have apart : forall {names : List Text}, (forall name, name ∈ names -> RequestedName name) ->
      Not (names = []) -> Not (root = trimmed root ++ '/' :: display names) := by
    intro names requested nonempty here
    rcases trimmed_eq_append root with ⟨count, shape⟩
    have slashes : List.replicate count '/' = '/' :: display names :=
      List.append_cancel_left (shape.symm.trans here)
    cases names with
    | nil => exact nonempty rfl
    | cons first rest =>
        have proper := requested first List.mem_cons_self
        rcases List.exists_mem_of_ne_nil first proper.nonempty with ⟨character, inside⟩
        have noSlash : character ≠ '/' := fun slash => proper.no_slash (slash ▸ inside)
        have shown : character ∈ List.replicate count '/' := by
          rw [slashes]
          exact List.mem_cons_of_mem _ ((mem_display noSlash).mpr ⟨first, List.mem_cons_self, inside⟩)
        exact noSlash (List.eq_of_mem_replicate shown)
  unfold containerText at same
  by_cases empty : names = []
  · by_cases otherEmpty : others = []
    · rw [empty, otherEmpty]
    · rw [if_pos empty, if_neg otherEmpty] at same
      exact absurd same (apart requestedOthers otherEmpty)
  · by_cases otherEmpty : others = []
    · rw [if_neg empty, if_pos otherEmpty] at same
      exact absurd same.symm (apart requested empty)
    · rw [if_neg empty, if_neg otherEmpty] at same
      exact display_injective requested requestedOthers (List.cons.inj (List.append_cancel_left same)).2

/-- What a request comes to, by its pieces alone.  Only below an empty directory
does the slash before the names begin an absolute path. -/
structure Confined (requested : Text) : Prop where
  refused : (Exists fun failure => relative requested = .error failure) <-> GoesUp requested
  accepted : Not (GoesUp requested) -> relative requested = .ok (plainNames requested)
  host : forall root, safeHostPath root requested =
    (relative requested).map fun names => root ++ names.map .normal
  container : forall root, containerPath root requested = (relative requested).map (containerText root)
  walked : forall root, Not (GoesUp requested) ->
    pathComponents (containerText root (plainNames requested)) =
      pathComponents root ++ (plainNames requested).map .normal
  below : forall root, root ≠ [] -> Not (GoesUp requested) ->
    components (containerText root (plainNames requested)) =
      components root ++ (plainNames requested).map .normal
  again : Not (GoesUp requested) ->
    relative (display (plainNames requested)) = .ok (plainNames requested)

/-- Two requests are for one path just when they have the same names, wherever
the path is taken to start. -/
structure ToldApart (requested other : Text) : Prop where
  relative : relative requested = relative other <-> plainNames requested = plainNames other
  host : forall root, safeHostPath root requested = safeHostPath root other <->
    plainNames requested = plainNames other
  container : forall root, containerPath root requested = containerPath root other <->
    plainNames requested = plainNames other

theorem confined (requested : Text) : Confined requested where
  refused := by
    rw [relative_eq]
    by_cases up : GoesUp requested
    · rw [if_pos up]
      exact iff_of_true ⟨_, rfl⟩ up
    · rw [if_neg up]
      exact iff_of_false (fun found => by rcases found with ⟨failure, impossible⟩; cases impossible) up
  accepted := relative_ok
  host root := by
    rw [safeHostPath]
    cases relative requested <;> rfl
  container root := by
    rw [containerPath_eq, relative_eq]
    split <;> rfl
  walked root stays := pathComponents_containerText root (plainNames_requested stays)
  below root nonempty stays := components_containerText nonempty (plainNames_requested stays)
  again stays := relative_display (plainNames_requested stays)

theorem toldApart {requested other : Text} (stays : Not (GoesUp requested)) (otherStays : Not (GoesUp other)) :
    ToldApart requested other where
  relative := by
    rw [relative_ok stays, relative_ok otherStays, Except.ok.injEq]
  host root := by
    rw [(confined requested).host, (confined other).host, relative_ok stays, relative_ok otherStays]
    constructor
    · intro same
      have names := List.append_cancel_left (Except.ok.inj same)
      exact List.map_injective_iff.mpr (fun _ _ => Component.normal.inj) names
    · intro same
      rw [same]
  container root := by
    rw [containerPath_eq, containerPath_eq, if_neg stays, if_neg otherStays]
    constructor
    · exact fun same => containerText_injective (plainNames_requested stays) (plainNames_requested otherStays)
        (Except.ok.inj same)
    · intro same
      rw [same]

/-- Requested paths are confined, and told apart by their names. -/
theorem requests_confined : (forall requested, Confined requested) /\
    forall requested other, Not (GoesUp requested) -> Not (GoesUp other) -> ToldApart requested other :=
  ⟨confined, fun _ _ => toldApart⟩

end Paths

end Core
end Agapornis
