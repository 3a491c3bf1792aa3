import Agapornis.Foundations.TreeEntries

namespace Agapornis
namespace Foundations

/-!
# What the making of directories adds

Whatever is made on the way to a path is a directory to which a beginning of
the path leads afterwards, and nothing else is changed.  What was opened for
writing is found again at its path.
-/

variable {Name Content : Type} [DecidableEq Name] {tree : FileTree Name Content}
  {path : List (Component Name)}

/-- The directories that were made are those to which beginnings of a path lead now. -/
structure GrownAlong (tree : FileTree Name Content) (path : List (Component Name))
    (making : Making Name Content) : Prop where
  grown : Extends tree making.tree
  nodes : forall place, making.tree.node place =
    if place ∈ making.created then some .directory else tree.node place
  places : forall place, place ∈ making.created -> Exists fun front =>
    front <+: path /\ canonicalize making.tree front = .ok place

theorem GrownAlong.refl (tree : FileTree Name Content) (path : List (Component Name))
    (result : Except Errno Unit) : GrownAlong tree path ⟨[], tree, result⟩ where
  grown := Extends.refl tree
  nodes _ := (if_neg List.not_mem_nil).symm
  places _ member := absurd member List.not_mem_nil

/-- A directory that was made is what its path leads to. -/
theorem makeDirectory_found {place : List Name} {grown : FileTree Name Content}
    (made : makeDirectory tree path = .ok (place, grown)) : canonicalize grown path = .ok place := by
  rw [makeDirectory] at made
  split at made
  · next holder name left walked =>
      cases made
      have planted := tree.plant_node .directory (resolve_holds tree .stopAtLink walked)
      have stopped := walk_plant tree .stopAtLink .directory (fun _ impossible => by cases impossible)
        tree.top_directory walked
      have plain : forall text,
          (tree.plant holder name .directory).node (holder ++ [name]) ≠ some (.link text) := by
        intro text
        rw [planted, if_pos rfl]
        exact fun impossible => by cases impossible
      exact (canonicalize_eq_ok _ _ _).mpr ⟨left, walk_follow_of_stopAtLink _ stopped plain⟩
  · cases made
  · cases made

theorem makeDirectory_node {place : List Name} {grown : FileTree Name Content}
    (made : makeDirectory tree path = .ok (place, grown)) :
    tree.node place = none /\ Extends tree grown /\
      forall other, grown.node other = if other = place then some .directory else tree.node other := by
  rw [makeDirectory] at made
  split at made
  · next holder name left walked =>
      cases made
      have free := resolve_holds tree .stopAtLink walked
      exact ⟨free.2, tree.extends_plant .directory free, tree.plant_node .directory free⟩
  · cases made
  · cases made

theorem makeDirectory_grown {place : List Name} {grown : FileTree Name Content}
    (made : makeDirectory tree path = .ok (place, grown)) (result : Except Errno Unit) :
    GrownAlong tree path ⟨[place], grown, result⟩ := by
  rcases makeDirectory_node made with ⟨_, kept, planted⟩
  refine ⟨kept, ?_, ?_⟩
  · intro other
    simp only [List.mem_singleton]
    exact planted other
  · intro other member
    rw [List.mem_singleton.mp member]
    exact ⟨path, List.prefix_rfl, makeDirectory_found made⟩

theorem ensureDirectory_grown (tree : FileTree Name Content) (path : List (Component Name)) :
    GrownAlong tree path (ensureDirectory tree path) := by
  rw [ensureDirectory]
  split
  · next place grown made => exact makeDirectory_grown made _
  · exact GrownAlong.refl tree path _

/-- What is made after the directories above. -/
theorem GrownAlong.append {above : List (Component Name)} {outer inner : Making Name Content}
    (first : GrownAlong tree above outer) (second : GrownAlong outer.tree path inner) (shorter : above <+: path) :
    GrownAlong tree path { inner with created := outer.created ++ inner.created } where
  grown := first.grown.trans second.grown
  nodes place := by
    dsimp only
    rw [second.nodes, first.nodes]
    simp only [List.mem_append]
    by_cases new : place ∈ inner.created
    · rw [if_pos new, if_pos (Or.inr new)]
    · simp only [new, if_false, or_false]
  places place member := by
    rcases List.mem_append.mp member with earlier | new
    · rcases first.places place earlier with ⟨front, begins, found⟩
      exact ⟨front, begins.trans shorter, canonicalize_extends second.grown found⟩
    · exact second.places place new

theorem makeDirectoriesUp_grown (up : List (Component Name)) : forall tree : FileTree Name Content,
    GrownAlong tree up.reverse (makeDirectoriesUp tree up) := by
  induction up with
  | nil => exact fun tree => ensureDirectory_grown tree []
  | cons last above induction =>
      intro tree
      have shorter : above.reverse <+: (last :: above).reverse := by
        rw [List.reverse_cons]
        exact List.prefix_append _ _
      rw [makeDirectoriesUp]
      split
      · dsimp only
        split
        · next refused =>
            have first := induction tree
            exact ⟨first.grown, first.nodes, fun place member =>
              (first.places place member).imp fun _ found => ⟨found.1.trans shorter, found.2⟩⟩
        · exact (induction tree).append (ensureDirectory_grown _ _) shorter
      · exact ensureDirectory_grown tree _

theorem makeDirectories_grown (tree : FileTree Name Content) (path : List (Component Name)) :
    GrownAlong tree path (makeDirectories tree path) := by
  have grown := makeDirectoriesUp_grown path.reverse tree
  rw [List.reverse_reverse] at grown
  exact grown

/-- A file that was opened for writing is what its path leads to. -/
theorem openForWriting_found {content : Content} {place : List Name} {opened : FileTree Name Content}
    (success : openForWriting tree path content = .ok (place, opened)) : canonicalize opened path = .ok place := by
  rw [openForWriting] at success
  split at success
  · next met left walked =>
      split at success
      · cases success
      · cases success
        rw [<- canonicalize_sameShape (tree.overwrite_sameShape place content) path]
        exact (canonicalize_eq_ok tree path place).mpr ⟨left, walked⟩
  · next holder name left walked =>
      cases success
      exact (canonicalize_eq_ok _ _ _).mpr ⟨left, walk_plant tree .follow (.file content)
        (fun _ impossible => by cases impossible) tree.top_directory walked⟩
  · cases success

/-- What led somewhere before a file was opened for writing leads there afterwards. -/
theorem openForWriting_keeps {content : Content} {place : List Name} {opened : FileTree Name Content}
    (success : openForWriting tree path content = .ok (place, opened)) {other : List (Component Name)}
    {there : List Name} (found : canonicalize tree other = .ok there) : canonicalize opened other = .ok there := by
  rw [openForWriting] at success
  split at success
  · split at success
    · cases success
    · cases success
      rwa [<- canonicalize_sameShape (tree.overwrite_sameShape place content) other]
  · next holder name left walked =>
      cases success
      exact canonicalize_extends (tree.extends_plant _ (resolve_holds tree .follow walked)) found
  · cases success

end Foundations
end Agapornis
