import Agapornis.Foundations.Renames

namespace Agapornis
namespace Foundations

/-!
# Entries of one directory

A path that ends in a name is about an entry of the directory to which the
rest of it leads.  Opening an entry for writing, removing it and renaming it to
another entry of the same directory leave the directory where it is.
-/

variable {Name Content : Type} {tree : FileTree Name Content} {parent : List (Component Name)}
  {holder : List Name}

/-! ## Looking up an entry -/

theorem resolve_snoc {left : Nat} (walked : resolve tree .follow parent = .ok (.found holder, left))
    (directory : tree.node holder = some .directory) (mode : Mode) (name : Name) :
    resolve tree mode (parent ++ [.normal name]) = walk tree mode left holder [.normal name] := by
  unfold resolve at walked ⊢
  rw [walk_snoc tree mode maxLinks [] parent name tree.top_directory, walked]
  simp only [continueWalk, directory]

/-- What stands at a name in a directory: nothing, or something that a
resolution finds when it leaves links alone. -/
theorem resolve_entry (found : canonicalize tree parent = .ok holder)
    (directory : tree.node holder = some .directory) (name : Name) :
    (tree.node (holder ++ [name]) = none /\
        Exists fun left => resolve tree .stopAtLink (parent ++ [.normal name]) =
          .ok (.absent holder name, left)) \/
      Exists fun node => tree.node (holder ++ [name]) = some node /\
        Exists fun left => resolve tree .stopAtLink (parent ++ [.normal name]) =
          .ok (.found (holder ++ [name]), left) := by
  rcases (canonicalize_eq_ok tree parent holder).mp found with ⟨left, walked⟩
  rw [resolve_snoc walked directory, walk_normal]
  cases present : tree.node (holder ++ [name]) with
  | none => exact Or.inl ⟨rfl, left, rfl⟩
  | some node =>
      refine Or.inr ⟨node, rfl, left, ?_⟩
      cases node with
      | directory => exact walk_nil tree .stopAtLink left (holder ++ [name])
      | file content => rfl
      | link text => rfl

theorem resolve_present_entry (found : canonicalize tree parent = .ok holder)
    (directory : tree.node holder = some .directory) {name : Name} {node : Node Name Content}
    (present : tree.node (holder ++ [name]) = some node) :
    Exists fun left => resolve tree .stopAtLink (parent ++ [.normal name]) =
      .ok (.found (holder ++ [name]), left) := by
  rcases resolve_entry found directory name with ⟨absent, _⟩ | ⟨_, _, resolved⟩
  · rw [absent] at present
    cases present
  · exact resolved

/-- An entry that is a directory is found by following links. -/
theorem canonicalize_directory_entry (found : canonicalize tree parent = .ok holder) {name : Name}
    (directory : tree.node (holder ++ [name]) = some .directory) :
    canonicalize tree (parent ++ [.normal name]) = .ok (holder ++ [name]) := by
  rcases (canonicalize_eq_ok tree parent holder).mp found with ⟨left, walked⟩
  apply (canonicalize_eq_ok tree _ _).mpr
  refine ⟨left, ?_⟩
  rw [resolve_snoc walked (tree.holder_of_some directory), walk_normal, directory]
  exact walk_nil tree .follow left (holder ++ [name])

/-- Whatever a path that ends in a name leads to, the rest of it leads to a directory. -/
theorem parent_of_resolve {mode : Mode} {name : Name} {arrival : Arrival Name} {left : Nat}
    (resolved : resolve tree mode (parent ++ [.normal name]) = .ok (arrival, left)) :
    Exists fun holder => canonicalize tree parent = .ok holder /\ tree.node holder = some .directory := by
  rcases directory_of_resolve_append tree mode resolved (List.cons_ne_nil _ _) with
    ⟨holder, remaining, walked, directory, _⟩
  exact ⟨holder, (canonicalize_eq_ok tree parent holder).mpr ⟨remaining, walked⟩, directory⟩

/-- The names on the way down to a directory lead to it. -/
theorem canonicalize_place {place : List Name} (directory : tree.node place = some .directory) :
    canonicalize tree (place.map .normal) = .ok place := by
  induction place using List.reverseRecOn with
  | nil => exact (canonicalize_eq_ok tree _ _).mpr ⟨maxLinks, walk_nil tree .follow maxLinks []⟩
  | append_singleton above name ih =>
      rw [List.map_append, List.map_singleton]
      exact canonicalize_directory_entry (ih (tree.holder_of_some directory)) directory

section Changes

variable [DecidableEq Name]

/-! ## Opening an entry for writing -/

omit [DecidableEq Name] in
theorem canonicalize_extends {larger : FileTree Name Content} (grown : Extends tree larger)
    (found : canonicalize tree parent = .ok holder) : canonicalize larger parent = .ok holder := by
  rcases (canonicalize_eq_ok tree parent holder).mp found with ⟨left, walked⟩
  exact (canonicalize_eq_ok larger parent holder).mpr ⟨left, walk_extends grown walked⟩

theorem openForWriting_parent {name : Name} {content : Content} {place : List Name}
    {opened : FileTree Name Content}
    (success : openForWriting tree (parent ++ [.normal name]) content = .ok (place, opened)) :
    Exists fun holder => canonicalize tree parent = .ok holder /\ tree.node holder = some .directory := by
  rw [openForWriting] at success
  split at success
  · next resolved => exact parent_of_resolve resolved
  · next resolved => exact parent_of_resolve resolved
  · cases success

/-- A directory that holds an entry opened for writing, and the entry. -/
structure Opened (parent : List (Component Name)) (holder : List Name) (name : Name)
    (opened : FileTree Name Content) : Prop where
  found : canonicalize opened parent = .ok holder
  directory : opened.node holder = some .directory
  entry : Exists fun node => opened.node (holder ++ [name]) = some node /\ Not (node = .directory)

omit [DecidableEq Name] in
theorem Node.shape_directory {node : Node Name Content} (same : node.shape = .directory) :
    node = .directory := by
  cases node with
  | directory => rfl
  | file content => cases same
  | link text => cases same

omit [DecidableEq Name] in
theorem SameShape.directory {other : FileTree Name Content} (same : SameShape tree other)
    {place : List Name} (directory : tree.node place = some .directory) :
    other.node place = some .directory := by
  have shapes := same place
  rw [directory] at shapes
  rcases Option.map_eq_some_iff.mp shapes.symm with ⟨node, present, shape⟩
  rw [present, Node.shape_directory shape]

theorem openForWriting_entry (found : canonicalize tree parent = .ok holder)
    (directory : tree.node holder = some .directory) {name : Name} {content : Content}
    {place : List Name} {opened : FileTree Name Content}
    (success : openForWriting tree (parent ++ [.normal name]) content = .ok (place, opened)) :
    Opened parent holder name opened := by
  have notDirectory : Not (tree.node (holder ++ [name]) = some .directory) := by
    intro isDirectory
    rcases (canonicalize_eq_ok tree _ _).mp (canonicalize_directory_entry found isDirectory) with
      ⟨left, resolved⟩
    rw [openForWriting, resolved] at success
    simp only [(tree.isDirectoryAt_iff _).mpr isDirectory, if_true] at success
    cases success
  rw [openForWriting] at success
  split at success
  · next place left resolved =>
      split at success
      · cases success
      · cases success
        have same := tree.overwrite_sameShape place content
        rcases walk_stopAtLink_of_follow tree resolved with ⟨met, unused, stopped⟩
        refine ⟨(canonicalize_sameShape same parent).symm.trans found, same.directory directory, ?_⟩
        rcases resolve_entry found directory name with ⟨_, left, absent⟩ | ⟨node, present, _⟩
        · have both := stopped.symm.trans absent
          cases both
        · have shapes := same (holder ++ [name])
          rw [present] at shapes
          rcases Option.map_eq_some_iff.mp shapes.symm with ⟨after, atEntry, shape⟩
          refine ⟨after, atEntry, fun isDirectory => notDirectory ?_⟩
          subst isDirectory
          rw [present, Node.shape_directory shape.symm]
  · next far last left resolved =>
      cases success
      have free := (resolve_holds tree .follow resolved)
      have grown := tree.extends_plant (.file content) free
      refine ⟨canonicalize_extends grown found, grown _ _ directory, ?_⟩
      rcases (canonicalize_eq_ok tree parent holder).mp found with ⟨remaining, walked⟩
      cases present : tree.node (holder ++ [name]) with
      | some node =>
          refine ⟨node, grown _ _ present, fun isDirectory => notDirectory ?_⟩
          rw [present, isDirectory]
      | none =>
          rw [resolve_snoc walked directory, walk_normal, present] at resolved
          cases resolved
          refine ⟨.file content, ?_, fun impossible => by cases impossible⟩
          rw [tree.plant_node (.file content) free, if_pos rfl]
  · cases success

/-- A file that was opened for writing has the new content, and nothing else is changed. -/
theorem openForWriting_node {path : List (Component Name)} {content : Content} {place : List Name}
    {opened : FileTree Name Content} (success : openForWriting tree path content = .ok (place, opened))
    (other : List Name) :
    opened.node other = if other = place then some (.file content) else tree.node other := by
  rw [openForWriting] at success
  split at success
  · next met left resolved =>
      split at success
      · cases success
      · next notDirectory =>
          cases success
          rcases resolve_holds tree .follow resolved with ⟨node, present⟩
          have notLink := walk_follow_not_link tree tree.top_directory resolved
          simp only [FileTree.overwrite]
          split
          · next same =>
              subst same
              rw [present]
              cases node with
              | file old => rfl
              | directory => exact absurd ((tree.isDirectoryAt_iff _).mpr present) notDirectory
              | link text => exact absurd present (notLink text)
          · rfl
  · next holder name left resolved =>
      cases success
      exact tree.plant_node (.file content) (resolve_holds tree .follow resolved) other
  · cases success

/-! ## Removing and renaming entries -/

theorem unlink_eq_ok {place : List Name} {node : Node Name Content}
    (present : tree.node place = some node) (notDirectory : Not (node = .directory)) :
    tree.unlink place = .ok (tree.without [place]) := by
  rw [FileTree.unlink]
  split
  · next absent =>
      rw [absent] at present
      cases present
  · next isDirectory =>
      rw [isDirectory] at present
      cases present
      exact absurd rfl notDirectory
  · rfl

/-- Entries of the same directory can be renamed to each other unless one of
them is a directory. -/
theorem renameEntry_siblings (listing : Listing Name Content)
    (found : canonicalize tree parent = .ok holder)
    (directory : tree.node holder = some .directory) {source target : Name} {node : Node Name Content}
    (present : tree.node (holder ++ [source]) = some node) (notDirectory : Not (node = .directory))
    (plain : Not (tree.node (holder ++ [target]) = some .directory)) :
    Exists fun renamed => renameEntry listing tree (parent ++ [.normal source])
      (parent ++ [.normal target]) = .ok renamed := by
  rcases resolve_present_entry found directory present with ⟨left, resolved⟩
  have sourceFile : Not (tree.isDirectoryAt (holder ++ [source]) = true) := by
    rw [tree.isDirectoryAt_iff, present]
    exact fun same => notDirectory (Option.some.inj same)
  have prefixSame {first second : Name} (above : holder ++ [first] <+: holder ++ [second]) :
      holder ++ [first] = holder ++ [second] :=
    above.eq_of_length (by simp)
  unfold renameEntry
  rw [resolved]
  rcases resolve_entry found directory target with ⟨absent, unused, missing⟩ | ⟨other, _, unused, met⟩
  · rw [missing]
    dsimp only
    rw [if_neg]
    · exact ⟨_, rfl⟩
    · intro above
      rw [prefixSame above, absent] at present
      cases present
  · rw [met]
    dsimp only
    by_cases same : holder ++ [source] = holder ++ [target]
    · rw [if_pos same]
      exact ⟨tree, rfl⟩
    · rw [if_neg same, if_neg (fun above => same (prefixSame above)),
        if_neg (fun above => same (prefixSame above).symm), if_neg sourceFile,
        if_neg (fun isDirectory => plain ((tree.isDirectoryAt_iff _).mp isDirectory))]
      exact ⟨_, rfl⟩

/-! ## Making directories -/

/-- The directories that are made below a free name, the first of them at it. -/
structure CreatedBelow (holder : List Name) (first : Name) (created : List (List Name)) : Prop where
  first : holder ++ [first] ∈ created
  below : forall place, place ∈ created -> Exists fun above => Exists fun name =>
    place = above ++ [name] /\ holder <+: above

theorem ensureDirectory_created {front : List (Component Name)} {name : Name}
    (found : canonicalize tree front = .ok holder) (free : (Arrival.absent holder name).Holds tree) :
    (ensureDirectory tree (front ++ [.normal name])).created = [holder ++ [name]] := by
  rcases resolve_free tree .stopAtLink found free with ⟨_, stopped⟩
  rw [ensureDirectory, makeDirectory_of_absent stopped]

theorem makeDirectoriesUp_created {front : List (Component Name)} {first : Name}
    (found : canonicalize tree front = .ok holder) (free : (Arrival.absent holder first).Holds tree)
    (up : List Name) :
    CreatedBelow holder first
      (makeDirectoriesUp tree (up.map .normal ++ .normal first :: front.reverse)).created := by
  rcases resolve_free tree .follow found free with ⟨_, followed⟩
  have missing : canonicalize tree (front ++ [.normal first]) = .error .notFound :=
    canonicalize_of_absent followed
  induction up with
  | nil =>
      rcases resolve_free tree .stopAtLink found free with ⟨_, stopped⟩
      have path : (Component.normal first :: front.reverse).reverse = front ++ [.normal first] := by
        rw [List.reverse_cons, List.reverse_reverse]
      simp only [List.map_nil, List.nil_append, makeDirectoriesUp, path, makeDirectory_of_absent stopped,
        ensureDirectory_created found free]
      refine ⟨List.mem_singleton_self _, ?_⟩
      intro place member
      exact ⟨holder, first, List.mem_singleton.mp member, List.prefix_rfl⟩
  | cons last up ih =>
      have made := makeDirectoriesUp_below_free tree found free up
      have path : (Component.normal last :: (up.map .normal ++ .normal first :: front.reverse)).reverse =
          (front ++ (first :: up.reverse).map .normal) ++ [.normal last] := by
        simp
      have refused : makeDirectory tree
          ((front ++ (first :: up.reverse).map .normal) ++ [.normal last]) = .error .notFound := by
        have split : (front ++ (first :: up.reverse).map .normal) ++ [.normal last] =
            (front ++ [.normal first]) ++ (up.reverse ++ [last]).map Component.normal := by
          simp
        rw [split]
        exact makeDirectory_below_missing missing (by simp)
      have start : (last :: up).map Component.normal ++ .normal first :: front.reverse =
          .normal last :: (up.map .normal ++ .normal first :: front.reverse) := rfl
      rw [start, makeDirectoriesUp_retry path refused made.succeeded,
        ensureDirectory_created made.reached ⟨made.directory, made.empty last⟩]
      refine ⟨List.mem_append_left _ ih.first, ?_⟩
      intro place member
      rcases List.mem_append.mp member with earlier | new
      · exact ih.below place earlier
      · exact ⟨holder ++ first :: up.reverse, last, List.mem_singleton.mp new, List.prefix_append _ _⟩

theorem makeDirectories_created {front : List (Component Name)} {first : Name}
    (found : canonicalize tree front = .ok holder) (free : (Arrival.absent holder first).Holds tree)
    (rest : List Name) :
    CreatedBelow holder first
      (makeDirectories tree (front ++ (first :: rest).map .normal)).created := by
  have created := makeDirectoriesUp_created found free rest.reverse
  have reversed : (front ++ (first :: rest).map Component.normal).reverse =
      rest.reverse.map .normal ++ .normal first :: front.reverse := by
    simp
  rw [makeDirectories, reversed]
  exact created

/-- Making the directories of a path to an entry makes at most that entry. -/
theorem makeDirectories_entry (found : canonicalize tree parent = .ok holder)
    (directory : tree.node holder = some .directory) (name : Name) :
    (makeDirectories tree (parent ++ [.normal name])).tree = tree \/
      (tree.node (holder ++ [name]) = none /\
        (makeDirectories tree (parent ++ [.normal name])).tree = tree.plant holder name .directory) := by
  have reversed : (parent ++ [Component.normal name]).reverse = .normal name :: parent.reverse := by simp
  have back : (Component.normal name :: parent.reverse).reverse = parent ++ [.normal name] := by simp
  rcases resolve_entry found directory name with ⟨absent, left, resolved⟩ | ⟨_, _, left, resolved⟩
  · right
    refine ⟨absent, ?_⟩
    have made := makeDirectory_of_absent resolved
    simp only [makeDirectories, reversed, makeDirectoriesUp, back, ensureDirectory, made]
  · left
    have refused := makeDirectory_of_found resolved
    simp only [makeDirectories, reversed, makeDirectoriesUp, back, ensureDirectory, refused]

/-- Nothing is made at a path that fails for another reason than a missing component. -/
theorem makeDirectories_of_error {front : List (Component Name)} {last : Name} {error : Errno}
    (failed : canonicalize tree (front ++ [.normal last]) = .error error)
    (other : Not (error = .notFound)) :
    Exists fun refusal => makeDirectories tree (front ++ [.normal last]) = ⟨[], tree, .error refusal⟩ := by
  have refused : Exists fun refusal => Not (refusal = .notFound) /\
      makeDirectory tree (front ++ [.normal last]) = .error refusal := by
    have continued (mode : Mode) : resolve tree mode (front ++ [.normal last]) =
        continueWalk tree mode [.normal last] (resolve tree .follow front) :=
      walk_snoc tree mode maxLinks [] front last tree.top_directory
    cases above : resolve tree .follow front with
    | error cause =>
        have both (mode : Mode) : resolve tree mode (front ++ [.normal last]) = .error cause := by
          rw [continued, above]
          rfl
        rw [canonicalize, both] at failed
        cases failed
        refine ⟨error, other, ?_⟩
        rw [makeDirectory, both]
    | ok arrival =>
        rcases arrival with ⟨arrival, left⟩
        cases arrival with
        | absent holder name =>
            rw [canonicalize, continued, above] at failed
            cases failed
            exact absurd rfl other
        | found place =>
            have found := (canonicalize_eq_ok tree front place).mpr ⟨left, above⟩
            by_cases directory : tree.node place = some .directory
            · rcases resolve_entry found directory last with ⟨absent, _⟩ | ⟨_, _, _, met⟩
              · rcases resolve_free tree .follow found ⟨directory, absent⟩ with ⟨_, followed⟩
                rw [canonicalize_of_absent followed] at failed
                cases failed
                exact absurd rfl other
              · exact ⟨.alreadyExists, fun impossible => (by cases impossible), makeDirectory_of_found met⟩
            · have blocked : resolve tree .stopAtLink (front ++ [.normal last]) = .error .notADirectory := by
                rw [continued, above, continueWalk]
                split
                · next isDirectory => exact absurd isDirectory directory
                · rfl
              refine ⟨.notADirectory, fun impossible => (by cases impossible), ?_⟩
              rw [makeDirectory, blocked]
  rcases refused with ⟨refusal, different, refused⟩
  have notDirectory : isDirectory tree (front ++ [.normal last]) = false := by
    rw [isDirectory, failed]
  have ensured : ensureDirectory tree (front ++ [.normal last]) = ⟨[], tree, .error refusal⟩ := by
    simp only [ensureDirectory, refused, notDirectory, Bool.false_eq_true, if_false]
  refine ⟨refusal, ?_⟩
  have reversed : (front ++ [Component.normal last]).reverse = .normal last :: front.reverse := by simp
  have back : (Component.normal last :: front.reverse).reverse = front ++ [.normal last] := by simp
  rw [makeDirectories, reversed, makeDirectoriesUp, back, refused]
  split
  · next same =>
      cases same
      exact absurd rfl different
  · exact ensured

end Changes

end Foundations
end Agapornis
