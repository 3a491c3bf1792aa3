import Agapornis.Foundations.PathWalk

namespace Agapornis
namespace Foundations

/-!
# Calls that change a tree

Making a directory, making all missing directories of a path, opening a file
for writing and replacing the content of a file, each as a function of the
tree and of the path given to it.  A call that creates something reports the
canonical place of what it created, since this is what confinement results
are about: the path text alone does not say where a call lands.

A tree only ever grows under these calls, in the sense of `Extends`, or keeps
its shape, in the sense of `SameShape`; resolutions survive both.
-/

variable {Name Content : Type}

/-- Everything that exists in the first tree exists unchanged in the second. -/
def Extends (smaller larger : FileTree Name Content) : Prop :=
  forall place node, smaller.node place = some node -> larger.node place = some node

theorem Extends.refl (tree : FileTree Name Content) : Extends tree tree :=
  fun _ _ present => present

theorem Extends.trans {first second third : FileTree Name Content}
    (left : Extends first second) (right : Extends second third) : Extends first third :=
  fun place node present => right place node (left place node present)

/-- A node without the content of a file. -/
def Node.shape : Node Name Content -> Node Name Unit
  | .file _ => .file ()
  | .directory => .directory
  | .link text => .link text

/-- Two trees that differ in the contents of files only. -/
def SameShape (first second : FileTree Name Content) : Prop :=
  forall place, (first.node place).map Node.shape = (second.node place).map Node.shape

theorem SameShape.refl (tree : FileTree Name Content) : SameShape tree tree :=
  fun _ => rfl

theorem SameShape.trans {first second third : FileTree Name Content}
    (left : SameShape first second) (right : SameShape second third) : SameShape first third :=
  fun place => (left place).trans (right place)

/-- Resolution does not read the contents of files. -/
theorem walk_sameShape {first second : FileTree Name Content} (same : SameShape first second)
    (mode : Mode) (left : Nat) (here : List Name) (parts : List (Component Name)) :
    walk first mode left here parts = walk second mode left here parts := by
  induction left, here, parts using walk_induction with
  | nil left here => rw [walk_nil, walk_nil]
  | current left here rest ih => rw [walk_current, walk_current, ih]
  | parent left here rest ih => rw [walk_parent, walk_parent, ih]
  | normal left here name rest ih smallerBound =>
      have shapes := same (here ++ [name])
      rw [walk_normal, walk_normal]
      cases onFirst : first.node (here ++ [name]) with
      | none =>
          cases onSecond : second.node (here ++ [name]) with
          | none => rfl
          | some node =>
              rw [onFirst, onSecond] at shapes
              cases shapes
      | some node =>
          cases onSecond : second.node (here ++ [name]) with
          | none =>
              rw [onFirst, onSecond] at shapes
              cases shapes
          | some other =>
              rw [onFirst, onSecond] at shapes
              have equal : node.shape = other.shape := Option.some.inj shapes
              cases node <;> cases other <;> cases equal
              · rfl
              · exact ih
              · simp only
                split
                · rfl
                · cases left with
                  | zero => rfl
                  | succ bound => exact smallerBound bound _ _ rfl

theorem canonicalize_sameShape {first second : FileTree Name Content}
    (same : SameShape first second) (path : List (Component Name)) :
    canonicalize first path = canonicalize second path := by
  unfold canonicalize resolve
  rw [walk_sameShape same]

namespace FileTree

/-- The tree with nothing in its top directory. -/
def bare (Name Content : Type) : FileTree Name Content where
  node
    | [] => some .directory
    | _ :: _ => none
  top_directory := rfl
  holder_directory := by
    intro place name present
    cases place <;> cases present

variable [DecidableEq Name]

/-- The tree with one node and the directories on the way down to it. -/
def chain (target : List Name) (node : Node Name Content) : FileTree Name Content where
  node place :=
    if place = [] then some .directory
    else if place = target then some node
    else if place <+: target then some .directory
    else none
  top_directory := if_pos rfl
  holder_directory := by
    intro place name present
    by_cases top : place = []
    · rw [if_pos top]
    · have above : place ++ [name] <+: target := by
        by_cases last : place ++ [name] = target
        · exact last ▸ List.prefix_rfl
        · by_contra beside
          rw [if_neg (by simp), if_neg last, if_neg beside] at present
          cases present
      have notLast : Not (place = target) := by
        intro same
        subst same
        have shorter := above.length_le
        rw [List.length_append, List.length_singleton] at shorter
        omega
      rw [if_neg top, if_neg notLast, if_pos ((List.prefix_append place [name]).trans above)]

theorem chain_target {target : List Name} (nonempty : Not (target = [])) (node : Node Name Content) :
    (chain target node).node target = some node := by
  unfold chain
  exact (if_neg nonempty).trans (if_pos rfl)

theorem chain_above {target place : List Name} (above : place <+: target)
    (different : Not (place = target)) (node : Node Name Content) :
    (chain target node).node place = some .directory := by
  unfold chain
  by_cases top : place = []
  · exact if_pos top
  · exact (if_neg top).trans ((if_neg different).trans (if_pos above))

theorem chain_beside {target place : List Name} (beside : Not (place <+: target))
    (node : Node Name Content) : (chain target node).node place = none := by
  have notTop : Not (place = []) := fun top => beside (top ▸ List.nil_prefix)
  have notLast : Not (place = target) := fun same => beside (same ▸ List.prefix_rfl)
  unfold chain
  exact (if_neg notTop).trans ((if_neg notLast).trans (if_neg beside))

/-- A name is free when its holder is a directory without it. -/
def isFree (tree : FileTree Name Content) (holder : List Name) (name : Name) : Bool :=
  tree.isDirectoryAt holder && (tree.node (holder ++ [name])).isNone

omit [DecidableEq Name] in
theorem isFree_iff (tree : FileTree Name Content) (holder : List Name) (name : Name) :
    tree.isFree holder name = true <->
      tree.node holder = some .directory /\ tree.node (holder ++ [name]) = none := by
  simp only [isFree, Bool.and_eq_true, isDirectoryAt_iff, Option.isNone_iff_eq_none]

/-- Put a node at a free name; nothing is changed where the name is not free. -/
def plant (tree : FileTree Name Content) (holder : List Name) (name : Name)
    (node : Node Name Content) : FileTree Name Content :=
  if free : tree.isFree holder name = true then
    { node := fun place => if place = holder ++ [name] then some node else tree.node place
      top_directory := by
        rw [if_neg (by simp)]
        exact tree.top_directory
      holder_directory := by
        intro place last present
        have absent := (tree.isFree_iff holder name).mp free
        by_cases planted : place ++ [last] = holder ++ [name]
        · have same : place = holder := (List.append_inj' planted rfl).1
          rw [same, if_neg (by simp)]
          exact absent.1
        · rw [if_neg planted] at present
          have directory := tree.holder_directory place last present
          rw [if_neg, directory]
          intro equal
          rw [equal, absent.2] at directory
          cases directory }
  else tree

theorem plant_node (tree : FileTree Name Content) {holder : List Name} {name : Name}
    (node : Node Name Content) (free : (Arrival.absent holder name).Holds tree)
    (place : List Name) :
    (tree.plant holder name node).node place =
      if place = holder ++ [name] then some node else tree.node place := by
  rw [plant]
  rw [dif_pos ((tree.isFree_iff holder name).mpr free)]

theorem extends_plant (tree : FileTree Name Content) {holder : List Name} {name : Name}
    (node : Node Name Content) (free : (Arrival.absent holder name).Holds tree) :
    Extends tree (tree.plant holder name node) := by
  intro place old present
  rw [tree.plant_node node free, if_neg, present]
  intro equal
  rw [equal, free.2] at present
  cases present

/-- Replace the content of a regular file; nothing is changed elsewhere. -/
def overwrite (tree : FileTree Name Content) (target : List Name) (content : Content) :
    FileTree Name Content where
  node place :=
    if place = target then (tree.node place).map (fun
      | .file _ => .file content
      | other => other)
    else tree.node place
  top_directory := by
    split <;> simp only [tree.top_directory, Option.map_some]
  holder_directory := by
    intro place name present
    have directory : tree.node place = some .directory := by
      apply tree.holder_directory place name
      split at present
      · simpa only [Option.isSome_map] using present
      · exact present
    split <;> simp only [directory, Option.map_some]

theorem overwrite_sameShape (tree : FileTree Name Content) (target : List Name)
    (content : Content) : SameShape tree (tree.overwrite target content) := by
  intro place
  simp only [overwrite]
  split
  · cases tree.node place with
    | none => rfl
    | some node => cases node <;> rfl
  · rfl

end FileTree

section Calls

variable [DecidableEq Name]

/-- Make one directory.  A link in the last position is not followed. -/
def makeDirectory (tree : FileTree Name Content) (path : List (Component Name)) :
    Except Errno (List Name × FileTree Name Content) :=
  match resolve tree .stopAtLink path with
  | .ok (.absent holder name, _) => .ok (holder ++ [name], tree.plant holder name .directory)
  | .ok (.found _, _) => .error .alreadyExists
  | .error error => .error error

/-- The outcome of making directories: what was created in which order, the
tree afterwards, and whether the call succeeded. -/
structure Making (Name Content : Type) where
  created : List (List Name)
  tree : FileTree Name Content
  result : Except Errno Unit

/-- Make one directory, content with a directory that is already there. -/
def ensureDirectory (tree : FileTree Name Content) (path : List (Component Name)) :
    Making Name Content :=
  match makeDirectory tree path with
  | .ok (place, grown) => ⟨[place], grown, .ok ()⟩
  | .error error => ⟨[], tree, if isDirectory tree path then .ok () else .error error⟩

/-- Make every missing directory of a path, given with its last component
first.  Only an attempt that fails because something is missing above it is
repeated after the directories above have been made. -/
def makeDirectoriesUp (tree : FileTree Name Content) :
    List (Component Name) -> Making Name Content
  | [] => ensureDirectory tree []
  | last :: above =>
      match makeDirectory tree (last :: above).reverse with
      | .error .notFound =>
          let outer := makeDirectoriesUp tree above
          match outer.result with
          | .error _ => outer
          | .ok () =>
              let inner := ensureDirectory outer.tree (last :: above).reverse
              { inner with created := outer.created ++ inner.created }
      | _ => ensureDirectory tree (last :: above).reverse

/-- Make every missing directory of a path. -/
def makeDirectories (tree : FileTree Name Content) (path : List (Component Name)) :
    Making Name Content :=
  makeDirectoriesUp tree path.reverse

/-- Open a file for writing, creating it when it is missing.  Links are
followed, also one in the last position that leads to a free name. -/
def openForWriting (tree : FileTree Name Content) (path : List (Component Name))
    (content : Content) : Except Errno (List Name × FileTree Name Content) :=
  match resolve tree .follow path with
  | .ok (.found place, _) =>
      if tree.isDirectoryAt place then .error .isADirectory
      else .ok (place, tree.overwrite place content)
  | .ok (.absent holder name, _) =>
      .ok (holder ++ [name], tree.plant holder name (.file content))
  | .error error => .error error

/-- A path that ended at a free name ends at what was put there, unless that
is a link. -/
theorem walk_plant (tree : FileTree Name Content) (mode : Mode) {left : Nat} {here : List Name}
    {parts : List (Component Name)} {holder : List Name} {name : Name} {remaining : Nat}
    (node : Node Name Content) (plain : forall text, node ≠ .link text)
    (directory : tree.node here = some .directory)
    (walked : walk tree mode left here parts = .ok (.absent holder name, remaining)) :
    walk (tree.plant holder name node) mode left here parts =
      .ok (.found (holder ++ [name]), remaining) := by
  have free := walk_holds tree mode directory walked
  induction left, here, parts using walk_induction with
  | nil left here =>
      rw [walk_nil] at walked
      cases walked
  | current left here rest ih =>
      rw [walk_current] at walked ⊢
      exact ih directory walked
  | parent left here rest ih =>
      rw [walk_parent] at walked ⊢
      exact ih (tree.dropLast_directory directory) walked
  | normal left here next rest ih smallerBound =>
      rw [walk_normal] at walked ⊢
      cases present : tree.node (here ++ [next]) with
      | none =>
          simp only [present] at walked
          split at walked
          · next ending =>
              cases walked
              have last : rest = [] := List.isEmpty_iff.mp ending
              subst last
              rw [tree.plant_node node free, if_pos rfl]
              cases node with
              | directory => rw [walk_nil]
              | file content => rfl
              | link text => exact absurd rfl (plain text)
          · cases walked
      | some old =>
          rw [tree.extends_plant node free _ _ present]
          rw [present] at walked
          cases old with
          | directory => exact ih present walked
          | file content =>
              simp only at walked
              split at walked <;> cases walked
          | link text =>
              simp only at walked ⊢
              split
              · next stopped =>
                  rw [if_pos stopped] at walked
                  cases walked
              · next notStopped =>
                  rw [if_neg notStopped] at walked
                  cases left with
                  | zero => cases walked
                  | succ bound =>
                      exact smallerBound bound _ _ rfl (text.start_directory tree directory) walked

omit [DecidableEq Name] in
/-- A free name in the directory to which a path leads. -/
theorem resolve_free (tree : FileTree Name Content) (mode : Mode)
    {front : List (Component Name)} {holder : List Name} {name : Name}
    (found : canonicalize tree front = .ok holder)
    (free : (Arrival.absent holder name).Holds tree) :
    Exists fun left =>
      resolve tree mode (front ++ [.normal name]) = .ok (.absent holder name, left) := by
  rcases (canonicalize_eq_ok tree front holder).mp found with ⟨left, walked⟩
  refine ⟨left, ?_⟩
  rw [resolve] at walked ⊢
  rw [walk_snoc tree mode maxLinks [] front name tree.top_directory, walked]
  simp only [continueWalk, free.1]
  rw [walk_normal, free.2]
  rfl

omit [DecidableEq Name] in
theorem canonicalize_of_absent {tree : FileTree Name Content} {path : List (Component Name)}
    {holder : List Name} {name : Name} {left : Nat}
    (walked : resolve tree .follow path = .ok (.absent holder name, left)) :
    canonicalize tree path = .error .notFound := by
  rw [canonicalize]
  rw [walked]

theorem makeDirectory_of_absent {tree : FileTree Name Content} {path : List (Component Name)}
    {holder : List Name} {name : Name} {left : Nat}
    (walked : resolve tree .stopAtLink path = .ok (.absent holder name, left)) :
    makeDirectory tree path = .ok (holder ++ [name], tree.plant holder name .directory) := by
  rw [makeDirectory]
  rw [walked]

theorem makeDirectory_of_found {tree : FileTree Name Content} {path : List (Component Name)}
    {place : List Name} {left : Nat}
    (walked : resolve tree .stopAtLink path = .ok (.found place, left)) :
    makeDirectory tree path = .error .alreadyExists := by
  rw [makeDirectory]
  rw [walked]

/-- Nothing is made below something that is missing. -/
theorem makeDirectory_below_missing {tree : FileTree Name Content}
    {front tail : List (Component Name)} (missing : canonicalize tree front = .error .notFound)
    (nonempty : tail ≠ []) : makeDirectory tree (front ++ tail) = .error .notFound := by
  rw [makeDirectory]
  rw [resolve_append_of_notFound tree .stopAtLink missing nonempty]

/-- Nothing is made where the whole path exists. -/
theorem makeDirectories_of_found {tree : FileTree Name Content}
    {path : List (Component Name)} {place : List Name}
    (found : canonicalize tree path = .ok place) :
    makeDirectories tree path =
      ⟨[], tree, if isDirectory tree path then .ok () else .error .alreadyExists⟩ := by
  rcases (canonicalize_eq_ok tree path place).mp found with ⟨left, walked⟩
  rcases walk_stopAtLink_of_follow tree walked with ⟨met, unused, stopped⟩
  have refused : makeDirectory tree path = .error .alreadyExists := makeDirectory_of_found stopped
  rw [makeDirectories]
  cases reversed : path.reverse with
  | nil =>
      have empty : path = [] := List.reverse_eq_nil_iff.mp reversed
      subst empty
      simp only [makeDirectoriesUp, ensureDirectory, refused]
  | cons last above =>
      have back : (last :: above).reverse = path := by rw [← reversed, List.reverse_reverse]
      simp only [makeDirectoriesUp, back, refused, ensureDirectory]

/-- What making the directories of a path achieves when the first missing
component is a free name: every one of them is made below its holder. -/
structure MadeBelow (tree : FileTree Name Content) (holder inside : List Name)
    (path : List (Component Name)) (making : Making Name Content) : Prop where
  succeeded : making.result = .ok ()
  below : forall place, place ∈ making.created -> holder <+: place
  reached : canonicalize making.tree path = .ok (holder ++ inside)
  directory : making.tree.node (holder ++ inside) = some .directory
  empty : forall name, making.tree.node (holder ++ inside ++ [name]) = none
  grown : Extends tree making.tree

theorem ensureDirectory_free (tree : FileTree Name Content)
    {front : List (Component Name)} {holder : List Name} {name : Name}
    (found : canonicalize tree front = .ok holder)
    (free : (Arrival.absent holder name).Holds tree) :
    MadeBelow tree holder [name] (front ++ [.normal name])
      (ensureDirectory tree (front ++ [.normal name])) := by
  rcases resolve_free tree .follow found free with ⟨_, followed⟩
  rcases resolve_free tree .stopAtLink found free with ⟨_, stopped⟩
  have planted := tree.plant_node .directory free
  rw [ensureDirectory]
  rw [makeDirectory_of_absent stopped]
  refine ⟨rfl, ?_, ?_, ?_, ?_, tree.extends_plant .directory free⟩
  · intro place member
    rw [List.mem_singleton.mp member]
    exact List.prefix_append _ _
  · apply (canonicalize_eq_ok _ _ _).mpr
    exact ⟨_, walk_plant tree .follow .directory (fun _ impossible => by cases impossible)
      tree.top_directory followed⟩
  · rw [planted, if_pos rfl]
  · intro inner
    rw [planted, if_neg (by simp)]
    cases present : tree.node (holder ++ [name] ++ [inner]) with
    | none => rfl
    | some node =>
        have impossible := tree.holder_of_some present
        rw [free.2] at impossible
        cases impossible

omit [DecidableEq Name] in
theorem MadeBelow.append {tree : FileTree Name Content} {holder inside : List Name} {last : Name}
    {path longer : List (Component Name)} {outer inner : Making Name Content}
    (above : MadeBelow tree holder inside path outer)
    (within : MadeBelow outer.tree (holder ++ inside) [last] longer inner) :
    MadeBelow tree holder (inside ++ [last]) longer
      { inner with created := outer.created ++ inner.created } where
  succeeded := within.succeeded
  below := by
    intro place member
    rcases List.mem_append.mp member with earlier | new
    · exact above.below place earlier
    · exact (List.prefix_append holder inside).trans (within.below place new)
  reached := by
    rw [← List.append_assoc]
    exact within.reached
  directory := by
    rw [← List.append_assoc]
    exact within.directory
  empty := by
    intro name
    rw [← List.append_assoc]
    exact within.empty name
  grown := above.grown.trans within.grown

/-- The second attempt at a directory whose holder had to be made first. -/
theorem makeDirectoriesUp_retry {tree : FileTree Name Content} {last : Component Name}
    {above path : List (Component Name)} (split : (last :: above).reverse = path)
    (refused : makeDirectory tree path = .error .notFound)
    (succeeded : (makeDirectoriesUp tree above).result = .ok ()) :
    makeDirectoriesUp tree (last :: above) =
      { ensureDirectory (makeDirectoriesUp tree above).tree path with
        created := (makeDirectoriesUp tree above).created ++
          (ensureDirectory (makeDirectoriesUp tree above).tree path).created } := by
  simp only [makeDirectoriesUp, split, refused, succeeded]

theorem makeDirectoriesUp_below_free (tree : FileTree Name Content)
    {front : List (Component Name)} {holder : List Name} {first : Name}
    (found : canonicalize tree front = .ok holder)
    (free : (Arrival.absent holder first).Holds tree) (up : List Name) :
    MadeBelow tree holder (first :: up.reverse)
      (front ++ (first :: up.reverse).map .normal)
      (makeDirectoriesUp tree (up.map .normal ++ .normal first :: front.reverse)) := by
  rcases resolve_free tree .follow found free with ⟨_, followed⟩
  have missing : canonicalize tree (front ++ [.normal first]) = .error .notFound :=
    canonicalize_of_absent followed
  induction up with
  | nil =>
      rcases resolve_free tree .stopAtLink found free with ⟨_, stopped⟩
      have path : (Component.normal first :: front.reverse).reverse = front ++ [.normal first] := by
        rw [List.reverse_cons, List.reverse_reverse]
      simp only [List.map_nil, List.nil_append, List.reverse_nil, List.map_cons, makeDirectoriesUp,
        path, makeDirectory_of_absent stopped]
      exact ensureDirectory_free tree found free
  | cons last up ih =>
      have path : (Component.normal last :: (up.map .normal ++ .normal first :: front.reverse)).reverse =
          (front ++ (first :: up.reverse).map .normal) ++ [.normal last] := by
        simp
      have refused : makeDirectory tree
          ((front ++ (first :: up.reverse).map .normal) ++ [.normal last]) = .error .notFound := by
        have split : (front ++ (first :: up.reverse).map .normal) ++ [.normal last] =
            (front ++ [.normal first]) ++ (up.reverse ++ [last]).map Component.normal := by
          simp
        rw [split]
        exact makeDirectory_below_missing missing (by simp)
      have inner := ensureDirectory_free _ ih.reached ⟨ih.directory, ih.empty last⟩
      have longer : front ++ (first :: (last :: up).reverse).map Component.normal =
          (front ++ (first :: up.reverse).map .normal) ++ [.normal last] := by
        simp
      have inside : first :: (last :: up).reverse = (first :: up.reverse) ++ [last] := by simp
      have start : (last :: up).map Component.normal ++ .normal first :: front.reverse =
          .normal last :: (up.map .normal ++ .normal first :: front.reverse) := rfl
      rw [longer, inside, start, makeDirectoriesUp_retry path refused ih.succeeded]
      exact ih.append inner

/-- Making the directories of a path whose first missing component is a free
name makes them all below the directory of that name. -/
theorem makeDirectories_below_free (tree : FileTree Name Content)
    {front : List (Component Name)} {holder : List Name} {first : Name}
    (found : canonicalize tree front = .ok holder)
    (free : (Arrival.absent holder first).Holds tree) (rest : List Name) :
    MadeBelow tree holder (first :: rest) (front ++ (first :: rest).map .normal)
      (makeDirectories tree (front ++ (first :: rest).map .normal)) := by
  have made := makeDirectoriesUp_below_free tree found free rest.reverse
  rw [List.reverse_reverse] at made
  have reversed : (front ++ (first :: rest).map Component.normal).reverse =
      rest.reverse.map .normal ++ .normal first :: front.reverse := by
    simp
  rw [makeDirectories]
  rw [reversed]
  exact made

/-- Nothing is made where a component is occupied by something that leads
nowhere, as a dangling link does. -/
theorem makeDirectoriesUp_at_occupied (tree : FileTree Name Content)
    {occupied : List (Component Name)} {met : List Name} {left : Nat}
    (missing : canonicalize tree occupied = .error .notFound)
    (present : resolve tree .stopAtLink occupied = .ok (.found met, left))
    (up : List (Component Name)) :
    makeDirectoriesUp tree (up ++ occupied.reverse) = ⟨[], tree, .error .alreadyExists⟩ := by
  have refused : makeDirectory tree occupied = .error .alreadyExists := makeDirectory_of_found present
  have notDirectory : isDirectory tree occupied = false := by
    rw [isDirectory]
    rw [missing]
  have ensured : ensureDirectory tree occupied = ⟨[], tree, .error .alreadyExists⟩ := by
    simp only [ensureDirectory, refused, notDirectory, Bool.false_eq_true, if_false]
  induction up with
  | nil =>
      rw [List.nil_append]
      cases reversed : occupied.reverse with
      | nil =>
          have empty : occupied = [] := List.reverse_eq_nil_iff.mp reversed
          subst empty
          exact ensured
      | cons last above =>
          have back : (last :: above).reverse = occupied := by rw [← reversed, List.reverse_reverse]
          simp only [makeDirectoriesUp, back, refused, ensured]
  | cons last up ih =>
      have path : (last :: (up ++ occupied.reverse)).reverse = occupied ++ (up.reverse ++ [last]) := by
        simp
      have below : makeDirectory tree (occupied ++ (up.reverse ++ [last])) = .error .notFound :=
        makeDirectory_below_missing missing (by simp)
      simp only [List.cons_append, makeDirectoriesUp, path, below, ih]

theorem makeDirectories_at_occupied (tree : FileTree Name Content)
    {occupied : List (Component Name)} {met : List Name} {left : Nat}
    (missing : canonicalize tree occupied = .error .notFound)
    (present : resolve tree .stopAtLink occupied = .ok (.found met, left))
    (tail : List (Component Name)) :
    makeDirectories tree (occupied ++ tail) = ⟨[], tree, .error .alreadyExists⟩ := by
  rw [makeDirectories]
  rw [List.reverse_append]
  exact makeDirectoriesUp_at_occupied tree missing present tail.reverse

end Calls

end Foundations
end Agapornis
