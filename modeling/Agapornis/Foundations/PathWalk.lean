import Mathlib.Data.List.Basic

namespace Agapornis
namespace Foundations

/-!
# Resolution of paths in a tree with symbolic links

A file tree is a partial map from canonical places to nodes.  A place is the
list of names on the way down from the top directory, so it never mentions a
link, a dot or a double dot.  A path text is something else: a list of
components which the operating system follows one at a time, replacing every
link it meets by the components of the link's text.

`walk` is that resolution.  Its first argument bounds the number of links
followed, as the operating system's own limit does, and it reports how much
of the bound is left.  The two ways of treating a link in the last position
are the two values of `Mode`: opening a file follows it, removing or
renaming an entry does not.
-/

/-- One component of a path text. -/
inductive Component (Name : Type) where
  | current
  | parent
  | normal (name : Name)
  deriving DecidableEq, Repr

/-- The text stored in a symbolic link. -/
structure LinkText (Name : Type) where
  absolute : Bool
  parts : List (Component Name)
  deriving DecidableEq, Repr

inductive Node (Name Content : Type) where
  | file (content : Content)
  | directory
  | link (text : LinkText Name)
  deriving DecidableEq, Repr

/-- Error numbers of the calls modelled over a file tree. -/
inductive Errno where
  | notFound
  | notADirectory
  | isADirectory
  | alreadyExists
  | directoryNotEmpty
  | tooManyLinks
  | other
  deriving DecidableEq, Repr

/-- A tree whose top is a directory and in which everything that exists
lies in a directory. -/
structure FileTree (Name Content : Type) where
  node : List Name -> Option (Node Name Content)
  top_directory : node [] = some .directory
  holder_directory : forall place name,
    (node (place ++ [name])).isSome = true -> node place = some .directory

/-- Whether a link in the last position is followed. -/
inductive Mode where
  | follow
  | stopAtLink
  deriving DecidableEq, Repr

/-- Where a resolution ends: at something that exists, or at a free name in
an existing directory. -/
inductive Arrival (Name : Type) where
  | found (place : List Name)
  | absent (holder : List Name) (name : Name)
  deriving DecidableEq, Repr

namespace FileTree

variable {Name Content : Type}

theorem holder_of_some (tree : FileTree Name Content) {place : List Name} {name : Name}
    {node : Node Name Content} (present : tree.node (place ++ [name]) = some node) :
    tree.node place = some .directory :=
  tree.holder_directory place name (by rw [present]; rfl)

/-- Dropping the last name of a directory's place gives a directory, the top
being its own parent. -/
theorem dropLast_directory (tree : FileTree Name Content) {place : List Name}
    (directory : tree.node place = some .directory) :
    tree.node place.dropLast = some .directory := by
  rcases List.eq_nil_or_concat' place with empty | ⟨initial, last, split⟩
  · subst empty
    exact tree.top_directory
  · subst split
    rw [List.dropLast_concat]
    exact tree.holder_of_some directory

/-- Whether a canonical place is a directory. -/
def isDirectoryAt (tree : FileTree Name Content) (place : List Name) : Bool :=
  match tree.node place with
  | some .directory => true
  | _ => false

@[simp] theorem isDirectoryAt_iff (tree : FileTree Name Content) (place : List Name) :
    tree.isDirectoryAt place = true <-> tree.node place = some .directory := by
  rw [isDirectoryAt]
  split
  · next directory => simp only [directory]
  · next other =>
      constructor
      · intro impossible
        cases impossible
      · intro directory
        exact (other directory).elim

end FileTree

/-- The directory in which a link's text starts to be resolved. -/
def LinkText.start {Name : Type} (text : LinkText Name) (here : List Name) : List Name :=
  if text.absolute then [] else here

theorem LinkText.start_directory {Name Content : Type} (tree : FileTree Name Content)
    (text : LinkText Name) {here : List Name} (directory : tree.node here = some .directory) :
    tree.node (text.start here) = some .directory := by
  rw [LinkText.start]
  split
  · exact tree.top_directory
  · exact directory

section Walk

variable {Name Content : Type}

/-- The outcome of a resolution: its end and the number of links that could
still have been followed. -/
abbrev Walked (Name : Type) := Except Errno (Arrival Name × Nat)

/-- Resolve components up to the next link, handing over there. -/
def walkFrom (tree : FileTree Name Content) (mode : Mode) (left : Nat)
    (enterLink : List Name -> List (Component Name) -> Walked Name) :
    List Name -> List (Component Name) -> Walked Name
  | here, [] => .ok (.found here, left)
  | here, .current :: rest => walkFrom tree mode left enterLink here rest
  | here, .parent :: rest => walkFrom tree mode left enterLink here.dropLast rest
  | here, .normal name :: rest =>
      match tree.node (here ++ [name]) with
      | none => if rest.isEmpty then .ok (.absent here name, left) else .error .notFound
      | some .directory => walkFrom tree mode left enterLink (here ++ [name]) rest
      | some (.file _) =>
          if rest.isEmpty then .ok (.found (here ++ [name]), left) else .error .notADirectory
      | some (.link text) =>
          if rest.isEmpty && mode == .stopAtLink then .ok (.found (here ++ [name]), left)
          else enterLink (text.start here) (text.parts ++ rest)

/-- Resolve components from a directory, following at most `left` links. -/
def walk (tree : FileTree Name Content) (mode : Mode) :
    Nat -> List Name -> List (Component Name) -> Walked Name
  | 0 => walkFrom tree mode 0 (fun _ _ => .error .tooManyLinks)
  | left + 1 => walkFrom tree mode (left + 1) (walk tree mode left)

/-- What happens when a resolution meets a link. -/
def enterLink (tree : FileTree Name Content) (mode : Mode) (left : Nat) :
    List Name -> List (Component Name) -> Walked Name :=
  match left with
  | 0 => fun _ _ => .error .tooManyLinks
  | left + 1 => walk tree mode left

theorem walk_eq_walkFrom (tree : FileTree Name Content) (mode : Mode) (left : Nat) :
    walk tree mode left = walkFrom tree mode left (enterLink tree mode left) := by
  cases left <;> rfl

@[simp] theorem walk_nil (tree : FileTree Name Content) (mode : Mode) (left : Nat)
    (here : List Name) : walk tree mode left here [] = .ok (.found here, left) := by
  rw [walk_eq_walkFrom, walkFrom]

@[simp] theorem walk_current (tree : FileTree Name Content) (mode : Mode) (left : Nat)
    (here : List Name) (rest : List (Component Name)) :
    walk tree mode left here (.current :: rest) = walk tree mode left here rest := by
  rw [walk_eq_walkFrom, walkFrom]

@[simp] theorem walk_parent (tree : FileTree Name Content) (mode : Mode) (left : Nat)
    (here : List Name) (rest : List (Component Name)) :
    walk tree mode left here (.parent :: rest) = walk tree mode left here.dropLast rest := by
  rw [walk_eq_walkFrom, walkFrom]

theorem walk_normal (tree : FileTree Name Content) (mode : Mode) (left : Nat)
    (here : List Name) (name : Name) (rest : List (Component Name)) :
    walk tree mode left here (.normal name :: rest) =
      match tree.node (here ++ [name]) with
      | none => if rest.isEmpty then .ok (.absent here name, left) else .error .notFound
      | some .directory => walk tree mode left (here ++ [name]) rest
      | some (.file _) =>
          if rest.isEmpty then .ok (.found (here ++ [name]), left) else .error .notADirectory
      | some (.link text) =>
          if rest.isEmpty && mode == .stopAtLink then .ok (.found (here ++ [name]), left)
          else enterLink tree mode left (text.start here) (text.parts ++ rest) := by
  rw [walk_eq_walkFrom, walkFrom]

/-- Induction along a resolution: the components get fewer until a link is
entered, and then the bound on links gets smaller. -/
theorem walk_induction {motive : Nat -> List Name -> List (Component Name) -> Prop}
    (nil : forall left here, motive left here [])
    (current : forall left here rest, motive left here rest ->
      motive left here (.current :: rest))
    (parent : forall left here rest, motive left here.dropLast rest ->
      motive left here (.parent :: rest))
    (normal : forall left here name rest, motive left (here ++ [name]) rest ->
      (forall smaller start parts, left = smaller + 1 -> motive smaller start parts) ->
      motive left here (.normal name :: rest))
    (left : Nat) (here : List Name) (parts : List (Component Name)) :
    motive left here parts := by
  induction left generalizing here parts with
  | zero =>
      induction parts generalizing here with
      | nil => exact nil 0 here
      | cons head rest ih =>
          cases head with
          | current => exact current 0 here rest (ih here)
          | parent => exact parent 0 here rest (ih here.dropLast)
          | normal name =>
              exact normal 0 here name rest (ih (here ++ [name]))
                (fun smaller _ _ impossible => absurd impossible (by omega))
  | succ left smallerBound =>
      induction parts generalizing here with
      | nil => exact nil (left + 1) here
      | cons head rest ih =>
          cases head with
          | current => exact current (left + 1) here rest (ih here)
          | parent => exact parent (left + 1) here rest (ih here.dropLast)
          | normal name =>
              refine normal (left + 1) here name rest (ih (here ++ [name])) ?_
              intro smaller start parts equal
              have same : smaller = left := by omega
              subst same
              exact smallerBound start parts

/-- What an arrival says about the tree. -/
def Arrival.Holds (tree : FileTree Name Content) : Arrival Name -> Prop
  | .found place => Exists fun node => tree.node place = some node
  | .absent holder name =>
      tree.node holder = some .directory /\ tree.node (holder ++ [name]) = none

/-- A resolution that starts in a directory ends where it says it does. -/
theorem walk_holds (tree : FileTree Name Content) (mode : Mode) {left : Nat}
    {here : List Name} {parts : List (Component Name)}
    (directory : tree.node here = some .directory)
    {arrival : Arrival Name} {remaining : Nat}
    (walked : walk tree mode left here parts = .ok (arrival, remaining)) :
    arrival.Holds tree := by
  induction left, here, parts using walk_induction with
  | nil left here =>
      rw [walk_nil] at walked
      cases walked
      exact ⟨_, directory⟩
  | current left here rest ih =>
      rw [walk_current] at walked
      exact ih directory walked
  | parent left here rest ih =>
      rw [walk_parent] at walked
      exact ih (tree.dropLast_directory directory) walked
  | normal left here name rest ih smallerBound =>
      rw [walk_normal] at walked
      cases present : tree.node (here ++ [name]) with
      | none =>
          simp only [present] at walked
          split at walked
          · cases walked
            exact ⟨directory, present⟩
          · cases walked
      | some node =>
          cases node with
          | directory =>
              simp only [present] at walked
              exact ih present walked
          | file content =>
              simp only [present] at walked
              split at walked
              · cases walked
                exact ⟨_, present⟩
              · cases walked
          | link text =>
              simp only [present] at walked
              split at walked
              · cases walked
                exact ⟨_, present⟩
              · cases left with
                | zero => cases walked
                | succ smaller =>
                    exact smallerBound smaller _ _ rfl (text.start_directory tree directory) walked

/-- Following links to the end never ends at a link. -/
theorem walk_follow_not_link (tree : FileTree Name Content) {left : Nat}
    {here : List Name} {parts : List (Component Name)}
    (directory : tree.node here = some .directory)
    {place : List Name} {remaining : Nat}
    (walked : walk tree .follow left here parts = .ok (.found place, remaining))
    (text : LinkText Name) : tree.node place ≠ some (.link text) := by
  induction left, here, parts using walk_induction with
  | nil left here =>
      rw [walk_nil] at walked
      cases walked
      rw [directory]
      intro impossible
      cases impossible
  | current left here rest ih =>
      rw [walk_current] at walked
      exact ih directory walked
  | parent left here rest ih =>
      rw [walk_parent] at walked
      exact ih (tree.dropLast_directory directory) walked
  | normal left here name rest ih smallerBound =>
      rw [walk_normal] at walked
      cases present : tree.node (here ++ [name]) with
      | none =>
          simp only [present] at walked
          split at walked <;> cases walked
      | some node =>
          cases node with
          | directory =>
              simp only [present] at walked
              exact ih present walked
          | file content =>
              simp only [present] at walked
              split at walked
              · cases walked
                rw [present]
                intro impossible
                cases impossible
              · cases walked
          | link inner =>
              have notStopped : (rest.isEmpty && Mode.follow == Mode.stopAtLink) = false := by
                cases rest.isEmpty <;> rfl
              simp only [present, notStopped, Bool.false_eq_true, if_false] at walked
              cases left with
              | zero => cases walked
              | succ smaller =>
                  exact smallerBound smaller _ _ rfl (inner.start_directory tree directory) walked

/-- Resolve further components from the end of an earlier resolution. -/
def continueWalk (tree : FileTree Name Content) (mode : Mode) (tail : List (Component Name)) :
    Walked Name -> Walked Name
  | .ok (.found place, left) =>
      match tree.node place with
      | some .directory => walk tree mode left place tail
      | _ => .error .notADirectory
  | .ok (.absent _ _, _) => .error .notFound
  | .error error => .error error

/-- A resolution may be cut at any component: what lies before the cut is
followed to its end, whatever is done with a link in the last position. -/
theorem walk_append (tree : FileTree Name Content) (mode : Mode) (left : Nat)
    (here : List Name) (front tail : List (Component Name))
    (directory : tree.node here = some .directory) (nonempty : tail ≠ []) :
    walk tree mode left here (front ++ tail) =
      continueWalk tree mode tail (walk tree .follow left here front) := by
  induction left, here, front using walk_induction with
  | nil left here => simp only [List.nil_append, walk_nil, continueWalk, directory]
  | current left here rest ih =>
      rw [List.cons_append, walk_current, walk_current]
      exact ih directory
  | parent left here rest ih =>
      rw [List.cons_append, walk_parent, walk_parent]
      exact ih (tree.dropLast_directory directory)
  | normal left here name rest ih smallerBound =>
      have longer : (rest ++ tail).isEmpty = false := by
        cases rest with
        | nil => cases tail with
          | nil => exact absurd rfl nonempty
          | cons => rfl
        | cons => rfl
      rw [List.cons_append, walk_normal, walk_normal]
      cases present : tree.node (here ++ [name]) with
      | none =>
          simp only [longer, Bool.false_eq_true, if_false]
          split <;> rfl
      | some node =>
          cases node with
          | directory => exact ih present
          | file content =>
              simp only [longer, Bool.false_eq_true, if_false]
              split
              · simp only [continueWalk, present]
              · rfl
          | link text =>
              have notStopped : (rest.isEmpty && Mode.follow == Mode.stopAtLink) = false := by
                cases rest.isEmpty <;> rfl
              simp only [longer, notStopped, Bool.false_and, Bool.false_eq_true, if_false]
              cases left with
              | zero => rfl
              | succ smaller =>
                  rw [← List.append_assoc]
                  exact smallerBound smaller _ _ rfl (text.start_directory tree directory)

/-- The last name of a path is looked up in the directory which the rest of
the path leads to. -/
theorem walk_snoc (tree : FileTree Name Content) (mode : Mode) (left : Nat)
    (here : List Name) (front : List (Component Name)) (name : Name)
    (directory : tree.node here = some .directory) :
    walk tree mode left here (front ++ [.normal name]) =
      continueWalk tree mode [.normal name] (walk tree .follow left here front) :=
  walk_append tree mode left here front [.normal name] directory (List.cons_ne_nil _ _)

/-- Whatever is found by following links is also met when the last link is
left alone, perhaps as that link. -/
theorem walk_stopAtLink_of_follow (tree : FileTree Name Content) {left : Nat}
    {here : List Name} {parts : List (Component Name)} {place : List Name} {remaining : Nat}
    (walked : walk tree .follow left here parts = .ok (.found place, remaining)) :
    Exists fun met => Exists fun unused =>
      walk tree .stopAtLink left here parts = .ok (.found met, unused) := by
  induction left, here, parts using walk_induction with
  | nil left here => exact ⟨here, left, walk_nil tree .stopAtLink left here⟩
  | current left here rest ih =>
      rw [walk_current] at walked ⊢
      exact ih walked
  | parent left here rest ih =>
      rw [walk_parent] at walked ⊢
      exact ih walked
  | normal left here name rest ih smallerBound =>
      rw [walk_normal] at walked ⊢
      cases present : tree.node (here ++ [name]) with
      | none =>
          simp only [present] at walked
          split at walked <;> cases walked
      | some node =>
          cases node with
          | directory =>
              simp only [present] at walked
              exact ih walked
          | file content =>
              simp only [present] at walked
              split at walked
              · next ending =>
                  cases walked
                  exact ⟨_, _, if_pos ending⟩
              · cases walked
          | link text =>
              cases ending : rest.isEmpty with
              | true => exact ⟨here ++ [name], left, rfl⟩
              | false =>
                  simp only [present, ending, Bool.false_and, Bool.false_eq_true, if_false] at walked ⊢
                  cases left with
                  | zero => cases walked
                  | succ smaller => exact smallerBound smaller _ _ rfl walked

/-- Leaving the last link alone makes a difference only when there is one. -/
theorem walk_follow_of_stopAtLink (tree : FileTree Name Content) {left : Nat}
    {here : List Name} {parts : List (Component Name)} {place : List Name} {remaining : Nat}
    (walked : walk tree .stopAtLink left here parts = .ok (.found place, remaining))
    (plain : forall text, tree.node place ≠ some (.link text)) :
    walk tree .follow left here parts = .ok (.found place, remaining) := by
  induction left, here, parts using walk_induction with
  | nil left here => rwa [walk_nil] at walked ⊢
  | current left here rest ih =>
      rw [walk_current] at walked ⊢
      exact ih walked
  | parent left here rest ih =>
      rw [walk_parent] at walked ⊢
      exact ih walked
  | normal left here name rest ih smallerBound =>
      rw [walk_normal] at walked ⊢
      cases present : tree.node (here ++ [name]) with
      | none =>
          simp only [present] at walked
          split at walked <;> cases walked
      | some node =>
          rw [present] at walked
          cases node with
          | directory => exact ih walked
          | file content => exact walked
          | link text =>
              cases ending : rest.isEmpty with
              | true =>
                  simp only [ending, Bool.true_and, beq_self_eq_true, if_true] at walked
                  cases walked
                  exact absurd present (plain text)
              | false =>
                  simp only [ending, Bool.false_and, Bool.false_eq_true, if_false] at walked ⊢
                  cases left with
                  | zero => cases walked
                  | succ smaller => exact smallerBound smaller _ _ rfl walked

end Walk

section Resolve

variable {Name Content : Type}

/-- The operating system's limit on the links followed for one path. -/
def maxLinks : Nat := 40

/-- Resolve an absolute path. -/
def resolve (tree : FileTree Name Content) (mode : Mode) (path : List (Component Name)) :
    Walked Name :=
  walk tree mode maxLinks [] path

/-- The canonical place of something that exists, links followed to the end. -/
def canonicalize (tree : FileTree Name Content) (path : List (Component Name)) :
    Except Errno (List Name) :=
  match resolve tree .follow path with
  | .ok (.found place, _) => .ok place
  | .ok (.absent _ _, _) => .error .notFound
  | .error error => .error error

/-- Whether a path leads to a directory. -/
def isDirectory (tree : FileTree Name Content) (path : List (Component Name)) : Bool :=
  match canonicalize tree path with
  | .ok place => tree.isDirectoryAt place
  | .error _ => false

theorem canonicalize_eq_ok (tree : FileTree Name Content) (path : List (Component Name))
    (place : List Name) :
    canonicalize tree path = .ok place <->
      Exists fun left => resolve tree .follow path = .ok (.found place, left) := by
  rw [canonicalize]
  constructor
  · intro found
    split at found
    · next walked =>
        cases found
        exact ⟨_, walked⟩
    · cases found
    · cases found
  · rintro ⟨left, walked⟩
    rw [walked]

theorem resolve_holds (tree : FileTree Name Content) (mode : Mode)
    {path : List (Component Name)} {arrival : Arrival Name} {left : Nat}
    (walked : resolve tree mode path = .ok (arrival, left)) : arrival.Holds tree :=
  walk_holds tree mode tree.top_directory walked

/-- A path whose end is not found leads nowhere when it is prolonged. -/
theorem resolve_append_of_notFound (tree : FileTree Name Content) (mode : Mode)
    {front tail : List (Component Name)} (missing : canonicalize tree front = .error .notFound)
    (nonempty : tail ≠ []) : resolve tree mode (front ++ tail) = .error .notFound := by
  rw [resolve]
  rw [walk_append tree mode maxLinks [] front tail tree.top_directory nonempty]
  unfold canonicalize resolve at missing
  split at missing
  · cases missing
  · next walked =>
      rw [walked]
      rfl
  · next walked =>
      cases missing
      rw [walked]
      rfl

/-- A path that can be prolonged to something that is not an error leads to
a directory. -/
theorem directory_of_resolve_append (tree : FileTree Name Content) (mode : Mode)
    {front tail : List (Component Name)} {arrival : Arrival Name} {left : Nat}
    (walked : resolve tree mode (front ++ tail) = .ok (arrival, left)) (nonempty : tail ≠ []) :
    Exists fun place => Exists fun remaining =>
      resolve tree .follow front = .ok (.found place, remaining) /\
        tree.node place = some .directory /\
        walk tree mode remaining place tail = .ok (arrival, left) := by
  rw [resolve] at walked ⊢
  rw [walk_append tree mode maxLinks [] front tail tree.top_directory nonempty] at walked
  cases reached : walk tree .follow maxLinks [] front with
  | error error =>
      rw [reached] at walked
      cases walked
  | ok result =>
      rcases result with ⟨end_, remaining⟩
      rw [reached] at walked
      cases end_ with
      | absent holder name => cases walked
      | found place =>
          simp only [continueWalk] at walked
          split at walked
          · next directory => exact ⟨place, remaining, rfl, directory, walked⟩
          · cases walked

end Resolve

end Foundations
end Agapornis
