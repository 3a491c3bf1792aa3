import Agapornis.Core.Paths
import Agapornis.Foundations.TreeEdits

namespace Agapornis
namespace Storage

open Foundations Agapornis.Core

/-!
# Confinement of host paths

The file service hands every requested path to `confinedHostPath` before it
touches the host.  The check canonicalises the root, and the target or, for a
target that need not exist, its nearest ancestor that does exist; what it
returns is nevertheless the path as it was put together, links and all.

The second half of the module says where the calls made at that path end up.
They stay below the canonical root except in two situations, both about a
symbolic link in the last position: a dangling link whose free end lies
outside is written through, and a link that itself lies outside is deleted
when its target lies inside.
-/

variable {Content : Type}

/-- The walk up from a missing target, over the components last first. -/
def canonicalAncestor (tree : FileTree Text Content) :
    List (Component Text) -> Except Failure (List Text)
  | [] => .error (.bail "Path has no confined parent.")
  | _ :: above =>
      match canonicalize tree above.reverse with
      | .ok place => .ok place
      | .error .notFound => canonicalAncestor tree above
      | .error error => .error (.io error)

/-- The place that is compared with the root: the target's own, or that of
its nearest existing ancestor when the target may be missing. -/
def canonicalTarget (tree : FileTree Text Content) (lexical : List (Component Text))
    (mustExist : Bool) : Except Failure (List Text) :=
  match canonicalize tree lexical with
  | .ok place => .ok place
  | .error .notFound =>
      if mustExist then .error (.io .notFound) else canonicalAncestor tree lexical.reverse
  | .error error => .error (.io error)

def confinedHostPath (tree : FileTree Text Content) (root : List (Component Text))
    (requested : Text) (mustExist : Bool) : Except Failure (List (Component Text)) :=
  match Paths.safeHostPath root requested with
  | .error failure => .error failure
  | .ok lexical =>
      match canonicalize tree root with
      | .error error => .error (.io error)
      | .ok canonicalRoot =>
          match canonicalTarget tree lexical mustExist with
          | .error failure => .error failure
          | .ok target =>
              if canonicalRoot.isPrefixOf target then .ok lexical
              else .error (.bail "Path escapes the server root.")

/-- A canonical place lies below the directory to which the root leads. -/
def Inside (tree : FileTree Text Content) (root : List (Component Text)) (place : List Text) :
    Prop :=
  Exists fun canonicalRoot =>
    canonicalize tree root = .ok canonicalRoot /\ canonicalRoot <+: place

/-! ## What acceptance says -/

/-- What stands at the first component of an accepted path that does not
lead anywhere. -/
inductive Gap (tree : FileTree Text Content) (front : List (Component Text))
    (holder : List Text) (name : Text) : Prop where
  | free (absent : (Arrival.absent holder name).Holds tree)
  | dangling (text : LinkText Text) (left : Nat)
      (link : tree.node (holder ++ [name]) = some (.link text))
      (met : resolve tree .stopAtLink (front ++ [.normal name]) = .ok (.found (holder ++ [name]), left))

/-- The two ways in which a path is accepted. -/
inductive Accepted (tree : FileTree Text Content) (root path : List (Component Text)) : Prop where
  | existing (place : List Text) (found : canonicalize tree path = .ok place)
      (inside : Inside tree root place)
  | missing (front : List (Component Text)) (name : Text) (rest : List Text) (holder : List Text)
      (split : path = front ++ (name :: rest).map .normal)
      (found : canonicalize tree front = .ok holder)
      (nowhere : canonicalize tree (front ++ [.normal name]) = .error .notFound)
      (directory : tree.node holder = some .directory)
      (gap : Gap tree front holder name)
      (inside : Inside tree root holder)

/-- The walk up stops at the last ancestor that exists. -/
theorem canonicalAncestor_eq_ok (tree : FileTree Text Content) {up : List (Component Text)}
    {holder : List Text} (nowhere : canonicalize tree up.reverse = .error .notFound)
    (found : canonicalAncestor tree up = .ok holder) :
    Exists fun front => Exists fun next => Exists fun rest =>
      up.reverse = front ++ next :: rest /\ canonicalize tree front = .ok holder /\
        canonicalize tree (front ++ [next]) = .error .notFound := by
  induction up with
  | nil => cases found
  | cons last above ih =>
      have split : (last :: above).reverse = above.reverse ++ [last] := List.reverse_cons
      rw [canonicalAncestor] at found
      split at found
      · next place here =>
          cases found
          exact ⟨above.reverse, last, [], split, here, split ▸ nowhere⟩
      · next higher =>
          rcases ih higher found with ⟨front, next, rest, path, here, missing⟩
          exact ⟨front, next, rest ++ [last], by rw [split, path]; simp, here, missing⟩
      · cases found

/-- A component after which nothing is found is a free name or a dangling
link in the directory reached so far. -/
theorem gap_of_notFound (tree : FileTree Text Content) {front : List (Component Text)}
    {holder : List Text} {name : Text} (found : canonicalize tree front = .ok holder)
    (nowhere : canonicalize tree (front ++ [.normal name]) = .error .notFound) :
    tree.node holder = some .directory /\ Gap tree front holder name := by
  rcases (canonicalize_eq_ok tree front holder).mp found with ⟨left, walked⟩
  have continued : forall mode, resolve tree mode (front ++ [.normal name]) =
      continueWalk tree mode [.normal name] (.ok (.found holder, left)) := by
    intro mode
    rw [resolve] at walked ⊢
    rw [walk_snoc tree mode maxLinks [] front name tree.top_directory, walked]
  cases atHolder : tree.node holder with
  | none =>
      rw [canonicalize] at nowhere
      rw [continued] at nowhere
      simp only [continueWalk, atHolder] at nowhere
      cases nowhere
  | some node =>
      cases node with
      | file content =>
          rw [canonicalize] at nowhere
          rw [continued] at nowhere
          simp only [continueWalk, atHolder] at nowhere
          cases nowhere
      | link text =>
          rw [canonicalize] at nowhere
          rw [continued] at nowhere
          simp only [continueWalk, atHolder] at nowhere
          cases nowhere
      | directory =>
          refine ⟨rfl, ?_⟩
          have followed := continued .follow
          have stopped := continued .stopAtLink
          simp only [continueWalk, atHolder] at followed stopped
          rw [walk_normal] at followed stopped
          cases present : tree.node (holder ++ [name]) with
          | none => exact .free ⟨atHolder, present⟩
          | some next =>
              cases next with
              | link text =>
                  refine .dangling text left present ?_
                  rw [stopped, present]
                  rfl
              | directory =>
                  rw [present] at followed
                  simp only [walk_nil] at followed
                  rw [canonicalize] at nowhere
                  rw [followed] at nowhere
                  cases nowhere
              | file content =>
                  rw [present] at followed
                  rw [canonicalize] at nowhere
                  rw [followed] at nowhere
                  cases nowhere

theorem relative_path_of_safeHostPath {root path : List (Component Text)} {requested : Text}
    (joined : Paths.safeHostPath root requested = .ok path) :
    Exists fun names => Paths.relative requested = .ok names /\ path = root ++ names.map .normal := by
  rw [Paths.safeHostPath] at joined
  split at joined
  · cases joined
  · next names relative =>
      cases joined
      exact ⟨names, relative, rfl⟩

/-- A path that exists has no prefix that does not. -/
theorem found_above_found {tree : FileTree Text Content}
    {root front : List (Component Text)} {place : List Text}
    (found : canonicalize tree root = .ok place) (initial : front <+: root) :
    canonicalize tree front ≠ .error .notFound := by
  intro missing
  rcases initial with ⟨tail, split⟩
  subst split
  cases tail with
  | nil =>
      rw [List.append_nil] at found
      rw [missing] at found
      cases found
  | cons head tail =>
      have beyond := resolve_append_of_notFound tree .follow missing (List.cons_ne_nil head tail)
      rw [canonicalize] at found
      rw [beyond] at found
      cases found

/-- Below an existing root, the first component that leads nowhere is one of
the requested names. -/
theorem gap_in_names {tree : FileTree Text Content} {root : List (Component Text)}
    {canonicalRoot : List Text} (rootFound : canonicalize tree root = .ok canonicalRoot)
    {names : List Text} {front rest : List (Component Text)} {next : Component Text}
    (split : root ++ names.map .normal = front ++ next :: rest)
    (nowhere : canonicalize tree (front ++ [next]) = .error .notFound) :
    Exists fun name => Exists fun later : List Text =>
      next = .normal name /\ rest = later.map .normal := by
  rcases List.append_eq_append_iff.mp split with ⟨initial, above, below⟩ | ⟨initial, above, below⟩
  · cases initial with
    | nil =>
        rw [List.nil_append] at below
        cases names with
        | nil => cases below
        | cons name later =>
            rw [List.map_cons] at below
            cases below
            exact ⟨name, later, rfl, rfl⟩
    | cons head initial =>
        have names_split : names.map Component.normal = (head :: initial) ++ next :: rest := below
        rcases List.map_eq_append_iff.mp names_split with ⟨_, second, _, _, tail⟩
        cases second with
        | nil => cases tail
        | cons name later =>
            rw [List.map_cons] at tail
            cases tail
            exact ⟨name, later, rfl, rfl⟩
  · cases initial with
    | nil =>
        rw [List.nil_append] at below
        cases names with
        | nil => cases below
        | cons name later =>
            rw [List.map_cons] at below
            cases below
            exact ⟨name, later, rfl, rfl⟩
    | cons head initial =>
        rw [List.cons_append] at below
        cases below
        refine absurd nowhere (found_above_found rootFound ?_)
        rw [above]
        exact ⟨initial, by simp⟩

theorem accepted_missing {tree : FileTree Text Content} {root path : List (Component Text)}
    {requested : Text} (joined : Paths.safeHostPath root requested = .ok path)
    {canonicalRoot target : List Text} (rootFound : canonicalize tree root = .ok canonicalRoot)
    (inside : Inside tree root target) (nowhere : canonicalize tree path = .error .notFound)
    (compared : canonicalAncestor tree path.reverse = .ok target) : Accepted tree root path := by
  rcases relative_path_of_safeHostPath joined with ⟨names, _, joinedPath⟩
  rcases canonicalAncestor_eq_ok tree (by rw [List.reverse_reverse]; exact nowhere) compared with
    ⟨front, next, rest, split, found, missing⟩
  rw [List.reverse_reverse] at split
  rcases gap_in_names rootFound (joinedPath ▸ split) missing with ⟨name, later, isName, areNames⟩
  subst isName areNames
  rcases gap_of_notFound tree found missing with ⟨directory, gap⟩
  exact .missing front name later target split found missing directory gap inside

/-- What the check has established about a path it returns. -/
theorem accepted_of_confinedHostPath {tree : FileTree Text Content}
    {root path : List (Component Text)} {requested : Text} {mustExist : Bool}
    (confined : confinedHostPath tree root requested mustExist = .ok path) :
    Accepted tree root path := by
  rw [confinedHostPath] at confined
  split at confined
  · cases confined
  · next lexical joined =>
      split at confined
      · cases confined
      · next canonicalRoot rootFound =>
          split at confined
          · cases confined
          · next target compared =>
              split at confined
              · next within =>
                  cases confined
                  have inside : Inside tree root target :=
                    ⟨canonicalRoot, rootFound, List.isPrefixOf_iff_prefix.mp within⟩
                  rw [canonicalTarget] at compared
                  split at compared
                  · next found =>
                      cases compared
                      exact .existing _ found inside
                  · next nowhere =>
                      split at compared
                      · cases compared
                      · exact accepted_missing joined rootFound inside nowhere compared
                  · cases compared
              · cases confined

/-! ## Where the calls at an accepted path end up -/

/-- The calls which the file operations make at a path the check returned.
A write, like a copy, first makes the directories above its target. -/
inductive Access (Content : Type) where
  | read
  | write (content : Content)
  | createDirAll
  | createDir
  | delete

/-- The canonical places which an access creates, opens or removes. -/
def Access.reached (tree : FileTree Text Content) (path : List (Component Text)) :
    Access Content -> List (List Text)
  | .read =>
      match canonicalize tree path with
      | .ok place => [place]
      | .error _ => []
  | .write content =>
      let making := makeDirectories tree path.dropLast
      making.created ++
        match making.result with
        | .error _ => []
        | .ok () =>
            match openForWriting making.tree path content with
            | .ok (place, _) => [place]
            | .error _ => []
  | .createDirAll =>
      let making := makeDirectories tree path
      making.created ++
        match canonicalize making.tree path with
        | .ok place => [place]
        | .error _ => []
  | .createDir =>
      match makeDirectory tree path with
      | .ok (place, _) => [place]
      | .error _ => []
  | .delete =>
      match resolve tree .stopAtLink path with
      | .ok (.found place, _) => [place]
      | _ => []

/-- The two situations in which an access leaves the root: writing through a
dangling link whose free end has its directory outside, and deleting a link
that itself lies in a directory outside. -/
inductive LinkLeadsOut (tree : FileTree Text Content) (root path : List (Component Text)) :
    Access Content -> Prop where
  | write (content : Content) (met : List Text) (text : LinkText Text) (unused : Nat)
      (last : resolve tree .stopAtLink path = .ok (.found met, unused))
      (link : tree.node met = some (.link text))
      (holder : List Text) (name : Text) (left : Nat)
      (dangling : resolve tree .follow path = .ok (.absent holder name, left))
      (outside : Not (Inside tree root holder)) :
      LinkLeadsOut tree root path (.write content)
  | delete (holder : List Text) (name : Text) (text : LinkText Text) (unused : Nat)
      (last : resolve tree .stopAtLink path = .ok (.found (holder ++ [name]), unused))
      (link : tree.node (holder ++ [name]) = some (.link text))
      (outside : Not (Inside tree root holder)) :
      LinkLeadsOut tree root path .delete

theorem Inside.of_prefix {tree : FileTree Text Content} {root : List (Component Text)}
    {upper lower : List Text} (inside : Inside tree root upper) (below : upper <+: lower) :
    Inside tree root lower := by
  rcases inside with ⟨canonicalRoot, rootFound, above⟩
  exact ⟨canonicalRoot, rootFound, above.trans below⟩

/-- The root is a directory or a file, so a place that is free or a link lies
inside exactly if the directory that holds it does. -/
theorem inside_holder_iff {tree : FileTree Text Content} {root : List (Component Text)}
    {holder : List Text} {name : Text}
    (notTarget : tree.node (holder ++ [name]) = none \/
      Exists fun text => tree.node (holder ++ [name]) = some (.link text)) :
    Inside tree root (holder ++ [name]) <-> Inside tree root holder := by
  constructor
  · rintro ⟨canonicalRoot, rootFound, below⟩
    rcases List.prefix_concat_iff.mp below with same | inside
    · rcases (canonicalize_eq_ok tree root canonicalRoot).mp rootFound with ⟨left, walked⟩
      rcases notTarget with free | ⟨text, link⟩
      · rcases resolve_holds tree .follow walked with ⟨node, present⟩
        rw [same, free] at present
        cases present
      · rw [← same] at link
        exact absurd link (walk_follow_not_link tree tree.top_directory walked text)
    · exact ⟨canonicalRoot, rootFound, inside⟩
  · intro inside
    exact inside.of_prefix (List.prefix_append holder [name])

/-- The front of an existing path is a directory that exists. -/
theorem makeDirectories_above_existing {tree : FileTree Text Content}
    {path : List (Component Text)} {place : List Text} (found : canonicalize tree path = .ok place) :
    makeDirectories tree path.dropLast = ⟨[], tree, .ok ()⟩ := by
  rcases (canonicalize_eq_ok tree path place).mp found with ⟨left, walked⟩
  rcases List.eq_nil_or_concat' path with empty | ⟨front, last, split⟩
  · subst empty
    have top : canonicalize tree ([] : List (Component Text)) = .ok [] :=
      (canonicalize_eq_ok tree [] []).mpr ⟨maxLinks, walk_nil tree .follow maxLinks []⟩
    have directory : isDirectory tree ([] : List (Component Text)) = true := by
      simp only [isDirectory, top, FileTree.isDirectoryAt_iff, tree.top_directory]
    rw [List.dropLast_nil, makeDirectories_of_found top, if_pos directory]
  · subst split
    rcases directory_of_resolve_append tree .follow walked (List.cons_ne_nil last []) with
      ⟨above, remaining, aboveWalked, aboveDirectory, _⟩
    have aboveFound := (canonicalize_eq_ok tree front above).mpr ⟨remaining, aboveWalked⟩
    have directory : isDirectory tree front = true := by
      simp only [isDirectory, aboveFound, FileTree.isDirectoryAt_iff, aboveDirectory]
    rw [List.dropLast_concat, makeDirectories_of_found aboveFound, if_pos directory]

/-- Whatever is done at an existing path that does not end in a link happens
at its canonical place. -/
theorem reached_existing {tree : FileTree Text Content} {path : List (Component Text)}
    {place : List Text} (found : canonicalize tree path = .ok place) (access : Access Content) :
    forall reached, reached ∈ access.reached tree path -> reached = place \/
      access = .delete /\ Exists fun left => Exists fun text =>
        resolve tree .stopAtLink path = .ok (.found reached, left) /\
          tree.node reached = some (.link text) := by
  rcases (canonicalize_eq_ok tree path place).mp found with ⟨left, walked⟩
  rcases walk_stopAtLink_of_follow tree walked with ⟨met, unused, stopped⟩
  intro reached member
  cases access with
  | read =>
      simp only [Access.reached, found] at member
      exact Or.inl (List.mem_singleton.mp member)
  | write content =>
      simp only [Access.reached, makeDirectories_above_existing found, List.nil_append,
        openForWriting, walked] at member
      split at member
      · next opened =>
          split at opened <;> cases opened
          exact Or.inl (List.mem_singleton.mp member)
      · cases member
  | createDirAll =>
      simp only [Access.reached, makeDirectories_of_found found, List.nil_append, found] at member
      exact Or.inl (List.mem_singleton.mp member)
  | createDir =>
      have refused : makeDirectory tree path = .error .alreadyExists :=
        makeDirectory_of_found stopped
      simp only [Access.reached, refused] at member
      cases member
  | delete =>
      have resolved : resolve tree .stopAtLink path = .ok (.found met, unused) := stopped
      simp only [Access.reached, resolved] at member
      have same := List.mem_singleton.mp member
      subst same
      by_cases isLink : Exists fun text => tree.node reached = some (.link text)
      · rcases isLink with ⟨text, link⟩
        exact Or.inr ⟨rfl, unused, text, resolved, link⟩
      · have followed := walk_follow_of_stopAtLink tree stopped
          (fun text link => isLink ⟨text, link⟩)
        have both : walk tree .follow maxLinks [] path = .ok (.found place, left) := walked
        rw [followed] at both
        cases both
        exact Or.inl rfl

section Missing

variable {tree : FileTree Text Content} {front : List (Component Text)} {holder : List Text}
  {name : Text} (found : canonicalize tree front = .ok holder)
  (nowhere : canonicalize tree (front ++ [.normal name]) = .error .notFound)
  (directory : tree.node holder = some .directory) (gap : Gap tree front holder name)

include nowhere in
/-- Further components after the gap are not resolved at all. -/
theorem resolve_beyond_gap (mode : Mode) (next : Text) (rest : List Text) :
    resolve tree mode (front ++ (name :: next :: rest).map .normal) = .error .notFound := by
  have split : front ++ (name :: next :: rest).map Component.normal =
      (front ++ [.normal name]) ++ (next :: rest).map .normal := by
    simp
  rw [split]
  exact resolve_append_of_notFound tree mode nowhere (List.cons_ne_nil _ _)

include nowhere in
theorem reached_missing_read (rest : List Text) :
    (Access.read : Access Content).reached tree (front ++ (name :: rest).map .normal) = [] := by
  cases rest with
  | nil => simp only [Access.reached, List.map_cons, List.map_nil, nowhere]
  | cons next rest =>
      simp only [Access.reached, canonicalize, resolve_beyond_gap nowhere .follow next rest]

include found nowhere gap in
theorem reached_missing_createDirAll (rest : List Text) {reached : List Text}
    (member : reached ∈ (Access.createDirAll : Access Content).reached tree
      (front ++ (name :: rest).map .normal)) : holder <+: reached := by
  cases gap with
  | free absent =>
      have made := makeDirectories_below_free tree found absent rest
      simp only [Access.reached, made.reached] at member
      rcases List.mem_append.mp member with new | last
      · exact made.below reached new
      · rw [List.mem_singleton.mp last]
        exact List.prefix_append holder (name :: rest)
  | dangling text left link met =>
      have refused := makeDirectories_at_occupied tree nowhere met (rest.map .normal)
      have split : front ++ (name :: rest).map Component.normal =
          (front ++ [.normal name]) ++ rest.map .normal := by
        simp
      rw [split] at member
      simp only [Access.reached, refused, List.nil_append] at member
      cases rest with
      | nil =>
          simp only [List.map_nil, List.append_nil, nowhere] at member
          cases member
      | cons next rest =>
          have more : (next :: rest).map Component.normal ≠ [] := List.cons_ne_nil _ _
          have beyond := resolve_append_of_notFound tree .follow nowhere more
          simp only [canonicalize, beyond] at member
          cases member

include found nowhere gap in
theorem reached_missing_createDir (rest : List Text) {reached : List Text}
    (member : reached ∈ (Access.createDir : Access Content).reached tree
      (front ++ (name :: rest).map .normal)) : holder <+: reached := by
  cases rest with
  | nil =>
      cases gap with
      | free absent =>
          rcases resolve_free tree .stopAtLink found absent with ⟨left, stopped⟩
          simp only [Access.reached, List.map_cons, List.map_nil,
            makeDirectory_of_absent stopped] at member
          rw [List.mem_singleton.mp member]
          exact List.prefix_append holder [name]
      | dangling text left link met =>
          simp only [Access.reached, List.map_cons, List.map_nil, makeDirectory_of_found met] at member
          cases member
  | cons next rest =>
      simp only [Access.reached, makeDirectory,
        resolve_beyond_gap nowhere .stopAtLink next rest] at member
      cases member

include found nowhere gap in
theorem reached_missing_delete (rest : List Text) {reached : List Text}
    (member : reached ∈ (Access.delete : Access Content).reached tree
      (front ++ (name :: rest).map .normal)) : holder <+: reached := by
  cases rest with
  | nil =>
      cases gap with
      | free absent =>
          rcases resolve_free tree .stopAtLink found absent with ⟨left, stopped⟩
          simp only [Access.reached, List.map_cons, List.map_nil, stopped] at member
          cases member
      | dangling text left link met =>
          simp only [Access.reached, List.map_cons, List.map_nil, met] at member
          rw [List.mem_singleton.mp member]
          exact List.prefix_append holder [name]
  | cons next rest =>
      simp only [Access.reached, resolve_beyond_gap nowhere .stopAtLink next rest] at member
      cases member

include found nowhere directory gap in
/-- A write at the gap itself happens below the holder or goes through a
dangling link. -/
theorem reached_missing_writeHere (content : Content) {reached : List Text}
    (member : reached ∈ (Access.write content).reached tree (front ++ [.normal name])) :
    holder <+: reached \/ Exists fun far => Exists fun last => Exists fun left =>
      Exists fun text => Exists fun unused => reached = far ++ [last] /\
        resolve tree .follow (front ++ [.normal name]) = .ok (.absent far last, left) /\
        resolve tree .stopAtLink (front ++ [.normal name]) = .ok (.found (holder ++ [name]), unused) /\
        tree.node (holder ++ [name]) = some (.link text) := by
  have aboveDirectory : isDirectory tree front = true := by
    simp only [isDirectory, found, FileTree.isDirectoryAt_iff, directory]
  have nothingAbove : makeDirectories tree front = ⟨[], tree, .ok ()⟩ := by
    rw [makeDirectories_of_found found, if_pos aboveDirectory]
  simp only [Access.reached, List.dropLast_concat, nothingAbove, List.nil_append,
    openForWriting] at member
  cases gap with
  | free absent =>
      rcases resolve_free tree .follow found absent with ⟨left, followed⟩
      simp only [followed] at member
      rw [List.mem_singleton.mp member]
      exact Or.inl (List.prefix_append holder [name])
  | dangling text unused link met =>
      cases followed : resolve tree .follow (front ++ [.normal name]) with
      | error error =>
          simp only [followed] at member
          cases member
      | ok arrival =>
          rcases arrival with ⟨arrival, left⟩
          cases arrival with
          | found place =>
              have impossible := (canonicalize_eq_ok tree _ place).mpr ⟨left, followed⟩
              rw [nowhere] at impossible
              cases impossible
          | absent far last =>
              simp only [followed] at member
              exact Or.inr ⟨far, last, left, text, unused, List.mem_singleton.mp member, rfl, met, link⟩

include found nowhere gap in
theorem reached_missing_writeBelow (content : Content) (initial : List Text) (last : Text)
    {reached : List Text}
    (member : reached ∈ (Access.write content).reached tree
      (front ++ (name :: (initial ++ [last])).map .normal)) : holder <+: reached := by
  have above : (front ++ (name :: (initial ++ [last])).map Component.normal).dropLast =
      front ++ (name :: initial).map .normal := by
    have regroup : front ++ (name :: (initial ++ [last])).map Component.normal =
        (front ++ (name :: initial).map .normal) ++ [.normal last] := by
      simp
    rw [regroup, List.dropLast_concat]
  cases gap with
  | free absent =>
      have made := makeDirectories_below_free tree found absent initial
      rcases resolve_free _ .follow made.reached ⟨made.directory, made.empty last⟩ with
        ⟨left, followed⟩
      have opened : resolve (makeDirectories tree (front ++ (name :: initial).map .normal)).tree
          .follow (front ++ (name :: (initial ++ [last])).map .normal) =
            .ok (.absent (holder ++ name :: initial) last, left) := by
        rw [← followed]
        simp
      simp only [Access.reached, above, made.succeeded, openForWriting, opened] at member
      rcases List.mem_append.mp member with new | written
      · exact made.below reached new
      · rw [List.mem_singleton.mp written, List.append_assoc]
        exact List.prefix_append holder _
  | dangling text left link met =>
      have refused := makeDirectories_at_occupied tree nowhere met (initial.map .normal)
      have regroup : front ++ (name :: initial).map Component.normal =
          (front ++ [.normal name]) ++ initial.map .normal := by
        simp
      simp only [Access.reached, above, regroup, refused] at member
      cases member

include found nowhere directory gap in
/-- Whatever is done at a path with a gap happens below the directory that
holds the gap, unless the gap is a dangling link which a write goes through. -/
theorem reached_missing (rest : List Text) (access : Access Content) :
    forall reached, reached ∈ access.reached tree (front ++ (name :: rest).map .normal) ->
      holder <+: reached \/
        Exists fun content => access = .write content /\
          Exists fun far => Exists fun last => Exists fun left => Exists fun text => Exists fun unused =>
            reached = far ++ [last] /\
              resolve tree .follow (front ++ (name :: rest).map .normal) = .ok (.absent far last, left) /\
              resolve tree .stopAtLink (front ++ (name :: rest).map .normal) =
                .ok (.found (holder ++ [name]), unused) /\
              tree.node (holder ++ [name]) = some (.link text) := by
  intro reached member
  cases access with
  | read =>
      rw [reached_missing_read nowhere rest] at member
      cases member
  | createDirAll => exact Or.inl (reached_missing_createDirAll found nowhere gap rest member)
  | createDir => exact Or.inl (reached_missing_createDir found nowhere gap rest member)
  | delete => exact Or.inl (reached_missing_delete found nowhere gap rest member)
  | write content =>
      rcases List.eq_nil_or_concat' rest with empty | ⟨initial, last, split⟩
      · subst empty
        rcases reached_missing_writeHere found nowhere directory gap content member with below | through
        · exact Or.inl below
        · exact Or.inr ⟨content, rfl, through⟩
      · subst split
        exact Or.inl (reached_missing_writeBelow found nowhere gap content initial last member)

end Missing

theorem Accepted.reached_inside {tree : FileTree Text Content}
    {root path : List (Component Text)} (accepted : Accepted tree root path)
    (access : Access Content) (staysIn : Not (LinkLeadsOut tree root path access))
    {reached : List Text} (member : reached ∈ access.reached tree path) :
    Inside tree root reached := by
  cases accepted with
  | existing place found inside =>
      rcases reached_existing found access reached member with same | ⟨isDelete, left, text, last, link⟩
      · exact same ▸ inside
      · rcases List.eq_nil_or_concat' reached with empty | ⟨holder, name, split⟩
        · subst empty
          rw [tree.top_directory] at link
          cases link
        · subst split isDelete
          by_contra outside
          have holderOutside : Not (Inside tree root holder) := fun inside =>
            outside ((inside_holder_iff (Or.inr ⟨text, link⟩)).mpr inside)
          exact staysIn (.delete holder name text left last link holderOutside)
  | missing front name rest holder split found nowhere directory gap inside =>
      subst split
      rcases reached_missing found nowhere directory gap rest access reached member with
        below | ⟨content, isWrite, far, last, left, text, unused, isEnd, dangling, met, link⟩
      · exact inside.of_prefix below
      · subst isWrite isEnd
        by_contra outside
        have free := (resolve_holds tree .follow dangling).2
        have farOutside : Not (Inside tree root far) := fun inside =>
          outside ((inside_holder_iff (Or.inl free)).mpr inside)
        exact staysIn (.write content _ text unused met link far last left dangling farOutside)

/-- A write goes through a dangling link at an accepted path. -/
theorem Accepted.write_reaches {tree : FileTree Text Content} {root path : List (Component Text)}
    (accepted : Accepted tree root path) (content : Content) {holder : List Text} {name : Text}
    {left : Nat} (dangling : resolve tree .follow path = .ok (.absent holder name, left)) :
    holder ++ [name] ∈ (Access.write content).reached tree path := by
  cases accepted with
  | existing place found inside =>
      rcases (canonicalize_eq_ok tree path place).mp found with ⟨unused, walked⟩
      rw [dangling] at walked
      cases walked
  | missing front next rest gapHolder split found nowhere directory gap inside =>
      subst split
      cases rest with
      | cons second rest =>
          rw [resolve_beyond_gap nowhere .follow second rest] at dangling
          cases dangling
      | nil =>
          have aboveDirectory : isDirectory tree front = true := by
            simp only [isDirectory, found, FileTree.isDirectoryAt_iff, directory]
          have nothingAbove : makeDirectories tree front = ⟨[], tree, .ok ()⟩ := by
            rw [makeDirectories_of_found found, if_pos aboveDirectory]
          rw [List.map_cons, List.map_nil] at dangling ⊢
          simp only [Access.reached, List.dropLast_concat, nothingAbove, openForWriting, dangling,
            List.nil_append, List.mem_singleton]

theorem Accepted.reached_inside_iff {tree : FileTree Text Content}
    {root path : List (Component Text)} (accepted : Accepted tree root path)
    (access : Access Content) :
    (forall place, place ∈ access.reached tree path -> Inside tree root place) <->
      Not (LinkLeadsOut tree root path access) := by
  constructor
  · intro staysIn leadsOut
    cases leadsOut with
    | write content met text unused last link holder name left dangling outside =>
        have free := (resolve_holds tree .follow dangling).2
        have inside := staysIn _ (accepted.write_reaches content dangling)
        exact outside ((inside_holder_iff (Or.inl free)).mp inside)
    | delete holder name text unused last link outside =>
        have inside := staysIn (holder ++ [name])
          (by simp only [Access.reached, last, List.mem_singleton])
        exact outside ((inside_holder_iff (Or.inr ⟨text, link⟩)).mp inside)
  · intro staysIn place member
    exact accepted.reached_inside access staysIn member

/-- At a path which the check returned, every access stays below the
canonical root exactly when none of the two kinds of link leads it out. -/
theorem confinedHostPath_reached_inside_iff (tree : FileTree Text Content)
    (root : List (Component Text)) (requested : Text) (mustExist : Bool)
    (path : List (Component Text))
    (confined : confinedHostPath tree root requested mustExist = .ok path)
    (access : Access Content) :
    (forall place, place ∈ access.reached tree path -> Inside tree root place) <->
      Not (LinkLeadsOut tree root path access) :=
  (accepted_of_confinedHostPath confined).reached_inside_iff access

/-- A server directory with a regular file and a link which its process has
made to a file that does not exist yet in a directory of the host. -/
def plantedLinkTree : FileTree Text Bytes :=
  ((((FileTree.bare Text Bytes).plant [] "etc".toList .directory).plant [] "srv".toList .directory).plant
    ["srv".toList] "world".toList (.file [1])).plant
    ["srv".toList] "out".toList (.link ⟨true, [.normal "etc".toList, .normal "new".toList]⟩)

theorem confinedHostPath_reached_inside_iff_world :
    confinedHostPath plantedLinkTree [.normal "srv".toList] "/world".toList true =
        .ok [.normal "srv".toList, .normal "world".toList] /\
      ((forall place, place ∈ (Access.delete : Access Bytes).reached plantedLinkTree
          [.normal "srv".toList, .normal "world".toList] ->
          Inside plantedLinkTree [.normal "srv".toList] place) <->
        Not (LinkLeadsOut plantedLinkTree [.normal "srv".toList]
          [.normal "srv".toList, .normal "world".toList] .delete)) :=
  ⟨by decide, confinedHostPath_reached_inside_iff plantedLinkTree [.normal "srv".toList]
    "/world".toList true _ (by decide) .delete⟩

/-- The path of the planted link is accepted, and the write that follows
creates the file in the host's directory. -/
theorem writes_through_planted_link :
    Not (forall (tree : FileTree Text Bytes) (root : List (Component Text)) (requested : Text)
      (mustExist : Bool) (path : List (Component Text)),
      confinedHostPath tree root requested mustExist = .ok path ->
      forall (access : Access Bytes) (place : List Text),
        place ∈ access.reached tree path -> Inside tree root place) := by
  intro confinement
  have confined : confinedHostPath plantedLinkTree [.normal "srv".toList] "out".toList false =
      .ok [.normal "srv".toList, .normal "out".toList] := by decide
  have written : ["etc".toList, "new".toList] ∈ (Access.write [7]).reached plantedLinkTree
      [.normal "srv".toList, .normal "out".toList] := by decide
  rcases confinement _ _ _ _ _ confined _ _ written with ⟨canonicalRoot, found, below⟩
  have rootPlace : canonicalize plantedLinkTree [.normal "srv".toList] = .ok ["srv".toList] := by
    decide
  rw [rootPlace] at found
  cases found
  revert below
  decide

end Storage
end Agapornis
