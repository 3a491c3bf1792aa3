import Agapornis.Foundations.TreeGrowth
import Agapornis.Storage.FileReads
import Agapornis.Storage.Moving

namespace Agapornis
namespace Storage

open Foundations Agapornis.Core

/-!
# Files and directories that are made on the host

What is written into a server's directory belongs to the agent's own user at
first.  The entry and the directories above it, up to the root, are handed to
the user that the server runs as, by their paths.
-/

/-- The paths of an entry and of the directories above it, up to the root, from the components of
the entry's path, last first. -/
def ownershipPathsUp (root : List (Component Text)) : List (Component Text) -> List (List (Component Text))
  | [] => if root.isPrefixOf ([] : List (Component Text)) then [[]] else []
  | last :: above =>
      let path := (last :: above).reverse
      if root.isPrefixOf path then path :: if path = root then [] else ownershipPathsUp root above
      else []

def ownershipPaths (root target : List (Component Text)) : List (List (Component Text)) :=
  ownershipPathsUp root target.reverse

/-- The calls of a write that fail.  A write that fails has written some of the bytes, or has not
even opened the file. -/
structure WriteCourse where
  write : Option (Failure × Option Nat)
  chown : Option Failure

/-- The tree that an operation leaves, what it has made, the paths that it has handed over, and
how it ends. -/
structure Outcome where
  tree : FileTree Text Bytes
  created : List (List Text)
  owned : List (List (Component Text))
  result : Except Failure Unit

/-- Hand an entry over. -/
def normalizeHostOwnership (course : WriteCourse) (root target : List (Component Text))
    (tree : FileTree Text Bytes) (created : List (List Text)) : Outcome :=
  match course.chown with
  | none => ⟨tree, created, ownershipPaths root target, .ok ()⟩
  | some failure => ⟨tree, created, [],
      .error (.context "assign file operation output to the server runtime user" failure)⟩

/-- What stands at a place only now. -/
def newAt (tree : FileTree Text Bytes) (place : List Text) : List (List Text) :=
  if (tree.node place).isNone then [place] else []

/-- Write a file at a path that was found to be confined. -/
def writeTarget (course : WriteCourse) (root target : List (Component Text)) (bytes : Bytes)
    (tree : FileTree Text Bytes) (created : List (List Text)) : Outcome :=
  let above := makeDirectories tree target.dropLast
  match above.result with
  | .error error => ⟨above.tree, created ++ above.created, [], .error (.io error)⟩
  | .ok () =>
      match course.write with
      | some (failure, none) => ⟨above.tree, created ++ above.created, [], .error failure⟩
      | some (failure, some count) =>
          match openForWriting above.tree target (bytes.take count) with
          | .error error => ⟨above.tree, created ++ above.created, [], .error (.io error)⟩
          | .ok (place, opened) => ⟨opened, created ++ above.created ++ newAt above.tree place, [], .error failure⟩
      | none =>
          match openForWriting above.tree target bytes with
          | .error error => ⟨above.tree, created ++ above.created, [], .error (.io error)⟩
          | .ok (place, opened) => normalizeHostOwnership course root target opened
              (created ++ above.created ++ newAt above.tree place)

/-- Write a file of a server on the host, from memory or from another file. -/
def writeOnHost (course : WriteCourse) (tree : FileTree Text Bytes) (root : List (Component Text)) (path : Text)
    (bytes : Bytes) : Outcome :=
  if (cleanPath path).isEmpty then ⟨tree, [], [], .error (.bail "A file path is required.")⟩
  else
    let rooted := makeDirectories tree root
    match rooted.result with
    | .error error => ⟨rooted.tree, rooted.created, [], .error (.io error)⟩
    | .ok () =>
        match confinedHostPath rooted.tree root (cleanPath path) false with
        | .error failure => ⟨rooted.tree, rooted.created, [], .error failure⟩
        | .ok target => writeTarget course root target bytes rooted.tree rooted.created

/-- Make a directory of a server on the host. -/
def createDirectoryOnHost (course : WriteCourse) (tree : FileTree Text Bytes) (root : List (Component Text))
    (path : Text) : Outcome :=
  match requiredRelativePath path "A directory path is required." with
  | .error failure => ⟨tree, [], [], .error failure⟩
  | .ok relative =>
      let rooted := makeDirectories tree root
      match rooted.result with
      | .error error => ⟨rooted.tree, rooted.created, [], .error (.io error)⟩
      | .ok () =>
          match confinedHostPath rooted.tree root (Paths.display relative) false with
          | .error failure => ⟨rooted.tree, rooted.created, [], .error failure⟩
          | .ok target =>
              match makeDirectory rooted.tree target with
              | .error error => ⟨rooted.tree, rooted.created, [], .error (.io error)⟩
              | .ok (place, made) => normalizeHostOwnership course root target made (rooted.created ++ [place])

/-! ## The paths that are handed over -/

theorem ownershipPathsUp_names (root : List (Component Text)) (up : List Text) :
    ownershipPathsUp root (up.map .normal ++ root.reverse) =
      up.tails.map fun names => root ++ names.reverse.map .normal := by
  induction up with
  | nil =>
      have same : root.isPrefixOf root = true := List.isPrefixOf_iff_prefix.mpr List.prefix_rfl
      show ownershipPathsUp root root.reverse = [root ++ []]
      rw [List.append_nil]
      cases reversed : root.reverse with
      | nil =>
          have empty : root = [] := List.reverse_eq_nil_iff.mp reversed
          subst empty
          rfl
      | cons last above =>
          have back : (last :: above).reverse = root := by rw [<- reversed, List.reverse_reverse]
          simp only [ownershipPathsUp, back, same, if_true]
  | cons name up induction =>
      have back : (Component.normal name :: (up.map .normal ++ root.reverse)).reverse =
          root ++ (name :: up).reverse.map .normal := by simp
      have below : root.isPrefixOf (root ++ (name :: up).reverse.map .normal) = true :=
        List.isPrefixOf_iff_prefix.mpr (List.prefix_append _ _)
      have longer : Not (root ++ (name :: up).reverse.map .normal = root) := by simp
      rw [List.map_cons, List.cons_append, ownershipPathsUp]
      simp only [back, below, if_true, if_neg longer, induction, List.tails_cons, List.map_cons]

/-- The paths that are handed over are those on the way from the root to the entry. -/
theorem mem_ownershipPaths {root path : List (Component Text)} {names : List Text} :
    path ∈ ownershipPaths root (root ++ names.map .normal) <->
      Exists fun front => front <+: names /\ path = root ++ front.map .normal := by
  have reversed : (root ++ names.map Component.normal).reverse = names.reverse.map .normal ++ root.reverse := by simp
  rw [ownershipPaths, reversed, ownershipPathsUp_names, List.mem_map]
  constructor
  · rintro ⟨back, member, rfl⟩
    refine ⟨back.reverse, ?_, rfl⟩
    exact List.reverse_suffix.mp (by rw [List.reverse_reverse]; exact List.mem_tails _ _ |>.mp member)
  · rintro ⟨front, begins, rfl⟩
    refine ⟨front.reverse, (List.mem_tails _ _).mpr (List.reverse_suffix.mpr begins), ?_⟩
    rw [List.reverse_reverse]

/-- A beginning of a path below the root ends above the root, or at it or below. -/
theorem prefix_below {root front : List (Component Text)} {names : List Text}
    (begins : front <+: root ++ names.map .normal) :
    (front <+: root /\ Not (front = root)) \/
      Exists fun part => part <+: names /\ front = root ++ part.map .normal := by
  by_cases same : front = root
  · exact Or.inr ⟨[], List.nil_prefix, by rw [same, List.map_nil, List.append_nil]⟩
  · rcases List.prefix_or_prefix_of_prefix begins (List.prefix_append root _) with above | below
    · exact Or.inl ⟨above, same⟩
    · rcases below with ⟨rest, rfl⟩
      have part : rest <+: names.map .normal := (List.prefix_append_right_inj root).mp begins
      rcases part with ⟨later, split⟩
      rcases List.map_eq_append_iff.mp split.symm with ⟨first, second, whole, isFirst, _⟩
      exact Or.inr ⟨first, ⟨second, whole.symm⟩, by rw [isFirst]⟩

/-- What is made leads from the root, or to it, along a path. -/
def LedTo (tree : FileTree Text Bytes) (target : List (Component Text)) (created : List (List Text)) : Prop :=
  forall place, place ∈ created -> Exists fun front => front <+: target /\ canonicalize tree front = .ok place

/-- What is new lies above the root, on the way to it, or was handed over. -/
def HandedOver (root : List (Component Text)) (outcome : Outcome) : Prop :=
  forall place, place ∈ outcome.created ->
    (Exists fun front => front <+: root /\ Not (front = root) /\ canonicalize outcome.tree front = .ok place) \/
      Exists fun path => path ∈ outcome.owned /\ canonicalize outcome.tree path = .ok place

theorem LedTo.handedOver {root : List (Component Text)} {names : List Text} {outcome : Outcome}
    (led : LedTo outcome.tree (root ++ names.map .normal) outcome.created)
    (owned : outcome.owned = ownershipPaths root (root ++ names.map .normal)) : HandedOver root outcome := by
  intro place member
  rcases led place member with ⟨front, begins, found⟩
  rcases prefix_below begins with ⟨above, other⟩ | ⟨part, within, rfl⟩
  · exact Or.inl ⟨front, above, other, found⟩
  · refine Or.inr ⟨_, ?_, found⟩
    rw [owned]
    exact mem_ownershipPaths.mpr ⟨part, within, rfl⟩

theorem LedTo.append {tree : FileTree Text Bytes} {target : List (Component Text)} {first second : List (List Text)}
    (one : LedTo tree target first) (other : LedTo tree target second) : LedTo tree target (first ++ second) := by
  intro place member
  rcases List.mem_append.mp member with earlier | later
  · exact one place earlier
  · exact other place later

/-- What making directories has made is still led to in a tree where everything stays where it was. -/
theorem ledTo_grown {tree later : FileTree Text Bytes} {path target : List (Component Text)}
    {making : Making Text Bytes} (grown : GrownAlong tree path making) (shorter : path <+: target)
    (keeps : forall front place, canonicalize making.tree front = .ok place -> canonicalize later front = .ok place) :
    LedTo later target making.created := by
  intro place member
  rcases grown.places place member with ⟨front, begins, found⟩
  exact ⟨front, begins.trans shorter, keeps front place found⟩

/-! ## A path that was found to be confined -/

/-- The names behind an accepted path, and the root that it was compared with. -/
structure Located (tree : FileTree Text Bytes) (root target : List (Component Text)) (path : Text)
    (names canonicalRoot : List Text) : Prop where
  relative : Paths.relative path = .ok names
  below : target = root ++ names.map .normal
  joined : Paths.safeHostPath root path = .ok target
  found : canonicalize tree root = .ok canonicalRoot

theorem located_of_confinedHostPath {tree : FileTree Text Bytes} {root target : List (Component Text)} {path : Text}
    {mustExist : Bool} (confined : confinedHostPath tree root path mustExist = .ok target) :
    Exists fun names => Exists fun canonicalRoot => Located tree root target path names canonicalRoot := by
  rw [confinedHostPath] at confined
  split at confined
  · cases confined
  · next lexical joined =>
      split at confined
      · cases confined
      · next canonicalRoot found =>
          split at confined
          · cases confined
          · split at confined
            · cases confined
              rcases relative_path_of_safeHostPath joined with ⟨names, relative, below⟩
              exact ⟨names, canonicalRoot, relative, below, joined, found⟩
            · cases confined

/-- A path that leads somewhere is confined exactly if it leads below the root. -/
theorem confinedHostPath_found {tree : FileTree Text Bytes} {root target : List (Component Text)} {path : Text}
    {names canonicalRoot place : List Text} (located : Located tree root target path names canonicalRoot)
    (found : canonicalize tree target = .ok place) :
    confinedHostPath tree root path true =
      if canonicalRoot.isPrefixOf place then .ok target else .error (.bail "Path escapes the server root.") := by
  rw [confinedHostPath, located.joined]
  dsimp only
  rw [located.found]
  dsimp only
  rw [canonicalTarget, found]

/-! ## What a write leaves -/

/-- A write that succeeded, and the place of the file. -/
structure WrittenAt (tree : FileTree Text Bytes) (root : List (Component Text)) (path : Text) (bytes : Bytes)
    (outcome : Outcome) (place : List Text) : Prop where
  nodes : forall other, outcome.tree.node other =
    if other = place then some (.file bytes)
    else if other ∈ outcome.created then some .directory else tree.node other
  owned : Exists fun target => target ∈ outcome.owned /\ canonicalize outcome.tree target = .ok place
  handedOver : HandedOver root outcome
  within : forall target, target ∈ outcome.owned -> Exists fun names => Exists fun front =>
    Paths.relative (cleanPath path) = .ok names /\ front <+: names /\ target = root ++ front.map .normal
  readBack : forall container course engine describe malformed id maximum,
    course.metadata = none /\ course.read = none -> Inside outcome.tree root place ->
      readLimited outcome.tree ⟨root, container, true⟩ course engine describe malformed id path maximum =
        boundedRead maximum bytes
  refused : forall container course engine describe malformed id maximum, Not (Inside outcome.tree root place) ->
    readLimited outcome.tree ⟨root, container, true⟩ course engine describe malformed id path maximum =
      .error (.bail "Path escapes the server root.")

/-- The calls of a write that succeeded. -/
structure WriteRun (tree : FileTree Text Bytes) (root : List (Component Text)) (path : Text) (bytes : Bytes)
    (outcome : Outcome) (target : List (Component Text)) (place : List Text) : Prop where
  named : (cleanPath path).isEmpty = false
  confined : confinedHostPath (makeDirectories tree root).tree root (cleanPath path) false = .ok target
  opened : openForWriting (makeDirectories (makeDirectories tree root).tree target.dropLast).tree target bytes =
    .ok (place, outcome.tree)
  created : outcome.created = (makeDirectories tree root).created ++
    (makeDirectories (makeDirectories tree root).tree target.dropLast).created ++
      newAt (makeDirectories (makeDirectories tree root).tree target.dropLast).tree place
  owned : outcome.owned = ownershipPaths root target

theorem normalizeHostOwnership_ok {course : WriteCourse} {root target : List (Component Text)}
    {tree : FileTree Text Bytes} {created : List (List Text)}
    (succeeded : (normalizeHostOwnership course root target tree created).result = .ok ()) :
    normalizeHostOwnership course root target tree created =
      ⟨tree, created, ownershipPaths root target, .ok ()⟩ := by
  rw [normalizeHostOwnership] at succeeded ⊢
  split at succeeded
  · rfl
  · cases succeeded

theorem writeTarget_ok {course : WriteCourse} {root target : List (Component Text)} {bytes : Bytes}
    {tree : FileTree Text Bytes} {created : List (List Text)}
    (succeeded : (writeTarget course root target bytes tree created).result = .ok ()) :
    Exists fun place => Exists fun opened =>
      openForWriting (makeDirectories tree target.dropLast).tree target bytes = .ok (place, opened) /\
      writeTarget course root target bytes tree created =
        ⟨opened, created ++ (makeDirectories tree target.dropLast).created ++
          newAt (makeDirectories tree target.dropLast).tree place, ownershipPaths root target, .ok ()⟩ := by
  rw [writeTarget] at succeeded ⊢
  cases making : (makeDirectories tree target.dropLast).result with
  | error error =>
      rw [making] at succeeded
      cases succeeded
  | ok unused =>
      rw [making] at succeeded
      dsimp only at succeeded ⊢
      split at succeeded
      · cases succeeded
      · split at succeeded <;> cases succeeded
      · split at succeeded
        · cases succeeded
        · next place opened success => exact ⟨place, opened, success, normalizeHostOwnership_ok succeeded⟩

theorem writeOnHost_ok {course : WriteCourse} {tree : FileTree Text Bytes} {root : List (Component Text)}
    {path : Text} {bytes : Bytes} (succeeded : (writeOnHost course tree root path bytes).result = .ok ()) :
    Exists fun target => Exists fun place =>
      WriteRun tree root path bytes (writeOnHost course tree root path bytes) target place := by
  rw [writeOnHost] at succeeded ⊢
  cases named : (cleanPath path).isEmpty with
  | true =>
      rw [named] at succeeded
      cases succeeded
  | false =>
      rw [named, if_neg Bool.false_ne_true] at succeeded
      rw [if_neg Bool.false_ne_true]
      dsimp only at succeeded ⊢
      cases making : (makeDirectories tree root).result with
      | error error =>
          rw [making] at succeeded
          cases succeeded
      | ok unused =>
          rw [making] at succeeded
          dsimp only at succeeded ⊢
          cases confined : confinedHostPath (makeDirectories tree root).tree root (cleanPath path) false with
          | error failure =>
              rw [confined] at succeeded
              cases succeeded
          | ok target =>
              rw [confined] at succeeded
              dsimp only at succeeded ⊢
              rcases writeTarget_ok succeeded with ⟨place, opened, success, whole⟩
              rw [whole]
              exact ⟨target, place, named, confined, success, rfl, rfl⟩

theorem mem_newAt {tree : FileTree Text Bytes} {place other : List Text} (member : other ∈ newAt tree place) :
    other = place := by
  rw [newAt] at member
  split at member
  · exact List.mem_singleton.mp member
  · exact absurd member List.not_mem_nil

namespace WriteRun

variable {tree : FileTree Text Bytes} {root : List (Component Text)} {path : Text} {bytes : Bytes}
  {outcome : Outcome} {target : List (Component Text)} {place : List Text}

theorem nodes (run : WriteRun tree root path bytes outcome target place) (other : List Text) :
    outcome.tree.node other =
      if other = place then some (.file bytes)
      else if other ∈ outcome.created then some .directory else tree.node other := by
  rw [openForWriting_node run.opened other]
  by_cases same : other = place
  · rw [if_pos same, if_pos same]
  · have notNew : other ∉ newAt (makeDirectories (makeDirectories tree root).tree target.dropLast).tree place :=
      fun member => same (mem_newAt member)
    rw [if_neg same, if_neg same, run.created, (makeDirectories_grown _ target.dropLast).nodes,
      (makeDirectories_grown tree root).nodes]
    simp only [List.mem_append, notNew, or_false]
    by_cases above : other ∈ (makeDirectories (makeDirectories tree root).tree target.dropLast).created
    · rw [if_pos above, if_pos (Or.inr above)]
    · by_cases first : other ∈ (makeDirectories tree root).created
      · rw [if_neg above, if_pos first, if_pos (Or.inl first)]
      · rw [if_neg above, if_neg first, if_neg (fun either => either.elim first above)]

/-- Where the paths of the tree before the write lead, they lead afterwards. -/
theorem keeps (run : WriteRun tree root path bytes outcome target place) {front : List (Component Text)}
    {there : List Text} (found : canonicalize (makeDirectories tree root).tree front = .ok there) :
    canonicalize outcome.tree front = .ok there :=
  openForWriting_keeps run.opened (canonicalize_extends (makeDirectories_grown _ target.dropLast).grown found)

theorem ledTo (run : WriteRun tree root path bytes outcome target place) (below : root <+: target) :
    LedTo outcome.tree target outcome.created := by
  rw [run.created]
  refine LedTo.append (LedTo.append ?_ ?_) ?_
  · exact ledTo_grown (makeDirectories_grown tree root) below (fun _ _ found => run.keeps found)
  · exact ledTo_grown (makeDirectories_grown _ target.dropLast) (List.dropLast_prefix target)
      (fun _ _ found => openForWriting_keeps run.opened found)
  · intro other member
    rw [mem_newAt member]
    exact ⟨target, List.prefix_rfl, openForWriting_found run.opened⟩

theorem written (run : WriteRun tree root path bytes outcome target place) :
    WrittenAt tree root path bytes outcome place := by
  rcases located_of_confinedHostPath run.confined with ⟨names, canonicalRoot, located⟩
  have found := openForWriting_found run.opened
  have after : Located outcome.tree root target (cleanPath path) names canonicalRoot :=
    ⟨located.relative, located.below, located.joined, run.keeps located.found⟩
  have owned : outcome.owned = ownershipPaths root (root ++ names.map .normal) := by
    rw [run.owned, located.below]
  have source (container id : Text) : readSource outcome.tree ⟨root, container, true⟩ id path =
      (if canonicalRoot.isPrefixOf place then .ok target
        else .error (.bail "Path escapes the server root.") : Except Failure (List (Component Text))) >>=
          fun target => .ok (.host target) := by
    rw [readSource, if_pos rfl, readPath, run.named, if_neg Bool.false_ne_true, confinedHostPath_found after found]
  have inside : Inside outcome.tree root place <-> canonicalRoot.isPrefixOf place = true := by
    rw [Inside, List.isPrefixOf_iff_prefix]
    constructor
    · rintro ⟨other, same, begins⟩
      rw [after.found] at same
      cases same
      exact begins
    · exact fun begins => ⟨canonicalRoot, after.found, begins⟩
  refine ⟨run.nodes, ?_, ?_, ?_, ?_, ?_⟩
  · refine ⟨target, ?_, found⟩
    rw [owned, located.below]
    exact mem_ownershipPaths.mpr ⟨names, List.prefix_rfl, rfl⟩
  · have led : LedTo outcome.tree (root ++ names.map .normal) outcome.created := by
      rw [<- located.below]
      exact run.ledTo (by rw [located.below]; exact List.prefix_append _ _)
    exact led.handedOver owned
  · intro path member
    rw [owned] at member
    rcases mem_ownershipPaths.mp member with ⟨front, begins, same⟩
    exact ⟨names, front, located.relative, begins, same⟩
  · intro container course engine describe malformed id maximum noFault isInside
    have file : outcome.tree.node place = some (.file bytes) := by
      rw [run.nodes, if_pos rfl]
    rw [readLimited, source, if_pos (inside.mp isInside)]
    exact readOnHost_file noFault found file maximum
  · intro container course engine describe malformed id maximum outside
    rw [readLimited, source, if_neg (fun begins => outside (inside.mpr begins))]
    rfl

end WriteRun

/-- Everything is still there, apart from what one place had. -/
def KeptBut (tree after : FileTree Text Bytes) : Prop :=
  Exists fun place => forall other node, Not (other = place) -> tree.node other = some node ->
    after.node other = some node

theorem keptBut_of_extends {tree after : FileTree Text Bytes} (grown : Extends tree after) : KeptBut tree after :=
  ⟨[], fun other node _ present => grown other node present⟩

theorem keptBut_of_opened {tree before opened : FileTree Text Bytes} {target : List (Component Text)}
    {bytes : Bytes} {place : List Text} (grown : Extends tree before)
    (success : openForWriting before target bytes = .ok (place, opened)) : KeptBut tree opened := by
  refine ⟨place, fun other node different present => ?_⟩
  rw [openForWriting_node success, if_neg different]
  exact grown other node present

theorem normalizeHostOwnership_tree (course : WriteCourse) (root target : List (Component Text))
    (tree : FileTree Text Bytes) (created : List (List Text)) :
    (normalizeHostOwnership course root target tree created).tree = tree := by
  rw [normalizeHostOwnership]
  split <;> rfl

theorem writeTarget_kept {tree before : FileTree Text Bytes} (grown : Extends tree before) (course : WriteCourse)
    (root target : List (Component Text)) (bytes : Bytes) (created : List (List Text)) :
    KeptBut tree (writeTarget course root target bytes before created).tree := by
  have more := grown.trans (makeDirectories_grown before target.dropLast).grown
  rw [writeTarget]
  split
  · exact keptBut_of_extends more
  · split
    · exact keptBut_of_extends more
    · split
      · exact keptBut_of_extends more
      · next success => exact keptBut_of_opened more success
    · split
      · exact keptBut_of_extends more
      · next success =>
          rw [normalizeHostOwnership_tree]
          exact keptBut_of_opened more success

theorem writeOnHost_kept (course : WriteCourse) (tree : FileTree Text Bytes) (root : List (Component Text))
    (path : Text) (bytes : Bytes) : KeptBut tree (writeOnHost course tree root path bytes).tree := by
  have grown := (makeDirectories_grown tree root).grown
  rw [writeOnHost]
  split
  · exact keptBut_of_extends (Extends.refl tree)
  · dsimp only
    split
    · exact keptBut_of_extends grown
    · split
      · exact keptBut_of_extends grown
      · exact writeTarget_kept grown course root _ bytes _

/-! ## What the making of a directory leaves -/

/-- A directory that was made, and its place. -/
structure MadeAt (tree : FileTree Text Bytes) (root : List (Component Text)) (path : Text) (outcome : Outcome)
    (place : List Text) : Prop where
  nodes : forall other, outcome.tree.node other =
    if other ∈ outcome.created then some .directory else tree.node other
  fresh : tree.node place = none /\ place ∈ outcome.created
  owned : Exists fun target => target ∈ outcome.owned /\ canonicalize outcome.tree target = .ok place
  handedOver : HandedOver root outcome
  within : forall target, target ∈ outcome.owned -> Exists fun names => Exists fun front =>
    Paths.relative path = .ok names /\ front <+: names /\ target = root ++ front.map .normal

theorem createDirectoryOnHost_extends (course : WriteCourse) (tree : FileTree Text Bytes)
    (root : List (Component Text)) (path : Text) :
    Extends tree (createDirectoryOnHost course tree root path).tree := by
  have grown := (makeDirectories_grown tree root).grown
  rw [createDirectoryOnHost]
  split
  · exact Extends.refl tree
  · dsimp only
    split
    · exact grown
    · split
      · exact grown
      · split
        · exact grown
        · next success =>
            rw [normalizeHostOwnership_tree]
            exact grown.trans (makeDirectory_grown success (.ok ())).grown

theorem createDirectoryOnHost_ok {course : WriteCourse} {tree : FileTree Text Bytes} {root : List (Component Text)}
    {path : Text} (succeeded : (createDirectoryOnHost course tree root path).result = .ok ()) :
    Exists fun names => Exists fun target => Exists fun place => Exists fun made =>
      Paths.relative path = .ok names /\
      confinedHostPath (makeDirectories tree root).tree root (Paths.display names) false = .ok target /\
      makeDirectory (makeDirectories tree root).tree target = .ok (place, made) /\
      createDirectoryOnHost course tree root path =
        ⟨made, (makeDirectories tree root).created ++ [place], ownershipPaths root target, .ok ()⟩ := by
  rw [createDirectoryOnHost] at succeeded ⊢
  cases required : requiredRelativePath path "A directory path is required." with
  | error failure =>
      rw [required] at succeeded
      cases succeeded
  | ok names =>
      rcases bind_eq_ok.mp required with ⟨relative, joined, rest⟩
      rcases bind_eq_ok.mp rest with ⟨_, _, same⟩
      cases same
      rw [required] at succeeded
      dsimp only at succeeded ⊢
      cases making : (makeDirectories tree root).result with
      | error error =>
          rw [making] at succeeded
          cases succeeded
      | ok unused =>
          rw [making] at succeeded
          dsimp only at succeeded ⊢
          split at succeeded
          · cases succeeded
          · next target confined =>
              split at succeeded
              · cases succeeded
              · next place made success =>
                  exact ⟨_, target, place, made, joined, confined, success, normalizeHostOwnership_ok succeeded⟩

theorem createDirectoryOnHost_made {course : WriteCourse} {tree : FileTree Text Bytes}
    {root : List (Component Text)} {path : Text}
    (succeeded : (createDirectoryOnHost course tree root path).result = .ok ()) :
    Exists fun place => MadeAt tree root path (createDirectoryOnHost course tree root path) place := by
  rcases createDirectoryOnHost_ok succeeded with ⟨names, target, place, made, relative, confined, success, whole⟩
  rcases located_of_confinedHostPath confined with ⟨others, canonicalRoot, located⟩
  have same : others = names := by
    have again := Paths.relative_display (Paths.relative_names relative)
    rw [located.relative] at again
    cases again
    rfl
  subst same
  have rooted := makeDirectories_grown tree root
  rcases makeDirectory_node success with ⟨free, kept, planted⟩
  have found := makeDirectory_found success
  rw [whole, located.below]
  refine ⟨place, ?_, ⟨?_, List.mem_append_right _ (List.mem_singleton_self place)⟩, ?_, ?_, ?_⟩
  · intro other
    dsimp only
    rw [planted, rooted.nodes]
    simp only [List.mem_append, List.mem_singleton]
    by_cases same : other = place
    · rw [if_pos same, if_pos (Or.inr same)]
    · by_cases first : other ∈ (makeDirectories tree root).created
      · rw [if_neg same, if_pos first, if_pos (Or.inl first)]
      · rw [if_neg same, if_neg first, if_neg (fun either => either.elim first same)]
  · cases present : tree.node place with
    | none => rfl
    | some node =>
        rw [rooted.grown place node present] at free
        cases free
  · rw [<- located.below]
    refine ⟨target, ?_, found⟩
    rw [located.below]
    exact mem_ownershipPaths.mpr ⟨others, List.prefix_rfl, rfl⟩
  · refine @LedTo.handedOver root others _ (LedTo.append ?_ ?_) rfl
    · exact ledTo_grown rooted (List.prefix_append _ _) (fun _ _ leads => canonicalize_extends kept leads)
    · intro other member
      rw [List.mem_singleton.mp member, <- located.below]
      exact ⟨target, List.prefix_rfl, found⟩
  · intro path member
    rcases mem_ownershipPaths.mp member with ⟨front, begins, same⟩
    exact ⟨others, front, relative, begins, same⟩

/-! ## What is made on the host -/

/-- A write and the making of a directory on the host, however they end. -/
structure MadeOnHost (course : WriteCourse) (tree : FileTree Text Bytes) (root : List (Component Text)) (path : Text)
    (bytes : Bytes) : Prop where
  kept : KeptBut tree (writeOnHost course tree root path bytes).tree
  written : (writeOnHost course tree root path bytes).result = .ok () ->
    Exists fun place => WrittenAt tree root path bytes (writeOnHost course tree root path bytes) place
  extended : Extends tree (createDirectoryOnHost course tree root path).tree
  made : (createDirectoryOnHost course tree root path).result = .ok () ->
    Exists fun place => MadeAt tree root path (createDirectoryOnHost course tree root path) place

/-- What is written is read back unless it went outside, everything else stays as it was, and
whatever is new below the root belongs to the user of the server. -/
theorem made_on_host (course : WriteCourse) (tree : FileTree Text Bytes) (root : List (Component Text)) (path : Text)
    (bytes : Bytes) : MadeOnHost course tree root path bytes := by
  refine ⟨writeOnHost_kept course tree root path bytes, ?_, createDirectoryOnHost_extends course tree root path,
    createDirectoryOnHost_made⟩
  intro succeeded
  rcases writeOnHost_ok succeeded with ⟨target, place, run⟩
  exact ⟨place, run.written⟩

end Storage
end Agapornis
