import Agapornis.Foundations.TreeMoves

namespace Agapornis
namespace Foundations

/-!
# Renames one after the other

The rename call replaces a file by a file and an empty directory by a directory,
and refuses everything else that stands in its way.  A list of renames into one
directory is all that it should be exactly when none of them disturbs a later
one: this is `Apart`, and it speaks about the tree before the first of them.
-/

variable {Name Content : Type}

/-- What a file system knows about its directories: which of them are empty. -/
structure Listing (Name Content : Type) where
  isEmpty : FileTree Name Content -> List Name -> Bool
  isEmpty_iff : forall tree place, isEmpty tree place = true <->
    forall name, tree.node (place ++ [name]) = none

open Classical in
/-- The listing of a tree as it is. -/
noncomputable def Listing.exact (Name Content : Type) : Listing Name Content where
  isEmpty tree place := decide (forall name, tree.node (place ++ [name]) = none)
  isEmpty_iff _ _ := decide_eq_true_iff

section Calls

variable [DecidableEq Name] (listing : Listing Name Content)

/-- Rename an entry.  A link in the last position is the entry itself. -/
def renameEntry (tree : FileTree Name Content) (source target : List (Component Name)) :
    Except Errno (FileTree Name Content) :=
  match resolve tree .stopAtLink source, resolve tree .stopAtLink target with
  | .error error, _ => .error error
  | .ok _, .error error => .error error
  | .ok (.absent _ _, _), .ok _ => .error .notFound
  | .ok (.found place, _), .ok (.absent holder name, _) =>
      if place <+: holder ++ [name] then .error .other
      else .ok (tree.relocate place (holder ++ [name]))
  | .ok (.found place, _), .ok (.found other, _) =>
      if place = other then .ok tree
      else if place <+: other then .error .other
      else if other <+: place then .error .directoryNotEmpty
      else if tree.isDirectoryAt place then
        if tree.isDirectoryAt other then
          if listing.isEmpty tree other then .ok (tree.relocate place other)
          else .error .directoryNotEmpty
        else .error .notADirectory
      else if tree.isDirectoryAt other then .error .isADirectory
      else .ok (tree.relocate place other)

/-- The two paths of a rename. -/
structure Move (Name : Type) where
  source : List (Component Name)
  target : List (Component Name)
  deriving DecidableEq, Repr

/-- Make renames until one is refused. -/
def renameAll : FileTree Name Content -> List (Move Name) ->
    Except Errno Unit × FileTree Name Content
  | tree, [] => (.ok (), tree)
  | tree, move :: rest =>
      match renameEntry listing tree move.source move.target with
      | .error error => (.error error, tree)
      | .ok renamed => renameAll renamed rest

end Calls

/-- An entry to be moved: a path to it, its place, and its name. -/
structure Movable (Name : Type) where
  path : List (Component Name)
  place : List Name
  name : Name

/-- The move of an item into the directory to which a path leads. -/
def Movable.move (item : Movable Name) (holder : List (Component Name)) : Move Name :=
  ⟨item.path, holder ++ [.normal item.name]⟩

/-! ## What moving items should do, and when it does -/

section Statements

variable [DecidableEq Name] (tree after : FileTree Name Content) (holder : List (Component Name))
  (destination : List Name) (items : List (Movable Name))

/-- Every item is in the directory, each under a name of its own, and nothing
else has changed. -/
structure AllMoved : Prop where
  content : forall item, item ∈ items -> forall below,
    after.node (destination ++ item.name :: below) = tree.node (item.place ++ below)
  own : (items.map Movable.name).Nodup
  kept : Extends (tree.without (items.map Movable.place)) after
  nothingElse : forall place, OffNames destination (items.map Movable.name) place ->
    after.node place = (tree.without (items.map Movable.place)).node place

/-- A path to an item, and the path of the directory, lead where they did once
some places are taken away. -/
structure Reached (removed : List (List Name)) (item : Movable Name) : Prop where
  source : canonicalize (tree.without removed) item.path = .ok item.place
  target : canonicalize (tree.without removed) holder = .ok destination

/-- No two items have one name or lie within each other, nothing stands at their
new places or is moved into itself, and no path leads through an earlier item. -/
structure Apart : Prop where
  names : (items.map Movable.name).Nodup
  places : items.Pairwise fun one other => Not (one.place <+: other.place) /\ Not (other.place <+: one.place)
  free : forall item, item ∈ items -> tree.node (destination ++ [item.name]) = none
  outside : forall item, item ∈ items -> Not (item.place <+: destination)
  reached : forall front item back, items = front ++ item :: back ->
    Reached tree holder destination (front.map Movable.place) item

/-- The first rename is refused: into the item itself, or of a directory over a link. -/
def RefusedFirst : List (Movable Name) -> Prop
  | [] => False
  | item :: _ => item.place <+: destination \/
      (tree.isDirectoryAt item.place = true /\ Not (tree.node (destination ++ [item.name]) = none))

/-- Success has moved everything, and a failure has changed nothing. -/
def AllOrNothing {Error : Type} : Except Error Unit × FileTree Name Content -> Prop
  | (.ok _, after) => AllMoved tree after destination items
  | (.error _, after) => forall place, after.node place = tree.node place

/-- What is known of the items before any of them is moved: where they are, and
that following links leads to nothing at their new places. -/
structure Prepared : Prop where
  found : canonicalize tree holder = .ok destination
  directory : tree.node destination = some .directory
  source : forall item, item ∈ items -> canonicalize tree item.path = .ok item.place
  met : forall item, item ∈ items -> Exists fun left =>
    resolve tree .stopAtLink item.path = .ok (.found item.place, left)
  vacant : forall item, item ∈ items ->
    canonicalize tree (holder ++ [.normal item.name]) = .error .notFound

end Statements

/-! ## One rename -/

section Step

variable {tree : FileTree Name Content} {holder : List (Component Name)} {destination : List Name}
  {items : List (Movable Name)}

theorem Prepared.dead (prepared : Prepared tree holder destination items) (name : Name)
    (member : name ∈ items.map Movable.name) : DeadEnd tree destination name := by
  rcases List.mem_map.mp member with ⟨item, isItem, rfl⟩
  exact deadEnd_of_notFound tree prepared.found prepared.directory (prepared.vacant item isItem)

theorem Prepared.plain (prepared : Prepared tree holder destination items) {item : Movable Name}
    (member : item ∈ items) (text : LinkText Name) : Not (tree.node item.place = some (.link text)) := by
  rcases (canonicalize_eq_ok tree item.path item.place).mp (prepared.source item member) with ⟨left, walked⟩
  exact walk_follow_not_link tree tree.top_directory walked text

theorem Prepared.present (prepared : Prepared tree holder destination items) {item : Movable Name}
    (member : item ∈ items) : Exists fun node => tree.node item.place = some node := by
  rcases prepared.met item member with ⟨left, walked⟩
  exact resolve_holds tree .stopAtLink walked

/-- An item lies off the new places of the items. -/
theorem Prepared.off (prepared : Prepared tree holder destination items) {item : Movable Name}
    (member : item ∈ items) : OffNames destination (items.map Movable.name) item.place := by
  rcases prepared.present member with ⟨node, present⟩
  refine offNames_of_plain tree prepared.dead present ?_
  intro text isLink
  rw [isLink] at present
  exact prepared.plain member text present

theorem Prepared.destination_off (prepared : Prepared tree holder destination items) :
    OffNames destination (items.map Movable.name) destination :=
  offNames_of_plain tree prepared.dead prepared.directory nofun

variable [DecidableEq Name] (listing : Listing Name Content)

/-- A tree in which some items have been moved: away from the new places of the
items it is the first tree without them. -/
def Underway (tree now : FileTree Name Content) (destination : List Name) (items : List (Movable Name))
    (removed : List (List Name)) : Prop :=
  forall place, OffNames destination (items.map Movable.name) place ->
    now.node place = (tree.without removed).node place

theorem underway_start : Underway tree tree destination items [] :=
  fun place _ => (tree.without_node (fun _ impossible => by cases impossible)).symm

variable {now : FileTree Name Content} {removed : List (List Name)} {item : Movable Name}

theorem resolve_source (prepared : Prepared tree holder destination items)
    (underway : Underway tree now destination items removed) (member : item ∈ items) :
    resolve now .stopAtLink item.path = resolve (tree.without removed) .stopAtLink item.path := by
  rcases prepared.met item member with ⟨left, walked⟩
  exact walk_thinned prepared.dead (tree.extends_without removed) underway (prepared.plain member) walked

theorem resolve_holder (prepared : Prepared tree holder destination items)
    (underway : Underway tree now destination items removed) :
    resolve now .follow holder = resolve (tree.without removed) .follow holder := by
  rcases (canonicalize_eq_ok tree holder destination).mp prepared.found with ⟨left, walked⟩
  refine walk_thinned prepared.dead (tree.extends_without removed) underway ?_ walked
  intro text isLink
  rw [prepared.directory] at isLink
  cases isLink

/-- A path that is still followed leads to where it led. -/
theorem same_place {path : List (Component Name)} {mode : Mode} {place other : List Name} {left again : Nat}
    (first : resolve tree mode path = .ok (.found place, left))
    (later : resolve (tree.without removed) mode path = .ok (.found other, again)) : other = place := by
  have both := walk_extends (tree.extends_without removed) later
  rw [resolve] at first
  rw [first] at both
  cases both
  rfl

theorem source_of_reached (prepared : Prepared tree holder destination items)
    (underway : Underway tree now destination items removed) (member : item ∈ items)
    (reached : canonicalize (tree.without removed) item.path = .ok item.place) :
    Exists fun left => resolve now .stopAtLink item.path = .ok (.found item.place, left) := by
  rcases (canonicalize_eq_ok _ item.path item.place).mp reached with ⟨left, walked⟩
  rcases walk_stopAtLink_of_follow _ walked with ⟨met, unused, stopped⟩
  rcases prepared.met item member with ⟨budget, before⟩
  have same := same_place before stopped
  subst same
  rw [resolve_source prepared underway member]
  exact ⟨unused, stopped⟩

theorem reached_of_source (prepared : Prepared tree holder destination items)
    (underway : Underway tree now destination items removed) (member : item ∈ items) {place : List Name}
    {left : Nat} (walked : resolve now .stopAtLink item.path = .ok (.found place, left)) :
    place = item.place /\ canonicalize (tree.without removed) item.path = .ok item.place := by
  rw [resolve_source prepared underway member] at walked
  rcases prepared.met item member with ⟨budget, before⟩
  have same := same_place before walked
  subst same
  refine ⟨rfl, (canonicalize_eq_ok _ _ _).mpr ⟨left, ?_⟩⟩
  apply walk_follow_of_stopAtLink _ walked
  intro text isLink
  exact prepared.plain member text (tree.extends_without removed _ _ isLink)

/-- The directory is where it was as long as its path is followed. -/
theorem directory_of_reached (prepared : Prepared tree holder destination items)
    (underway : Underway tree now destination items removed)
    (reached : canonicalize (tree.without removed) holder = .ok destination) :
    now.node destination = some .directory := by
  rcases (canonicalize_eq_ok _ holder destination).mp reached with ⟨left, walked⟩
  rcases resolve_holds _ .follow walked with ⟨node, kept⟩
  have same := (tree.extends_without removed _ _ kept).symm.trans prepared.directory
  rw [underway destination prepared.destination_off, kept, same]

theorem target_of_reached (prepared : Prepared tree holder destination items)
    (underway : Underway tree now destination items removed)
    (reached : canonicalize (tree.without removed) holder = .ok destination) (name : Name) :
    Exists fun left => resolve now .stopAtLink (holder ++ [.normal name]) =
      if (now.node (destination ++ [name])).isNone then .ok (.absent destination name, left)
      else .ok (.found (destination ++ [name]), left) := by
  rcases (canonicalize_eq_ok _ holder destination).mp reached with ⟨left, walked⟩
  refine ⟨left, ?_⟩
  rw [<- resolve_holder prepared underway, resolve] at walked
  rw [resolve, walk_snoc now .stopAtLink maxLinks [] holder name now.top_directory, walked]
  simp only [continueWalk, directory_of_reached prepared underway reached]
  rw [walk_normal]
  cases now.node (destination ++ [name]) with
  | none => rfl
  | some node =>
      cases node with
      | directory => exact walk_nil now .stopAtLink left (destination ++ [name])
      | file content => rfl
      | link text => rfl

theorem reached_of_target (prepared : Prepared tree holder destination items)
    (underway : Underway tree now destination items removed) {name : Name} {arrival : Arrival Name} {left : Nat}
    (walked : resolve now .stopAtLink (holder ++ [.normal name]) = .ok (arrival, left)) :
    canonicalize (tree.without removed) holder = .ok destination := by
  rcases directory_of_resolve_append now .stopAtLink walked (List.cons_ne_nil _ _) with
    ⟨place, remaining, above, _, _⟩
  rw [resolve_holder prepared underway] at above
  rcases (canonicalize_eq_ok tree holder destination).mp prepared.found with ⟨budget, before⟩
  have same := same_place before above
  subst same
  exact (canonicalize_eq_ok _ _ _).mpr ⟨remaining, above⟩

omit [DecidableEq Name] in
/-- An item contains the new place of an item only if it contains the directory. -/
theorem prefix_place_iff (prepared : Prepared tree holder destination items) (member : item ∈ items)
    {name : Name} (known : name ∈ items.map Movable.name) :
    item.place <+: destination ++ [name] <-> item.place <+: destination := by
  rw [List.prefix_concat_iff]
  refine or_iff_right ?_
  intro same
  exact prepared.off member name known (same ▸ List.prefix_refl _)

theorem relocatable_of_reached (prepared : Prepared tree holder destination items)
    (underway : Underway tree now destination items removed) (member : item ∈ items)
    (reached : canonicalize (tree.without removed) holder = .ok destination)
    (outside : Not (item.place <+: destination)) :
    now.relocatable item.place (destination ++ [item.name]) = true := by
  have known : item.name ∈ items.map Movable.name := List.mem_map_of_mem member
  rw [FileTree.relocatable_iff, prefix_place_iff prepared member known, List.dropLast_concat]
  exact ⟨outside, prepared.off member item.name known, directory_of_reached prepared underway reached⟩

/-- A rename moves an item to a free name, or a file over something that is not
a directory. -/
theorem renameEntry_ok (prepared : Prepared tree holder destination items)
    (underway : Underway tree now destination items removed) (member : item ∈ items)
    (reached : Reached tree holder destination removed item)
    (outside : Not (item.place <+: destination))
    (room : now.node (destination ++ [item.name]) = none \/
      (now.isDirectoryAt item.place = false /\ now.isDirectoryAt (destination ++ [item.name]) = false)) :
    renameEntry listing now item.path (holder ++ [.normal item.name]) =
      .ok (now.relocate item.place (destination ++ [item.name])) := by
  rcases source_of_reached prepared underway member reached.source with ⟨_, found⟩
  rcases target_of_reached prepared underway reached.target item.name with ⟨_, target⟩
  have known : item.name ∈ items.map Movable.name := List.mem_map_of_mem member
  have off := prepared.off member item.name known
  have notInside := (prefix_place_iff prepared member known).not.mpr outside
  rw [renameEntry]
  rw [found, target]
  cases here : now.node (destination ++ [item.name]) with
  | none =>
      simp only [Option.isNone_none, if_true]
      exact if_neg notInside
  | some node =>
      have plain := room.resolve_left (by rw [here]; nofun)
      have different : Not (item.place = destination ++ [item.name]) := by
        intro same
        exact notInside (same ▸ List.prefix_refl _)
      simp only [Option.isNone_some, Bool.false_eq_true, if_false, if_neg different, if_neg notInside,
        if_neg off, plain.1, plain.2]

/-- A rename that is not refused has moved the item to its new place, and both
its paths lead where they did. -/
theorem reached_of_renameEntry (prepared : Prepared tree holder destination items)
    (underway : Underway tree now destination items removed) (member : item ∈ items)
    {after : FileTree Name Content}
    (renamed : renameEntry listing now item.path (holder ++ [.normal item.name]) = .ok after) :
    Reached tree holder destination removed item /\ Not (item.place <+: destination) /\
      after = now.relocate item.place (destination ++ [item.name]) /\
      (now.node (destination ++ [item.name]) = none \/
        now.isDirectoryAt item.place = now.isDirectoryAt (destination ++ [item.name])) := by
  cases source : resolve now .stopAtLink item.path with
  | error error =>
      rw [renameEntry] at renamed
      rw [source] at renamed
      cases renamed
  | ok arrival =>
      cases target : resolve now .stopAtLink (holder ++ [.normal item.name]) with
      | error error =>
          rw [renameEntry] at renamed
          rw [source, target] at renamed
          cases renamed
      | ok other =>
          rcases arrival with ⟨arrival, left⟩
          rcases other with ⟨other, again⟩
          cases arrival with
          | absent above name =>
              rw [renameEntry] at renamed
              rw [source, target] at renamed
              cases renamed
          | found place =>
              rcases reached_of_source prepared underway member source with ⟨same, atSource⟩
              subst same
              have atTarget := reached_of_target prepared underway target
              rcases target_of_reached prepared underway atTarget item.name with ⟨_, resolved⟩
              have known : item.name ∈ items.map Movable.name := List.mem_map_of_mem member
              have off := prepared.off member item.name known
              rw [renameEntry] at renamed
              rw [source, resolved] at renamed
              rw [<- prefix_place_iff prepared member known]
              refine ⟨⟨atSource, atTarget⟩, ?_⟩
              cases here : now.node (destination ++ [item.name]) with
              | none =>
                  rw [here] at renamed
                  simp only [Option.isNone_none, if_true] at renamed
                  split at renamed
                  · cases renamed
                  · next outside =>
                      cases renamed
                      exact ⟨outside, rfl, Or.inl rfl⟩
              | some node =>
                  rw [here] at renamed
                  simp only [Option.isNone_some, Bool.false_eq_true, if_false] at renamed
                  have different : Not (item.place = destination ++ [item.name]) := by
                    intro same
                    exact off (same ▸ List.prefix_refl _)
                  rw [if_neg different] at renamed
                  by_cases inside : item.place <+: destination ++ [item.name]
                  · rw [if_pos inside] at renamed
                    cases renamed
                  · rw [if_neg inside, if_neg off] at renamed
                    refine ⟨inside, ?_⟩
                    cases atPlace : now.isDirectoryAt item.place with
                    | false =>
                        rw [atPlace, if_neg Bool.false_ne_true] at renamed
                        cases atTarget : now.isDirectoryAt (destination ++ [item.name]) with
                        | true =>
                            rw [atTarget, if_pos rfl] at renamed
                            cases renamed
                        | false =>
                            rw [atTarget, if_neg Bool.false_ne_true] at renamed
                            cases renamed
                            exact ⟨rfl, Or.inr rfl⟩
                    | true =>
                        rw [atPlace, if_pos rfl] at renamed
                        cases atTarget : now.isDirectoryAt (destination ++ [item.name]) with
                        | true =>
                            rw [atTarget, if_pos rfl] at renamed
                            split at renamed
                            · cases renamed
                              exact ⟨rfl, Or.inr rfl⟩
                            · cases renamed
                        | false =>
                            rw [atTarget, if_neg Bool.false_ne_true] at renamed
                            cases renamed

/-- Moving one more item takes away one more place. -/
theorem Underway.relocate {front : List (Movable Name)}
    (underway : Underway tree now destination items (front.map Movable.place)) (member : item ∈ items)
    (movable : now.relocatable item.place (destination ++ [item.name]) = true) :
    Underway tree (now.relocate item.place (destination ++ [item.name])) destination items
      ((front ++ [item]).map Movable.place) := by
  intro place off
  rw [FileTree.relocate_elsewhere movable (off item.name (List.mem_map_of_mem member)),
    List.map_append, <- tree.without_append]
  exact FileTree.without_congr [item.place] (underway place off)

/-- A name in the directory is not touched when another item gets its place. -/
theorem relocate_other (prepared : Prepared tree holder destination items) (member : item ∈ items)
    (movable : now.relocatable item.place (destination ++ [item.name]) = true)
    (outside : Not (item.place <+: destination)) {name : Name} (known : name ∈ items.map Movable.name)
    (different : Not (name = item.name)) (below : List Name) :
    (now.relocate item.place (destination ++ [item.name])).node (destination ++ name :: below) =
      now.node (destination ++ name :: below) := by
  have split : destination ++ name :: below = destination ++ [name] ++ below := by simp
  have elsewhere : Not (destination ++ [item.name] <+: destination ++ name :: below) := by
    intro inside
    rw [List.prefix_append_right_inj, List.cons_prefix_cons] at inside
    exact different inside.1.symm
  rw [FileTree.relocate_elsewhere movable elsewhere]
  apply FileTree.without_node
  intro top isPlace above
  rw [List.mem_singleton.mp isPlace, split] at above
  rcases List.prefix_or_prefix_of_prefix above (List.prefix_append (destination ++ [name]) below) with
    inside | around
  · exact outside ((prefix_place_iff prepared member known).mp inside)
  · exact prepared.off member name known around

omit [DecidableEq Name] in
/-- What lies in an item that does not contain the directory lies off the new places. -/
theorem off_below (prepared : Prepared tree holder destination items) (member : item ∈ items)
    (outside : Not (item.place <+: destination)) (below : List Name) :
    OffNames destination (items.map Movable.name) (item.place ++ below) := by
  intro name known inside
  rcases List.prefix_or_prefix_of_prefix inside (List.prefix_append item.place below) with around | within
  · exact prepared.off member name known around
  · exact outside ((prefix_place_iff prepared member known).mp within)

end Step

/-! ## One rename after the other -/

section Runs

variable {tree : FileTree Name Content} {holder : List (Component Name)} {destination : List Name}
  {items : List (Movable Name)} [DecidableEq Name] (listing : Listing Name Content)

/-- The moves of some items. -/
abbrev movesOf (holder : List (Component Name)) (items : List (Movable Name)) : List (Move Name) :=
  items.map fun item => item.move holder

theorem renameAll_first {now after : FileTree Name Content} {item : Movable Name}
    {rest : List (Movable Name)}
    (renamed : renameEntry listing now item.path (holder ++ [.normal item.name]) = .ok after) :
    renameAll listing now (movesOf holder (item :: rest)) =
      renameAll listing after (movesOf holder rest) := by
  have moved : renameEntry listing now (item.move holder).source (item.move holder).target = .ok after :=
    renamed
  rw [movesOf, List.map_cons, renameAll, moved]

theorem renameAll_refused {now : FileTree Name Content} {item : Movable Name}
    {rest : List (Movable Name)} {error : Errno}
    (refused : renameEntry listing now item.path (holder ++ [.normal item.name]) = .error error) :
    renameAll listing now (movesOf holder (item :: rest)) = (.error error, now) := by
  have stopped : renameEntry listing now (item.move holder).source (item.move holder).target =
      .error error := refused
  rw [movesOf, List.map_cons, renameAll, stopped]

/-- However far the renames get, they have taken away the items they got to. -/
theorem renameAll_underway (prepared : Prepared tree holder destination items) :
    forall (rest front : List (Movable Name)) (now : FileTree Name Content), items = front ++ rest ->
      Underway tree now destination items (front.map Movable.place) ->
      Exists fun moved => Exists fun left => rest = moved ++ left /\
        Underway tree (renameAll listing now (movesOf holder rest)).2 destination items
          ((front ++ moved).map Movable.place) /\
        ((renameAll listing now (movesOf holder rest)).1 = .ok () -> left = []) := by
  intro rest
  induction rest with
  | nil =>
      intro front now split underway
      rw [<- List.append_nil front] at underway
      exact ⟨[], [], rfl, underway, fun _ => rfl⟩
  | cons item rest induction =>
      intro front now split underway
      have member : item ∈ items := by simp [split]
      cases renamed : renameEntry listing now item.path (holder ++ [.normal item.name]) with
      | error error =>
          rw [<- List.append_nil front] at underway
          rw [renameAll_refused listing renamed]
          exact ⟨[], item :: rest, rfl, underway, nofun⟩
      | ok after =>
          rcases reached_of_renameEntry listing prepared underway member renamed with
            ⟨reached, outside, rfl, _⟩
          have movable := relocatable_of_reached prepared underway member reached.target outside
          have next := underway.relocate member movable
          rw [renameAll_first listing renamed]
          rcases induction (front ++ [item]) _ (by simp [split]) next with ⟨moved, left, parts, later, whole⟩
          refine ⟨item :: moved, left, by rw [parts, List.cons_append], ?_, whole⟩
          rw [List.append_assoc, List.singleton_append] at later
          exact later

/-- The first of several renames that all go through. -/
theorem renameAll_step (prepared : Prepared tree holder destination items)
    {front rest : List (Movable Name)} {first : Movable Name} {now : FileTree Name Content}
    (split : items = front ++ first :: rest)
    (underway : Underway tree now destination items (front.map Movable.place))
    (succeeded : (renameAll listing now (movesOf holder (first :: rest))).1 = .ok ()) :
    Reached tree holder destination (front.map Movable.place) first /\
      Not (first.place <+: destination) /\
      now.relocatable first.place (destination ++ [first.name]) = true /\
      renameAll listing now (movesOf holder (first :: rest)) =
        renameAll listing (now.relocate first.place (destination ++ [first.name])) (movesOf holder rest) := by
  have member : first ∈ items := by simp [split]
  cases renamed : renameEntry listing now first.path (holder ++ [.normal first.name]) with
  | error error =>
      rw [renameAll_refused listing renamed] at succeeded
      cases succeeded
  | ok after =>
      rcases reached_of_renameEntry listing prepared underway member renamed with
        ⟨reached, outside, rfl, _⟩
      exact ⟨reached, outside, relocatable_of_reached prepared underway member reached.target outside,
        renameAll_first listing renamed⟩

/-- When all renames have gone through, every path led where it should. -/
theorem renameAll_done (prepared : Prepared tree holder destination items) :
    forall (rest front : List (Movable Name)) (now : FileTree Name Content), items = front ++ rest ->
      Underway tree now destination items (front.map Movable.place) ->
      (renameAll listing now (movesOf holder rest)).1 = .ok () ->
      forall before item back, rest = before ++ item :: back ->
        Reached tree holder destination ((front ++ before).map Movable.place) item /\
          Not (item.place <+: destination) := by
  intro rest
  induction rest with
  | nil =>
      intro front now split underway succeeded before item back parts
      cases before <;> cases parts
  | cons first rest induction =>
      intro front now split underway succeeded before item back parts
      rcases renameAll_step listing prepared split underway succeeded with ⟨reached, outside, movable, ran⟩
      rw [ran] at succeeded
      cases before with
      | nil =>
          cases parts
          rw [List.append_nil]
          exact ⟨reached, outside⟩
      | cons head before =>
          cases parts
          have next := underway.relocate (by simp [split]) movable
          have later := induction (front ++ [first]) _ (by simp [split]) next succeeded before item back rfl
          rw [List.append_assoc, List.singleton_append] at later
          exact later

/-- Renames of other items leave a name in the directory alone. -/
theorem renameAll_keeps (prepared : Prepared tree holder destination items) {name : Name}
    (known : name ∈ items.map Movable.name) :
    forall (rest front : List (Movable Name)) (now : FileTree Name Content), items = front ++ rest ->
      Underway tree now destination items (front.map Movable.place) ->
      (renameAll listing now (movesOf holder rest)).1 = .ok () -> Not (name ∈ rest.map Movable.name) ->
      forall below, (renameAll listing now (movesOf holder rest)).2.node (destination ++ name :: below) =
        now.node (destination ++ name :: below) := by
  intro rest
  induction rest with
  | nil => exact fun _ _ _ _ _ _ _ => rfl
  | cons first rest induction =>
      intro front now split underway succeeded other below
      have member : first ∈ items := by simp [split]
      rw [List.map_cons, List.mem_cons, not_or] at other
      rcases renameAll_step listing prepared split underway succeeded with ⟨_, outside, movable, ran⟩
      rw [ran] at succeeded ⊢
      have later := induction (front ++ [first]) _ (by simp [split])
        (underway.relocate member movable) succeeded other.2 below
      exact later.trans (relocate_other prepared member movable outside known other.1 below)

omit [DecidableEq Name] in
theorem fresh_name {front rest : List (Movable Name)} {item : Movable Name}
    (own : (items.map Movable.name).Nodup) (split : items = front ++ item :: rest) :
    Not (item.name ∈ rest.map Movable.name) := by
  rw [split, List.map_append, List.map_cons] at own
  exact (List.nodup_cons.mp (List.nodup_append.mp own).2.1).1

/-- An item with a name of its own ends up as it was when its turn came. -/
theorem renameAll_content (prepared : Prepared tree holder destination items)
    (own : (items.map Movable.name).Nodup) :
    forall (rest front : List (Movable Name)) (now : FileTree Name Content), items = front ++ rest ->
      Underway tree now destination items (front.map Movable.place) ->
      (renameAll listing now (movesOf holder rest)).1 = .ok () ->
      forall before item back, rest = before ++ item :: back -> forall below,
        (renameAll listing now (movesOf holder rest)).2.node (destination ++ item.name :: below) =
          (tree.without ((front ++ before).map Movable.place)).node (item.place ++ below) := by
  intro rest
  induction rest with
  | nil =>
      intro front now split underway succeeded before item back parts
      cases before <;> cases parts
  | cons first rest induction =>
      intro front now split underway succeeded before item back parts below
      have member : first ∈ items := by simp [split]
      rcases renameAll_step listing prepared split underway succeeded with ⟨_, outside, movable, ran⟩
      rw [ran] at succeeded ⊢
      have next := underway.relocate member movable
      have parted : items = (front ++ [first]) ++ rest := by simp [split]
      cases before with
      | nil =>
          cases parts
          have known : first.name ∈ items.map Movable.name := List.mem_map_of_mem member
          have kept := renameAll_keeps listing prepared known rest (front ++ [first]) _ parted next
            succeeded (fresh_name own split) below
          have target : destination ++ first.name :: below = destination ++ [first.name] ++ below := by
            simp
          rw [target] at kept ⊢
          rw [List.append_nil]
          refine kept.trans ((FileTree.relocate_target movable below).trans ?_)
          exact underway _ (off_below prepared member outside below)
      | cons head before =>
          cases parts
          have later := induction (front ++ [first]) _ parted next succeeded before item back rfl below
          rw [List.append_assoc, List.singleton_append] at later
          exact later

/-- Items that are apart are all moved. -/
theorem renameAll_ok (prepared : Prepared tree holder destination items)
    (apart : Apart tree holder destination items) :
    forall (rest front : List (Movable Name)) (now : FileTree Name Content), items = front ++ rest ->
      Underway tree now destination items (front.map Movable.place) ->
      (forall item, item ∈ rest -> now.node (destination ++ [item.name]) = none) ->
      (renameAll listing now (movesOf holder rest)).1 = .ok () := by
  intro rest
  induction rest with
  | nil => exact fun _ _ _ _ _ => rfl
  | cons first rest induction =>
      intro front now split underway free
      have member : first ∈ items := by simp [split]
      have reached := apart.reached front first rest split
      have outside := apart.outside first member
      have movable := relocatable_of_reached prepared underway member reached.target outside
      have renamed := renameEntry_ok listing prepared underway member reached outside
        (Or.inl (free first List.mem_cons_self))
      rw [renameAll_first listing renamed]
      refine induction (front ++ [first]) _ (by simp [split]) (underway.relocate member movable) ?_
      intro item isLater
      have known : item.name ∈ items.map Movable.name :=
        List.mem_map_of_mem (by rw [split]; simp [isLater])
      have different : Not (item.name = first.name) := by
        intro same
        apply fresh_name apart.names split
        rw [<- same]
        exact List.mem_map_of_mem isLater
      rw [relocate_other prepared member movable outside known different []]
      exact free item (List.mem_cons_of_mem first isLater)

/-- Nothing is left at the place of an item that has been taken away. -/
theorem Underway.gone (prepared : Prepared tree holder destination items)
    {now : FileTree Name Content} {removed : List (List Name)}
    (underway : Underway tree now destination items removed) {item : Movable Name} (member : item ∈ items)
    (taken : item.place ∈ removed) (nonempty : Not (item.place = [])) : now.node item.place = none := by
  rw [underway item.place (prepared.off member)]
  exact tree.without_gone taken (List.prefix_refl _) nonempty

/-- Once the first rename has gone through, the tree is no longer what it was. -/
theorem renameAll_changed (prepared : Prepared tree holder destination items) {item : Movable Name}
    {rest : List (Movable Name)} (split : items = item :: rest) {after : FileTree Name Content}
    (renamed : renameEntry listing tree item.path (holder ++ [.normal item.name]) = .ok after) :
    Not (forall place, (renameAll listing tree (movesOf holder items)).2.node place = tree.node place) := by
  intro unchanged
  have member : item ∈ items := by simp [split]
  rcases reached_of_renameEntry listing prepared underway_start member renamed with
    ⟨reached, outside, rfl, _⟩
  have movable := relocatable_of_reached prepared underway_start member reached.target outside
  have start : Underway tree tree destination items (([] : List (Movable Name)).map Movable.place) :=
    underway_start
  have next := start.relocate member movable
  rcases renameAll_underway listing prepared rest [item] _ split next with ⟨moved, left, _, later, _⟩
  have nonempty : Not (item.place = []) := fun empty => outside (empty ▸ List.nil_prefix)
  have gone := later.gone prepared member (by simp) nonempty
  rcases prepared.present member with ⟨node, present⟩
  have same := unchanged item.place
  rw [split, renameAll_first listing renamed, gone, present] at same
  cases same

/-- Items that are apart are where they should be in the end, and nothing else is changed. -/
theorem allMoved_of_apart (prepared : Prepared tree holder destination items)
    (apart : Apart tree holder destination items) :
    (renameAll listing tree (movesOf holder items)).1 = .ok () /\
      AllMoved tree (renameAll listing tree (movesOf holder items)).2 destination items := by
  have succeeded := renameAll_ok listing prepared apart items [] tree rfl underway_start apart.free
  rcases renameAll_underway listing prepared items [] tree rfl underway_start with
    ⟨moved, left, parts, underway, whole⟩
  rw [whole succeeded, List.append_nil] at parts
  subst parts
  refine ⟨succeeded, ?_, apart.names, ?_, underway⟩
  · intro item member below
    rcases List.append_of_mem member with ⟨before, back, split⟩
    rw [renameAll_content listing prepared apart.names items [] tree rfl underway_start succeeded before item
      back split below]
    apply FileTree.without_node
    intro top taken above
    rw [List.nil_append] at taken
    rcases List.mem_map.mp taken with ⟨other, isOther, rfl⟩
    have places := apart.places
    rw [split, List.pairwise_append] at places
    have different := places.2.2 other isOther item List.mem_cons_self
    rcases List.prefix_or_prefix_of_prefix above (List.prefix_append item.place below) with inside | around
    · exact different.1 inside
    · exact different.2 around
  · intro place node present
    rw [underway place, List.nil_append, present]
    intro name known above
    rcases List.mem_map.mp known with ⟨item, member, rfl⟩
    have absent := tree.absent_of_absent (apart.free item member) above
    rw [tree.extends_without _ place node present] at absent
    cases absent

theorem pairwise_of_earlier {Value : Type} {relation : Value -> Value -> Prop} {values : List Value}
    (earlier : forall before value back, values = before ++ value :: back ->
      forall other, other ∈ before -> relation other value) : values.Pairwise relation := by
  induction values using List.reverseRecOn with
  | nil => exact List.Pairwise.nil
  | append_singleton values last induction =>
      rw [List.pairwise_append]
      refine ⟨induction ?_, List.pairwise_singleton relation last, ?_⟩
      · intro before value back split
        exact earlier before value (back ++ [last]) (by rw [split]; simp)
      · intro other member value isLast
        rw [List.mem_singleton.mp isLast]
        exact earlier values last [] rfl other member

/-- When all renames have gone through and have done what they should, the items
were apart. -/
theorem apart_of_allMoved (prepared : Prepared tree holder destination items)
    (succeeded : (renameAll listing tree (movesOf holder items)).1 = .ok ())
    (moved : AllMoved tree (renameAll listing tree (movesOf holder items)).2 destination items) :
    Apart tree holder destination items := by
  have done := renameAll_done listing prepared items [] tree rfl underway_start succeeded
  have outside : forall item, item ∈ items -> Not (item.place <+: destination) := by
    intro item member
    rcases List.append_of_mem member with ⟨before, back, split⟩
    exact (done before item back split).2
  refine ⟨moved.own, ?_, ?_, outside, ?_⟩
  · apply pairwise_of_earlier
    intro before item back split other earlier
    have member : item ∈ items := by simp [split]
    have isOther : other ∈ items := by simp [split, earlier]
    have taken : other.place ∈ ([] ++ before).map Movable.place :=
      List.mem_map_of_mem (by simpa using earlier)
    have nonempty : forall item, item ∈ items -> Not (item.place = []) :=
      fun item member empty => outside item member (empty ▸ List.nil_prefix)
    constructor
    · intro inside
      rcases (canonicalize_eq_ok _ _ _).mp (done before item back split).1.source with ⟨left, walked⟩
      rcases resolve_holds _ .follow walked with ⟨node, present⟩
      rw [tree.without_gone taken inside (nonempty item member)] at present
      cases present
    · rintro ⟨below, inside⟩
      have content := renameAll_content listing prepared moved.own items [] tree rfl underway_start succeeded
        before item back split below
      rw [moved.content item member below, inside,
        tree.without_gone taken (List.prefix_refl _) (nonempty other isOther)] at content
      rcases prepared.present isOther with ⟨node, present⟩
      rw [present] at content
      cases content
  · intro item member
    have known : item.name ∈ items.map Movable.name := List.mem_map_of_mem member
    cases here : tree.node (destination ++ [item.name]) with
    | none => rfl
    | some node =>
        rcases prepared.dead item.name known node here with ⟨text, rfl, _⟩
        have stays : (tree.without (items.map Movable.place)).node (destination ++ [item.name]) =
            some (.link text) := by
          rw [FileTree.without_node, here]
          intro top taken above
          rcases List.mem_map.mp taken with ⟨other, isOther, rfl⟩
          exact outside other isOther ((prefix_place_iff prepared isOther known).mp above)
        have content := moved.content item member []
        rw [moved.kept _ _ stays, List.append_nil] at content
        exact absurd content.symm (prepared.plain member text)
  · intro front item back split
    exact (done front item back split).1

theorem reached_start (prepared : Prepared tree holder destination items) {item : Movable Name}
    (member : item ∈ items) : Reached tree holder destination [] item := by
  rcases prepared.met item member with ⟨left, walked⟩
  rcases (canonicalize_eq_ok tree holder destination).mp prepared.found with ⟨budget, followed⟩
  refine ⟨(reached_of_source prepared underway_start member walked).2, ?_⟩
  rw [resolve_holder prepared underway_start] at followed
  exact (canonicalize_eq_ok _ _ _).mpr ⟨budget, followed⟩

omit [DecidableEq Name] in
/-- A new place that is not free is occupied by a link, never by a directory. -/
theorem Prepared.notDirectory (prepared : Prepared tree holder destination items) {item : Movable Name}
    (member : item ∈ items) : tree.isDirectoryAt (destination ++ [item.name]) = false := by
  cases here : tree.isDirectoryAt (destination ++ [item.name]) with
  | false => rfl
  | true =>
      have directory := (tree.isDirectoryAt_iff _).mp here
      rcases prepared.dead item.name (List.mem_map_of_mem member) _ directory with ⟨text, isLink, _⟩
      cases isLink

theorem refusedFirst_iff (prepared : Prepared tree holder destination items) {item : Movable Name}
    {rest : List (Movable Name)} (split : items = item :: rest) :
    RefusedFirst tree destination items <-> Exists fun error =>
      renameEntry listing tree item.path (holder ++ [.normal item.name]) = .error error := by
  have member : item ∈ items := by simp [split]
  rw [split, RefusedFirst]
  constructor
  · intro refused
    cases renamed : renameEntry listing tree item.path (holder ++ [.normal item.name]) with
    | error error => exact ⟨error, rfl⟩
    | ok after =>
        rcases reached_of_renameEntry listing prepared underway_start member renamed with
          ⟨_, outside, _, room⟩
        rcases refused with inside | ⟨directory, occupied⟩
        · exact absurd inside outside
        · have alike := room.resolve_left occupied
          rw [directory, prepared.notDirectory member] at alike
          cases alike
  · rintro ⟨error, refused⟩
    by_contra accepted
    simp only [not_or, not_and, not_not] at accepted
    have room : tree.node (destination ++ [item.name]) = none \/
        (tree.isDirectoryAt item.place = false /\
          tree.isDirectoryAt (destination ++ [item.name]) = false) := by
      cases here : tree.isDirectoryAt item.place with
      | true => exact Or.inl (accepted.2 here)
      | false => exact Or.inr ⟨rfl, prepared.notDirectory member⟩
    rw [renameEntry_ok listing prepared underway_start member (reached_start prepared member) accepted.1
      room] at refused
    cases refused

/-- A list of renames moves everything or changes nothing exactly when the first
is refused or the items are apart. -/
theorem allOrNothing_iff (prepared : Prepared tree holder destination items) :
    AllOrNothing tree destination items (renameAll listing tree (movesOf holder items)) <->
      RefusedFirst tree destination items \/ Apart tree holder destination items := by
  constructor
  · intro holds
    cases ran : renameAll listing tree (movesOf holder items) with
    | mk outcome after =>
        rw [ran] at holds
        cases outcome with
        | ok done =>
            refine Or.inr (apart_of_allMoved listing prepared ?_ ?_)
            · rw [ran]
            · rw [ran]
              exact holds
        | error error =>
            left
            cases split : items with
            | nil =>
                rw [split] at ran
                cases ran
            | cons item rest =>
                rw [<- split]
                apply (refusedFirst_iff listing prepared split).mpr
                cases renamed : renameEntry listing tree item.path (holder ++ [.normal item.name]) with
                | error refused => exact ⟨refused, rfl⟩
                | ok first =>
                    apply absurd _ (renameAll_changed listing prepared split renamed)
                    rw [ran]
                    exact holds
  · rintro (refused | apart)
    · cases split : items with
      | nil =>
          rw [split] at refused
          cases refused
      | cons item rest =>
          rcases (refusedFirst_iff listing prepared split).mp refused with ⟨error, stopped⟩
          rw [renameAll_refused listing stopped]
          exact fun _ => rfl
    · have moved := allMoved_of_apart listing prepared apart
      cases ran : renameAll listing tree (movesOf holder items) with
      | mk outcome after =>
          rw [ran] at moved
          cases moved.1
          exact moved.2

end Runs

end Foundations
end Agapornis
