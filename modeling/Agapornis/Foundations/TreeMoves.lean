import Mathlib.Data.List.Induction
import Agapornis.Foundations.TreeEdits

namespace Agapornis
namespace Foundations

/-!
# Moving entries of a tree

Taking subtrees away, putting a subtree at another place, and the rename call
with its refusals.  A list of renames is made one after the other, each in the
tree that the ones before it have left.
-/

variable {Name Content : Type}

attribute [ext] FileTree

namespace FileTree

/-- Above something that exists there are directories only. -/
theorem directory_above (tree : FileTree Name Content) {place : List Name} (name : Name)
    (below : List Name) (present : Not (tree.node (place ++ name :: below) = none)) :
    tree.node place = some .directory := by
  induction below using List.reverseRecOn with
  | nil => exact tree.holder_directory place name (Option.isSome_iff_ne_none.mpr present)
  | append_singleton below last induction =>
      apply induction
      have split : place ++ name :: (below ++ [last]) = (place ++ name :: below) ++ [last] := by simp
      rw [split] at present
      rw [tree.holder_directory _ last (Option.isSome_iff_ne_none.mpr present)]
      nofun

/-- Nothing exists below something that is not a directory. -/
theorem absent_below (tree : FileTree Name Content) {place : List Name}
    (other : Not (tree.node place = some .directory)) (name : Name) (below : List Name) :
    tree.node (place ++ name :: below) = none := by
  by_contra present
  exact other (tree.directory_above name below present)

theorem absent_of_absent (tree : FileTree Name Content) {top place : List Name}
    (absent : tree.node top = none) (inside : top <+: place) : tree.node place = none := by
  rcases inside with ⟨below, rfl⟩
  cases below with
  | nil => rw [List.append_nil]; exact absent
  | cons name below => exact tree.absent_below (by rw [absent]; nofun) name below

end FileTree

/-! ## Resolutions in trees with less or more -/

/-- A resolution that does not exhaust the bound on links ends alike under a larger one. -/
theorem walk_moreLinks (tree : FileTree Name Content) (mode : Mode) {left : Nat} {here : List Name}
    {parts : List (Component Name)} (more : Nat)
    (enough : Not (walk tree mode left here parts = .error .tooManyLinks)) :
    (walk tree mode (left + more) here parts).map Prod.fst =
      (walk tree mode left here parts).map Prod.fst := by
  induction left, here, parts using walk_induction with
  | nil left here => rw [walk_nil, walk_nil]; rfl
  | current left here rest ih =>
      rw [walk_current] at enough
      rw [walk_current, walk_current, ih enough]
  | parent left here rest ih =>
      rw [walk_parent] at enough
      rw [walk_parent, walk_parent, ih enough]
  | normal left here name rest ih smallerBound =>
      rw [walk_normal] at enough
      rw [walk_normal, walk_normal]
      cases present : tree.node (here ++ [name]) with
      | none => simp only; split <;> rfl
      | some node =>
          rw [present] at enough
          cases node with
          | directory => exact ih enough
          | file content => simp only; split <;> rfl
          | link text =>
              simp only at enough ⊢
              split
              · rfl
              · next entered =>
                  rw [if_neg entered] at enough
                  cases left with
                  | zero => exact absurd rfl enough
                  | succ smaller =>
                      rw [Nat.succ_add]
                      exact smallerBound smaller _ _ rfl enough

/-- What is found is found under every bound that is not exhausted. -/
theorem walk_found_again (tree : FileTree Name Content) (mode : Mode) {left other : Nat}
    {here : List Name} {parts : List (Component Name)} {place : List Name} {remaining : Nat}
    (found : walk tree mode left here parts = .ok (.found place, remaining))
    (enough : Not (walk tree mode other here parts = .error .tooManyLinks)) :
    Exists fun again => walk tree mode other here parts = .ok (.found place, again) := by
  have grown := walk_moreLinks tree mode left enough
  have sufficed : Not (walk tree mode left here parts = .error .tooManyLinks) := by
    rw [found]
    nofun
  have same := walk_moreLinks tree mode other sufficed
  rw [Nat.add_comm, grown, found] at same
  cases reached : walk tree mode other here parts with
  | error error =>
      rw [reached] at same
      cases same
  | ok result =>
      rw [reached] at same
      rcases result with ⟨arrival, again⟩
      cases same
      exact ⟨again, rfl⟩

/-- What is found in a tree is found in a larger one. -/
theorem walk_extends {smaller larger : FileTree Name Content} (extends_ : Extends smaller larger)
    {mode : Mode} {left : Nat} {here : List Name} {parts : List (Component Name)}
    {place : List Name} {remaining : Nat}
    (walked : walk smaller mode left here parts = .ok (.found place, remaining)) :
    walk larger mode left here parts = .ok (.found place, remaining) := by
  induction left, here, parts using walk_induction with
  | nil left here => rwa [walk_nil] at walked ⊢
  | current left here rest ih =>
      rw [walk_current] at walked ⊢
      exact ih walked
  | parent left here rest ih =>
      rw [walk_parent] at walked ⊢
      exact ih walked
  | normal left here name rest ih smallerBound =>
      rw [walk_normal] at walked ⊢
      cases present : smaller.node (here ++ [name]) with
      | none =>
          simp only [present] at walked
          split at walked <;> cases walked
      | some node =>
          rw [present] at walked
          rw [extends_ _ _ present]
          cases node with
          | directory => exact ih walked
          | file content => exact walked
          | link text =>
              simp only at walked ⊢
              split
              · next stopped =>
                  rw [if_pos stopped] at walked
                  exact walked
              · next entered =>
                  rw [if_neg entered] at walked
                  cases left with
                  | zero => cases walked
                  | succ smaller => exact smallerBound smaller _ _ rfl walked

/-- At a name there is nothing, or a link that leads nowhere. -/
def DeadEnd (tree : FileTree Name Content) (holder : List Name) (name : Name) : Prop :=
  forall node, tree.node (holder ++ [name]) = some node -> Exists fun text => node = .link text /\
    forall mode left rest place remaining, (rest = [] -> mode = .follow) ->
      Not (enterLink tree mode left (text.start holder) (text.parts ++ rest) =
        .ok (.found place, remaining))

/-- The beginning of a path that leads somewhere leads somewhere. -/
theorem walk_front_found (tree : FileTree Name Content) {mode : Mode} {left : Nat} {here : List Name}
    {front tail : List (Component Name)} {place : List Name} {remaining : Nat}
    (directory : tree.node here = some .directory) (follows : tail = [] -> mode = .follow)
    (walked : walk tree mode left here (front ++ tail) = .ok (.found place, remaining)) :
    Exists fun met => Exists fun unused =>
      walk tree .follow left here front = .ok (.found met, unused) := by
  cases tail with
  | nil =>
      rw [List.append_nil, follows rfl] at walked
      exact ⟨place, remaining, walked⟩
  | cons head tail =>
      rw [walk_append tree mode left here front (head :: tail) directory (List.cons_ne_nil _ _)] at walked
      cases reached : walk tree .follow left here front with
      | error error =>
          rw [reached] at walked
          cases walked
      | ok result =>
          rcases result with ⟨arrival, unused⟩
          cases arrival with
          | found met => exact ⟨met, unused, rfl⟩
          | absent holder name =>
              rw [reached] at walked
              cases walked

theorem deadEnd_of_notFound (tree : FileTree Name Content) {front : List (Component Name)}
    {holder : List Name} {name : Name} (found : canonicalize tree front = .ok holder)
    (directory : tree.node holder = some .directory)
    (missing : canonicalize tree (front ++ [.normal name]) = .error .notFound) :
    DeadEnd tree holder name := by
  intro node present
  rcases (canonicalize_eq_ok tree front holder).mp found with ⟨budget, walked⟩
  rw [resolve] at walked
  rw [canonicalize] at missing
  rw [resolve] at missing
  rw [walk_snoc tree .follow maxLinks [] front name tree.top_directory, walked] at missing
  simp only [continueWalk, directory] at missing
  rw [walk_normal, present] at missing
  cases node with
  | directory =>
      simp only [walk_nil] at missing
      cases missing
  | file content => cases missing
  | link text =>
      refine ⟨text, rfl, ?_⟩
      intro mode left rest place remaining follows leads
      cases left with
      | zero => cases leads
      | succ left =>
          rcases walk_front_found tree (text.start_directory tree directory) follows leads with
            ⟨met, unused, reached⟩
          have entered : (([] : List (Component Name)).isEmpty && Mode.follow == Mode.stopAtLink) = false :=
            rfl
          simp only [entered, Bool.false_eq_true, if_false, List.append_nil] at missing
          cases budget with
          | zero => cases missing
          | succ budget =>
              have entering : enterLink tree .follow (budget + 1) = walk tree .follow budget := rfl
              rw [entering] at missing
              have enough : Not (walk tree .follow budget (text.start holder) text.parts =
                  .error .tooManyLinks) := by
                intro exhausted
                rw [exhausted] at missing
                cases missing
              rcases walk_found_again tree .follow reached enough with ⟨again, found⟩
              rw [found] at missing
              cases missing

/-- A place that is not at or below one of some names in a directory. -/
def OffNames (holder : List Name) (names : List Name) (place : List Name) : Prop :=
  forall name, name ∈ names -> Not (holder ++ [name] <+: place)

/-- Nothing exists below a dead end. -/
theorem absent_below_deadEnd (tree : FileTree Name Content) {holder : List Name} {name : Name}
    (dead : DeadEnd tree holder name) (next : Name) (below : List Name) :
    tree.node (holder ++ [name] ++ next :: below) = none := by
  apply tree.absent_below
  intro directory
  rcases dead _ directory with ⟨text, isLink, _⟩
  cases isLink

/-- What exists, and is not a link, lies off the names that are dead ends. -/
theorem offNames_of_plain (tree : FileTree Name Content) {holder names : List Name}
    (dead : forall name, name ∈ names -> DeadEnd tree holder name) {place : List Name}
    {node : Node Name Content} (present : tree.node place = some node)
    (plain : forall text, Not (node = .link text)) : OffNames holder names place := by
  rintro name member ⟨below, rfl⟩
  cases below with
  | nil =>
      rw [List.append_nil] at present
      rcases dead name member node present with ⟨text, isLink, _⟩
      exact plain text isLink
  | cons next below =>
      rw [absent_below_deadEnd tree (dead name member) next below] at present
      cases present

/-- So does a link by which something is found. -/
theorem offNames_of_link (tree : FileTree Name Content) {holder names : List Name}
    (dead : forall name, name ∈ names -> DeadEnd tree holder name) {here : List Name} {name : Name}
    {text : LinkText Name} (present : tree.node (here ++ [name]) = some (.link text)) {mode : Mode}
    {left : Nat} {rest : List (Component Name)} {place : List Name} {remaining : Nat}
    (follows : rest = [] -> mode = .follow)
    (leads : enterLink tree mode left (text.start here) (text.parts ++ rest) =
      .ok (.found place, remaining)) : OffNames holder names (here ++ [name]) := by
  rintro other member ⟨below, split⟩
  cases below with
  | nil =>
      rw [List.append_nil] at split
      have sameHolder := (List.append_inj' split rfl).1
      subst sameHolder
      rw [<- split] at present
      rcases dead other member _ present with ⟨again, isLink, nowhere⟩
      cases isLink
      exact nowhere mode left rest place remaining follows leads
  | cons next below =>
      rw [<- split, absent_below_deadEnd tree (dead other member) next below] at present
      cases present

/-- What is found in a tree is looked for alike in two trees that keep only
parts of it, and differ only at its dead ends. -/
theorem walk_thinned {tree base other : FileTree Name Content} {holder names : List Name}
    (dead : forall name, name ∈ names -> DeadEnd tree holder name) (within : Extends base tree)
    (agree : forall place, OffNames holder names place -> other.node place = base.node place)
    {mode : Mode} {left : Nat} {here : List Name} {parts : List (Component Name)}
    {place : List Name} {remaining : Nat}
    (plain : forall text, Not (tree.node place = some (.link text)))
    (walked : walk tree mode left here parts = .ok (.found place, remaining)) :
    walk other mode left here parts = walk base mode left here parts := by
  induction left, here, parts using walk_induction with
  | nil left here => rw [walk_nil, walk_nil]
  | current left here rest ih =>
      rw [walk_current] at walked
      rw [walk_current, walk_current, ih walked]
  | parent left here rest ih =>
      rw [walk_parent] at walked
      rw [walk_parent, walk_parent, ih walked]
  | normal left here name rest ih smallerBound =>
      rw [walk_normal] at walked
      rw [walk_normal, walk_normal]
      cases present : tree.node (here ++ [name]) with
      | none =>
          simp only [present] at walked
          split at walked <;> cases walked
      | some node =>
          rw [present] at walked
          have same : other.node (here ++ [name]) = base.node (here ++ [name]) := by
            apply agree
            cases node with
            | directory => exact offNames_of_plain tree dead present nofun
            | file content => exact offNames_of_plain tree dead present nofun
            | link text =>
                simp only at walked
                split at walked
                · cases walked
                  exact absurd present (plain text)
                · next entered =>
                    refine offNames_of_link tree dead present ?_ walked
                    intro ending
                    rw [ending] at entered
                    cases mode with
                    | follow => rfl
                    | stopAtLink => exact absurd rfl entered
          rw [same]
          cases kept : base.node (here ++ [name]) with
          | none => rfl
          | some old =>
              have isNode : old = node := Option.some.inj ((within _ _ kept).symm.trans present)
              subst isNode
              cases old with
              | directory => exact ih walked
              | file content => rfl
              | link text =>
                  simp only at walked ⊢
                  split
                  · rfl
                  · next entered =>
                      rw [if_neg entered] at walked
                      cases left with
                      | zero => rfl
                      | succ smaller => exact smallerBound smaller _ _ rfl walked

namespace FileTree

variable [DecidableEq Name]

/-- The tree without what lies at or below some places. -/
def without (tree : FileTree Name Content) (gone : List (List Name)) : FileTree Name Content where
  node place :=
    if Not (place = []) /\ Exists fun top => top ∈ gone /\ top <+: place then none else tree.node place
  top_directory := by
    rw [if_neg (fun both => both.1 rfl)]
    exact tree.top_directory
  holder_directory := by
    intro place name present
    by_cases removed : Not (place ++ [name] = []) /\ Exists fun top => top ∈ gone /\ top <+: place ++ [name]
    · rw [if_pos removed] at present
      cases present
    · rw [if_neg removed] at present
      rw [if_neg]
      · exact tree.holder_directory place name present
      · rintro ⟨_, top, member, above⟩
        exact removed ⟨by simp, top, member, above.trans (List.prefix_append place [name])⟩

theorem without_node (tree : FileTree Name Content) {gone : List (List Name)} {place : List Name}
    (kept : forall top, top ∈ gone -> Not (top <+: place)) :
    (tree.without gone).node place = tree.node place := by
  simp only [without]
  rw [if_neg]
  rintro ⟨_, top, member, above⟩
  exact kept top member above

theorem without_gone (tree : FileTree Name Content) {gone : List (List Name)} {top place : List Name}
    (member : top ∈ gone) (above : top <+: place) (nonempty : Not (place = [])) :
    (tree.without gone).node place = none := by
  simp only [without]
  exact if_pos ⟨nonempty, top, member, above⟩

/-- Taking places away depends on nothing but what is there. -/
theorem without_congr {first second : FileTree Name Content} (gone : List (List Name))
    {place : List Name} (same : first.node place = second.node place) :
    (first.without gone).node place = (second.without gone).node place := by
  simp only [without, same]

theorem extends_without (tree : FileTree Name Content) (gone : List (List Name)) :
    Extends (tree.without gone) tree := by
  intro place node present
  simp only [without] at present
  split at present
  · cases present
  · exact present

/-- Remove an entry that is not a directory. -/
def unlink (tree : FileTree Name Content) (place : List Name) :
    Except Errno (FileTree Name Content) :=
  match tree.node place with
  | none => .error .notFound
  | some .directory => .error .isADirectory
  | some _ => .ok (tree.without [place])

theorem unlink_elsewhere {tree after : FileTree Name Content} {target place : List Name}
    (removed : tree.unlink target = .ok after) (different : Not (place = target)) :
    after.node place = tree.node place := by
  rw [unlink] at removed
  split at removed
  · cases removed
  · cases removed
  · next node notDirectory found =>
      cases removed
      by_cases below : target <+: place
      · rcases below with ⟨rest, whole⟩
        cases rest with
        | nil => exact absurd (by rw [<- whole, List.append_nil]) different
        | cons name rest =>
            have nothing : tree.node place = none := by
              rw [<- whole]
              exact tree.absent_below (by rw [found]; simpa using notDirectory) name rest
            rw [nothing]
            exact without_gone tree List.mem_cons_self ⟨name :: rest, whole⟩ (by rw [<- whole]; simp)
      · exact without_node tree (fun top member => List.mem_singleton.mp member ▸ below)

theorem unlink_target {tree after : FileTree Name Content} {target : List Name}
    (removed : tree.unlink target = .ok after) : after.node target = none := by
  rw [unlink] at removed
  split at removed
  · cases removed
  · cases removed
  · next node notDirectory found =>
      cases removed
      apply without_gone tree List.mem_cons_self List.prefix_rfl
      intro top
      subst top
      exact notDirectory (Option.some.inj (found.symm.trans tree.top_directory))

/-- A subtree may be put at another place in a directory. -/
def relocatable (tree : FileTree Name Content) (source target : List Name) : Bool :=
  !source.isPrefixOf target && !target.isPrefixOf source && tree.isDirectoryAt target.dropLast

theorem relocatable_iff (tree : FileTree Name Content) (source target : List Name) :
    tree.relocatable source target = true <->
      Not (source <+: target) /\ Not (target <+: source) /\ tree.node target.dropLast = some .directory := by
  simp only [relocatable, Bool.and_eq_true, Bool.not_eq_true', isDirectoryAt_iff, and_assoc,
    Bool.eq_false_iff, ne_eq, List.isPrefixOf_iff_prefix]

/-- Put a subtree at another place, in place of what was there; nothing is
changed where this cannot be done. -/
def relocate (tree : FileTree Name Content) (source target : List Name) : FileTree Name Content :=
  if movable : tree.relocatable source target = true then
    { node := fun place =>
        if target <+: place then tree.node (source ++ place.drop target.length)
        else if source <+: place then none
        else tree.node place
      top_directory := by
        have apart := (tree.relocatable_iff source target).mp movable
        rw [if_neg (fun above => apart.2.1 (above.trans List.nil_prefix)),
          if_neg (fun above => apart.1 (above.trans List.nil_prefix))]
        exact tree.top_directory
      holder_directory := by
        intro place name present
        have apart := (tree.relocatable_iff source target).mp movable
        by_cases below : target <+: place
        · have longer : target <+: place ++ [name] := below.trans (List.prefix_append place [name])
          rw [if_pos longer, List.drop_append_of_le_length below.length_le, <- List.append_assoc] at present
          rw [if_pos below]
          exact tree.holder_directory _ name present
        · rw [if_neg below]
          by_cases placed : target <+: place ++ [name]
          · have same := (List.prefix_concat_iff.mp placed).resolve_right below
            have holder : target.dropLast = place := by rw [same, List.dropLast_concat]
            rw [if_neg, <- holder]
            · exact apart.2.2
            · intro above
              exact apart.1 (above.trans (same ▸ List.prefix_append place [name]))
          · rw [if_neg placed] at present
            by_cases removed : source <+: place ++ [name]
            · rw [if_pos removed] at present
              cases present
            · rw [if_neg removed] at present
              rw [if_neg (fun above => removed (above.trans (List.prefix_append place [name])))]
              exact tree.holder_directory place name present }
  else tree

section Relocated

variable {tree : FileTree Name Content} {source target : List Name}

theorem relocate_target (movable : tree.relocatable source target = true) (below : List Name) :
    (tree.relocate source target).node (target ++ below) = tree.node (source ++ below) := by
  rw [relocate]
  rw [dif_pos movable]
  simp only [List.prefix_append, if_true, List.drop_left]

theorem relocate_elsewhere (movable : tree.relocatable source target = true) {place : List Name}
    (elsewhere : Not (target <+: place)) :
    (tree.relocate source target).node place = (tree.without [source]).node place := by
  rw [relocate]
  rw [dif_pos movable]
  simp only [without, if_neg elsewhere]
  by_cases removed : source <+: place
  · have nonempty : Not (place = []) := by
      intro empty
      rw [empty] at removed
      have apart := (tree.relocatable_iff source target).mp movable
      exact apart.1 (removed.trans List.nil_prefix)
    rw [if_pos removed, if_pos ⟨nonempty, source, List.mem_singleton_self source, removed⟩]
  · rw [if_neg removed, if_neg]
    rintro ⟨_, top, member, above⟩
    rw [List.mem_singleton.mp member] at above
    exact removed above

end Relocated

/-- Taking away some places and then others is taking away all of them. -/
theorem without_append (tree : FileTree Name Content) (first second : List (List Name)) :
    (tree.without first).without second = tree.without (first ++ second) := by
  ext1
  funext place
  by_cases removed : Not (place = []) /\ Exists fun top => top ∈ first ++ second /\ top <+: place
  · rcases removed with ⟨nonempty, top, member, above⟩
    rw [tree.without_gone member above nonempty]
    rcases List.mem_append.mp member with early | late
    · cases present : ((tree.without first).without second).node place with
      | none => rfl
      | some node =>
          have earlier := (tree.without first).extends_without second place node present
          rw [tree.without_gone early above nonempty] at earlier
          cases earlier
    · exact (tree.without first).without_gone late above nonempty
  · simp only [without]
    rw [if_neg removed, if_neg, if_neg]
    · rintro ⟨nonempty, top, member, above⟩
      exact removed ⟨nonempty, top, List.mem_append_left second member, above⟩
    · rintro ⟨nonempty, top, member, above⟩
      exact removed ⟨nonempty, top, List.mem_append_right first member, above⟩

end FileTree

end Foundations
end Agapornis
