import Mathlib.Data.Finmap
import Agapornis.Foundations.PathWalk

namespace Agapornis
namespace Foundations

/-!
# Folders

A folder is a finite map from names to what stands under them.  This module
follows entries that are moved from one folder to another, one rename after
the other, until a call fails.
-/

/-- What stands under a name: something without entries of its own, or a
directory with what lies below it, by relative path. -/
inductive Item (Name Content : Type) where
  | leaf (content : Content)
  | directory (below : List (List Name × Option Content))
  deriving DecidableEq, Repr

abbrev Folder (Name Content : Type) :=
  Finmap (fun _ : Name => Item Name Content)

variable {Name Content : Type} [DecidableEq Name]

/-- Whether a rename puts the first item in the place of the second. -/
def replaces : Item Name Content -> Option (Item Name Content) -> Except Errno Unit
  | _, none => .ok ()
  | .leaf _, some (.leaf _) => .ok ()
  | .leaf _, some (.directory _) => .error .isADirectory
  | .directory _, some (.leaf _) => .error .notADirectory
  | .directory _, some (.directory []) => .ok ()
  | .directory _, some (.directory (_ :: _)) => .error .directoryNotEmpty

/-- The two folders of a move. -/
structure Moving (Name Content : Type) where
  source : Folder Name Content
  target : Folder Name Content

/-- Rename an entry of one folder to the same name in the other. -/
def renameInto (folders : Moving Name Content) (name : Name) :
    Except Errno (Moving Name Content) :=
  match folders.source.lookup name with
  | none => .error .notFound
  | some item =>
      match replaces item (folders.target.lookup name) with
      | .error error => .error error
      | .ok () => .ok ⟨folders.source.erase name, folders.target.insert name item⟩

theorem renameInto_eq_ok {folders moved : Moving Name Content} {name : Name}
    (renamed : renameInto folders name = .ok moved) :
    Exists fun item => folders.source.lookup name = some item /\
      moved = ⟨folders.source.erase name, folders.target.insert name item⟩ := by
  rw [renameInto] at renamed
  split at renamed
  · cases renamed
  · next item present =>
      split at renamed
      · cases renamed
      · cases renamed
        exact ⟨item, present, rfl⟩

/-- A folder without some of its names. -/
def without (names : List Name) (folder : Folder Name Content) : Folder Name Content :=
  names.foldl (fun rest name => rest.erase name) folder

/-- Put entries of one folder into another. -/
def carry (names : List Name) (source target : Folder Name Content) : Folder Name Content :=
  names.foldl (fun filled name =>
    match source.lookup name with
    | some item => filled.insert name item
    | none => filled) target

theorem lookup_without (names : List Name) (folder : Folder Name Content) (name : Name) :
    (without names folder).lookup name = if name ∈ names then none else folder.lookup name := by
  induction names generalizing folder with
  | nil => rfl
  | cons first names ih =>
      have step : without (first :: names) folder = without names (folder.erase first) := rfl
      rw [step, ih]
      by_cases same : name = first
      · subst same
        rw [Finmap.lookup_erase, if_pos List.mem_cons_self, ite_self]
      · rw [Finmap.lookup_erase_ne same]
        simp only [List.mem_cons, same, false_or]

theorem lookup_carry (names : List Name) (source target : Folder Name Content) (name : Name) :
    (carry names source target).lookup name =
      if name ∈ names then (source.lookup name).or (target.lookup name)
      else target.lookup name := by
  induction names generalizing target with
  | nil => rfl
  | cons first names ih =>
      have step : carry (first :: names) source target = carry names source
          (match source.lookup first with
            | some item => target.insert first item
            | none => target) := rfl
      rw [step, ih]
      by_cases same : name = first
      · subst same
        cases source.lookup name with
        | none => simp
        | some item => simp
      · have kept : Finmap.lookup name (match source.lookup first with
            | some item => target.insert first item
            | none => target) = target.lookup name := by
          cases source.lookup first with
          | none => rfl
          | some item => exact Finmap.lookup_insert_of_ne target same
        rw [kept]
        simp only [List.mem_cons, same, false_or]

/-- Only the named entries of the source matter. -/
theorem carry_congr {names : List Name} {first second : Folder Name Content}
    (same : forall name, name ∈ names -> first.lookup name = second.lookup name)
    (target : Folder Name Content) : carry names first target = carry names second target := by
  apply Finmap.ext_lookup
  intro name
  rw [lookup_carry, lookup_carry]
  by_cases member : name ∈ names
  · rw [if_pos member, if_pos member, same name member]
  · rw [if_neg member, if_neg member]

/-- Everything carried into an empty folder is the folder itself. -/
theorem carry_all {names : List Name} {source : Folder Name Content}
    (all : forall name, name ∈ names <-> name ∈ source.keys) : carry names source ∅ = source := by
  apply Finmap.ext_lookup
  intro name
  rw [lookup_carry, Finmap.lookup_empty, Option.or_none]
  by_cases member : name ∈ names
  · rw [if_pos member]
  · have absent : name ∉ source := fun present =>
      member ((all name).mpr (Finmap.mem_keys.mpr present))
    rw [if_neg member, Finmap.lookup_eq_none.mpr absent]

theorem without_all {names : List Name} {folder : Folder Name Content}
    (all : forall name, name ∈ names <-> name ∈ folder.keys) : without names folder = ∅ := by
  apply Finmap.ext_lookup
  intro name
  rw [lookup_without, Finmap.lookup_empty]
  by_cases member : name ∈ names
  · rw [if_pos member]
  · have absent : name ∉ folder := fun present =>
      member ((all name).mpr (Finmap.mem_keys.mpr present))
    rw [if_neg member, Finmap.lookup_eq_none.mpr absent]

/-! ## Passing through a folder -/

/-- What goes wrong while the entries of a folder are gone through: listing
it, reading the entry at a position (the end included), or the call on the
entry with a name.  The entries are listed in some order. -/
structure Sweep (Name : Type) where
  list : Option Errno
  next : Nat -> Option Errno
  call : Name -> Option Errno
  order : Finset Name -> List Name
  order_nodup : forall names, (order names).Nodup
  mem_order : forall names name, name ∈ order names <-> name ∈ names

/-- What goes wrong while the entries of a folder are moved to another one,
which is created first if need be. -/
structure Transfer (Name : Type) extends Sweep Name where
  create : Option Errno

/-- The listed names up to the first at which a call fails or which is not
admitted. -/
def Sweep.reaches (sweep : Sweep Name) (admitted : Name -> Bool) : Nat -> List Name -> List Name
  | _, [] => []
  | position, name :: names =>
      if (sweep.next position).isNone && (sweep.call name).isNone && admitted name then
        name :: sweep.reaches admitted (position + 1) names
      else []

omit [DecidableEq Name] in
theorem Sweep.reaches_sublist (sweep : Sweep Name) (admitted : Name -> Bool) (position : Nat)
    (names : List Name) : (sweep.reaches admitted position names).Sublist names := by
  induction names generalizing position with
  | nil => exact List.Sublist.refl []
  | cons name names ih =>
      rw [Sweep.reaches]
      split
      · exact (ih (position + 1)).cons_cons name
      · exact List.nil_sublist _

omit [DecidableEq Name] in
theorem Sweep.reaches_congr (sweep : Sweep Name) {first second : Name -> Bool} {names : List Name}
    (same : forall name, name ∈ names -> first name = second name) (position : Nat) :
    sweep.reaches first position names = sweep.reaches second position names := by
  induction names generalizing position with
  | nil => rfl
  | cons name names ih =>
      unfold Sweep.reaches
      rw [same name List.mem_cons_self,
        ih (fun other member => same other (List.mem_cons_of_mem name member))]

/-- Whether the rename of a name goes through. -/
def admits (folders : Moving Name Content) (name : Name) : Bool :=
  (renameInto folders name).isOk

/-- Renaming one entry does not matter to the others. -/
theorem admits_of_ne {folders moved : Moving Name Content} {name other : Name}
    (renamed : renameInto folders name = .ok moved) (different : other ≠ name) :
    admits moved other = admits folders other := by
  rcases renameInto_eq_ok renamed with ⟨item, _, same⟩
  unfold admits renameInto
  rw [same]
  simp only [Finmap.lookup_erase_ne different, Finmap.lookup_insert_of_ne folders.target different]
  cases folders.source.lookup other with
  | none => rfl
  | some moving =>
      simp only
      split <;> rfl

/-- The first name that gets through, and the rest after it. -/
theorem reaches_after_rename (sweep : Sweep Name) {folders moved : Moving Name Content}
    {name : Name} {names : List Name} (fresh : name ∉ names)
    (renamed : renameInto folders name = .ok moved) (position : Nat) :
    sweep.reaches (admits folders) position names = sweep.reaches (admits moved) position names := by
  apply sweep.reaches_congr
  intro other member
  refine (admits_of_ne renamed ?_).symm
  intro same
  exact fresh (same ▸ member)

theorem without_after_rename {folders moved : Moving Name Content} {name : Name}
    (renamed : renameInto folders name = .ok moved) (names : List Name) :
    without (name :: names) folders.source = without names moved.source := by
  rcases renameInto_eq_ok renamed with ⟨item, _, same⟩
  rw [same]
  rfl

theorem carry_after_rename {folders moved : Moving Name Content} {name : Name}
    {names : List Name} (fresh : name ∉ names) (renamed : renameInto folders name = .ok moved) :
    carry (name :: names) folders.source folders.target = carry names moved.source moved.target := by
  rcases renameInto_eq_ok renamed with ⟨item, present, same⟩
  have first : carry (name :: names) folders.source folders.target =
      carry names folders.source (folders.target.insert name item) := by
    simp only [carry, List.foldl_cons, present]
  rw [first, same]
  apply carry_congr
  intro other member
  refine (Finmap.lookup_erase_ne ?_).symm
  intro equal
  exact fresh (equal ▸ member)

namespace Transfer

variable (transfer : Transfer Name)

/-- The names which the transfer gets to the target. -/
def done (folders : Moving Name Content) : List Name :=
  if transfer.create.isNone && transfer.list.isNone then
    transfer.reaches (admits folders) 0 (transfer.order folders.source.keys)
  else []

/-- Whether no call of the transfer fails. -/
def Completes (folders : Moving Name Content) : Prop :=
  (transfer.create.isNone && transfer.list.isNone) = true /\
    transfer.reaches (admits folders) 0 (transfer.order folders.source.keys) =
      transfer.order folders.source.keys /\
    transfer.next (transfer.order folders.source.keys).length = none

/-- The folders after the transfer. -/
def result (folders : Moving Name Content) : Moving Name Content :=
  ⟨without (transfer.done folders) folders.source,
    carry (transfer.done folders) folders.source folders.target⟩

/-- A complete transfer gets every name to the target. -/
theorem mem_done_of_completes {folders : Moving Name Content} (complete : transfer.Completes folders)
    (name : Name) : name ∈ transfer.done folders <-> name ∈ folders.source.keys := by
  rw [done]
  rw [if_pos complete.1, complete.2.1]
  exact transfer.mem_order folders.source.keys name

theorem result_of_completes {source : Folder Name Content}
    (complete : transfer.Completes ⟨source, ∅⟩) : transfer.result ⟨source, ∅⟩ = ⟨∅, source⟩ := by
  have all := transfer.mem_done_of_completes complete
  rw [result]
  rw [without_all all, carry_all all]

end Transfer

end Foundations
end Agapornis
