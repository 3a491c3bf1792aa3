import Mathlib.Data.List.Basic
import Mathlib.Data.List.Induction

namespace Agapornis
namespace Foundations

/-!
# Edits by key

Some items of a list belong to a key.  An edit for one key leaves a single item
in the places of that key, sees that there is one, and leaves alone the items
of other keys; what it adds besides belongs to no key.  Edits for several keys,
one after the other, then come to an update of all of them at once.

How the other items are kept may be told as an equality, or as a sublist where
something without a key is added between them.
-/

namespace KeyedEdits

/-- A way of keeping items which carries over from edit to edit. -/
structure Preserves {Item : Type} (Keeps : List Item -> List Item -> Prop) : Prop where
  refl : forall items, Keeps items items
  trans : forall {first second third}, Keeps first second -> Keeps second third -> Keeps first third
  filter : forall {before after} (some : Item -> Bool), Keeps before after ->
    Keeps (before.filter some) (after.filter some)
  subset : forall {before after}, Keeps before after -> before ⊆ after

theorem preserves_eq {Item : Type} : Preserves (fun before after : List Item => after = before) where
  refl _ := rfl
  trans first second := second.trans first
  filter _ same := by rw [same]
  subset same := by rw [same]; exact fun _ member => member

theorem preserves_sublist {Item : Type} : @Preserves Item List.Sublist where
  refl := List.Sublist.refl
  trans := List.Sublist.trans
  filter := fun some kept => kept.filter some
  subset := List.Sublist.subset

variable {Item Key : Type} [DecidableEq Key]

/-- The items that belong to none of some keys. -/
def others (key : Item -> Option Key) (keys : List Key) (items : List Item) : List Item :=
  items.filter (fun item => !(key item).any (fun own => decide (own ∈ keys)))

variable {key : Item -> Option Key} {keys : List Key} {wanted : Key} {item : Item}
  {before after items : List Item}

theorem mem_others : item ∈ others key keys items <->
    item ∈ items /\ forall own, key item = some own -> own ∉ keys := by
  rw [others, List.mem_filter]
  apply and_congr_right
  intro _
  cases key item with
  | none => simp
  | some own => simp

theorem others_append (first second : List Key) :
    others key (first ++ second) items = others key first (others key second items) := by
  rw [others, others, others, List.filter_filter]
  congr 1
  funext item
  cases key item with
  | none => rfl
  | some own => simp [List.mem_append]

theorem others_comm (first second : List Key) :
    others key first (others key second items) = others key second (others key first items) := by
  unfold others
  rw [List.filter_filter, List.filter_filter]
  congr 1
  funext item
  exact Bool.and_comm _ _

/-- What an edit for one key does. -/
structure SetsKey (Keeps : List Item -> List Item -> Prop) (key : Item -> Option Key) (wanted : Key)
    (item : Item) (before after : List Item) : Prop where
  own : forall other, other ∈ after -> key other = some wanted -> other = item
  present : item ∈ after
  foreign : forall other, other ∈ after -> key other = none \/ key other = some wanted \/ other ∈ before
  kept : Keeps (others key [wanted] before) (others key [wanted] after)

/-- What edits for several keys come to. -/
structure Updates {Entry : Type} (Keeps : List Item -> List Item -> Prop) (key : Item -> Option Key)
    (keyOf : Entry -> Key) (itemOf : Entry -> Item) (entries : List Entry) (before after : List Item) : Prop where
  own : forall entry, entry ∈ entries -> forall other, other ∈ after ->
    key other = some (keyOf entry) -> other = itemOf entry
  present : forall entry, entry ∈ entries -> itemOf entry ∈ after
  kept : Keeps (others key (entries.map keyOf) before) (others key (entries.map keyOf) after)

section Runs

variable {Entry Lines : Type} {Keeps : List Item -> List Item -> Prop} {keyOf : Entry -> Key}
  {itemOf : Entry -> Item} {entries : List Entry}

/-- One more edit, for a key that was not edited before. -/
theorem Updates.append (preserves : Preserves Keeps) {last : Entry} {middle : List Item}
    (named : forall entry, entry ∈ entries -> key (itemOf entry) = some (keyOf entry))
    (fresh : keyOf last ∉ entries.map keyOf) (updates : Updates Keeps key keyOf itemOf entries before middle)
    (sets : SetsKey Keeps key (keyOf last) (itemOf last) middle after) :
    Updates Keeps key keyOf itemOf (entries ++ [last]) before after := by
  have different (entry : Entry) (member : entry ∈ entries) : Not (keyOf entry = keyOf last) := by
    intro same
    exact fresh (same ▸ List.mem_map_of_mem member)
  refine ⟨?_, ?_, ?_⟩
  · intro entry member other inside belongs
    rcases List.mem_append.mp member with earlier | isLast
    · rcases sets.foreign other inside with keyless | here | old
      · rw [keyless] at belongs
        cases belongs
      · rw [here] at belongs
        exact absurd (Option.some.inj belongs).symm (different entry earlier)
      · exact updates.own entry earlier other old belongs
    · rw [List.mem_singleton.mp isLast] at belongs ⊢
      exact sets.own other inside belongs
  · intro entry member
    rcases List.mem_append.mp member with earlier | isLast
    · have apart : itemOf entry ∈ others key [keyOf last] middle := by
        refine mem_others.mpr ⟨updates.present entry earlier, ?_⟩
        intro own belongs inside
        rw [named entry earlier] at belongs
        cases belongs
        exact different entry earlier (List.mem_singleton.mp inside)
      exact (mem_others.mp (preserves.subset sets.kept apart)).1
    · rw [List.mem_singleton.mp isLast]
      exact sets.present
  · rw [List.map_append, List.map_singleton, others_append, others_append, others_comm (entries.map keyOf),
      others_comm (entries.map keyOf)]
    have first := preserves.filter (fun item => !(key item).any (fun own => decide (own ∈ [keyOf last])))
      updates.kept
    have second := preserves.filter (fun item => !(key item).any (fun own => decide (own ∈ entries.map keyOf)))
      sets.kept
    have reordered : Keeps (others key [keyOf last] (others key (entries.map keyOf) middle))
        (others key [keyOf last] (others key (entries.map keyOf) after)) := by
      rw [← others_comm, ← others_comm (entries.map keyOf) [keyOf last]]
      exact second
    exact preserves.trans first reordered

/-- Edits for different keys, one after the other, update all of them. -/
theorem foldl_updates (preserves : Preserves Keeps) {edit : Lines -> Entry -> Lines} (view : Lines -> List Item)
    (named : forall entry, entry ∈ entries -> key (itemOf entry) = some (keyOf entry))
    (sets : forall entry, entry ∈ entries -> forall lines,
      SetsKey Keeps key (keyOf entry) (itemOf entry) (view lines) (view (edit lines entry)))
    (distinct : (entries.map keyOf).Nodup) (lines : Lines) :
    Updates Keeps key keyOf itemOf entries (view lines) (view (entries.foldl edit lines)) := by
  induction entries using List.reverseRecOn with
  | nil => exact ⟨nofun, nofun, preserves.refl _⟩
  | append_singleton entries last induction =>
      rw [List.map_append, List.map_singleton] at distinct
      have parts := List.nodup_append.mp distinct
      have earlier := induction (fun entry member => named entry (List.mem_append_left _ member))
        (fun entry member => sets entry (List.mem_append_left _ member)) parts.1
      rw [List.foldl_append]
      refine earlier.append preserves (fun entry member => named entry (List.mem_append_left _ member)) ?_
        (sets last (List.mem_append_right _ (List.mem_singleton_self last)) _)
      intro member
      exact parts.2.2 _ member _ (List.mem_singleton_self _) rfl

end Runs

/-! ## Edits that replace and edits that insert -/

/-- The items of a key are replaced. -/
def replaceKey (key : Item -> Option Key) (wanted : Key) (item : Item) (items : List Item) : List Item :=
  items.map (fun other => if key other = some wanted then item else other)

theorem others_replaceKey (named : key item = some wanted) :
    others key [wanted] (replaceKey key wanted item items) = others key [wanted] items := by
  induction items with
  | nil => rfl
  | cons first rest induction =>
      rw [replaceKey, others] at induction ⊢
      rw [others, List.map_cons, List.filter_cons, List.filter_cons, induction, others]
      by_cases belongs : key first = some wanted
      · rw [if_pos belongs, named, belongs]
        simp
      · rw [if_neg belongs]

/-- Where there is an item of the key, replacing them is all. -/
theorem sets_replaceKey {Keeps : List Item -> List Item -> Prop} (preserves : Preserves Keeps)
    (named : key item = some wanted) (found : Exists fun other => other ∈ items /\ key other = some wanted) :
    SetsKey Keeps key wanted item items (replaceKey key wanted item items) where
  own other member belongs := by
    rcases List.mem_map.mp member with ⟨old, _, same⟩
    split at same
    · exact same.symm
    · next differs =>
        rw [same] at differs
        exact absurd belongs differs
  present := by
    rcases found with ⟨other, member, belongs⟩
    exact List.mem_map.mpr ⟨other, member, if_pos belongs⟩
  foreign other member := by
    rcases List.mem_map.mp member with ⟨old, inside, same⟩
    split at same
    · rw [← same]
      exact Or.inr (Or.inl named)
    · rw [← same]
      exact Or.inr (Or.inr inside)
  kept := by
    rw [others_replaceKey named]
    exact preserves.refl _

theorem replaceKey_of_absent (absent : forall other, other ∈ items -> Not (key other = some wanted)) :
    replaceKey key wanted item items = items := by
  rw [replaceKey, List.map_congr_left fun other member => if_neg (absent other member), List.map_id']

/-- Where there is none, one is inserted, perhaps behind items without a key. -/
theorem sets_insert {front back added : List Item} (named : key item = some wanted)
    (absent : forall other, other ∈ front ++ back -> Not (key other = some wanted))
    (keyless : forall other, other ∈ added -> key other = none) :
    SetsKey List.Sublist key wanted item (front ++ back) (front ++ (added ++ item :: back)) where
  own other member belongs := by
    rw [List.mem_append, List.mem_append, List.mem_cons] at member
    rcases member with early | new | same | late
    · exact absurd belongs (absent other (List.mem_append_left _ early))
    · rw [keyless other new] at belongs
      cases belongs
    · exact same
    · exact absurd belongs (absent other (List.mem_append_right _ late))
  present := by
    rw [List.mem_append, List.mem_append, List.mem_cons]
    exact Or.inr (Or.inr (Or.inl rfl))
  foreign other member := by
    rw [List.mem_append, List.mem_append, List.mem_cons] at member
    rcases member with early | new | same | late
    · exact Or.inr (Or.inr (List.mem_append_left _ early))
    · exact Or.inl (keyless other new)
    · rw [same]
      exact Or.inr (Or.inl named)
    · exact Or.inr (Or.inr (List.mem_append_right _ late))
  kept := by
    apply List.Sublist.filter
    apply (List.Sublist.refl front).append
    exact (List.sublist_cons_self item back).trans (List.sublist_append_right added _)

/-- An item at the end is the only change. -/
theorem sets_concat (named : key item = some wanted)
    (absent : forall other, other ∈ items -> Not (key other = some wanted)) :
    SetsKey (fun before after => after = before) key wanted item items (items ++ [item]) where
  own other member belongs := by
    rcases List.mem_append.mp member with old | new
    · exact absurd belongs (absent other old)
    · exact List.mem_singleton.mp new
  present := List.mem_append_right _ (List.mem_singleton_self item)
  foreign other member := by
    rcases List.mem_append.mp member with old | new
    · exact Or.inr (Or.inr old)
    · rw [List.mem_singleton.mp new]
      exact Or.inr (Or.inl named)
  kept := by
    have gone : others key [wanted] [item] = [] := by
      rw [others, List.filter_singleton, named]
      simp
    rw [others, List.filter_append, ← others, ← others, gone, List.append_nil]

end KeyedEdits

end Foundations
end Agapornis
