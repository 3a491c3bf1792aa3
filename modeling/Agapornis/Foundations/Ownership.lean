import Mathlib.Data.Finset.Insert
import Mathlib.Data.Finset.Erase

namespace Agapornis
namespace Foundations

/-!
# Exclusive ownership

A pool of taken resources and the owners of them agree when every resource in
the pool has an owner, only one, and nothing else is owned.  Taking a free
resource and giving an owned one back keep them in agreement.
-/

variable {Owner Resource : Type}

/-- The pool holds exactly what is owned, and everything in it has one owner. -/
structure Exclusive (pool : Finset Resource) (owns : Owner -> Option Resource) : Prop where
  covered : forall resource, resource ∈ pool <-> Exists fun owner => owns owner = some resource
  alone : forall first second resource, owns first = some resource -> owns second = some resource ->
    first = second

theorem exclusive_empty : Exclusive (∅ : Finset Resource) (fun _ : Owner => none) where
  covered _ := iff_of_false (Finset.notMem_empty _) (fun ⟨_, impossible⟩ => by cases impossible)
  alone _ _ _ impossible := by cases impossible

namespace Exclusive

variable {pool : Finset Resource} {owns : Owner -> Option Resource}

theorem mem (exclusive : Exclusive pool owns) {owner : Owner} {resource : Resource}
    (owned : owns owner = some resource) : resource ∈ pool :=
  (exclusive.covered resource).mpr ⟨owner, owned⟩

/-- Owners that own what they owned. -/
theorem keep (exclusive : Exclusive pool owns) {later : Owner -> Option Resource}
    (same : forall owner, later owner = owns owner) : Exclusive pool later := by
  have equal : later = owns := funext same
  rw [equal]
  exact exclusive

variable [DecidableEq Resource]

/-- An owner of nothing takes something free. -/
theorem acquire (exclusive : Exclusive pool owns) {later : Owner -> Option Resource} {owner : Owner}
    {resource : Resource} (empty : owns owner = none) (free : resource ∉ pool)
    (taken : later owner = some resource) (others : forall other, Not (other = owner) -> later other = owns other) :
    Exclusive (insert resource pool) later := by
  constructor
  · intro wanted
    rw [Finset.mem_insert, exclusive.covered]
    constructor
    · rintro (same | ⟨other, owned⟩)
      · exact ⟨owner, same ▸ taken⟩
      · refine ⟨other, ?_⟩
        rw [others other]
        · exact owned
        · intro same
          rw [same, empty] at owned
          cases owned
    · rintro ⟨other, owned⟩
      by_cases same : other = owner
      · rw [same, taken] at owned
        exact Or.inl (Option.some.inj owned).symm
      · exact Or.inr ⟨other, (others other same) ▸ owned⟩
  · have notOwned (other : Owner) (different : Not (other = owner)) : Not (later other = some resource) := by
      intro owned
      rw [others other different] at owned
      exact free (exclusive.mem owned)
    intro first second wanted ofFirst ofSecond
    by_cases firstTook : first = owner <;> by_cases secondTook : second = owner
    · rw [firstTook, secondTook]
    · rw [firstTook, taken] at ofFirst
      exact absurd (Option.some.inj ofFirst ▸ ofSecond) (notOwned second secondTook)
    · rw [secondTook, taken] at ofSecond
      exact absurd (Option.some.inj ofSecond ▸ ofFirst) (notOwned first firstTook)
    · rw [others first firstTook] at ofFirst
      rw [others second secondTook] at ofSecond
      exact exclusive.alone first second wanted ofFirst ofSecond

/-- An owner gives back what it owns. -/
theorem release (exclusive : Exclusive pool owns) {later : Owner -> Option Resource} {owner : Owner}
    {resource : Resource} (owned : owns owner = some resource) (released : later owner = none)
    (others : forall other, Not (other = owner) -> later other = owns other) :
    Exclusive (pool.erase resource) later := by
  constructor
  · intro wanted
    rw [Finset.mem_erase, exclusive.covered]
    constructor
    · rintro ⟨different, other, ofOther⟩
      refine ⟨other, ?_⟩
      rw [others other]
      · exact ofOther
      · intro same
        rw [same, owned] at ofOther
        exact different (Option.some.inj ofOther).symm
    · rintro ⟨other, ofOther⟩
      have different : Not (other = owner) := by
        intro same
        rw [same, released] at ofOther
        cases ofOther
      rw [others other different] at ofOther
      refine ⟨?_, other, ofOther⟩
      intro same
      exact different (exclusive.alone other owner resource (same ▸ ofOther) owned)
  · intro first second wanted ofFirst ofSecond
    have keeps {other : Owner} (ofOther : later other = some wanted) : owns other = some wanted := by
      by_cases same : other = owner
      · rw [same, released] at ofOther
        cases ofOther
      · exact (others other same) ▸ ofOther
    exact exclusive.alone first second wanted (keeps ofFirst) (keeps ofSecond)

end Exclusive

end Foundations
end Agapornis
