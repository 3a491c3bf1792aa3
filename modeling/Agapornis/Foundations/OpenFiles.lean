import Agapornis.Foundations.Text

namespace Agapornis
namespace Foundations

/-!
# Files that are open

The names of a directory lead to files.  A file that was opened is read and
written without its name, and stays as it is when the name is removed or comes
to lead to another file.
-/

/-- The names in a directory and the files in it; no file has two names. -/
structure FileStore (Name : Type) where
  entry : Name -> Option Nat
  content : Nat -> Bytes
  next : Nat
  below : forall name file, entry name = some file -> file < next
  distinct : forall first second file, entry first = some file -> entry second = some file -> first = second

namespace FileStore

variable {Name : Type} [DecidableEq Name]

/-- The content of a file with some bytes written over it, and zeros where it
was shorter. -/
def overwritten (content : Bytes) (offset : Nat) (bytes : Bytes) : Bytes :=
  content.take offset ++ List.replicate (offset - content.length) 0 ++ bytes ++ content.drop (offset + bytes.length)

/-- What is written to the end of a file comes behind it. -/
theorem overwritten_end (content bytes : Bytes) :
    overwritten content content.length bytes = content ++ bytes := by
  unfold overwritten
  rw [List.take_length, Nat.sub_self, List.replicate_zero, List.append_nil, List.drop_eq_nil_of_le (by omega),
    List.append_nil]

/-- Open a file for writing: the file of a name that is there is made empty. -/
def create (store : FileStore Name) (name : Name) : Nat × FileStore Name :=
  match found : store.entry name with
  | some file => (file, { store with content := fun other => if other = file then [] else store.content other })
  | none => (store.next, {
      entry := fun other => if other = name then some store.next else store.entry other
      content := fun other => if other = store.next then [] else store.content other
      next := store.next + 1
      below := by
        intro other file held
        split at held
        · cases held
          exact Nat.lt_succ_self _
        · exact Nat.lt_succ_of_lt (store.below other file held)
      distinct := by
        intro first second file one other
        split at one
        · next isFirst =>
            split at other
            · next isSecond => exact isFirst.trans isSecond.symm
            · cases one
              exact absurd (store.below second _ other) (Nat.lt_irrefl _)
        · split at other
          · cases other
            exact absurd (store.below first _ one) (Nat.lt_irrefl _)
          · exact store.distinct first second file one other })

/-- Write to a file that is open. -/
def writeAt (store : FileStore Name) (file offset : Nat) (bytes : Bytes) : FileStore Name :=
  { store with
    content := fun other =>
      if other = file then overwritten (store.content file) offset bytes else store.content other }

def remove (store : FileStore Name) (name : Name) : FileStore Name where
  entry other := if other = name then none else store.entry other
  content := store.content
  next := store.next
  below := by
    intro other file held
    split at held
    · cases held
    · exact store.below other file held
  distinct := by
    intro first second file one other
    split at one
    · cases one
    · split at other
      · cases other
      · exact store.distinct first second file one other

/-- A name leads to a file with the given content. -/
structure Leads (store : FileStore Name) (name : Name) (file : Nat) (content : Bytes) : Prop where
  entry : store.entry name = some file
  content : store.content file = content

variable {store : FileStore Name} {name other : Name} {file : Nat} {content : Bytes}

theorem leads_create : (store.create name).2.Leads name (store.create name).1 [] := by
  unfold create
  split
  · next file found => exact ⟨found, if_pos rfl⟩
  · exact ⟨if_pos rfl, if_pos rfl⟩

theorem Leads.create (leads : store.Leads other file content) (different : Not (other = name)) :
    (store.create name).2.Leads other file content := by
  unfold FileStore.create
  split
  · next own found =>
      refine ⟨leads.entry, (if_neg fun same => ?_).trans leads.content⟩
      exact different (store.distinct other name own (same ▸ leads.entry) found)
  · refine ⟨(if_neg different).trans leads.entry, (if_neg fun same => ?_).trans leads.content⟩
    exact absurd (store.below other file leads.entry) (same ▸ Nat.lt_irrefl _)

omit [DecidableEq Name] in
theorem Leads.append (leads : store.Leads name file content) (bytes : Bytes) :
    (store.writeAt file content.length bytes).Leads name file (content ++ bytes) where
  entry := leads.entry
  content := by
    refine (if_pos rfl).trans ?_
    rw [leads.content, overwritten_end]

omit [DecidableEq Name] in
theorem Leads.writeAt {written offset : Nat} {old bytes : Bytes} (leads : store.Leads other file content)
    (own : store.Leads name written old) (different : Not (other = name)) :
    (store.writeAt written offset bytes).Leads other file content where
  entry := leads.entry
  content := by
    refine (if_neg fun same => ?_).trans leads.content
    exact different (store.distinct other name written (same ▸ leads.entry) own.entry)

theorem Leads.remove (leads : store.Leads other file content) (different : Not (other = name)) :
    (store.remove name).Leads other file content :=
  ⟨(if_neg different).trans leads.entry, leads.content⟩

end FileStore

end Foundations
end Agapornis
