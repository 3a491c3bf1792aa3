import Mathlib.Data.Set.Insert
import Agapornis.Foundations.Interleaving
import Agapornis.Runtime.UpdateCalls

namespace Agapornis
namespace Runtime

open Foundations Agapornis.Core

/-!
# Rules for interleaved updates

What the files of an update may hold while staging calls, activations,
rollbacks and commits take turns, what each of them relies on, and what single
calls do under these rules.
-/

/-- Who runs an operation. -/
inductive UpdateOwner where
  | stage (uuid markerUuid : Nat)
  | activator
  | maintainer

/-- A store with the artifacts that a marker has ever named. -/
abbrev Marked := UpdateStore × Set Nat

def noteMarker (store : UpdateStore) (named : Set Nat) : Set Nat :=
  { uuid | uuid ∈ named \/ store .pendingArtifact = some (.path (.artifact uuid)) }

abbrev performMarked := withHistory performWithFault noteMarker

/-! ## The rules -/

section Rules

variable (good verified : Bytes -> Prop)

/-- What a file may hold. -/
def MayHold (named : Set Nat) : UpdateFile -> Stored -> Prop
  | .executable, stored => Exists fun content => stored = .bytes content /\ good content
  | .previousAgent, stored => Exists fun content => stored = .bytes content /\ good content
  | .failedAgent _, stored => Exists fun content => stored = .bytes content /\ good content
  | .artifact uuid, stored =>
      uuid ∈ named -> Exists fun content => stored = .bytes content /\ verified content
  | .pendingArtifact, stored => Exists fun uuid => stored = .path (.artifact uuid) /\ uuid ∈ named
  | .activationState, stored => match stored with
      | .activation state => state.previous = .previousAgent
      | .bytes _ => True
      | .path _ => False
  | .markerTemp _, _ => True
  | .previousTemp, _ => True

def Guarded (marked : Marked) : Prop :=
  forall file stored, marked.1 file = some stored -> MayHold good verified marked.2 file stored

/-- The files that only their owner touches: an artifact until a marker names
it, and the temporary files. -/
def Private (named : Set Nat) : UpdateOwner -> UpdateFile -> Prop
  | .stage uuid _, .artifact other => other = uuid /\ uuid ∉ named
  | .stage _ markerUuid, .markerTemp other => other = markerUuid
  | .activator, .previousTemp => True
  | _, _ => False

def Apart : UpdateOwner -> UpdateOwner -> Prop
  | .stage uuid markerUuid, .stage otherUuid otherMarkerUuid =>
      uuid ≠ otherUuid /\ markerUuid ≠ otherMarkerUuid
  | .activator, .activator => False
  | _, _ => True

def updateRules : Rules UpdateOwner Marked where
  invariant := Guarded good verified
  rely owner before after := before.2 ⊆ after.2 /\ forall file, Private before.2 owner file ->
    after.1 file = before.1 file /\ Private after.2 owner file
  rely_refl _ _ := ⟨fun _ member => member, fun _ isPrivate => ⟨rfl, isPrivate⟩⟩
  apart := Apart

/-- Not private to anyone apart from the owner. -/
def Foreign (named : Set Nat) (owner : UpdateOwner) (file : UpdateFile) : Prop :=
  forall other, Apart other owner -> Not (Private named other file)

end Rules

section Permits

variable {good verified : Bytes -> Prop} {owner : UpdateOwner} {marked : Marked}

theorem noteMarker_eq {store : UpdateStore} {named : Set Nat}
    (guarded : Guarded good verified (store, named)) : noteMarker store named = named := by
  ext uuid
  constructor
  · intro noted
    rcases noted with already | now
    · exact already
    · rcases guarded .pendingArtifact _ now with ⟨other, same, member⟩
      cases same
      exact member
  · exact Or.inl

/-- A call that leaves the names alone is permitted where no one else relies on
what it changes. -/
theorem permits_changes {after : UpdateStore} (guarded : Guarded good verified marked)
    (changes : forall file, after file = marked.1 file \/
      (Foreign marked.2 owner file /\
        forall stored, after file = some stored -> MayHold good verified marked.2 file stored)) :
    Guarded good verified (after, marked.2) /\
      (updateRules good verified).Permits owner marked (after, noteMarker after marked.2) := by
  have guardedAfter : Guarded good verified (after, marked.2) := by
    intro file stored held
    rcases changes file with same | changed
    · exact guarded file stored (same ▸ held)
    · exact changed.2 stored held
  refine ⟨guardedAfter, ?_⟩
  rw [noteMarker_eq guardedAfter]
  refine ⟨guardedAfter, ?_⟩
  intro other isApart
  refine ⟨fun _ member => member, ?_⟩
  intro file isPrivate
  refine ⟨?_, isPrivate⟩
  rcases changes file with same | changed
  · exact same
  · exact absurd isPrivate (changed.1 other isApart)

/-- The files that are private to nobody. -/
def UpdateFile.isShared : UpdateFile -> Bool
  | .executable => true
  | .pendingArtifact => true
  | .previousAgent => true
  | .activationState => true
  | .failedAgent _ => true
  | _ => false

theorem foreign_of_isShared {file : UpdateFile} (shared : file.isShared = true) (named : Set Nat) :
    Foreign named owner file := by
  intro other _ isPrivate
  cases file <;> cases other <;> first | exact isPrivate | cases shared

end Permits

/-! ## Calls -/

section Calls

variable {good verified : Bytes -> Prop} {owner : UpdateOwner}

/-- What an operation of an owner does under the rules. -/
abbrev Does {Result : Type} (good verified : Bytes -> Prop) (owner : UpdateOwner)
    (known : Marked -> Prop) (program : UpdateProgram Result)
    (conclusion : Result -> Marked -> Prop) : Prop :=
  (updateRules good verified).Behaves performMarked owner conclusion program known

/-- A fact that outlives the calls of the others. -/
abbrev Lasting (good verified : Bytes -> Prop) (owner : UpdateOwner) (fact : Marked -> Prop) : Prop :=
  (updateRules good verified).Stable owner fact

theorem does_ask {request : UpdateCall} {known : Marked -> Prop}
    {conclusion : request.Reply -> Marked -> Prop}
    (lasting : forall reply, Lasting good verified owner (conclusion reply))
    (fits : forall marked, Guarded good verified marked -> known marked -> forall file value,
      request.MayLeave marked.1 file value -> Foreign marked.2 owner file /\
        forall stored, value = some stored -> MayHold good verified marked.2 file stored)
    (learns : forall choice marked, Guarded good verified marked -> known marked ->
      conclusion (performWithFault choice request marked.1).1
        ((performWithFault choice request marked.1).2, marked.2)) :
    Does good verified owner known (Program.ask request) conclusion := by
  apply Rules.behaves_ask lasting
  intro choice marked guarded here
  have changes : forall file,
      (performWithFault choice request marked.1).2 file = marked.1 file \/
        (Foreign marked.2 owner file /\ forall stored,
          (performWithFault choice request marked.1).2 file = some stored ->
            MayHold good verified marked.2 file stored) := by
    intro file
    exact (performWithFault_leaves choice request marked.1 file).imp_right
      (fits marked guarded here file _)
  have permitted := permits_changes guarded changes
  refine ⟨permitted.2, ?_⟩
  have learnt := learns choice marked guarded here
  rw [<- noteMarker_eq permitted.1] at learnt
  exact learnt

theorem does_look {request : UpdateCall} (looks : request.looks = true) {known : Marked -> Prop}
    (lasting : Lasting good verified owner known) :
    Does good verified owner known (Program.ask request) (fun _ => known) := by
  apply does_ask (fun _ => lasting)
  · intro marked _ _ file value left
    cases request <;> first | exact absurd left id | cases looks
  · intro choice marked _ here
    cases choice <;> cases request <;> first | exact here | cases looks

/-- A call that succeeds leaves a fact. -/
def OnSuccess {Result : Type} (fact : Result -> Marked -> Prop) (reply : Except Errno Result)
    (marked : Marked) : Prop :=
  forall value, reply = .ok value -> fact value marked

theorem lasting_onSuccess {Result : Type} {fact : Result -> Marked -> Prop}
    (lasting : forall value, Lasting good verified owner (fact value)) (reply : Except Errno Result) :
    Lasting good verified owner (OnSuccess fact reply) := by
  intro before after holds others value replied
  exact lasting value before after (holds value replied) others

theorem does_require {Result : Type} {fact : Result -> Marked -> Prop} {known : Marked -> Prop}
    {program : UpdateProgram (Except Errno Result)}
    (does : Does good verified owner known program (OnSuccess fact)) :
    Does good verified owner known (require program) fact := by
  apply Rules.Behaves.bind does
  intro reply
  cases reply with
  | ok value => exact fun _ _ succeeded => succeeded value rfl
  | error error => trivial

theorem does_requireFor {Result : Type} {fact : Result -> Marked -> Prop} {known : Marked -> Prop}
    (message : String) {program : UpdateProgram (Except Errno Result)}
    (does : Does good verified owner known program (OnSuccess fact)) :
    Does good verified owner known (requireFor message program) fact := by
  apply Rules.Behaves.bind does
  intro reply
  cases reply with
  | ok value => exact fun _ _ succeeded => succeeded value rfl
  | error error => trivial

theorem Does.onSuccess {Result : Type} {fact : Marked -> Prop} {known : Marked -> Prop}
    {program : UpdateProgram (Except Errno Result)}
    (does : Does good verified owner known program (fun _ => fact)) :
    Does good verified owner known program (OnSuccess fun _ => fact) :=
  Rules.Behaves.conclude does (fun _ _ here _ _ => here)

theorem does_done {Result : Type} (result : Result) (known : Marked -> Prop) :
    Does good verified owner known (.done result) (fun _ _ => True) :=
  fun _ _ _ => trivial

theorem lasting_true : Lasting good verified owner (fun _ => True) := Rules.stable_const True

/-- A call that changes shared files to what they may hold. -/
theorem does_change {request : UpdateCall} {known : Marked -> Prop}
    (fits : forall marked, Guarded good verified marked -> known marked -> forall file value,
      request.MayLeave marked.1 file value -> Foreign marked.2 owner file /\
        forall stored, value = some stored -> MayHold good verified marked.2 file stored) :
    Does good verified owner known (Program.ask request) (fun _ _ => True) :=
  does_ask (fun _ => lasting_true) fits (fun _ _ _ _ => trivial)

theorem does_remove {known : Marked -> Prop} (file : UpdateFile)
    (foreign : forall marked, Guarded good verified marked -> known marked ->
      Foreign marked.2 owner file) :
    Does good verified owner known (Fs.removeFile file) (fun _ _ => True) := by
  apply does_change
  intro marked guarded here other value left
  rcases left with ⟨same, absent⟩
  subst same absent
  exact ⟨foreign marked guarded here, fun stored impossible => by cases impossible⟩

/-- What is read from a file is what it may hold. -/
theorem does_read {known : Marked -> Prop} (file : UpdateFile)
    (lasting : Lasting good verified owner known)
    (holdsOn : forall stored, Lasting good verified owner
      (fun marked => MayHold good verified marked.2 file stored)) :
    Does good verified owner known (Fs.read file)
      (OnSuccess fun stored marked => known marked /\ MayHold good verified marked.2 file stored) := by
  apply does_ask
  · exact lasting_onSuccess (fun stored => lasting.and (holdsOn stored))
  · exact fun _ _ _ _ _ left => absurd left id
  · intro choice marked guarded here stored replied
    cases choice with
    | some fault => cases replied
    | none =>
        cases held : marked.1 file with
        | none => simp [performWithFault, performUpdate, held] at replied
        | some content =>
            simp only [performWithFault, performUpdate, held, Except.ok.injEq] at replied
            subst replied
            exact ⟨here, guarded file content held⟩

/-- A new file is empty, and it was not there before. -/
theorem does_createNew {known : Marked -> Prop} (file : UpdateFile)
    (lasting : Lasting good verified owner
      (fun marked => known marked /\ marked.1 file = some (.bytes [])))
    (kept : forall (marked : Marked) (value : Option Stored), known marked ->
      known (Function.update marked.1 file value, marked.2))
    (fits : forall marked, known marked -> Foreign marked.2 owner file /\
      forall stored, MayHold good verified marked.2 file stored) :
    Does good verified owner known (Fs.createNew file)
      (OnSuccess fun _ marked => known marked /\ marked.1 file = some (.bytes [])) := by
  apply does_ask
  · exact lasting_onSuccess (fun _ => lasting)
  · intro marked _ here other value left
    rcases left with ⟨same, _⟩
    subst same
    exact ⟨(fits marked here).1, fun stored _ => (fits marked here).2 stored⟩
  · intro choice marked _ here done replied
    cases choice with
    | some fault => cases replied
    | none =>
        simp only [performWithFault, performUpdate] at replied ⊢
        split at replied
        · cases replied
        · next free =>
            rw [if_neg free]
            exact ⟨kept marked _ here, Function.update_self _ _ _⟩

end Calls

end Runtime
end Agapornis
