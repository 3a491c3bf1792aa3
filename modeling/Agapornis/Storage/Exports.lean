import Agapornis.Core.Paths
import Agapornis.Foundations.Machine
import Agapornis.Foundations.Numerals
import Agapornis.Foundations.OpenFiles

namespace Agapornis
namespace Storage

open Foundations Agapornis.Core

/-!
# Exports

An export has an archive made in the directory for temporary files, and streams
it to its client.  The archive is named by the server and the second, and from
one step of the export to the next it is found again by that name.
-/

/-! ## The names of the archives -/

/-- A second of the calendar. -/
structure UtcSecond where
  year : Nat
  month : Nat
  day : Nat
  hour : Nat
  minute : Nat
  second : Nat
  month_le : month <= 12
  day_le : day <= 31
  hour_lt : hour < 24
  minute_lt : minute < 60
  /-- A leap second is the sixtieth. -/
  second_le : second <= 60
  deriving DecidableEq

/-- A number below 100 in two digits. -/
def twoDigits (value : Nat) : Text :=
  [(value / 10).digitChar, (value % 10).digitChar]

/-- A year has four digits, or a sign and more of them. -/
def yearDigits (year : Nat) : Text :=
  if year < 10000 then twoDigits (year / 100) ++ twoDigits (year % 100) else '+' :: Text.decimal year

/-- The second as the name of an archive has it. -/
def UtcSecond.stamp (time : UtcSecond) : Text :=
  yearDigits time.year ++ (twoDigits time.month ++ (twoDigits time.day ++ (twoDigits time.hour ++
    (twoDigits time.minute ++ twoDigits time.second))))

theorem digitChar_injective {first second : Nat} (small : first < 10) (smaller : second < 10)
    (same : first.digitChar = second.digitChar) : first = second := by
  have digits : forall left right : Fin 10, left.val.digitChar = right.val.digitChar -> left = right := by decide
  exact congrArg Fin.val (digits ⟨first, small⟩ ⟨second, smaller⟩ same)

theorem digitChar_isDigit {value : Nat} (small : value < 10) : value.digitChar.isDigit = true := by
  have digits : forall digit : Fin 10, digit.val.digitChar.isDigit = true := by decide
  exact digits ⟨value, small⟩

theorem twoDigits_injective {first second : Nat} (small : first < 100) (smaller : second < 100)
    (same : twoDigits first = twoDigits second) : first = second := by
  rcases List.cons.inj same with ⟨high, low⟩
  have tens := digitChar_injective (by omega) (by omega) high
  have ones := digitChar_injective (by omega) (by omega) (List.cons.inj low).1
  omega

theorem twoDigits_append {first second : Nat} {front back : Text} (small : first < 100) (smaller : second < 100)
    (same : twoDigits first ++ front = twoDigits second ++ back) : first = second /\ front = back := by
  rcases List.append_inj same rfl with ⟨digits, rest⟩
  exact ⟨twoDigits_injective small smaller digits, rest⟩

theorem twoDigits_isDigit {value : Nat} (small : value < 100) {character : Char}
    (member : character ∈ twoDigits value) :
    character.isDigit = true := by
  rcases List.mem_cons.mp member with high | low
  · exact high ▸ digitChar_isDigit (by omega)
  · exact List.mem_singleton.mp low ▸ digitChar_isDigit (by omega)

theorem yearDigits_injective {first second : Nat} (same : yearDigits first = yearDigits second) : first = second := by
  have unsigned {year : Nat} {rest : Text} (small : year < 10000) :
      Not (twoDigits (year / 100) ++ twoDigits (year % 100) = '+' :: rest) := by
    intro signed
    have digit : (year / 100 / 10).digitChar.isDigit = true := digitChar_isDigit (by omega)
    rw [(List.cons.inj signed).1] at digit
    exact absurd digit (by decide)
  unfold yearDigits at same
  split at same
  · next small =>
      split at same
      · next smaller =>
          rcases twoDigits_append (by omega) (by omega) same with ⟨hundreds, rest⟩
          have ones := twoDigits_injective (by omega) (by omega) rest
          omega
      · exact absurd same (unsigned small)
  · split at same
    · next smaller => exact absurd same.symm (unsigned smaller)
    · exact Text.decimal_injective (List.cons.inj same).2

theorem UtcSecond.fields_lt (time : UtcSecond) :
    time.month < 100 /\ time.day < 100 /\ time.hour < 100 /\ time.minute < 100 /\ time.second < 100 := by
  have month := time.month_le
  have day := time.day_le
  have hour := time.hour_lt
  have minute := time.minute_lt
  have second := time.second_le
  omega

/-- Different seconds have different stamps. -/
theorem stamp_injective {first second : UtcSecond} (same : first.stamp = second.stamp) : first = second := by
  rcases first.fields_lt with ⟨month, day, hour, minute, second_lt⟩
  rcases second.fields_lt with ⟨otherMonth, otherDay, otherHour, otherMinute, otherSecond⟩
  rcases List.append_inj' same rfl with ⟨years, rest⟩
  rcases twoDigits_append month otherMonth rest with ⟨months, rest⟩
  rcases twoDigits_append day otherDay rest with ⟨days, rest⟩
  rcases twoDigits_append hour otherHour rest with ⟨hours, rest⟩
  rcases twoDigits_append minute otherMinute rest with ⟨minutes, rest⟩
  have seconds := twoDigits_injective second_lt otherSecond rest
  have years := yearDigits_injective years
  cases first
  cases second
  simp only [UtcSecond.mk.injEq]
  exact ⟨years, months, days, hours, minutes, seconds⟩

/-- There is no hyphen in a stamp. -/
theorem hyphen_not_mem_stamp (time : UtcSecond) : '-' ∉ time.stamp := by
  intro member
  rcases time.fields_lt with ⟨month, day, hour, minute, second⟩
  have plain {value : Nat} (small : value < 100) : '-' ∉ twoDigits value :=
    fun inside => absurd (twoDigits_isDigit small inside) (by decide)
  have year : '-' ∉ yearDigits time.year := by
    unfold yearDigits
    split
    · next small =>
        rw [List.mem_append]
        exact not_or.mpr ⟨plain (by omega), plain (by omega)⟩
    · rw [List.mem_cons]
      exact not_or.mpr ⟨by decide, Text.not_mem_decimal (by decide) _⟩
  simp only [UtcSecond.stamp, List.mem_append] at member
  rcases member with inYear | inMonth | inDay | inHour | inMinute | inSecond
  · exact year inYear
  · exact plain month inMonth
  · exact plain day inDay
  · exact plain hour inHour
  · exact plain minute inMinute
  · exact plain second inSecond

inductive TransferPayload where
  | serverData
  | localBackups
  deriving DecidableEq, Repr

/-- The name of an archive in front of the time. -/
def archiveStem (id : Text) : TransferPayload -> Text
  | .serverData => id
  | .localBackups => id ++ "-backups".toList

def temporaryArchive (stem : Text) (time : UtcSecond) : Text :=
  stem ++ '-' :: time.stamp ++ ".tar.gz".toList

/-- An archive is named by its stem and its second. -/
theorem temporaryArchive_injective {first second : Text} {time other : UtcSecond}
    (same : temporaryArchive first time = temporaryArchive second other) : first = second /\ time = other := by
  unfold temporaryArchive at same
  have names : first ++ '-' :: time.stamp = second ++ '-' :: other.stamp := List.append_cancel_right same
  have parts := congrArg (Text.rsplitOnce '-') names
  rw [Text.rsplitOnce_append (hyphen_not_mem_stamp time), Text.rsplitOnce_append (hyphen_not_mem_stamp other)] at parts
  rcases Prod.mk.inj (Option.some.inj parts) with ⟨stems, stamps⟩
  exact ⟨stems, stamp_injective stamps⟩

/-! ## The export calls -/

inductive ExportPhase where
  | named
  /-- The archiver has opened its output. -/
  | archiving (file : Nat)
  | archived
  /-- The size has been read and sent. -/
  | announced
  | streaming (file : Nat)
  /-- All has been read. -/
  | removing
  | completed
  | stopped
  deriving DecidableEq, Repr

/-- A call, with what its archiver has written and what its client has got. -/
structure Export where
  stem : Text
  time : UtcSecond
  phase : ExportPhase
  archive : Bytes
  size : Option Nat
  delivered : Bytes
  deriving DecidableEq

def Export.path (call : Export) : Text :=
  temporaryArchive call.stem call.time

/-- Whether the call goes on. -/
def Export.inFlight (call : Export) : Bool :=
  decide (Not (call.phase = .completed) /\ Not (call.phase = .stopped))

/-- The most that is read at once. -/
def maxExportChunk : Nat := 81920

/-- What may happen next in a call. -/
inductive ExportEvent where
  | openArchive
  | write (piece : Bytes)
  /-- The archiver has succeeded. -/
  | finish
  | stat
  | openRead
  /-- A read of one byte and at most so many more. -/
  | read (more : Nat)
  | remove (fails : Bool)
  /-- Something has failed, or the client is gone. -/
  | stop
  deriving DecidableEq, Repr

/-- The step of a call; what cannot happen in its phase is no step. -/
def Export.advance (files : FileStore Text) (call : Export) : ExportEvent -> Option (FileStore Text × Export)
  | .openArchive =>
      match call.phase with
      | .named => some ((files.create call.path).2, { call with phase := .archiving (files.create call.path).1 })
      | _ => none
  | .write piece =>
      match call.phase with
      | .archiving file =>
          some (files.writeAt file call.archive.length piece, { call with archive := call.archive ++ piece })
      | _ => none
  | .finish =>
      match call.phase with
      | .archiving _ => some (files, { call with phase := .archived })
      | _ => none
  | .stat =>
      match call.phase with
      | .archived =>
          match files.entry call.path with
          | some file => some (files, { call with phase := .announced, size := some (files.content file).length })
          | none => some (files, { call with phase := .stopped })
      | _ => none
  | .openRead =>
      match call.phase with
      | .announced =>
          match files.entry call.path with
          | some file => some (files, { call with phase := .streaming file })
          | none => some (files, { call with phase := .stopped })
      | _ => none
  | .read more =>
      match call.phase with
      | .streaming file =>
          let chunk := ((files.content file).drop call.delivered.length).take (min (more + 1) maxExportChunk)
          if chunk.isEmpty then some (files, { call with phase := .removing })
          else some (files, { call with delivered := call.delivered ++ chunk })
      | _ => none
  | .remove fails =>
      match call.phase with
      | .removing => some (if fails then files else files.remove call.path, { call with phase := .completed })
      | _ => none
  | .stop => if call.inFlight then some (files, { call with phase := .stopped }) else none

/-- The temporary files, and the calls by their numbers. -/
structure ExportState where
  files : FileStore Text
  calls : Nat -> Option Export

inductive ExportAction where
  /-- A call has its permit and names its archive. -/
  | begin (number : Nat) (id : Text) (payload : TransferPayload) (now : UtcSecond)
  | event (number : Nat) (event : ExportEvent)

def ExportState.set (state : ExportState) (number : Nat) (files : FileStore Text) (call : Export) : ExportState where
  files := files
  calls other := if other = number then some call else state.calls other

/-- A call that begins. -/
def newExport (id : Text) (payload : TransferPayload) (now : UtcSecond) : Export where
  stem := archiveStem id payload
  time := now
  phase := .named
  archive := []
  size := none
  delivered := []

def exportStep (state : ExportState) : ExportAction -> ExportState
  | .begin number id payload now =>
      match state.calls number, Paths.validateId id with
      | none, .ok () => state.set number state.files (newExport id payload now)
      | _, _ => state
  | .event number event =>
      match state.calls number with
      | none => state
      | some call =>
          match call.advance state.files event with
          | none => state
          | some (files, after) => state.set number files after

/-- No calls yet, whatever files there are. -/
def noExports (files : FileStore Text) : ExportState :=
  ⟨files, fun _ => none⟩

/-! ## What the clients get -/

/-- A call has delivered what its archiver has written, as far as it has come. -/
structure Export.Own (call : Export) : Prop where
  delivered : call.delivered <+: call.archive
  whole : call.phase = .completed -> call.delivered = call.archive
  size : forall size, call.size = some size -> size = call.archive.length

/-- Calls that go on have different archives, and each client gets its own. -/
structure Unmixed (state : ExportState) : Prop where
  apart : forall first second one other, state.calls first = some one -> state.calls second = some other ->
    one.inFlight = true -> other.inFlight = true -> one.path = other.path -> first = second
  own : forall number call, state.calls number = some call -> call.Own

/-- A call that begins is alone with its stem in its second. -/
def Alone (state : ExportState) : ExportAction -> Prop
  | .begin number id payload now => state.calls number = none -> Paths.validateId id = .ok () ->
      forall other call, state.calls other = some call -> call.inFlight = true ->
        Not (call.stem = archiveStem id payload /\ call.time = now)
  | .event _ _ => True

/-! ## What a call does -/

/-- The steps of a call. -/
inductive Export.Steps (files : FileStore Text) (call : Export) : FileStore Text -> Export -> Prop where
  | opened (phase : call.phase = .named) :
      Steps files call (files.create call.path).2 { call with phase := .archiving (files.create call.path).1 }
  | wrote (file : Nat) (piece : Bytes) (phase : call.phase = .archiving file) :
      Steps files call (files.writeAt file call.archive.length piece) { call with archive := call.archive ++ piece }
  | finished (file : Nat) (phase : call.phase = .archiving file) :
      Steps files call files { call with phase := .archived }
  | sized (file : Nat) (phase : call.phase = .archived) (found : files.entry call.path = some file) :
      Steps files call files { call with phase := .announced, size := some (files.content file).length }
  | reopened (file : Nat) (phase : call.phase = .announced) (found : files.entry call.path = some file) :
      Steps files call files { call with phase := .streaming file }
  | read (file : Nat) (chunk : Bytes) (phase : call.phase = .streaming file)
      (here : chunk <+: (files.content file).drop call.delivered.length) :
      Steps files call files { call with delivered := call.delivered ++ chunk }
  | ended (file : Nat) (phase : call.phase = .streaming file)
      (nothing : (files.content file).drop call.delivered.length = []) :
      Steps files call files { call with phase := .removing }
  | kept (phase : call.phase = .removing) : Steps files call files { call with phase := .completed }
  | removed (phase : call.phase = .removing) :
      Steps files call (files.remove call.path) { call with phase := .completed }
  | gaveUp (going : call.inFlight = true) : Steps files call files { call with phase := .stopped }

section Calls

variable {files after : FileStore Text} {call next : Export} {event : ExportEvent}

theorem inFlight_of_phase {phase : ExportPhase} (here : call.phase = phase) (going : Not (phase = .completed))
    (more : Not (phase = .stopped)) : call.inFlight = true := by
  rw [Export.inFlight, here]
  exact decide_eq_true ⟨going, more⟩

theorem advance_steps (ran : call.advance files event = some (after, next)) : call.Steps files after next := by
  unfold Export.advance at ran
  cases event with
  | openArchive =>
      dsimp only at ran
      split at ran
      · next phase =>
          cases ran
          exact .opened phase
      · cases ran
  | write piece =>
      dsimp only at ran
      split at ran
      · next file phase =>
          cases ran
          exact .wrote file piece phase
      · cases ran
  | finish =>
      dsimp only at ran
      split at ran
      · next file phase =>
          cases ran
          exact .finished file phase
      · cases ran
  | stat =>
      dsimp only at ran
      split at ran
      · next phase =>
          split at ran
          · next file found =>
              cases ran
              exact .sized file phase found
          · cases ran
            exact .gaveUp (inFlight_of_phase phase nofun nofun)
      · cases ran
  | openRead =>
      dsimp only at ran
      split at ran
      · next phase =>
          split at ran
          · next file found =>
              cases ran
              exact .reopened file phase found
          · cases ran
            exact .gaveUp (inFlight_of_phase phase nofun nofun)
      · cases ran
  | read more =>
      dsimp only at ran
      split at ran
      · next file phase =>
          split at ran
          · next empty =>
              cases ran
              refine .ended file phase ?_
              rw [List.isEmpty_iff, List.take_eq_nil_iff] at empty
              rcases empty with zero | nothing
              · unfold maxExportChunk at zero
                omega
              · exact nothing
          · cases ran
            exact .read file _ phase (List.take_prefix _ _)
      · cases ran
  | remove fails =>
      dsimp only at ran
      split at ran
      · next phase =>
          cases ran
          cases fails with
          | true => exact .kept phase
          | false => exact .removed phase
      · cases ran
  | stop =>
      dsimp only at ran
      split at ran
      · next going =>
          cases ran
          exact .gaveUp going
      · cases ran

namespace Export.Steps

variable (steps : call.Steps files after next)

include steps

theorem path_eq : next.path = call.path := by
  cases steps <;> rfl

theorem inFlight : call.inFlight = true := by
  cases steps with
  | opened phase => exact inFlight_of_phase phase nofun nofun
  | wrote file piece phase => exact inFlight_of_phase phase nofun nofun
  | finished file phase => exact inFlight_of_phase phase nofun nofun
  | sized file phase found => exact inFlight_of_phase phase nofun nofun
  | reopened file phase found => exact inFlight_of_phase phase nofun nofun
  | read file chunk phase here => exact inFlight_of_phase phase nofun nofun
  | ended file phase nothing => exact inFlight_of_phase phase nofun nofun
  | kept phase => exact inFlight_of_phase phase nofun nofun
  | removed phase => exact inFlight_of_phase phase nofun nofun
  | gaveUp going => exact going

end Export.Steps

/-- The archive of a call is behind its name while it is made or read. -/
structure Export.Backed (call : Export) (files : FileStore Text) : Prop where
  held : forall file, call.phase = .archiving file \/ call.phase = .streaming file ->
    files.Leads call.path file call.archive
  kept : call.phase = .archived \/ call.phase = .announced ->
    Exists fun file => files.Leads call.path file call.archive

/-- How far a call has come. -/
structure Export.Sound (call : Export) (files : FileStore Text) : Prop where
  own : call.Own
  backed : call.Backed files
  unmade : call.phase = .named -> call.archive = []
  unsized : (call.phase = .named \/ Exists fun file => call.phase = .archiving file) -> call.size = none
  read : call.phase = .removing -> call.delivered = call.archive

/-- A call that is over needs no file. -/
theorem Export.Sound.ended (sound : call.Sound files) (ended : Not (call.inFlight = true)) (after : FileStore Text) :
    call.Sound after where
  own := sound.own
  backed := {
    held := by
      rintro file (phase | phase)
      · exact absurd (inFlight_of_phase phase nofun nofun) ended
      · exact absurd (inFlight_of_phase phase nofun nofun) ended
    kept := by
      rintro (phase | phase)
      · exact absurd (inFlight_of_phase phase nofun nofun) ended
      · exact absurd (inFlight_of_phase phase nofun nofun) ended }
  unmade := sound.unmade
  unsized := sound.unsized
  read := sound.read

namespace Export.Steps

variable (steps : call.Steps files after next) (sound : call.Sound files)

include steps sound

/-- A step leaves what other calls have behind their names. -/
theorem leads_other {name : Text} {file : Nat} {content : Bytes} (different : Not (name = call.path))
    (leads : files.Leads name file content) : after.Leads name file content := by
  cases steps with
  | opened phase => exact leads.create different
  | wrote written piece phase => exact leads.writeAt (sound.backed.held written (Or.inl phase)) different
  | finished file phase => exact leads
  | sized file phase found => exact leads
  | reopened file phase found => exact leads
  | read file chunk phase here => exact leads
  | ended file phase nothing => exact leads
  | kept phase => exact leads
  | removed phase => exact leads.remove different
  | gaveUp going => exact leads

theorem sound_other {other : Export} (otherSound : other.Sound files) (different : Not (other.path = call.path)) :
    other.Sound after where
  own := otherSound.own
  backed := {
    held := fun file phase => steps.leads_other sound different (otherSound.backed.held file phase)
    kept := fun phase => (otherSound.backed.kept phase).imp fun _ => steps.leads_other sound different }
  unmade := otherSound.unmade
  unsized := otherSound.unsized
  read := otherSound.read

theorem sound_next : next.Sound after := by
  have own := sound.own
  cases steps with
  | opened phase =>
      refine ⟨⟨own.delivered, nofun, own.size⟩, ⟨?_, nofun⟩, nofun, fun _ => sound.unsized (Or.inl phase), nofun⟩
      rintro file (same | same)
      · cases same
        rw [sound.unmade phase]
        exact FileStore.leads_create
      · cases same
  | wrote file piece phase =>
      have unsized := sound.unsized (Or.inr ⟨file, phase⟩)
      refine ⟨⟨own.delivered.trans (List.prefix_append _ _), ?_, ?_⟩, ⟨?_, ?_⟩, ?_, fun _ => unsized, ?_⟩
      · exact fun other => absurd (phase.symm.trans other) nofun
      · exact fun size known => absurd (unsized.symm.trans known) nofun
      · rintro other (same | same)
        · rw [phase] at same
          cases same
          exact (sound.backed.held file (Or.inl phase)).append piece
        · exact absurd (phase.symm.trans same) nofun
      · rintro (same | same)
        · exact absurd (phase.symm.trans same) nofun
        · exact absurd (phase.symm.trans same) nofun
      · exact fun other => absurd (phase.symm.trans other) nofun
      · exact fun other => absurd (phase.symm.trans other) nofun
  | finished file phase =>
      refine ⟨⟨own.delivered, nofun, own.size⟩, ⟨nofun, fun _ => ?_⟩, nofun, nofun, nofun⟩
      exact ⟨file, sound.backed.held file (Or.inl phase)⟩
  | sized file phase found =>
      rcases sound.backed.kept (Or.inl phase) with ⟨other, leads⟩
      have same : other = file := Option.some.inj (leads.entry.symm.trans found)
      refine ⟨⟨own.delivered, nofun, ?_⟩, ⟨nofun, fun _ => ⟨other, leads⟩⟩, nofun, nofun, nofun⟩
      intro size known
      rw [← Option.some.inj known, ← same, leads.content]
  | reopened file phase found =>
      rcases sound.backed.kept (Or.inr phase) with ⟨other, leads⟩
      have same : other = file := Option.some.inj (leads.entry.symm.trans found)
      refine ⟨⟨own.delivered, nofun, own.size⟩, ⟨?_, nofun⟩, nofun, nofun, nofun⟩
      rintro opened (now | now)
      · cases now
      · cases now
        exact same ▸ leads
  | read file chunk phase here =>
      have leads := sound.backed.held file (Or.inr phase)
      rcases own.delivered with ⟨rest, whole⟩
      rw [leads.content, ← whole, List.drop_left] at here
      refine ⟨⟨?_, ?_, own.size⟩, ⟨sound.backed.held, sound.backed.kept⟩, sound.unmade, sound.unsized, ?_⟩
      · rw [← whole]
        exact (List.prefix_append_right_inj _).mpr here
      · exact fun other => absurd (phase.symm.trans other) nofun
      · exact fun other => absurd (phase.symm.trans other) nofun
  | ended file phase nothing =>
      have leads := sound.backed.held file (Or.inr phase)
      refine ⟨⟨own.delivered, nofun, own.size⟩, ⟨nofun, nofun⟩, nofun, nofun, fun _ => ?_⟩
      rcases own.delivered with ⟨rest, whole⟩
      rw [leads.content, ← whole, List.drop_left] at nothing
      rw [← whole, nothing, List.append_nil]
  | kept phase =>
      exact ⟨⟨own.delivered, fun _ => sound.read phase, own.size⟩, ⟨nofun, nofun⟩, nofun, nofun, nofun⟩
  | removed phase =>
      exact ⟨⟨own.delivered, fun _ => sound.read phase, own.size⟩, ⟨nofun, nofun⟩, nofun, nofun, nofun⟩
  | gaveUp going => exact ⟨⟨own.delivered, nofun, own.size⟩, ⟨nofun, nofun⟩, nofun, nofun, nofun⟩

end Export.Steps

end Calls

/-! ## All calls together -/

/-- Calls that go on have different archives, and each call is as far as it says. -/
structure Separated (state : ExportState) : Prop where
  apart : forall first second one other, state.calls first = some one -> state.calls second = some other ->
    one.inFlight = true -> other.inFlight = true -> one.path = other.path -> first = second
  sound : forall number call, state.calls number = some call -> call.Sound state.files

theorem separated_shows (state : ExportState) (separated : Separated state) : Unmixed state where
  apart := separated.apart
  own number call found := (separated.sound number call found).own

theorem newExport_sound (files : FileStore Text) (id : Text) (payload : TransferPayload) (now : UtcSecond) :
    (newExport id payload now).Sound files :=
  ⟨⟨List.nil_prefix, nofun, nofun⟩, ⟨nofun, nofun⟩, fun _ => rfl, fun _ => rfl, nofun⟩

section State

variable {state : ExportState}

theorem set_calls {number other : Nat} {files : FileStore Text} {call found : Export}
    (here : (state.set number files call).calls other = some found) :
    other = number /\ found = call \/ Not (other = number) /\ state.calls other = some found := by
  unfold ExportState.set at here
  dsimp only at here
  split at here
  · next same => exact Or.inl ⟨same, (Option.some.inj here).symm⟩
  · next different => exact Or.inr ⟨different, here⟩

/-- A call that is put in its place is apart from the others and leaves them sound. -/
theorem Separated.set (separated : Separated state) {number : Nat} {files : FileStore Text} {call : Export}
    (sound : call.Sound files)
    (others : forall other found, Not (other = number) -> state.calls other = some found -> found.Sound files)
    (apart : forall other found, Not (other = number) -> state.calls other = some found -> call.inFlight = true ->
      found.inFlight = true -> Not (found.path = call.path)) : Separated (state.set number files call) := by
  constructor
  · intro first second one other foundFirst foundSecond going goingToo samePath
    rcases set_calls foundFirst with ⟨isFirst, isOne⟩ | ⟨notFirst, earlier⟩
    · rcases set_calls foundSecond with ⟨isSecond, isOther⟩ | ⟨notSecond, later⟩
      · exact isFirst.trans isSecond.symm
      · rw [isOne] at going samePath
        exact absurd samePath.symm (apart second other notSecond later going goingToo)
    · rcases set_calls foundSecond with ⟨isSecond, isOther⟩ | ⟨notSecond, later⟩
      · rw [isOther] at goingToo samePath
        exact absurd samePath (apart first one notFirst earlier goingToo going)
      · exact separated.apart first second one other earlier later going goingToo samePath
  · intro other found here
    rcases set_calls here with ⟨_, isCall⟩ | ⟨different, earlier⟩
    · rw [isCall]
      exact sound
    · exact others other found different earlier

theorem exportStep_separated (action : ExportAction) (alone : Alone state action) (separated : Separated state) :
    Separated (exportStep state action) := by
  cases action with
  | begin number id payload now =>
      rw [exportStep]
      split
      · next vacant valid =>
          refine separated.set (newExport_sound _ _ _ _) (fun other found _ => separated.sound other found) ?_
          intro other found _ here _ going same
          exact alone vacant valid other found here going (temporaryArchive_injective same)
      · exact separated
  | event number event =>
      rw [exportStep]
      split
      · exact separated
      · next call found =>
          split
          · exact separated
          · next files after ran =>
              have steps := advance_steps ran
              have sound := separated.sound number call found
              have apart (other : Nat) (others : Export) (different : Not (other = number))
                  (here : state.calls other = some others) (going : others.inFlight = true) :
                  Not (others.path = call.path) :=
                fun same => different (separated.apart other number others call here found going steps.inFlight same)
              refine separated.set (steps.sound_next sound) ?_ ?_
              · intro other others different here
                by_cases going : others.inFlight = true
                · exact steps.sound_other sound (separated.sound other others here)
                    (apart other others different here going)
                · exact (separated.sound other others here).ended going files
              · intro other others different here _ going
                rw [steps.path_eq]
                exact apart other others different here going

/-- A call that begins where another with its stem and second goes on has the same archive. -/
theorem alone_of_unmixed (action : ExportAction) (unmixed : Unmixed (exportStep state action)) :
    Alone state action := by
  cases action with
  | event number event => trivial
  | begin number id payload now =>
      rintro vacant valid other call found going ⟨stem, time⟩
      rw [exportStep, vacant, valid] at unmixed
      have different : Not (other = number) := by
        intro same
        rw [same, vacant] at found
        cases found
      have begun : (state.set number state.files (newExport id payload now)).calls number =
          some (newExport id payload now) := if_pos rfl
      have remains : (state.set number state.files (newExport id payload now)).calls other = some call :=
        (if_neg different).trans found
      have same : call.path = (newExport id payload now).path := by
        rw [Export.path, stem, time]
        rfl
      exact different (unmixed.apart other number call _ remains begun going rfl same)

end State

/-- Exports stay apart, and each client gets the archive of its own export,
exactly when no export begins while another one with its stem, from the same
second, goes on. -/
theorem exports_unmixed_iff (files : FileStore Text) (run : List ExportAction) :
    (forall front, front <+: run -> Unmixed (Machine.reach exportStep (noExports files) front)) <->
      Machine.Along exportStep Alone (noExports files) run := by
  have start : Separated (noExports files) := ⟨nofun, nofun⟩
  exact Machine.seen_iff_along separated_shows (fun state action _ unmixed => alone_of_unmixed action unmixed)
    (fun state action alone separated => exportStep_separated action alone separated) start

/-! ## Two exports in one second -/

def noFiles : FileStore Text where
  entry _ := none
  content _ := []
  next := 0
  below := nofun
  distinct := nofun

def newYear : UtcSecond where
  year := 2025
  month := 1
  day := 1
  hour := 0
  minute := 0
  second := 0
  month_le := by decide
  day_le := by decide
  hour_lt := by decide
  minute_lt := by decide
  second_le := by decide

/-- A second export of the server begins before the client of the first has read. -/
def twoExports : List ExportAction :=
  [.begin 0 "server-1".toList .serverData newYear, .event 0 .openArchive, .event 0 (.write [1]), .event 0 .finish,
    .event 0 .stat, .event 0 .openRead, .begin 1 "server-1".toList .serverData newYear, .event 1 .openArchive,
    .event 1 (.write [2]), .event 1 .finish, .event 0 (.read 80), .event 0 (.read 80), .event 0 (.remove false)]

/-- The first client gets the archive of the second export. -/
theorem exports_mixed :
    ((Machine.reach exportStep (noExports noFiles) twoExports).calls 0).map (fun call =>
        (call.phase, call.archive, call.delivered)) = some (.completed, [1], [2]) /\
      Not (forall front, front <+: twoExports -> Unmixed (Machine.reach exportStep (noExports noFiles) front)) := by
  have outcome : ((Machine.reach exportStep (noExports noFiles) twoExports).calls 0).map (fun call =>
      (call.phase, call.archive, call.delivered)) = some (.completed, [1], [2]) := by decide +kernel
  refine ⟨outcome, fun unmixed => ?_⟩
  rcases Option.map_eq_some_iff.mp outcome with ⟨call, found, values⟩
  have whole := ((unmixed twoExports List.prefix_rfl).own 0 call found).whole (congrArg Prod.fst values)
  rw [(Prod.mk.inj (Prod.mk.inj values).2).1, (Prod.mk.inj (Prod.mk.inj values).2).2] at whole
  exact absurd whole (by decide)

end Storage
end Agapornis
