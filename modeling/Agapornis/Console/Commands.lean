import Mathlib.Data.List.TakeDrop
import Agapornis.Core.Paths
import Agapornis.Core.Value
import Agapornis.Foundations.Utf8

namespace Agapornis
namespace Console

open Foundations Agapornis.Core

/-!
# Commands to a server's console

A command is written as one line to an attachment of the container's standard
input.  Where that fails the attachment is made anew and the line is written
once more, as a whole.

An attachment is told by what it answers to the writes and to the flush, and by
how many of the bytes it has taken reach the container when it is given up.  A
flush that succeeds has brought all of them there.
-/

/-- The answer to one write.  After the last answer the attachment stalls. -/
inductive WriteAnswer where
  | accepted (count : Nat)
  | failed (error : Errno)
  deriving DecidableEq, Repr

inductive Written where
  | all
  | failed (cause : Failure)
  | stalled
  deriving DecidableEq, Repr

/-- Write all bytes, and tell how many of them were taken. -/
def writeAll : List WriteAnswer -> Bytes -> Written × Nat
  | _, [] => (.all, 0)
  | [], _ :: _ => (.stalled, 0)
  | .failed error :: _, _ :: _ => (.failed (.io error), 0)
  | .accepted count :: answers, byte :: line =>
      if count = 0 then (.failed (.bail "write zero"), 0)
      else
        let rest := writeAll answers ((byte :: line).drop count)
        (rest.1, min count (byte :: line).length + rest.2)

structure StdinAttachment where
  closed : Bool
  writes : List WriteAnswer
  /-- The answer to the flush, if there is one in time. -/
  flush : Option (Except Errno Unit)
  arrives : Nat

/-- How the writes and then the flush end, within the time that there is. -/
def writeOutcome : Written -> Option (Except Errno Unit) -> Except Failure Unit
  | .all, some (.ok _) => .ok ()
  | .all, some (.error error) => .error (.context "write to container console attachment" (.io error))
  | .failed cause, _ => .error (.context "write to container console attachment" cause)
  | .all, none => .error (.context "timed out writing to container console" (.bail "deadline has elapsed"))
  | .stalled, _ => .error (.context "timed out writing to container console" (.bail "deadline has elapsed"))

/-- Whether a line was written, and the bytes of it that the container gets. -/
def writeConsoleLine (attachment : StdinAttachment) (line : Bytes) : Except Failure Unit × Bytes :=
  if attachment.closed then (.error (.bail "container console attachment is closed"), [])
  else
    let written := writeAll attachment.writes line
    match writeOutcome written.1 attachment.flush with
    | .ok _ => (.ok (), line.take written.2)
    | .error failure => (.error failure, (line.take written.2).take attachment.arrives)

/-- What a call for a command meets. -/
structure CommandCall where
  inspected : Except Failure Value
  binding : Except Failure StdinAttachment
  /-- Whether the attachment is found closed before the line is written. -/
  finished : Bool
  reattached : Except Failure StdinAttachment
  reconnected : Except Failure StdinAttachment

/-- A flag of the inspected container. -/
def containerFlag (names : List String) (inspect : Value) : Bool :=
  ((inspect.pointer (names.map String.toList)).bind Value.asBool).getD false

def checkStdin (inspect : Value) : Except Failure Unit := do
  refuseIf (Not (containerFlag ["State", "Running"] inspect)) "server container is not running"
  refuseIf (Not (containerFlag ["Config", "OpenStdin"] inspect))
    "server container was created without persistent stdin; recreate it before sending console commands"
  refuseIf (containerFlag ["Config", "StdinOnce"] inspect)
    ("legacy container has StdinOnce enabled; " ++
      "recreate it with OpenStdin=true and StdinOnce=false before sending console commands")

/-- The line of a command. -/
def commandLine (command : Text) : Bytes :=
  encodeUtf8 ((command.reverse.dropWhile fun character => ['\r', '\n'].contains character).reverse ++ ['\n'])

/-- The attachment that the line is first written to. -/
def prepareCommand (call : CommandCall) (id : Text) : Except Failure StdinAttachment := do
  Paths.validateId id
  let inspect <- call.inspected
  checkStdin inspect
  let binding <- call.binding
  if call.finished then withContext "reconnect finished container console attachment" call.reattached
  else return binding

/-- A failure as it is shown without its causes. -/
def outermost (describe : Errno -> String) : Failure -> String
  | .bail message => message
  | .io error => describe error
  | .context message _ => message

/-- What becomes of a command, and the bytes that the container gets on each
attachment. -/
def sendCommand (describe : Errno -> String) (call : CommandCall) (id command : Text) :
    Except Failure Unit × List Bytes :=
  let line := commandLine command
  match prepareCommand call id with
  | .error failure => (.error failure, [])
  | .ok attachment =>
      match writeConsoleLine attachment line with
      | (.ok _, arrived) => (.ok (), [arrived])
      | (.error firstError, arrived) =>
          match call.reconnected with
          | .error cause =>
              (.error (.context ("reconnect console after write failed: " ++ outermost describe firstError) cause),
                [arrived])
          | .ok reconnected =>
              let again := writeConsoleLine reconnected line
              (withContext "write console command after reconnect" again.1, [arrived, again.2])

/-! ## What one attachment brings -/

theorem commandLine_nonempty (command : Text) : commandLine command ≠ [] := by
  rw [commandLine, encodeUtf8_append]
  exact List.append_ne_nil_of_right_ne_nil _ (by decide)

/-- Everything is taken just when the writes come to an end. -/
theorem writeAll_taken (answers : List WriteAnswer) : forall line : Bytes,
    (writeAll answers line).2 <= line.length /\
      ((writeAll answers line).1 = .all <-> (writeAll answers line).2 = line.length) := by
  induction answers with
  | nil =>
      intro line
      cases line with
      | nil => exact ⟨Nat.le_refl 0, iff_of_true rfl rfl⟩
      | cons byte line => exact ⟨Nat.zero_le _, iff_of_false nofun nofun⟩
  | cons answer answers induction =>
      intro line
      cases line with
      | nil => cases answer <;> exact ⟨Nat.le_refl 0, iff_of_true rfl rfl⟩
      | cons byte line =>
          cases answer with
          | failed error => exact ⟨Nat.zero_le _, iff_of_false nofun nofun⟩
          | accepted count =>
              rw [writeAll]
              split
              · exact ⟨Nat.zero_le _, iff_of_false nofun nofun⟩
              · rcases induction ((byte :: line).drop count) with ⟨few, taken⟩
                have length : ((byte :: line).drop count).length = (byte :: line).length - count :=
                  List.length_drop
                dsimp only
                rw [taken]
                omega

namespace StdinAttachment

/-- All bytes of a line are taken. -/
def Takes (attachment : StdinAttachment) (line : Bytes) : Prop :=
  attachment.closed = false /\ (writeAll attachment.writes line).1 = .all

/-- The flush succeeds in time. -/
def Flushes (attachment : StdinAttachment) : Prop :=
  attachment.flush = some (.ok ())

/-- A line reaches the container as a whole. -/
def Brings (attachment : StdinAttachment) (line : Bytes) : Prop :=
  attachment.Takes line /\ (attachment.Flushes \/ line.length <= attachment.arrives)

/-- A line reaches the container at least in part. -/
def Begins (attachment : StdinAttachment) (line : Bytes) : Prop :=
  attachment.closed = false /\ 0 < (writeAll attachment.writes line).2 /\ 0 < attachment.arrives

end StdinAttachment

section Writing

variable {attachment : StdinAttachment} {line : Bytes}

theorem writeOutcome_ok {written : Written} {flush : Option (Except Errno Unit)} :
    writeOutcome written flush = .ok () <-> written = .all /\ flush = some (.ok ()) := by
  unfold writeOutcome
  split
  · exact iff_of_true rfl ⟨rfl, rfl⟩
  · exact iff_of_false nofun fun both => by cases both.2
  · exact iff_of_false nofun fun both => by cases both.1
  · exact iff_of_false nofun fun both => by cases both.2
  · exact iff_of_false nofun fun both => by cases both.1

theorem writeConsoleLine_flushed (takes : attachment.Takes line) (flushes : attachment.Flushes) :
    writeConsoleLine attachment line = (.ok (), line) := by
  have taken := (writeAll_taken attachment.writes line).2.mp takes.2
  rw [writeConsoleLine, if_neg (by rw [takes.1]; exact Bool.false_ne_true)]
  dsimp only
  rw [writeOutcome_ok.mpr ⟨takes.2, flushes⟩, taken, List.take_length]

/-- A failed write leaves what arrives of the bytes that were taken. -/
theorem writeConsoleLine_failed (failed : Not (attachment.Takes line /\ attachment.Flushes)) :
    (Exists fun failure => (writeConsoleLine attachment line).1 = .error failure) /\
      (writeConsoleLine attachment line).2 =
        if attachment.closed then [] else (line.take (writeAll attachment.writes line).2).take attachment.arrives := by
  unfold writeConsoleLine
  split
  · exact ⟨⟨_, rfl⟩, rfl⟩
  · next opened =>
      dsimp only
      split
      · next done answered =>
          have both := writeOutcome_ok.mp answered
          exact absurd ⟨⟨eq_false_of_ne_true opened, both.1⟩, both.2⟩ failed
      · exact ⟨⟨_, rfl⟩, rfl⟩

theorem writeConsoleLine_ok :
    (writeConsoleLine attachment line).1 = .ok () <-> attachment.Takes line /\ attachment.Flushes := by
  constructor
  · intro written
    by_contra failed
    rcases (writeConsoleLine_failed failed).1 with ⟨failure, ended⟩
    rw [written] at ended
    cases ended
  · rintro ⟨takes, flushes⟩
    rw [writeConsoleLine_flushed takes flushes]

theorem writeConsoleLine_whole (nonempty : line ≠ []) :
    (writeConsoleLine attachment line).2 = line <-> attachment.Brings line := by
  by_cases written : attachment.Takes line /\ attachment.Flushes
  · rw [writeConsoleLine_flushed written.1 written.2]
    exact iff_of_true rfl ⟨written.1, Or.inl written.2⟩
  · rw [(writeConsoleLine_failed written).2]
    have positive := List.length_pos_iff.mpr nonempty
    rcases writeAll_taken attachment.writes line with ⟨few, taken⟩
    cases closed : attachment.closed with
    | true =>
        rw [if_pos rfl]
        exact iff_of_false nonempty.symm fun brings => by
          rw [brings.1.1] at closed
          cases closed
    | false =>
        rw [if_neg Bool.false_ne_true, List.take_take, List.take_eq_self_iff]
        constructor
        · intro enough
          exact ⟨⟨closed, taken.mpr (by omega)⟩, Or.inr (by omega)⟩
        · rintro ⟨takes, flushes | arrives⟩
          · exact absurd ⟨takes, flushes⟩ written
          · have all := taken.mp takes.2
            omega

theorem writeConsoleLine_nothing (failed : Not (attachment.Takes line /\ attachment.Flushes)) (nonempty : line ≠ []) :
    (writeConsoleLine attachment line).2 = [] <-> Not (attachment.Begins line) := by
  rw [(writeConsoleLine_failed failed).2, StdinAttachment.Begins]
  have positive := List.length_pos_iff.mpr nonempty
  cases attachment.closed with
  | true => exact iff_of_true rfl fun begins => by cases begins.1
  | false =>
      rw [if_neg Bool.false_ne_true, List.take_take, List.take_eq_nil_iff]
      constructor
      · rintro (zero | empty) ⟨_, taken, arrives⟩
        · omega
        · exact nonempty empty
      · intro none
        by_contra some
        refine none ⟨rfl, ?_⟩
        omega

end Writing

/-! ## What a call brings -/

/-- The line reaches the container as a whole, and is nevertheless written
again with the same success. -/
structure SentAgain (call : CommandCall) (id : Text) (line : Bytes) (first again : StdinAttachment) : Prop where
  attached : prepareCommand call id = .ok first
  takes : first.Takes line
  unflushed : Not first.Flushes
  arrives : line.length <= first.arrives
  reconnected : call.reconnected = .ok again
  brings : again.Brings line

/-- A beginning of the line reaches the container before it is written again. -/
structure Spoilt (call : CommandCall) (id : Text) (line : Bytes) (first again : StdinAttachment) : Prop where
  attached : prepareCommand call id = .ok first
  failed : Not (first.Takes line /\ first.Flushes)
  begins : first.Begins line
  reconnected : call.reconnected = .ok again
  takes : again.Takes line
  flushes : again.Flushes

/-- The line is brought as a whole at most once, and once if the call succeeds. -/
def BroughtOnce (line : Bytes) (sent : Except Failure Unit × List Bytes) : Prop :=
  sent.2.count line <= 1 /\ (sent.1 = .ok () -> sent.2.count line = 1)

/-- Besides, a call that succeeds brings nothing else. -/
def BroughtAlone (line : Bytes) (sent : Except Failure Unit × List Bytes) : Prop :=
  BroughtOnce line sent /\ (sent.1 = .ok () -> sent.2.flatten = line)

section Calls

variable {describe : Errno -> String} {call : CommandCall} {id command : Text} {first again : StdinAttachment}

theorem sendCommand_refused {failure : Failure} (refused : prepareCommand call id = .error failure) :
    sendCommand describe call id command = (.error failure, []) := by
  unfold sendCommand
  rw [refused]

theorem sendCommand_first (attached : prepareCommand call id = .ok first) (takes : first.Takes (commandLine command))
    (flushes : first.Flushes) : sendCommand describe call id command = (.ok (), [commandLine command]) := by
  unfold sendCommand
  rw [attached]
  dsimp only
  rw [writeConsoleLine_flushed takes flushes]

/-- After a write that fails the call ends with the attachment made anew. -/
theorem sendCommand_failed (describe : Errno -> String) (attached : prepareCommand call id = .ok first)
    (failed : Not (first.Takes (commandLine command) /\ first.Flushes)) :
    ((Exists fun cause => call.reconnected = .error cause) /\
        (Exists fun failure => (sendCommand describe call id command).1 = .error failure) /\
        (sendCommand describe call id command).2 = [(writeConsoleLine first (commandLine command)).2]) \/
      Exists fun again => call.reconnected = .ok again /\
        sendCommand describe call id command =
          (withContext "write console command after reconnect" (writeConsoleLine again (commandLine command)).1,
            [(writeConsoleLine first (commandLine command)).2,
              (writeConsoleLine again (commandLine command)).2]) := by
  rcases (writeConsoleLine_failed failed).1 with ⟨firstError, ended⟩
  have shape : writeConsoleLine first (commandLine command) =
      (.error firstError, (writeConsoleLine first (commandLine command)).2) := by rw [← ended]
  unfold sendCommand
  rw [attached]
  dsimp only
  rw [shape]
  cases call.reconnected with
  | error cause => exact Or.inl ⟨⟨cause, rfl⟩, ⟨_, rfl⟩, rfl⟩
  | ok again => exact Or.inr ⟨again, rfl, rfl⟩

theorem count_pair (line first second : Bytes) :
    [first, second].count line = (if first = line then 1 else 0) + if second = line then 1 else 0 := by
  rw [List.count_cons, List.count_singleton, Nat.add_comm]
  simp only [beq_iff_eq]

theorem sentAgain_iff {line : Bytes} (attached : prepareCommand call id = .ok first)
    (failed : Not (first.Takes line /\ first.Flushes)) (reconnected : call.reconnected = .ok again) :
    (Exists fun first => Exists fun again => SentAgain call id line first again) <->
      first.Brings line /\ again.Brings line := by
  constructor
  · rintro ⟨other, another, sent⟩
    cases attached.symm.trans sent.attached
    cases reconnected.symm.trans sent.reconnected
    exact ⟨⟨sent.takes, Or.inr sent.arrives⟩, sent.brings⟩
  · rintro ⟨⟨takes, flushes | arrives⟩, brings⟩
    · exact absurd ⟨takes, flushes⟩ failed
    · exact ⟨first, again, attached, takes, fun flushes => failed ⟨takes, flushes⟩, arrives, reconnected, brings⟩

theorem spoilt_iff {line : Bytes} (attached : prepareCommand call id = .ok first)
    (failed : Not (first.Takes line /\ first.Flushes)) (reconnected : call.reconnected = .ok again) :
    (Exists fun first => Exists fun again => Spoilt call id line first again) <->
      first.Begins line /\ again.Takes line /\ again.Flushes := by
  constructor
  · rintro ⟨other, another, spoilt⟩
    cases attached.symm.trans spoilt.attached
    cases reconnected.symm.trans spoilt.reconnected
    exact ⟨spoilt.begins, spoilt.takes, spoilt.flushes⟩
  · rintro ⟨begins, takes, flushes⟩
    exact ⟨first, again, attached, failed, begins, reconnected, takes, flushes⟩

/-- Two attempts bring the line at most once, and once where the second is flushed, unless both bring it. -/
theorem broughtOnce_twice {line : Bytes} (nonempty : Not (line = [])) {sent : Except Failure Unit × List Bytes}
    (done : sent.1 = .ok () <-> again.Takes line /\ again.Flushes)
    (shape : sent.2 = [(writeConsoleLine first line).2, (writeConsoleLine again line).2]) :
    BroughtOnce line sent <-> Not (first.Brings line /\ again.Brings line) := by
  unfold BroughtOnce
  rw [done, shape, count_pair, ← writeConsoleLine_whole nonempty, ← writeConsoleLine_whole nonempty]
  by_cases early : (writeConsoleLine first line).2 = line
  · by_cases late : (writeConsoleLine again line).2 = line
    · rw [if_pos early, if_pos late]
      exact iff_of_false (fun both => by omega) fun never => never ⟨early, late⟩
    · rw [if_pos early, if_neg late]
      exact iff_of_true ⟨Nat.le_refl 1, fun _ => rfl⟩ fun both => late both.2
  · rw [if_neg early, Nat.zero_add]
    refine iff_of_true ⟨?_, fun flushed => if_pos ?_⟩ fun both => early both.1
    · split <;> decide
    · exact (writeConsoleLine_whole nonempty).mpr ⟨flushed.1, Or.inl flushed.2⟩

/-- What two attempts bring. -/
theorem sendCommand_twice {sent : Except Failure Unit × List Bytes} (attached : prepareCommand call id = .ok first)
    (failed : Not (first.Takes (commandLine command) /\ first.Flushes)) (reconnected : call.reconnected = .ok again)
    (shape : sent =
      (withContext "write console command after reconnect" (writeConsoleLine again (commandLine command)).1,
        [(writeConsoleLine first (commandLine command)).2, (writeConsoleLine again (commandLine command)).2])) :
    (BroughtOnce (commandLine command) sent <->
        Not (Exists fun first => Exists fun again => SentAgain call id (commandLine command) first again)) /\
      (BroughtAlone (commandLine command) sent <->
        Not (Exists fun first => Exists fun again => SentAgain call id (commandLine command) first again) /\
          Not (Exists fun first => Exists fun again => Spoilt call id (commandLine command) first again)) := by
  have nonempty := commandLine_nonempty command
  have done : sent.1 = .ok () <-> again.Takes (commandLine command) /\ again.Flushes := by
    rw [shape, withContext_eq_ok, writeConsoleLine_ok]
  have once := broughtOnce_twice nonempty done (congrArg Prod.snd shape)
  refine ⟨by rw [once, sentAgain_iff attached failed reconnected], ?_⟩
  unfold BroughtAlone
  rw [once, sentAgain_iff attached failed reconnected, spoilt_iff attached failed reconnected, done, shape]
  refine and_congr_right fun apart => ?_
  constructor
  · rintro alone ⟨begins, flushed⟩
    have joined := alone flushed
    rw [writeConsoleLine_flushed flushed.1 flushed.2] at joined
    have nothing : (writeConsoleLine first (commandLine command)).2 = [] := by simpa using joined
    exact (writeConsoleLine_nothing failed nonempty).mp nothing begins
  · intro clean flushed
    rw [writeConsoleLine_flushed flushed.1 flushed.2,
      (writeConsoleLine_nothing failed nonempty).mpr fun begins => clean ⟨begins, flushed⟩]
    simp

/-- Nothing is sent again where the first write succeeds or no second is made. -/
theorem brings_plainly {line : Bytes} {sent : Except Failure Unit × List Bytes} (once : BroughtOnce line sent)
    (alone : sent.1 = .ok () -> sent.2.flatten = line)
    (single : forall first again, prepareCommand call id = .ok first -> call.reconnected = .ok again ->
      first.Takes line /\ first.Flushes) :
    (BroughtOnce line sent <->
        Not (Exists fun first => Exists fun again => SentAgain call id line first again)) /\
      (BroughtAlone line sent <->
        Not (Exists fun first => Exists fun again => SentAgain call id line first again) /\
          Not (Exists fun first => Exists fun again => Spoilt call id line first again)) := by
  have neverAgain : Not (Exists fun first => Exists fun again => SentAgain call id line first again) := by
    rintro ⟨first, again, sent⟩
    exact sent.unflushed (single first again sent.attached sent.reconnected).2
  have neverSpoilt : Not (Exists fun first => Exists fun again => Spoilt call id line first again) := by
    rintro ⟨first, again, spoilt⟩
    exact spoilt.failed (single first again spoilt.attached spoilt.reconnected)
  exact ⟨iff_of_true once neverAgain, iff_of_true ⟨once, alone⟩ ⟨neverAgain, neverSpoilt⟩⟩

/-- When a command is brought once, and when it is brought alone. -/
theorem sendCommand_brings (describe : Errno -> String) (call : CommandCall) (id command : Text) :
    (BroughtOnce (commandLine command) (sendCommand describe call id command) <->
        Not (Exists fun first => Exists fun again => SentAgain call id (commandLine command) first again)) /\
      (BroughtAlone (commandLine command) (sendCommand describe call id command) <->
        Not (Exists fun first => Exists fun again => SentAgain call id (commandLine command) first again) /\
          Not (Exists fun first => Exists fun again => Spoilt call id (commandLine command) first again)) := by
  cases attached : prepareCommand call id with
  | error failure =>
      rw [sendCommand_refused attached]
      refine brings_plainly ⟨Nat.zero_le 1, nofun⟩ nofun fun first again found => ?_
      rw [attached] at found
      cases found
  | ok first =>
      by_cases written : first.Takes (commandLine command) /\ first.Flushes
      · rw [sendCommand_first attached written.1 written.2]
        refine brings_plainly ?_ (fun _ => List.flatten_singleton) fun other again found _ => ?_
        · unfold BroughtOnce
          rw [List.count_singleton_self]
          exact ⟨Nat.le_refl 1, fun _ => rfl⟩
        · cases attached.symm.trans found
          exact written
      · rcases sendCommand_failed describe attached written with
          ⟨⟨cause, broken⟩, ⟨failure, ended⟩, brought⟩ | ⟨again, reconnected, sent⟩
        · refine brings_plainly ?_ (by rw [ended]; exact nofun) fun other again _ found => ?_
          · unfold BroughtOnce
            rw [brought, ended]
            exact ⟨List.count_le_length, nofun⟩
          · rw [broken] at found
            cases found
        · exact sendCommand_twice attached written reconnected sent

/-- A line that has arrived is written again when only its flush has failed. -/
def unflushedCall : CommandCall where
  inspected := .ok (.object [("State".toList, .object [("Running".toList, .bool true)]),
    ("Config".toList, .object [("OpenStdin".toList, .bool true)])])
  binding := .ok { closed := false, writes := [.accepted 5], flush := none, arrives := 5 }
  finished := false
  reattached := .error (.bail "")
  reconnected := .ok { closed := false, writes := [.accepted 5], flush := some (.ok ()), arrives := 5 }

/-- The command of that call succeeds and is brought twice. -/
theorem unflushedCall_brings_twice :
    sendCommand (fun _ => "") unflushedCall ['a'] "save".toList =
        (.ok (), [commandLine "save".toList, commandLine "save".toList]) /\
      Not (BroughtOnce (commandLine "save".toList)
        (sendCommand (fun _ => "") unflushedCall ['a'] "save".toList)) := by
  have sent : sendCommand (fun _ => "") unflushedCall ['a'] "save".toList =
      (.ok (), [commandLine "save".toList, commandLine "save".toList]) := by
    decide
  rw [sent]
  refine ⟨rfl, fun once => ?_⟩
  exact absurd once.1 (by decide)

end Calls

end Console
end Agapornis
