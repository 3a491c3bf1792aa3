import Agapornis.Console.Decoder
import Agapornis.Foundations.Numerals
import Agapornis.Security.Protection
import Mathlib.Order.Lattice
import Mathlib.Data.List.Lattice

namespace Agapornis
namespace Console

open Foundations
open Security

/-!
# Following the log of a container

A reader attaches to the log again and again.  It remembers the latest timestamp
of the lines that it has published, and which texts it has published with that
timestamp; every new attachment asks for the log from that second on and skips
the lines that this memory, as it was when the attachment began, knows already.

A line that is not skipped is prepared, which may hold it back, and published.
-/

/-- What the reader uses of instants in time. -/
structure Chrono (Instant : Type) where
  parseFromRfc3339 : Text -> Option Instant
  timestamp : Instant -> Int

inductive LogSource where
  | stdOut
  | stdErr
  | console
  deriving DecidableEq, Repr

/-- An entry of a container's log: Docker writes the time before the text and a
line feed behind it. -/
structure LogEntry (Instant : Type) where
  source : LogSource
  time : Instant
  stamp : Bytes
  text : Bytes
  deriving DecidableEq, Repr

namespace LogEntry

variable {Instant : Type}

def message (entry : LogEntry Instant) : Bytes :=
  entry.stamp ++ 32 :: entry.text ++ [10]

def output (entry : LogEntry Instant) : LogOutput :=
  match entry.source with
  | .stdOut => .stdOut entry.message
  | .stdErr => .stdErr entry.message
  | .console => .console entry.message

/-- The lines that a reader makes of an entry. -/
def lines (entry : LogEntry Instant) (maximum : Nat) : List Text :=
  (({} : LineBuffer).push entry.message maximum).1

end LogEntry

variable {Instant : Type}

def splitDockerTimestamp (chrono : Chrono Instant) (line : Text) : Option Instant × Text :=
  match Text.splitOnce ' ' line with
  | none => (none, line)
  | some (candidate, output) =>
      match chrono.parseFromRfc3339 candidate with
      | some timestamp => (some timestamp, output)
      | none => (none, line)

/-- The second from which an attachment asks for the log. -/
def dockerSinceTimestamp (chrono : Chrono Instant) (timestamp : Instant) : Int :=
  min (max (chrono.timestamp timestamp) 0) 2147483647

/-- The memory of a reader. -/
structure Cursor (Instant : Type) where
  cursor : Option Instant := none
  cursorLines : List Text := []
  deriving DecidableEq, Repr

/-- A line, and the number of the entry that ended it. -/
structure NumberedLine where
  entry : Option Nat
  text : Text
  deriving DecidableEq, Repr

/-! ## Publishing a line -/

/-- The settings of the console; none is read as zero from the environment. -/
structure ConsoleSettings where
  limits : ProtectionLimits := {}
  maxLineLength : Nat := 16384
  positive : 0 < limits.consoleLinesPerSecond := by decide

def utf8Len (text : Text) : Nat :=
  (text.map Char.utf8Size).sum

/-- The longest beginning of a text that has no more than so many bytes. -/
def floorCharBoundary : Nat -> Text -> Text
  | _, [] => []
  | maximum, character :: rest =>
      if character.utf8Size <= maximum then
        character :: floorCharBoundary (maximum - character.utf8Size) rest
      else []

def limitedLine (settings : ConsoleSettings) (line : Text) : Text :=
  if settings.maxLineLength < utf8Len line then
    floorCharBoundary settings.maxLineLength line ++ truncationSuffix
  else line

/-- What is published in the place of a line, by what is decided about it. -/
def prepareLine (settings : ConsoleSettings) (line : Text) : LineDecision -> Option Text
  | .allow => some (limitedLine settings line)
  | .notify => some ("[agent] Console output throttled above ".toList ++
      Text.decimal settings.limits.consoleLinesPerSecond ++ " lines/second.".toList)
  | .trip => some ("[agent] Sustained console flood detected. Output remains throttled to " ++
      "protect the control plane.").toList
  | .suppress => none

/-- What is known of a server's lines: their rate, how many were counted for it,
and what was published. -/
structure Outlet where
  rate : Option ConsoleRate := none
  observed : Nat := 0
  published : List NumberedLine := []
  deriving DecidableEq, Repr

/-- Prepare a line and publish what becomes of it; the clock tells the time of
every line that is counted.  Notices stand for no entry. -/
def publishLineWhenActive (settings : ConsoleSettings) (clock : Nat -> Nat) (outlet : Outlet)
    (line : NumberedLine) : Outlet :=
  let observed := ConsoleRate.observe settings.limits outlet.rate (clock outlet.observed)
  let entry := if observed.1 = .allow then line.entry else none
  let prepared := prepareLine settings line.text observed.1
  { rate := some observed.2
    observed := outlet.observed + 1
    published := outlet.published ++ prepared.toList.map (NumberedLine.mk entry) }

/-! ## Reading -/

/-- The reader's memory, and where its lines go. -/
structure ReadLoop (Instant Sink : Type) where
  cursor : Cursor Instant := {}
  sink : Sink
  deriving DecidableEq, Repr

section Reading

variable [LinearOrder Instant] {Sink : Type}

/-- A line is known from an earlier attachment. -/
def isReplayed (chrono : Chrono Instant) (cutoff : Cursor Instant) (raw : Text) : Bool :=
  match splitDockerTimestamp chrono raw, cutoff.cursor with
  | (some timestamp, line), some cutoffTime =>
      timestamp < cutoffTime || timestamp = cutoffTime && line ∈ cutoff.cursorLines
  | _, _ => false

/-- Remember a line. -/
def Cursor.note (cursor : Cursor Instant) (timestamp : Option Instant) (line : Text) : Cursor Instant :=
  match timestamp, cursor.cursor with
  | none, _ => cursor
  | some timestamp, none => { cursor := some timestamp, cursorLines := [line] }
  | some timestamp, some current =>
      if timestamp < current then cursor
      else if timestamp = current then { cursor with cursorLines := cursor.cursorLines.insert line }
      else { cursor := some timestamp, cursorLines := [line] }

/-- Publish a line that is not known; the function that does so is given. -/
def processDockerLine (publish : Sink -> NumberedLine -> Sink) (chrono : Chrono Instant)
    (cutoff : Cursor Instant) (reader : ReadLoop Instant Sink) (entry : Option Nat) (raw : Text) :
    ReadLoop Instant Sink :=
  if isReplayed chrono cutoff raw then reader
  else
    let split := splitDockerTimestamp chrono raw
    { cursor := reader.cursor.note split.1 split.2
      sink := publish reader.sink ⟨entry, split.2⟩ }

/-- One connection to the log: how many entries were written when it was made,
and how many it delivers before it ends. -/
structure Attachment where
  written : Nat
  delivered : Nat
  deriving DecidableEq, Repr

/-- What Docker delivers: from a second on, or without one the last 200 entries
that are written and what follows them. -/
def followConsoleLogs (chrono : Chrono Instant) (log : List (LogEntry Instant)) (since : Option Int)
    (written : Nat) : List (LogEntry Instant × Nat) :=
  match since with
  | none => log.zipIdx.drop (written - 200)
  | some second => log.zipIdx.filter fun item => second <= chrono.timestamp item.1.time

/-- Read one entry of an attachment. -/
def readEntry (publish : Sink -> NumberedLine -> Sink) (chrono : Chrono Instant) (maximum : Nat)
    (cutoff : Cursor Instant) (state : ReadLoop Instant Sink × ConsoleOutputDecoder)
    (item : LogEntry Instant × Nat) : ReadLoop Instant Sink × ConsoleOutputDecoder :=
  let pushed := state.2.push item.1.output maximum
  (pushed.1.foldl (fun reader raw => processDockerLine publish chrono cutoff reader (some item.2) raw)
    state.1, pushed.2)

def attach (publish : Sink -> NumberedLine -> Sink) (chrono : Chrono Instant) (maximum : Nat)
    (log : List (LogEntry Instant)) (reader : ReadLoop Instant Sink) (attachment : Attachment) :
    ReadLoop Instant Sink :=
  let logs := followConsoleLogs chrono log (reader.cursor.cursor.map (dockerSinceTimestamp chrono))
    attachment.written
  let read := (logs.take attachment.delivered).foldl (readEntry publish chrono maximum reader.cursor)
    (reader, {})
  read.2.finish.foldl (fun later raw => processDockerLine publish chrono reader.cursor later none raw) read.1

def readLoop (publish : Sink -> NumberedLine -> Sink) (chrono : Chrono Instant) (maximum : Nat)
    (log : List (LogEntry Instant)) (sink : Sink) (attachments : List Attachment) :
    ReadLoop Instant Sink :=
  attachments.foldl (attach publish chrono maximum log) { sink := sink }

end Reading

/-- The decoder leaves room for the mark of a line that is cut off. -/
def ConsoleSettings.maximum (settings : ConsoleSettings) : Nat :=
  settings.maxLineLength - utf8Len truncationSuffix

/-- What the hub publishes of a log that is read in several attachments, when the
rate of the server's lines is as given at first. -/
def published [LinearOrder Instant] (settings : ConsoleSettings) (clock : Nat -> Nat) (chrono : Chrono Instant)
    (log : List (LogEntry Instant)) (rate : Option ConsoleRate) (attachments : List Attachment) :
    List NumberedLine :=
  (readLoop (publishLineWhenActive settings clock) chrono settings.maximum log { rate := rate }
    attachments).sink.published

end Console
end Agapornis
