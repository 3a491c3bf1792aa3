import Agapornis.Foundations.Table
import Agapornis.Foundations.Text

namespace Agapornis
namespace Console

open Foundations

/-!
# The history of the consoles

The history cache keeps the last lines of every console within a number of
lines and of bytes a console, and within a budget for all of them.  Where the
budget is exceeded it forgets whole histories, the one used longest ago first,
and then the oldest lines of the console that has just been written to.

Counters of bytes are natural numbers; the sequence of a line and the clock
stop at the largest machine word as the code's saturating additions do.
-/

/-- A line is known to the history by its length in bytes. -/
class LineText (Line : Type) where
  len : Line -> Nat

/-- The length of a text in UTF-8. -/
instance : LineText Text where
  len text := (text.map fun character => character.utf8Size).sum

def consoleHistoryLines : Nat := 200

def consoleHistoryBytes : Nat := 64 * 1024

/-- The largest value of a sequence and of the clock. -/
def largestWord : Nat := 2 ^ 64 - 1

/-- The next word, which stops at the largest. -/
def nextWord (word : Nat) : Nat :=
  min (word + 1) largestWord

structure ConsoleEntry (Line : Type) where
  sequence : Nat
  line : Line
  deriving DecidableEq, Repr

variable {Line : Type} [LineText Line]

/-- What an entry costs: its own size and that of its text. -/
def entryCharge (entry : ConsoleEntry Line) : Nat :=
  24 + LineText.len entry.line

structure ConsoleHistory (Line : Type) where
  lines : List (ConsoleEntry Line) := []
  contentBytes : Nat := 0
  chargedBytes : Nat := 0
  nextSequence : Nat := 0
  lastAccess : Nat := 0
  deriving DecidableEq, Repr

structure HistoryCache (Line : Type) where
  entries : Table Text (ConsoleHistory Line) := ∅
  chargedBytes : Nat := 0
  maximumBytes : Nat
  clock : Nat := 0

/-- Drop lines from the front while there is too much. -/
def popWhile (tooMuch : ConsoleHistory Line -> Nat -> Bool) :
    Nat -> ConsoleHistory Line -> Nat -> ConsoleHistory Line × Nat
  | 0, history, charged => (history, charged)
  | fuel + 1, history, charged =>
      if tooMuch history charged then
        match history.lines with
        | [] => (history, charged)
        | removed :: rest =>
            popWhile tooMuch fuel
              { history with
                lines := rest
                contentBytes := history.contentBytes - LineText.len removed.line
                chargedBytes := history.chargedBytes - entryCharge removed }
              (charged - entryCharge removed)
      else (history, charged)

/-- A history exceeds what one console may keep. -/
def overLimits (history : ConsoleHistory Line) (_ : Nat) : Bool :=
  consoleHistoryLines < history.lines.length || consoleHistoryBytes < history.contentBytes

namespace HistoryCache

def withMaximum (maximumBytes : Nat) : HistoryCache Line where
  maximumBytes := max maximumBytes 1

def remove (cache : HistoryCache Line) (id : Text) : HistoryCache Line :=
  match cache.entries.lookup id with
  | none => cache
  | some history =>
      { cache with
        entries := cache.entries.erase id
        chargedBytes := cache.chargedBytes - history.chargedBytes }

/-- Forget whole histories while the budget is exceeded, the one used longest ago first. -/
def evictOthers (guarded : Text) : Nat -> HistoryCache Line -> HistoryCache Line
  | 0, cache => cache
  | fuel + 1, cache =>
      if cache.maximumBytes < cache.chargedBytes && 1 < Table.size cache.entries then
        match Table.leastOther ConsoleHistory.lastAccess guarded cache.entries with
        | none => cache
        | some oldest => evictOthers guarded fuel (cache.remove oldest)
      else cache

/-- Drop the oldest lines of the guarded history while the budget is exceeded. -/
def trimGuarded (cache : HistoryCache Line) (guarded : Text) : HistoryCache Line :=
  match cache.entries.lookup guarded with
  | none => cache
  | some history =>
      let trimmed := popWhile (fun _ charged => decide (cache.maximumBytes < charged))
        history.lines.length history cache.chargedBytes
      { cache with
        entries := cache.entries.insert guarded trimmed.1
        chargedBytes := trimmed.2 }

def evictToBudget (cache : HistoryCache Line) (guarded : Text) : HistoryCache Line :=
  (evictOthers guarded (Table.size cache.entries) cache).trimGuarded guarded

/-- The entry that the next line of a console becomes. -/
def nextEntry (cache : HistoryCache Line) (id : Text) (line : Line) : ConsoleEntry Line where
  sequence := nextWord ((cache.entries.lookup id).getD {}).nextSequence
  line := line

/-- The history of a console with one more line at its end. -/
def extended (cache : HistoryCache Line) (id : Text) (line : Line) : ConsoleHistory Line :=
  let history := (cache.entries.lookup id).getD {}
  let entry := cache.nextEntry id line
  { lines := history.lines ++ [entry]
    contentBytes := history.contentBytes + LineText.len line
    chargedBytes := history.chargedBytes + entryCharge entry
    nextSequence := entry.sequence
    lastAccess := nextWord cache.clock }

/-- Add a line to its console and bring that console within its own limits. -/
def addLine (cache : HistoryCache Line) (id : Text) (line : Line) : HistoryCache Line :=
  let history := cache.extended id line
  let trimmed := popWhile overLimits history.lines.length history
    (cache.chargedBytes + entryCharge (cache.nextEntry id line))
  { cache with
    entries := cache.entries.insert id trimmed.1
    chargedBytes := trimmed.2
    clock := nextWord cache.clock }

def push (cache : HistoryCache Line) (id : Text) (line : Line) :
    ConsoleEntry Line × HistoryCache Line :=
  (cache.nextEntry id line, (cache.addLine id line).evictToBudget id)

/-- The lines of a console and the sequence of the last of them. -/
def snapshot (cache : HistoryCache Line) (id : Text) :
    (List Line × Nat) × HistoryCache Line :=
  let cache := { cache with clock := nextWord cache.clock }
  match cache.entries.lookup id with
  | none => (([], 0), cache)
  | some history =>
      ((history.lines.map ConsoleEntry.line, (history.lines.getLast?.map ConsoleEntry.sequence).getD 0),
        { cache with
          entries := cache.entries.insert id { history with lastAccess := cache.clock } })

end HistoryCache

/-- The filter of a live console stream. -/
def passes (replayedThrough : Nat) (entry : ConsoleEntry Line) : Bool :=
  replayedThrough < entry.sequence

end Console
end Agapornis
