import Agapornis.Console.Reattachment
import Agapornis.Security.LineLimits

namespace Agapornis
namespace Console

open Foundations
open Security

/-!
# Reading a log in several attachments under a throttle

The reader says which lines of a log are counted, and the throttle which of these
are published.  Both have a part in whether a log is read once: a reconnect brings
what was missed all at once, and so the throttle may hold back what it would have
let pass line by line.
-/

variable {Instant : Type}

section HandingOn

variable {Sink : Type}

/-- A reader that publishes what another one has kept. -/
def ReadLoop.handOn (publish : Sink -> NumberedLine -> Sink) (start : Sink) (kept : Kept Instant) :
    ReadLoop Instant Sink :=
  { cursor := kept.cursor
    sink := kept.sink.foldl publish start }

variable [LinearOrder Instant] (publish : Sink -> NumberedLine -> Sink) (start : Sink)

theorem processDockerLine_handOn (chrono : Chrono Instant) (cutoff : Cursor Instant) (kept : Kept Instant)
    (entry : Option Nat) (raw : Text) :
    processDockerLine publish chrono cutoff (kept.handOn publish start) entry raw =
      (processDockerLine keepLine chrono cutoff kept entry raw).handOn publish start := by
  rw [processDockerLine, processDockerLine]
  split
  · rfl
  · dsimp only [ReadLoop.handOn, keepLine]
    rw [List.foldl_append]
    rfl

theorem readEntry_handOn (chrono : Chrono Instant) (maximum : Nat) (cutoff : Cursor Instant)
    (state : Kept Instant × ConsoleOutputDecoder) (item : LogEntry Instant × Nat) :
    readEntry publish chrono maximum cutoff (state.1.handOn publish start, state.2) item =
      ((readEntry keepLine chrono maximum cutoff state item).1.handOn publish start,
        (readEntry keepLine chrono maximum cutoff state item).2) := by
  rw [readEntry, readEntry]
  apply Prod.ext
  · exact List.foldl_hom (ReadLoop.handOn publish start) fun kept raw =>
      processDockerLine_handOn publish start chrono cutoff kept (some item.2) raw
  · rfl

theorem readEntries_handOn (chrono : Chrono Instant) (maximum : Nat) (cutoff : Cursor Instant)
    (items : List (LogEntry Instant × Nat)) : forall state : Kept Instant × ConsoleOutputDecoder,
    items.foldl (readEntry publish chrono maximum cutoff) (state.1.handOn publish start, state.2) =
      ((items.foldl (readEntry keepLine chrono maximum cutoff) state).1.handOn publish start,
        (items.foldl (readEntry keepLine chrono maximum cutoff) state).2) := by
  induction items with
  | nil => exact fun state => rfl
  | cons item rest induction =>
      intro state
      rw [List.foldl_cons, List.foldl_cons, readEntry_handOn, induction]

theorem attach_handOn (chrono : Chrono Instant) (maximum : Nat) (log : List (LogEntry Instant))
    (kept : Kept Instant) (attachment : Attachment) :
    attach publish chrono maximum log (kept.handOn publish start) attachment =
      (attach keepLine chrono maximum log kept attachment).handOn publish start := by
  have cursor : (kept.handOn publish start).cursor = kept.cursor := rfl
  rw [attach, attach, cursor, readEntries_handOn publish start chrono maximum kept.cursor _ (kept, {})]
  exact List.foldl_hom (ReadLoop.handOn publish start) fun kept raw =>
    processDockerLine_handOn publish start chrono _ kept none raw

/-- What a reader publishes is what becomes of the lines that it hands on. -/
theorem readLoop_handOn (chrono : Chrono Instant) (maximum : Nat) (log : List (LogEntry Instant))
    (attachments : List Attachment) :
    readLoop publish chrono maximum log start attachments =
      (readLoop keepLine chrono maximum log [] attachments).handOn publish start := by
  rw [readLoop, readLoop]
  have begun : ({ sink := start } : ReadLoop Instant Sink) =
      ReadLoop.handOn publish start { sink := [] } := rfl
  rw [begun]
  exact List.foldl_hom (ReadLoop.handOn publish start) fun kept attachment =>
    attach_handOn publish start chrono maximum log kept attachment

end HandingOn

/-! ## Lines under the throttle -/

/-- A line that is allowed. -/
def limited (settings : ConsoleSettings) (line : NumberedLine) : NumberedLine :=
  ⟨line.entry, limitedLine settings line.text⟩

/-- How many of the published lines are of an entry. -/
def ofEntries (lines : List NumberedLine) : Nat :=
  lines.countP fun line => line.entry.isSome

section Throttle

variable {settings : ConsoleSettings} {clock : Nat -> Nat}

theorem publish_of_allowed {outlet : Outlet} {line : NumberedLine}
    (allowed : (ConsoleRate.observe settings.limits outlet.rate (clock outlet.observed)).1 = .allow) :
    (publishLineWhenActive settings clock outlet line).published =
      outlet.published ++ [limited settings line] := by
  rw [publishLineWhenActive]
  dsimp only
  rw [allowed, if_pos rfl]
  rfl

/-- A line that is not allowed leaves at most a notice. -/
theorem publish_of_withheld {outlet : Outlet} {line : NumberedLine}
    (withheld : Not ((ConsoleRate.observe settings.limits outlet.rate (clock outlet.observed)).1 = .allow)) :
    ofEntries (publishLineWhenActive settings clock outlet line).published = ofEntries outlet.published := by
  rw [publishLineWhenActive]
  dsimp only
  rw [if_neg withheld, ofEntries, List.countP_append, List.countP_map]
  exact Nat.add_eq_left.mpr (List.countP_eq_zero.mpr fun text _ => nofun)

theorem publish_window (outlet : Outlet) (line : NumberedLine) :
    (publishLineWhenActive settings clock outlet line).rate.map ConsoleRate.window =
      some ⟨(OpenWindow.enter (outlet.rate.map ConsoleRate.window) (clock outlet.observed)).started,
        (OpenWindow.enter (outlet.rate.map ConsoleRate.window) (clock outlet.observed)).count + 1⟩ :=
  congrArg some (ConsoleRate.observe_window settings.limits outlet.rate (clock outlet.observed)).1

/-- Lines within the limit are all published. -/
theorem published_of_within (lines : List NumberedLine) : forall {outlet : Outlet},
    WithinLimit settings.limits.consoleLinesPerSecond (outlet.rate.map ConsoleRate.window)
      (lineTimes clock outlet.observed lines.length) ->
    (lines.foldl (publishLineWhenActive settings clock) outlet).published =
      outlet.published ++ lines.map (limited settings) := by
  induction lines with
  | nil => exact fun _ => (List.append_nil _).symm
  | cons line rest induction =>
      intro outlet within
      rw [List.length_cons, lineTimes_succ] at within
      rcases within with ⟨below, later⟩
      have allowed := (ConsoleRate.observe_window settings.limits outlet.rate (clock outlet.observed)).2.mpr below
      rw [<- publish_window outlet line] at later
      rw [List.foldl_cons, induction later, publish_of_allowed allowed, List.append_assoc]
      rfl

theorem ofEntries_publish (settings : ConsoleSettings) (clock : Nat -> Nat) (outlet : Outlet)
    (line : NumberedLine) :
    ofEntries (publishLineWhenActive settings clock outlet line).published <=
      ofEntries outlet.published + 1 := by
  by_cases allowed : (ConsoleRate.observe settings.limits outlet.rate (clock outlet.observed)).1 = .allow
  · rw [publish_of_allowed allowed, ofEntries, List.countP_append]
    exact Nat.add_le_add_left List.countP_le_length _
  · rw [publish_of_withheld allowed]
    exact Nat.le_succ _

theorem ofEntries_foldl (settings : ConsoleSettings) (clock : Nat -> Nat) (lines : List NumberedLine) :
    forall outlet : Outlet, ofEntries (lines.foldl (publishLineWhenActive settings clock) outlet).published <=
      ofEntries outlet.published + lines.length := by
  induction lines with
  | nil => exact fun outlet => le_rfl
  | cons line rest induction =>
      intro outlet
      have later := induction (publishLineWhenActive settings clock outlet line)
      have one := ofEntries_publish settings clock outlet line
      rw [List.foldl_cons, List.length_cons]
      omega

/-- Lines that are all published are within the limit. -/
theorem within_of_published (lines : List NumberedLine) : forall {outlet : Outlet},
    ofEntries outlet.published + lines.length <=
      ofEntries (lines.foldl (publishLineWhenActive settings clock) outlet).published ->
    WithinLimit settings.limits.consoleLinesPerSecond (outlet.rate.map ConsoleRate.window)
      (lineTimes clock outlet.observed lines.length) := by
  induction lines with
  | nil => exact fun _ => trivial
  | cons line rest induction =>
      intro outlet all
      rw [List.foldl_cons, List.length_cons] at all
      have most := ofEntries_foldl settings clock rest
        (publishLineWhenActive settings clock outlet line)
      have one := ofEntries_publish settings clock outlet line
      have allowed : (ConsoleRate.observe settings.limits outlet.rate (clock outlet.observed)).1 = .allow := by
        by_contra withheld
        have same := @publish_of_withheld settings clock outlet line withheld
        omega
      have later := @induction (publishLineWhenActive settings clock outlet line) (by omega)
      rw [publish_window] at later
      rw [List.length_cons, lineTimes_succ]
      exact ⟨(ConsoleRate.observe_window settings.limits outlet.rate (clock outlet.observed)).2.mp allowed,
        later⟩

end Throttle

/-! ## Reading once -/

section Once

variable [LinearOrder Instant]

/-- However often the reader attaches again after the first entry, the hub
publishes what it publishes of one uninterrupted attachment, each line once and
in order.  Lines are told apart by the numbers of their entries; the two clocks
tell when the lines come in the uninterrupted attachment, and when over all. -/
def ReadOnce (settings : ConsoleSettings) (chrono : Chrono Instant) (log : List (LogEntry Instant))
    (rate : Option ConsoleRate) (steady clock : Nat -> Nat) : Prop :=
  forall (written first : Nat) (middle : List Attachment) (last : Attachment),
    written <= log.length -> 0 < first -> log.length <= last.delivered ->
      published settings clock chrono log rate (⟨written, first⟩ :: (middle ++ [last])) =
        published settings steady chrono log rate [⟨written, log.length⟩]

/-- Times that come one after the other. -/
def Forward (clock : Nat -> Nat) : Prop :=
  forall one other, one <= other -> clock one <= clock other

/-- All lines of a log are within the limit. -/
def LogWithin (settings : ConsoleSettings) (log : List (LogEntry Instant)) (rate : Option ConsoleRate)
    (clock : Nat -> Nat) : Prop :=
  WithinLimit settings.limits.consoleLinesPerSecond (rate.map ConsoleRate.window)
    (lineTimes clock 0 (rawLines settings.maximum log).length)

variable {settings : ConsoleSettings} {chrono : Chrono Instant} {log : List (LogEntry Instant)}
  {rate : Option ConsoleRate} {steady clock : Nat -> Nat}

theorem published_eq (attachments : List Attachment) :
    published settings clock chrono log rate attachments =
      ((readLoop keepLine chrono settings.maximum log [] attachments).sink.foldl
        (publishLineWhenActive settings clock) { rate := rate }).published := by
  rw [published, readLoop_handOn]
  rfl

omit [LinearOrder Instant] in
theorem length_pieces_drop (maximum : Nat) (log : List (LogEntry Instant)) (count : Nat) :
    (pieces maximum (log.zipIdx.drop count)).length <= (rawLines maximum log).length := by
  have all := pieces_snd maximum log.zipIdx
  rw [List.zipIdx_map_fst] at all
  rw [<- all, List.length_map]
  exact ((List.drop_sublist count log.zipIdx).flatMap _).length_le

omit [LinearOrder Instant] in
theorem length_pieces (maximum : Nat) (log : List (LogEntry Instant)) :
    (pieces maximum log.zipIdx).length = (rawLines maximum log).length := by
  have all := pieces_snd maximum log.zipIdx
  rw [List.zipIdx_map_fst] at all
  rw [<- all, List.length_map]

omit [LinearOrder Instant] in
/-- Of a log within the limit the lines that are counted are published. -/
theorem published_pieces (within : LogWithin settings log rate clock) (count : Nat) :
    (((pieces settings.maximum (log.zipIdx.drop count)).map (publication chrono)).foldl
        (publishLineWhenActive settings clock) { rate := rate }).published =
      ((pieces settings.maximum (log.zipIdx.drop count)).map (publication chrono)).map
        (limited settings) := by
  unfold LogWithin at within
  have few := within.take (length_pieces_drop settings.maximum log count)
  rw [<- List.length_map (publication chrono)] at few
  exact @published_of_within settings clock _ { rate := rate } few

/-- An uninterrupted attachment within the limit publishes every line. -/
theorem published_single (within : LogWithin settings log rate steady) (written : Nat) :
    published settings steady chrono log rate [⟨written, log.length⟩] =
      ((pieces settings.maximum (log.zipIdx.drop (written - 200))).map (publication chrono)).map
        (limited settings) := by
  rw [published_eq, (readLoop_single chrono settings.maximum written log).kept, published_pieces within]

/-- A log that can be taken up again anywhere and stays within the limit is read once. -/
theorem readOnce_of_within (resumable : Resumable chrono settings.maximum log)
    (calm : LogWithin settings log rate steady) (within : LogWithin settings log rate clock) :
    ReadOnce settings chrono log rate steady clock := by
  intro written first middle last bounded positive all
  rw [published_single calm, published_eq, kept_of_resumable resumable bounded positive middle all,
    published_pieces within]

/-- A log that is read once stays within the limit when the uninterrupted attachment does. -/
theorem within_of_readOnce (resumable : Resumable chrono settings.maximum log)
    (calm : LogWithin settings log rate steady) (once : ReadOnce settings chrono log rate steady clock) :
    LogWithin settings log rate clock := by
  have same := once 0 (log.length + 1) [] ⟨0, log.length⟩ (Nat.zero_le _) (Nat.succ_pos _) le_rfl
  rw [published_single calm, published_eq,
    kept_of_resumable resumable (Nat.zero_le _) (Nat.succ_pos _) [] le_rfl] at same
  have counted := congrArg ofEntries same
  have entries : forall pieces : List (Nat × Text),
      ofEntries ((pieces.map (publication chrono)).map (limited settings)) = pieces.length := by
    intro pieces
    rw [ofEntries, List.countP_map, List.countP_map]
    exact List.countP_eq_length.mpr fun piece _ => rfl
  rw [entries] at counted
  have enough : ofEntries ({ rate := rate } : Outlet).published +
      ((pieces settings.maximum (log.zipIdx.drop (0 - 200))).map (publication chrono)).length <=
        (pieces settings.maximum (log.zipIdx.drop (0 - 200))).length := by
    rw [List.length_map]
    exact (Nat.zero_add _).le
  rw [<- counted] at enough
  have within := within_of_published _ enough
  have whole : (pieces settings.maximum (log.zipIdx.drop (0 - 200))).length =
      (rawLines settings.maximum log).length := length_pieces settings.maximum log
  rw [List.length_map, whole] at within
  exact within

/-- Times a second apart, behind the window that is open. -/
def slowly (rate : Option ConsoleRate) (index : Nat) : Nat :=
  (rate.map ConsoleRate.started).getD 0 + seconds (index + 1)

theorem forward_slowly (rate : Option ConsoleRate) : Forward (slowly rate) := by
  intro one other before
  simp only [slowly, seconds]
  omega

theorem within_slowly (settings : ConsoleSettings) (rate : Option ConsoleRate) (count : Nat) :
    WithinLimit settings.limits.consoleLinesPerSecond (rate.map ConsoleRate.window)
      (lineTimes (slowly rate) 0 count) := by
  apply WithinLimit.of_apart settings.positive
  · intro index
    simp only [slowly, seconds]
    omega
  · intro opened same
    rcases Option.map_eq_some_iff.mp same with ⟨rated, found, window⟩
    subst window found
    exact le_rfl

/-- When the lines are a second apart only the reader decides what is published. -/
theorem resumable_of_readOnce (once : ReadOnce settings chrono log rate (slowly rate) (slowly rate)) :
    Resumable chrono settings.maximum log := by
  have free : forall lines : List NumberedLine,
      (lines.foldl (publishLineWhenActive settings (slowly rate)) { rate := rate }).published =
        lines.map (limited settings) := by
    intro lines
    exact @published_of_within settings (slowly rate) lines { rate := rate }
      (within_slowly settings rate lines.length)
  have numbers : forall lines : List NumberedLine, entryNumbers (lines.map (limited settings)) =
      entryNumbers lines := fun lines => List.map_map
  apply resumable_of_entries
  intro written first middle last bounded positive all
  have same := once written first middle last bounded positive all
  rw [published_eq, published_eq, free, free, (readLoop_single chrono settings.maximum written log).kept] at same
  have entries := congrArg entryNumbers same
  rw [numbers, numbers] at entries
  exact entries

end Once

/-- A log is read once and in order, however often the reader attaches again and
whenever its lines come, exactly when it can be taken up again between any two
entries and has no more lines than a window of the throttle has room for.  At
given times, a log that can be taken up again and that an uninterrupted
attachment would publish whole is read once exactly when the lines that come in
the reader's attachments stay within the limit. -/
theorem readOnce_iff_resumable [LinearOrder Instant] (settings : ConsoleSettings) (chrono : Chrono Instant)
    (log : List (LogEntry Instant)) (rate : Option ConsoleRate) :
    ((forall steady clock : Nat -> Nat, Forward steady -> Forward clock ->
        ReadOnce settings chrono log rate steady clock) <->
      Resumable chrono settings.maximum log /\
        (rawLines settings.maximum log).length <= settings.limits.consoleLinesPerSecond -
          (rate.map ConsoleRate.count).getD 0) /\
    forall steady clock : Nat -> Nat, Resumable chrono settings.maximum log ->
      LogWithin settings log rate steady ->
        (ReadOnce settings chrono log rate steady clock <-> LogWithin settings log rate clock) := by
  have counts : ((rate.map ConsoleRate.window).map OpenWindow.count).getD 0 =
      (rate.map ConsoleRate.count).getD 0 := by
    cases rate <;> rfl
  refine ⟨⟨fun always => ?_, fun held steady clock _ _ => ?_⟩, fun steady clock resumable calm =>
    ⟨within_of_readOnce resumable calm, readOnce_of_within resumable calm⟩⟩
  · have slow := forward_slowly rate
    have resumable := resumable_of_readOnce (always _ _ slow slow)
    have burst := within_of_readOnce resumable (within_slowly settings rate _)
      (always _ (fun _ => (rate.map ConsoleRate.started).getD 0) slow fun _ _ _ => le_rfl)
    refine ⟨resumable, ?_⟩
    rcases Nat.eq_zero_or_pos (rawLines settings.maximum log).length with empty | positive
    · rw [empty]
      exact Nat.zero_le _
    · have one : forall opened, rate.map ConsoleRate.window = some opened ->
          opened.started = (rate.map ConsoleRate.started).getD 0 := by
        intro opened same
        rcases Option.map_eq_some_iff.mp same with ⟨rated, found, window⟩
        subst window found
        rfl
      have room := WithinLimit.together one positive burst
      rw [counts] at room
      omega
  · have room : forall times : Nat -> Nat, LogWithin settings log rate times := by
      intro times
      apply WithinLimit.of_few
      rw [counts, lineTimes, List.length_map, List.length_range']
      exact held.2
    exact readOnce_of_within held.1 (room steady) (room clock)

/-- The time "2026-07-20T04:12:13.123456789Z". -/
def someStamp : Bytes :=
  [50, 48, 50, 54, 45, 48, 55, 45, 50, 48, 84, 48, 52, 58, 49, 50, 58, 49, 51, 46, 49, 50, 51, 52, 53,
    54, 55, 56, 57, 90]

/-- Instants in nanoseconds. -/
def someChrono : Chrono Int where
  parseFromRfc3339 text := if text = fromUtf8Lossy someStamp then some 1784520733123456789 else none
  timestamp time := time / 1000000000

/-- Of an entry with a carriage return inside, the second piece is published
again by every attachment, also when the lines come a second apart. -/
theorem pieces_published_again : Not (forall (settings : ConsoleSettings) (chrono : Chrono Int)
    (log : List (LogEntry Int)) (steady clock : Nat -> Nat), Logged chrono log -> Forward steady ->
      Forward clock -> ReadOnce settings chrono log none steady clock) := by
  intro always
  have logged : Logged someChrono [⟨.stdOut, 1784520733123456789, someStamp, [97, 13, 98]⟩] := by
    refine ⟨?_, ?_, ?_, ?_⟩
    · intro entry member
      rw [List.mem_singleton.mp member]
      decide
    · exact List.pairwise_singleton _ _
    · exact List.pairwise_singleton _ _
    · intro entry member
      rw [List.mem_singleton.mp member]
      decide
  have forward : Forward seconds := fun one other before => Nat.mul_le_mul_right _ before
  have once := always {} someChrono _ seconds seconds logged forward forward 0 1 [] ⟨1, 1⟩ (by decide)
    (by decide) (by decide)
  exact absurd once (by decide +kernel)

end Console
end Agapornis
