import Mathlib.Data.List.Induction
import Mathlib.Logic.Function.Basic
import Agapornis.Foundations.Machine
import Agapornis.Foundations.Utf8Lossy

namespace Agapornis
namespace Runtime

open Foundations

/-!
# Startup detection

A container's output is searched for the marker of a finished startup, by any
number of polls for one container since it was started.  A poll that comes less
than five seconds after the last one that read is answered at once; any other
reads what was written since the second in which the last one began, one piece
after the other as Docker sends them.

The clock counts nanoseconds, and a poll reads it once in each of its steps.
When a poll has read, and how, is kept for the statements only.
-/

def wholeSeconds (second : Nat) : Nat :=
  second * 1000000000

def clampTimestamp (second : Nat) : Nat :=
  min second 2147483647

def unixTimestamp (clock : Nat) : Nat :=
  clampTimestamp (clock / 1000000000)

/-- What a container writes, with the times of the bytes, and when it was started. -/
structure ContainerLog where
  written : List (Nat × UInt8)
  ordered : written.Pairwise fun earlier later => earlier.1 <= later.1
  started : Nat

namespace ContainerLog

/-- The bytes of a log between two times. -/
def between (log : ContainerLog) (first last : Nat) : Bytes :=
  (log.written.filter fun row => first <= row.1 && row.1 <= last).map Prod.snd

/-- The text that the container has written since it was started. -/
def textBy (log : ContainerLog) (time : Nat) : Bytes :=
  log.between log.started time

/-- What Docker returns since a second. -/
def since (log : ContainerLog) (second now : Nat) : Bytes :=
  log.between (wholeSeconds second) now

end ContainerLog

/-- How far a poll has come. -/
inductive StartupPoll where
  | idle
  /-- The startup is not known to be finished. -/
  | unready
  /-- Reading the log since a second. -/
  | reading (since : Nat)
  /-- The marker was found; the check is still to be removed. -/
  | found (time : Nat)
  | answered (reads ready : Bool) (time : Nat)
  deriving DecidableEq, Repr

inductive PollAction where
  | pass (duration : Nat)
  | ask (index : Nat)
  | consult (index : Nat)
  /-- Docker sends the log in pieces. -/
  | read (index : Nat) (pieces : List Bytes)
  | settle (index : Nat)
  deriving DecidableEq, Repr

/-- What is kept of the startup of one container, with the polls. -/
structure StartupChecks where
  clock : Nat
  ready : Bool
  /-- When the last poll that read began, as an instant and as a second. -/
  check : Option (Nat × Nat)
  poll : Nat -> StartupPoll

/-- The marker in one piece. -/
def containsMarker (marker : Text) (piece : Bytes) : Bool :=
  decide (marker <:+: fromUtf8Lossy piece)

/-- Search the pieces, up to an error. -/
def searchLog (marker : Text) : List (Except Unit Bytes) -> Bool
  | [] => false
  | .error _ :: _ => false
  | .ok piece :: pieces => containsMarker marker piece || searchLog marker pieces

/-- The second from which the first poll reads. -/
def firstSince (startedAt : Option Nat) (clock : Nat) : Nat :=
  match startedAt with
  | some started => clampTimestamp (started / 1000000000)
  | none => unixTimestamp clock - 5

namespace StartupChecks

def start (log : ContainerLog) : StartupChecks where
  clock := log.started
  ready := false
  check := none
  poll _ := .idle

def setPoll (checks : StartupChecks) (index : Nat) (phase : StartupPoll) : StartupChecks :=
  { checks with poll := Function.update checks.poll index phase }

/-- A poll that reads the log since a second. -/
def beginRead (checks : StartupChecks) (index since : Nat) : StartupChecks :=
  { checks with
    check := some (checks.clock, unixTimestamp checks.clock)
    poll := Function.update checks.poll index (.reading since) }

def ask (marker : Text) (checks : StartupChecks) (index : Nat) : StartupChecks :=
  if marker.isEmpty || checks.ready then checks.setPoll index (.answered false true checks.clock)
  else checks.setPoll index .unready

def consult (log : ContainerLog) (checks : StartupChecks) (index : Nat) : StartupChecks :=
  match checks.check with
  | some (last, since) =>
      if checks.clock - last < wholeSeconds 5 then checks.setPoll index (.answered false false checks.clock)
      else checks.beginRead index since
  | none => checks.beginRead index (firstSince (some log.started) checks.clock)

def read (marker : Text) (checks : StartupChecks) (index : Nat) (pieces : List Bytes) : StartupChecks :=
  if searchLog marker (pieces.map .ok) then
    { checks.setPoll index (.found checks.clock) with ready := true }
  else checks.setPoll index (.answered true false checks.clock)

/-- Docker's answer to a read has all that was written since the second. -/
def step (log : ContainerLog) (marker : Text) (checks : StartupChecks) : PollAction -> StartupChecks
  | .pass duration => { checks with clock := checks.clock + duration }
  | .ask index =>
      match checks.poll index with
      | .idle => checks.ask marker index
      | _ => checks
  | .consult index =>
      match checks.poll index with
      | .unready => checks.consult log index
      | _ => checks
  | .read index pieces =>
      match checks.poll index with
      | .reading since =>
          if pieces.flatten = log.since since checks.clock then checks.read marker index pieces else checks
      | _ => checks
  | .settle index =>
      match checks.poll index with
      | .found time => { checks.setPoll index (.answered true true time) with check := none }
      | _ => checks

/-- How a poll is answered: whether it reads, what it reports, and when. -/
def verdict : StartupPoll -> Option (Bool × Bool × Nat)
  | .found time => some (true, true, time)
  | .answered reads ready time => some (reads, ready, time)
  | _ => none

/-- The marker is in the text that the container has written since it was started. -/
def Occurs (log : ContainerLog) (marker : Text) (time : Nat) : Prop :=
  encodeUtf8 marker <:+: log.textBy time

/-- A poll reports a startup only when the marker occurs, and when it does and
the poll reads it reports it. -/
def Right (log : ContainerLog) (marker : Text) (reads ready : Bool) (time : Nat) : Prop :=
  (ready = true -> Occurs log marker time) /\ (reads = true -> Occurs log marker time -> ready = true)

def AllRight (log : ContainerLog) (marker : Text) (checks : StartupChecks) : Prop :=
  forall index reads ready time, verdict (checks.poll index) = some (reads, ready, time) ->
    Right log marker reads ready time

/-- The marker is shown by one of the pieces alone. -/
def Shown (marker : Text) (pieces : List Bytes) : Prop :=
  Exists fun piece => piece ∈ pieces /\ marker <:+: fromUtf8Lossy piece

/-- What is sent for a read shows the marker in one piece just when it occurs. -/
def ShowsRightly (log : ContainerLog) (marker : Text) (checks : StartupChecks) : PollAction -> Prop
  | .read index pieces => forall since, checks.poll index = .reading since ->
      pieces.flatten = log.since since checks.clock -> (Shown marker pieces <-> Occurs log marker checks.clock)
  | _ => True

/-- Once the marker is written, its bytes are all in one of the pieces that are
sent for a read. -/
def SentWhole (log : ContainerLog) (marker : Text) (checks : StartupChecks) : PollAction -> Prop
  | .read index pieces => forall since, checks.poll index = .reading since ->
      pieces.flatten = log.since since checks.clock -> Occurs log marker checks.clock ->
      Exists fun piece => piece ∈ pieces /\ encodeUtf8 marker <:+: piece
  | _ => True

end StartupChecks

/-- Nothing is taken for the marker that is not: it has no replacement character,
and nothing was written in the second of the start before it. -/
structure NoDecoys (log : ContainerLog) (marker : Text) : Prop where
  plain : replacementCharacter ∉ marker
  silent : forall row, row ∈ log.written -> wholeSeconds (unixTimestamp log.started) <= row.1 -> log.started <= row.1

/-! ## Texts of ordered logs -/

section Ordered

variable {rows : List (Nat × UInt8)}

/-- What is early in an ordered log comes first. -/
theorem filter_isPrefix (ordered : rows.Pairwise fun earlier later => earlier.1 <= later.1) (keeps : Nat -> Bool)
    (earlier : forall first second, first <= second -> keeps second = true -> keeps first = true) :
    (rows.filter fun row => keeps row.1) <+: rows := by
  induction rows with
  | nil => exact List.prefix_refl []
  | cons row rows induction =>
      rcases List.pairwise_cons.mp ordered with ⟨least, orderedRows⟩
      rw [List.filter_cons]
      split
      · exact List.cons_prefix_cons.mpr ⟨rfl, induction orderedRows⟩
      · next dropped =>
          rw [List.filter_eq_nil_iff.mpr fun other member kept => dropped (earlier _ _ (least other member) kept)]
          exact List.nil_prefix

/-- What is late in an ordered log comes last. -/
theorem filter_isSuffix (ordered : rows.Pairwise fun earlier later => earlier.1 <= later.1) (keeps : Nat -> Bool)
    (later : forall first second, first <= second -> keeps first = true -> keeps second = true) :
    (rows.filter fun row => keeps row.1) <:+ rows := by
  induction rows with
  | nil => exact List.suffix_refl []
  | cons row rows induction =>
      rcases List.pairwise_cons.mp ordered with ⟨least, orderedRows⟩
      rw [List.filter_cons]
      split
      · next kept =>
          have all : (rows.filter fun row => keeps row.1) = rows :=
            List.filter_eq_self.mpr fun other member => later _ _ (least other member) kept
          exact ⟨[], by rw [List.nil_append, all]⟩
      · exact (induction orderedRows).trans (List.suffix_cons row rows)

end Ordered

namespace ContainerLog

variable {log : ContainerLog}

theorem textBy_isPrefix {first last : Nat} (later : first <= last) : log.textBy first <+: log.textBy last := by
  have kept : (log.written.filter fun row => log.started <= row.1 && row.1 <= first) =
      (log.written.filter fun row => log.started <= row.1 && row.1 <= last).filter fun row => row.1 <= first := by
    rw [List.filter_filter]
    refine List.filter_congr fun row _ => ?_
    rw [Bool.eq_iff_iff]
    simp only [Bool.and_eq_true, decide_eq_true_eq]
    omega
  unfold textBy between
  rw [kept]
  refine (filter_isPrefix (log.ordered.sublist List.filter_sublist) (fun time => decide (time <= first))
    fun one two order below => ?_).map Prod.snd
  simp only [decide_eq_true_eq] at below ⊢
  omega

/-- What Docker returns since a second that is not before the start. -/
theorem since_isInfix {marker : Text} (noDecoys : NoDecoys log marker) {second : Nat}
    (after : unixTimestamp log.started <= second) (now : Nat) : log.since second now <:+: log.textBy now := by
  have lower : wholeSeconds (unixTimestamp log.started) <= wholeSeconds second :=
    Nat.mul_le_mul_right _ after
  have kept : (log.written.filter fun row => wholeSeconds second <= row.1 && row.1 <= now) =
      (log.written.filter fun row => log.started <= row.1 && row.1 <= now).filter fun row =>
        wholeSeconds second <= row.1 := by
    rw [List.filter_filter]
    refine List.filter_congr fun row member => ?_
    have silent := noDecoys.silent row member
    rw [Bool.eq_iff_iff]
    simp only [Bool.and_eq_true, decide_eq_true_eq]
    constructor
    · rintro ⟨above, below⟩
      exact ⟨above, silent (lower.trans above), below⟩
    · rintro ⟨above, _, below⟩
      exact ⟨above, below⟩
  unfold since textBy between
  rw [kept]
  refine ((filter_isSuffix (log.ordered.sublist List.filter_sublist)
    (fun time => decide (wholeSeconds second <= time)) fun one two order above => ?_).map Prod.snd).isInfix
  simp only [decide_eq_true_eq] at above ⊢
  omega

end ContainerLog

namespace StartupChecks

variable {log : ContainerLog} {marker : Text} {checks : StartupChecks}

theorem Occurs.later {first last : Nat} (occurs : Occurs log marker first) (later : first <= last) :
    Occurs log marker last :=
  occurs.trans (ContainerLog.textBy_isPrefix later).isInfix

theorem searchLog_shown (marker : Text) (pieces : List Bytes) :
    searchLog marker (pieces.map .ok) = true <-> Shown marker pieces := by
  unfold Shown
  induction pieces with
  | nil => exact iff_of_false Bool.false_ne_true (by simp)
  | cons piece pieces induction =>
      rw [List.map_cons, searchLog, Bool.or_eq_true, induction, containsMarker, decide_eq_true_eq]
      simp only [List.mem_cons, exists_eq_or_imp]

/-! ## What every run keeps -/

/-- The clock is past the start, nothing is read from before its second, and a
startup is known only when a poll has found the marker. -/
structure Sound (log : ContainerLog) (checks : StartupChecks) : Prop where
  begun : log.started <= checks.clock
  seen : checks.ready = true -> Exists fun index => Exists fun time =>
    verdict (checks.poll index) = some (true, true, time) /\ time <= checks.clock
  checked : forall last since, checks.check = some (last, since) -> unixTimestamp log.started <= since
  reads : forall index since, checks.poll index = .reading since -> unixTimestamp log.started <= since

@[simp] theorem setPoll_self (checks : StartupChecks) (index : Nat) (phase : StartupPoll) :
    (checks.setPoll index phase).poll index = phase := by
  simp only [setPoll, Function.update_self]

theorem setPoll_of_ne (checks : StartupChecks) {index other : Nat} (phase : StartupPoll)
    (apart : Not (other = index)) : (checks.setPoll index phase).poll other = checks.poll other := by
  simp only [setPoll, Function.update_of_ne apart]

theorem sound_start (log : ContainerLog) : Sound log (start log) where
  begun := Nat.le_refl _
  seen known := by cases known
  checked _ _ found := by cases found
  reads _ _ found := by cases found

theorem unixTimestamp_mono {first last : Nat} (later : first <= last) : unixTimestamp first <= unixTimestamp last := by
  have seconds : first / 1000000000 <= last / 1000000000 := Nat.div_le_div_right later
  unfold unixTimestamp clampTimestamp
  omega

/-- A poll moves on, and is answered once. -/
theorem Sound.setPoll (sound : Sound log checks) {index : Nat} {phase : StartupPoll}
    (once : verdict (checks.poll index) = none \/ verdict (checks.poll index) = verdict phase)
    (reads : forall since, phase = .reading since -> unixTimestamp log.started <= since) :
    Sound log (checks.setPoll index phase) where
  begun := sound.begun
  seen known := by
    rcases sound.seen known with ⟨other, time, found, earlier⟩
    by_cases same : other = index
    · subst same
      refine ⟨other, time, ?_, earlier⟩
      rw [setPoll_self]
      rcases once with none | kept
      · rw [none] at found
        cases found
      · rw [← kept, found]
    · refine ⟨other, time, ?_, earlier⟩
      rw [setPoll_of_ne _ _ same]
      exact found
  checked := sound.checked
  reads other since found := by
    by_cases same : other = index
    · subst same
      rw [setPoll_self] at found
      exact reads since found
    · rw [setPoll_of_ne _ _ same] at found
      exact sound.reads other since found

theorem Sound.beginRead (sound : Sound log checks) {index since : Nat}
    (once : verdict (checks.poll index) = none) (after : unixTimestamp log.started <= since) :
    Sound log (checks.beginRead index since) := by
  have moved : Sound log (checks.setPoll index (.reading since)) :=
    sound.setPoll (Or.inl once) fun other same => by
      cases same
      exact after
  refine ⟨moved.begun, moved.seen, fun last second found => ?_, moved.reads⟩
  cases found
  exact unixTimestamp_mono sound.begun

theorem AllRight.setPoll (right : AllRight log marker checks) {index : Nat} {phase : StartupPoll}
    (fresh : forall reads ready time, verdict phase = some (reads, ready, time) -> Right log marker reads ready time) :
    AllRight log marker (checks.setPoll index phase) := by
  intro other reads ready time found
  by_cases same : other = index
  · subst same
    rw [setPoll_self] at found
    exact fresh reads ready time found
  · rw [setPoll_of_ne _ _ same] at found
    exact right other reads ready time found

/-- A known startup is that of a text with the marker. -/
theorem Sound.occurs (sound : Sound log checks) (right : AllRight log marker checks) (known : checks.ready = true) :
    Occurs log marker checks.clock := by
  rcases sound.seen known with ⟨index, time, found, earlier⟩
  exact ((right index true true time found).1 rfl).later earlier

/-! ## One step -/

theorem Sound.pass (sound : Sound log checks) (duration : Nat) :
    Sound log { checks with clock := checks.clock + duration } := by
  refine ⟨sound.begun.trans (Nat.le_add_right _ _), fun known => ?_, sound.checked, sound.reads⟩
  rcases sound.seen known with ⟨index, time, found, earlier⟩
  exact ⟨index, time, found, earlier.trans (Nat.le_add_right _ _)⟩

theorem Sound.ask (sound : Sound log checks) (marker : Text) {index : Nat} (idle : checks.poll index = .idle) :
    Sound log (checks.ask marker index) := by
  have once : verdict (checks.poll index) = none := congrArg verdict idle
  unfold StartupChecks.ask
  split
  · exact sound.setPoll (Or.inl once) nofun
  · exact sound.setPoll (Or.inl once) nofun

theorem Sound.consult (sound : Sound log checks) {index : Nat} (unready : checks.poll index = .unready) :
    Sound log (checks.consult log index) := by
  have once : verdict (checks.poll index) = none := congrArg verdict unready
  unfold StartupChecks.consult
  split
  · next last since found =>
      split
      · exact sound.setPoll (Or.inl once) nofun
      · exact sound.beginRead once (sound.checked last since found)
  · exact sound.beginRead once (Nat.le_refl _)

theorem Sound.read (sound : Sound log checks) (marker : Text) {index since : Nat}
    (reading : checks.poll index = .reading since) (pieces : List Bytes) :
    Sound log (checks.read marker index pieces) := by
  have once : verdict (checks.poll index) = none := congrArg verdict reading
  unfold StartupChecks.read
  split
  · have moved : Sound log (checks.setPoll index (.found checks.clock)) := sound.setPoll (Or.inl once) nofun
    refine ⟨moved.begun, fun _ => ⟨index, checks.clock, ?_, Nat.le_refl _⟩, moved.checked, moved.reads⟩
    exact congrArg verdict (setPoll_self checks index _)
  · exact sound.setPoll (Or.inl once) nofun

theorem Sound.settle (sound : Sound log checks) {index time : Nat} (found : checks.poll index = .found time) :
    Sound log { checks.setPoll index (.answered true true time) with check := none } := by
  have same : verdict (checks.poll index) = verdict (.answered true true time) := by
    rw [found]
    rfl
  have moved : Sound log (checks.setPoll index (.answered true true time)) := sound.setPoll (Or.inr same) nofun
  exact ⟨moved.begun, moved.seen, nofun, moved.reads⟩

theorem Sound.step (sound : Sound log checks) (marker : Text) (action : PollAction) :
    Sound log (checks.step log marker action) := by
  cases action with
  | pass duration => exact sound.pass duration
  | ask index =>
      unfold StartupChecks.step
      dsimp only
      split
      · next idle => exact sound.ask marker idle
      · exact sound
  | consult index =>
      unfold StartupChecks.step
      dsimp only
      split
      · next unready => exact sound.consult unready
      · exact sound
  | read index pieces =>
      unfold StartupChecks.step
      dsimp only
      split
      · next since reading =>
          split
          · exact sound.read marker reading pieces
          · exact sound
      · exact sound
  | settle index =>
      unfold StartupChecks.step
      dsimp only
      split
      · next time found => exact sound.settle found
      · exact sound

theorem AllRight.ask (right : AllRight log marker checks) (sound : Sound log checks) (index : Nat) :
    AllRight log marker (checks.ask marker index) := by
  unfold StartupChecks.ask
  split
  · next known =>
      refine right.setPoll fun reads ready time found => ?_
      cases found
      refine ⟨fun _ => ?_, nofun⟩
      rcases Bool.or_eq_true _ _ ▸ known with empty | seen
      · rw [List.isEmpty_iff.mp empty]
        exact List.nil_infix
      · exact sound.occurs right seen
  · exact right.setPoll nofun

theorem AllRight.consult (right : AllRight log marker checks) (index : Nat) :
    AllRight log marker (checks.consult log index) := by
  unfold StartupChecks.consult
  split
  · split
    · refine right.setPoll fun reads ready time answered => ?_
      cases answered
      exact ⟨nofun, nofun⟩
    · exact right.setPoll nofun
  · exact right.setPoll nofun

theorem AllRight.settle (right : AllRight log marker checks) {index time : Nat}
    (found : checks.poll index = .found time) :
    AllRight log marker { checks.setPoll index (.answered true true time) with check := none } := by
  have moved : AllRight log marker (checks.setPoll index (.answered true true time)) :=
    right.setPoll fun reads ready later answered => by
      cases answered
      exact right index true true time (congrArg verdict found)
  exact moved

/-- A read is answered rightly just when one piece shows the marker where it occurs. -/
theorem AllRight.read (right : AllRight log marker checks) (index : Nat) (pieces : List Bytes) :
    AllRight log marker (checks.read marker index pieces) <->
      (Shown marker pieces <-> Occurs log marker checks.clock) := by
  unfold StartupChecks.read
  by_cases shown : Shown marker pieces
  · rw [if_pos ((searchLog_shown marker pieces).mpr shown)]
    constructor
    · intro after
      refine iff_of_true shown ((after index true true checks.clock ?_).1 rfl)
      exact congrArg verdict (setPoll_self checks index _)
    · intro same
      have moved : AllRight log marker (checks.setPoll index (.found checks.clock)) :=
        right.setPoll fun reads ready time found => by
          cases found
          exact ⟨fun _ => same.mp shown, fun _ _ => rfl⟩
      exact moved
  · rw [if_neg fun found => shown ((searchLog_shown marker pieces).mp found)]
    constructor
    · intro after
      refine iff_of_false shown fun occurs => ?_
      have answered := (after index true false checks.clock
        (congrArg verdict (setPoll_self checks index _))).2 rfl occurs
      cases answered
    · intro same
      refine right.setPoll fun reads ready time found => ?_
      cases found
      exact ⟨nofun, fun _ occurs => absurd (same.mpr occurs) shown⟩

/-- A step answers rightly just when a read that it ends shows the marker rightly. -/
theorem AllRight.step (right : AllRight log marker checks) (sound : Sound log checks) (action : PollAction) :
    AllRight log marker (checks.step log marker action) <-> checks.ShowsRightly log marker action := by
  cases action with
  | pass duration => exact iff_of_true right trivial
  | ask index =>
      refine iff_of_true ?_ trivial
      unfold StartupChecks.step
      dsimp only
      split
      · exact right.ask sound index
      · exact right
  | consult index =>
      refine iff_of_true ?_ trivial
      unfold StartupChecks.step
      dsimp only
      split
      · exact right.consult index
      · exact right
  | settle index =>
      refine iff_of_true ?_ trivial
      unfold StartupChecks.step
      dsimp only
      split
      · next time found => exact right.settle found
      · exact right
  | read index pieces =>
      unfold StartupChecks.step ShowsRightly
      dsimp only
      split
      · next since reading =>
          split
          · next sent =>
              rw [right.read]
              constructor
              · intro same other found _
                exact same
              · exact fun all => all since reading sent
          · next unsent =>
              refine iff_of_true right fun other found sent => ?_
              rw [reading] at found
              cases found
              exact absurd sent unsent
      · next other => exact iff_of_true right fun since found => absurd found (other since)

theorem step_exactly (checks : StartupChecks) (action : PollAction)
    (good : Sound log checks /\ AllRight log marker checks) :
    (Sound log (checks.step log marker action) /\ AllRight log marker (checks.step log marker action)) <->
      checks.ShowsRightly log marker action := by
  rw [← good.2.step good.1]
  exact and_iff_right (good.1.step marker action)

/-- Where nothing is taken for the marker that is not, a read shows it rightly
just when its bytes are sent in one piece. -/
theorem showsRightly_iff (noDecoys : NoDecoys log marker) (sound : Sound log checks) (action : PollAction) :
    checks.ShowsRightly log marker action <-> checks.SentWhole log marker action := by
  cases action with
  | read index pieces =>
      refine forall_congr' fun since => forall_congr' fun reading => forall_congr' fun sent => ?_
      constructor
      · intro same occurs
        rcases same.mpr occurs with ⟨piece, member, shown⟩
        exact ⟨piece, member, bytes_of_shown noDecoys.plain shown⟩
      · intro whole
        constructor
        · rintro ⟨piece, member, shown⟩
          have inPieces : piece <:+: pieces.flatten := by
            rcases List.append_of_mem member with ⟨front, back, rfl⟩
            exact ⟨front.flatten, back.flatten, by rw [List.flatten_append, List.flatten_cons, List.append_assoc]⟩
          rw [sent] at inPieces
          exact (bytes_of_shown noDecoys.plain shown).trans
            (inPieces.trans (ContainerLog.since_isInfix noDecoys (sound.reads index since reading) checks.clock))
        · intro occurs
          rcases whole occurs with ⟨piece, member, inside⟩
          exact ⟨piece, member, shown_of_bytes inside⟩
  | _ => exact Iff.rfl

/-! ## Whole runs -/

theorem sound_reach (log : ContainerLog) (marker : Text) (run : List PollAction) :
    Sound log (Machine.reach (step log marker) (start log) run) :=
  Machine.invariant (fun _ action sound => sound.step marker action) (sound_start log) run

/-- All polls are answered rightly just when every read shows the marker in one
piece where it occurs; and where nothing is taken for the marker that is not,
just when its bytes are sent in one piece. -/
theorem startup_detected (log : ContainerLog) (marker : Text) (run : List PollAction) :
    ((forall front, front <+: run -> AllRight log marker (Machine.reach (step log marker) (start log) front)) <->
        Machine.Along (step log marker) (ShowsRightly log marker) (start log) run) /\
      (NoDecoys log marker ->
        (Machine.Along (step log marker) (ShowsRightly log marker) (start log) run <->
          Machine.Along (step log marker) (SentWhole log marker) (start log) run)) := by
  constructor
  · have exactly : (forall front, front <+: run -> Sound log (Machine.reach (step log marker) (start log) front) /\
        AllRight log marker (Machine.reach (step log marker) (start log) front)) <->
          Machine.Along (step log marker) (ShowsRightly log marker) (start log) run :=
      Machine.always_iff_along step_exactly ⟨sound_start log, fun _ _ _ _ found => by cases found⟩
    rw [← exactly]
    exact ⟨fun right front within => ⟨sound_reach log marker front, right front within⟩,
      fun good front within => (good front within).2⟩
  · intro noDecoys
    constructor
    · intro shows
      refine Machine.along_of_reach fun front action back split => ?_
      rw [split] at shows
      exact (showsRightly_iff noDecoys (sound_reach log marker front) action).mp shows.at
    · intro whole
      refine Machine.along_of_reach fun front action back split => ?_
      rw [split] at whole
      exact (showsRightly_iff noDecoys (sound_reach log marker front) action).mpr whole.at

/-- A marker that was written at the start. -/
def cutLog : ContainerLog where
  written := [(1, 111), (1, 107)]
  ordered := by decide
  started := 0

/-- The marker is sent in two pieces. -/
def cutRun : List PollAction :=
  [.pass 1, .ask 0, .consult 0, .read 0 [[111], [107]]]

/-- The poll reads the whole marker, and reports nothing. -/
theorem cutRun_misses :
    (Machine.reach (step cutLog "ok".toList) (start cutLog) cutRun).poll 0 = .answered true false 1 /\
      Occurs cutLog "ok".toList 1 /\
      Not (AllRight cutLog "ok".toList (Machine.reach (step cutLog "ok".toList) (start cutLog) cutRun)) := by
  have answered : (Machine.reach (step cutLog "ok".toList) (start cutLog) cutRun).poll 0 =
      .answered true false 1 := by decide
  have occurs : Occurs cutLog "ok".toList 1 := by
    unfold Occurs
    decide
  refine ⟨answered, occurs, fun right => ?_⟩
  have reported := (right 0 true false 1 (congrArg verdict answered)).2 rfl occurs
  cases reported

end StartupChecks

end Runtime
end Agapornis
