import Agapornis.Foundations.Machine
import Agapornis.Runtime.Supervisor

namespace Agapornis
namespace Runtime

open Foundations Agapornis.Core

/-!
# Crash loops

What happens to one container: it is observed, a manual recovery begins, its
protection is forgotten, or it is no longer listed.  Beside the monitor a
history keeps every failure that was counted since the last manual recovery.
The queue of the monitor holds the latest of them, as long as no observation
finds the container stable while one of them is recent, and no failure from
before a manual recovery is left over after its window.
-/

inductive Occurrence where
  | seen (seen : Seen)
  | manualRecovery (now : Nat)
  | forgotten
  | gone
  deriving DecidableEq, Repr

/-- The failures counted between two observations. -/
def failuresBetween (last seen : Seen) : Nat :=
  (min (max (seen.restart - last.restart) 0) 3).toNat +
    if last.running && !seen.running && seen.exit != 0 then 1 else 0

/-- What has happened so far: the latest time, the last observation, the failures counted since
the last manual recovery, the latest first, and whether no observation has followed it. -/
structure History where
  now : Nat := 0
  last : Option Seen := none
  failures : List Nat := []
  unseen : Bool := false
  deriving DecidableEq, Repr

namespace History

def counted (history : History) (seen : Seen) : Nat :=
  history.last.elim 0 (fun last => failuresBetween last seen)

/-- An observation within the window of a recovery counts nothing. -/
def next (recovering : Seen -> Bool) (history : History) : Occurrence -> History
  | .seen seen =>
      { now := seen.now
        last := some seen
        failures :=
          if recovering seen then []
          else List.replicate (history.counted seen) seen.now ++ history.failures
        unseen := false }
  | .manualRecovery now => { history with now := now, failures := [], unseen := true }
  | .forgotten => history
  | .gone => { now := history.now }

/-- The three latest failures were counted within the last two minutes. -/
def Looping (history : History) : Prop :=
  (history.failures.take 3).length = 3 /\
    forall failure, failure ∈ history.failures.take 3 -> history.now - failure < seconds 120

instance Looping.decidable (history : History) : Decidable history.Looping :=
  inferInstanceAs (Decidable (_ = 3 /\ _))

/-- Three failures lie within five minutes of each other. -/
def Looped (history : History) : Prop :=
  Exists fun three => List.Sublist three history.failures /\ three.length = 3 /\
    forall first, first ∈ three -> forall second, second ∈ three -> first - second <= seconds 300

end History

/-- The monitor and the history of one container. -/
structure Watch where
  monitor : Monitor := {}
  history : History := {}

namespace Watch

variable (id : Text)

def happen (monitor : Monitor) : Occurrence -> Monitor
  | .seen seen => monitor.observe id seen
  | .manualRecovery now => { monitor with protection := monitor.protection.manualRecovery id now }
  | .forgotten => { monitor with protection := monitor.protection.remove id }
  | .gone => monitor.forget id

def next (watch : Watch) (occurrence : Occurrence) : Watch where
  monitor := happen id watch.monitor occurrence
  history := watch.history.next (fun seen => watch.monitor.protection.recovering id seen.now) occurrence

/-- Times do not decrease. -/
def InOrder (watch : Watch) : Occurrence -> Prop
  | .seen seen => watch.history.now <= seen.now
  | .manualRecovery now => watch.history.now <= now
  | .forgotten | .gone => True

def Quarantined (watch : Watch) : Prop :=
  Exists fun state => watch.monitor.observations.lookup id = some state /\ state.quarantined = true

/-- What an observation outside of manual recovery is to leave behind. -/
def Guarded (watch : Watch) (seen : Seen) : Prop :=
  watch.monitor.protection.recovering id seen.now = false ->
    let after := watch.next id (.seen seen)
    (after.history.Looping -> after.Quarantined id) /\ (after.Quarantined id -> after.history.Looped)

def GuardedAt (watch : Watch) : Occurrence -> Prop
  | .seen seen => watch.Guarded id seen
  | .manualRecovery _ | .forgotten | .gone => True

/-- Every observation of a run leaves behind what it is to leave. -/
def Protected (run : List Occurrence) : Prop :=
  Machine.Along (next id) (GuardedAt id) {} run

/-- Nothing from before the last manual recovery is left over where it was not observed. -/
def NothingLeft (watch : Watch) (seen : Seen) : Prop :=
  watch.history.unseen = true ->
    forall state, state ∈ watch.monitor.observations.lookup id ->
      state.quarantined = false /\ Observation.prune seen.now state.failures = []

/-- A container is not found stable while a failure counted is younger than two minutes. -/
def StableWhenQuiet (watch : Watch) (seen : Seen) : Prop :=
  ((watch.monitor.observations.lookup id).getD (Observation.fresh seen)).stable seen = true ->
    watch.history.counted seen = 0 /\
      forall failure, failure ∈ watch.history.failures -> failure + seconds 120 <= seen.now

/-- The condition on one step. -/
def Meets (watch : Watch) : Occurrence -> Prop
  | .seen seen => watch.monitor.protection.recovering id seen.now = false ->
      watch.NothingLeft id seen /\ watch.StableWhenQuiet id seen
  | .manualRecovery _ | .forgotten | .gone => True

instance InOrder.decidable (watch : Watch) : forall occurrence, Decidable (watch.InOrder occurrence)
  | .seen seen => inferInstanceAs (Decidable (watch.history.now <= seen.now))
  | .manualRecovery now => inferInstanceAs (Decidable (watch.history.now <= now))
  | .forgotten | .gone => isTrue trivial

instance NothingLeft.decidable (watch : Watch) (seen : Seen) : Decidable (watch.NothingLeft id seen) :=
  inferInstanceAs (Decidable (watch.history.unseen = true -> _))

instance StableWhenQuiet.decidable (watch : Watch) (seen : Seen) :
    Decidable (watch.StableWhenQuiet id seen) :=
  inferInstanceAs (Decidable (_ = true -> _ /\ _))

instance Meets.decidable (watch : Watch) : forall occurrence, Decidable (watch.Meets id occurrence)
  | .seen seen =>
      inferInstanceAs (Decidable (_ = false -> watch.NothingLeft id seen /\ watch.StableWhenQuiet id seen))
  | .manualRecovery _ | .forgotten | .gone => isTrue trivial

end Watch

/-! ## The queue -/

namespace Observation

/-- The queue after an observation, before a stable container empties it. -/
def queue (state : Observation) (seen : Seen) : List Nat :=
  prune seen.now (state.failures ++ List.replicate (state.counted seen) seen.now)

theorem prune_split (now : Nat) (failures : List Nat) :
    Exists fun dropped => failures = dropped ++ prune now failures /\
      forall failure, failure ∈ dropped -> failure + seconds 300 < now := by
  refine ⟨failures.takeWhile (fun failure => decide (seconds 300 < now - failure)), ?_, ?_⟩
  · exact List.takeWhile_append_dropWhile.symm
  · intro failure member
    have old : seconds 300 < now - failure := by simpa using List.mem_takeWhile_imp member
    omega

/-- What stays in a queue that is in order is at most five minutes old. -/
theorem prune_recent {now : Nat} {failures : List Nat} (ordered : failures.Pairwise (· <= ·)) :
    forall failure, failure ∈ prune now failures -> now - failure <= seconds 300 := by
  induction failures with
  | nil =>
      intro failure member
      cases member
  | cons head rest induction =>
      intro failure member
      rcases List.pairwise_cons.mp ordered with ⟨first, later⟩
      by_cases old : seconds 300 < now - head
      · rw [prune, List.dropWhile_cons_of_pos (by simpa using old)] at member
        exact induction later failure member
      · rw [prune, List.dropWhile_cons_of_neg (by simpa using old)] at member
        rcases List.mem_cons.mp member with same | behind
        · rw [same]
          omega
        · have after := first failure behind
          omega

theorem prune_append_of_nil {now : Nat} {old : List Nat} (none : prune now old = []) (new : List Nat) :
    prune now (old ++ new) = prune now new := by
  rw [prune, List.dropWhile_append]
  rw [prune] at none
  rw [none]
  rfl

theorem prune_now (now count : Nat) :
    prune now (List.replicate count now) = List.replicate count now := by
  rw [prune]
  cases count with
  | zero => rfl
  | succ count =>
      rw [List.replicate_succ]
      apply List.dropWhile_cons_of_neg
      simp

theorem advance_failures (state : Observation) (seen : Seen) :
    (state.advance seen).failures = if state.stable seen then [] else state.queue seen :=
  rfl

theorem fresh_counted (seen : Seen) : (fresh seen).counted seen = 0 := by
  simp [counted, fresh]

end Observation

/-! ## The history beside the monitor -/

/-- The queue holds the latest failures, all older ones being two minutes old, and a container in
quarantine has looped. -/
structure Observation.Kept (state : Observation) (history : History) : Prop where
  failures : Exists fun stale => history.failures = state.failures.reverse ++ stale /\
    forall failure, failure ∈ stale -> failure + seconds 120 <= history.now
  quarantined : state.quarantined = true -> history.Looped

structure Watch.Holds (id : Text) (watch : Watch) : Prop where
  past : forall failure, failure ∈ watch.history.failures -> failure <= watch.history.now
  ordered : watch.history.failures.Pairwise (· >= ·)
  absent : watch.monitor.observations.lookup id = none ->
    watch.history.last = none /\ watch.history.failures = []
  last : forall state, state ∈ watch.monitor.observations.lookup id ->
    Exists fun last => watch.history.last = some last /\ last.restart = state.lastRestart /\
      last.running = state.wasRunning
  unseen : watch.history.unseen = true -> watch.history.failures = []
  kept : watch.history.unseen = false ->
    forall state, state ∈ watch.monitor.observations.lookup id -> state.Kept watch.history

namespace History

theorem looped_of_longer {history later : History} {new : List Nat}
    (more : later.failures = new ++ history.failures) (looped : history.Looped) : later.Looped := by
  rcases looped with ⟨three, inside, length, close⟩
  refine ⟨three, ?_, length, close⟩
  rw [more]
  exact inside.trans (List.sublist_append_right new history.failures)

/-- Three failures in a queue of recent ones have looped. -/
theorem looped_of_queue {history : History} {queue stale : List Nat}
    (held : history.failures = queue.reverse ++ stale) (long : 3 <= queue.length)
    (past : forall failure, failure ∈ history.failures -> failure <= history.now)
    (recent : forall failure, failure ∈ queue -> history.now - failure <= seconds 300) :
    history.Looped := by
  have inside : List.Sublist (queue.reverse.take 3) history.failures := by
    rw [held]
    exact (List.take_sublist 3 queue.reverse).trans (List.sublist_append_left queue.reverse stale)
  refine ⟨queue.reverse.take 3, inside, ?_, ?_⟩
  · rw [List.length_take, List.length_reverse]
    omega
  · intro first ofFirst second ofSecond
    have before := past first (inside.subset ofFirst)
    have young := recent second (List.mem_reverse.mp (List.mem_of_mem_take ofSecond))
    omega

/-- When the three latest failures are recent, a queue that misses only old ones holds them. -/
theorem long_of_looping {history : History} {queue stale : List Nat}
    (held : history.failures = queue.reverse ++ stale)
    (old : forall failure, failure ∈ stale -> failure + seconds 120 <= history.now)
    (looping : history.Looping) : 3 <= queue.length := by
  rcases looping with ⟨length, recent⟩
  by_contra short
  have taken : history.failures.take 3 = queue.reverse ++ stale.take (3 - queue.length) := by
    rw [held, List.take_append, List.length_reverse]
    rw [List.take_of_length_le]
    rw [List.length_reverse]
    omega
  cases behind : stale with
  | nil =>
      rw [taken, behind, List.take_nil, List.append_nil, List.length_reverse] at length
      omega
  | cons failure rest =>
      have inside : failure ∈ history.failures.take 3 := by
        rw [taken, behind, List.mem_append]
        right
        cases remaining : 3 - queue.length with
        | zero => omega
        | succ count => exact List.mem_cons_self
      have young := recent failure inside
      have stays := old failure (by rw [behind]; exact List.mem_cons_self)
      omega

end History

namespace Watch

variable {id : Text} {watch : Watch} {seen : Seen}

theorem counted_eq (holds : watch.Holds id) :
    watch.history.counted seen = (watch.monitor.entry id seen).counted seen := by
  cases found : watch.monitor.observations.lookup id with
  | none =>
      rw [Monitor.entry, found, Option.getD_none, Observation.fresh_counted]
      rw [History.counted, (holds.absent found).1]
      rfl
  | some state =>
      rcases holds.last state found with ⟨last, same, restart, running⟩
      rw [Monitor.entry, found, Option.getD_some, History.counted, same]
      rw [Option.elim_some, failuresBetween, Observation.counted, restart, running]

/-- The history after an observation outside of manual recovery. -/
theorem next_seen_failures (outside : watch.monitor.protection.recovering id seen.now = false) :
    (watch.next id (.seen seen)).history.failures =
      List.replicate (watch.history.counted seen) seen.now ++ watch.history.failures := by
  simp only [next, History.next, outside, Bool.false_eq_true, if_false]

/-- The queue of an observation holds the latest failures of the history, and only recent ones. -/
theorem queue_of_history (holds : watch.Holds id) (inOrder : watch.history.now <= seen.now)
    (left : watch.NothingLeft id seen) :
    (Exists fun stale =>
      List.replicate (watch.history.counted seen) seen.now ++ watch.history.failures =
          ((watch.monitor.entry id seen).queue seen).reverse ++ stale /\
        forall failure, failure ∈ stale -> failure + seconds 120 <= seen.now) /\
      forall failure, failure ∈ (watch.monitor.entry id seen).queue seen ->
        seen.now - failure <= seconds 300 := by
  rw [counted_eq holds]
  have alone (count : Nat) : forall failure, failure ∈ List.replicate count seen.now ->
      seen.now - failure <= seconds 300 := by
    intro failure member
    rw [List.eq_of_mem_replicate member, Nat.sub_self]
    exact Nat.zero_le _
  cases found : watch.monitor.observations.lookup id with
  | none =>
      have entry : watch.monitor.entry id seen = Observation.fresh seen := by
        rw [Monitor.entry, found, Option.getD_none]
      have queue : (watch.monitor.entry id seen).queue seen = [] := by
        rw [entry, Observation.queue, Observation.fresh_counted]
        rfl
      rw [queue, entry, Observation.fresh_counted, (holds.absent found).2]
      exact ⟨⟨[], rfl, fun _ impossible => absurd impossible List.not_mem_nil⟩,
        fun _ impossible => absurd impossible List.not_mem_nil⟩
  | some state =>
      have entry : watch.monitor.entry id seen = state := by
        rw [Monitor.entry, found, Option.getD_some]
      rw [entry]
      cases unseen : watch.history.unseen with
      | true =>
          rcases left unseen state found with ⟨_, none⟩
          have queue : state.queue seen = List.replicate (state.counted seen) seen.now := by
            rw [Observation.queue, Observation.prune_append_of_nil none, Observation.prune_now]
          rw [queue, holds.unseen unseen, List.reverse_replicate]
          exact ⟨⟨[], rfl, fun _ impossible => absurd impossible List.not_mem_nil⟩, alone _⟩
      | false =>
          rcases (holds.kept unseen state found).failures with ⟨stale, whole, old⟩
          rcases Observation.prune_split seen.now
            (state.failures ++ List.replicate (state.counted seen) seen.now) with ⟨dropped, split, aged⟩
          rw [<- Observation.queue] at split
          constructor
          · refine ⟨dropped.reverse ++ stale, ?_, ?_⟩
            · rw [whole, <- List.append_assoc, <- List.append_assoc, <- List.reverse_append, <- split,
                List.reverse_append, List.reverse_replicate]
            · intro failure member
              rcases List.mem_append.mp member with ofDropped | ofStale
              · have before := aged failure (List.mem_reverse.mp ofDropped)
                have shorter : seconds 120 <= seconds 300 := by decide
                omega
              · have before := old failure ofStale
                omega
          · apply Observation.prune_recent
            have descending := holds.ordered
            rw [whole] at descending
            have ascending : state.failures.Pairwise (· <= ·) :=
              List.pairwise_reverse.mp (List.pairwise_append.mp descending).1
            rw [List.pairwise_append]
            refine ⟨ascending, List.pairwise_replicate.mpr (Or.inr (Nat.le_refl _)), ?_⟩
            intro failure member new ofNew
            rw [List.eq_of_mem_replicate ofNew]
            refine (holds.past failure ?_).trans inOrder
            rw [whole]
            exact List.mem_append_left stale (List.mem_reverse.mpr member)

/-- The same of the entry which the observation leaves, when it does not find the container stable
while a failure is recent. -/
theorem advanced_of_history (holds : watch.Holds id) (inOrder : watch.history.now <= seen.now)
    (outside : watch.monitor.protection.recovering id seen.now = false)
    (left : watch.NothingLeft id seen) (quiet : watch.StableWhenQuiet id seen) :
    (Exists fun stale =>
      (watch.next id (.seen seen)).history.failures =
          ((watch.monitor.entry id seen).advance seen).failures.reverse ++ stale /\
        forall failure, failure ∈ stale -> failure + seconds 120 <= seen.now) /\
      forall failure, failure ∈ ((watch.monitor.entry id seen).advance seen).failures ->
        seen.now - failure <= seconds 300 := by
  rw [next_seen_failures outside, Observation.advance_failures]
  cases stable : (watch.monitor.entry id seen).stable seen with
  | true =>
      rcases quiet stable with ⟨none, old⟩
      rw [none]
      exact ⟨⟨watch.history.failures, rfl, old⟩, fun _ impossible => nomatch impossible⟩
  | false => exact queue_of_history holds inOrder left

theorem past_next (holds : watch.Holds id) (inOrder : watch.history.now <= seen.now) :
    forall failure, failure ∈ List.replicate (watch.history.counted seen) seen.now ++
      watch.history.failures -> failure <= seen.now := by
  intro failure member
  rcases List.mem_append.mp member with new | old
  · rw [List.eq_of_mem_replicate new]
  · exact (holds.past failure old).trans inOrder

/-- An observation outside of manual recovery keeps what holds, and leaves the container in
quarantine when its latest failures are recent. -/
theorem holds_seen (holds : watch.Holds id) (inOrder : watch.history.now <= seen.now)
    (outside : watch.monitor.protection.recovering id seen.now = false)
    (left : watch.NothingLeft id seen) (quiet : watch.StableWhenQuiet id seen) :
    (watch.next id (.seen seen)).Holds id /\
      ((watch.next id (.seen seen)).history.Looping -> (watch.next id (.seen seen)).Quarantined id) := by
  rcases advanced_of_history holds inOrder outside left quiet with ⟨⟨stale, whole, old⟩, recent⟩
  have failures := @next_seen_failures id watch seen outside
  have past : forall failure, failure ∈ (watch.next id (.seen seen)).history.failures ->
      failure <= (watch.next id (.seen seen)).history.now := by
    rw [failures]
    exact past_next holds inOrder
  have entry : (watch.next id (.seen seen)).monitor.observations.lookup id =
      some ((watch.monitor.entry id seen).advance seen).settled := Monitor.observe_entry outside
  have kept : ((watch.monitor.entry id seen).advance seen).settled.Kept
      (watch.next id (.seen seen)).history := by
    refine ⟨⟨stale, whole, old⟩, ?_⟩
    intro quarantined
    rcases Bool.or_eq_true_iff.mp quarantined with before | long
    · cases found : watch.monitor.observations.lookup id with
      | none =>
          have new : (watch.monitor.entry id seen).quarantined = true := before
          rw [Monitor.entry, found, Option.getD_none] at new
          cases new
      | some state =>
          have held : state.quarantined = true := by
            have same : (watch.monitor.entry id seen).quarantined = true := before
            rw [Monitor.entry, found, Option.getD_some] at same
            exact same
          cases unseen : watch.history.unseen with
          | true =>
              rw [(left unseen state found).1] at held
              cases held
          | false =>
              have looped := (holds.kept unseen state found).quarantined held
              exact History.looped_of_longer failures looped
    · exact History.looped_of_queue whole (of_decide_eq_true long) past recent
  constructor
  · refine
      { past
        ordered := ?_
        absent := ?_
        last := ?_
        unseen := fun impossible => (by cases impossible)
        kept := ?_ }
    · rw [failures, List.pairwise_append]
      refine ⟨List.pairwise_replicate.mpr (Or.inr (Nat.le_refl _)), holds.ordered, ?_⟩
      intro new ofNew failure member
      rw [List.eq_of_mem_replicate ofNew]
      exact (holds.past failure member).trans inOrder
    · intro none
      rw [entry] at none
      cases none
    · intro state found
      rw [entry] at found
      cases found
      exact ⟨seen, rfl, rfl, rfl⟩
    · intro _ state found
      rw [entry] at found
      cases found
      exact kept
  · intro looping
    have long := History.long_of_looping whole old looping
    refine ⟨_, entry, ?_⟩
    rw [Observation.settled, Bool.or_eq_true_iff]
    right
    exact decide_eq_true long

/-- An observation within the window starts afresh. -/
theorem holds_recovering (recovering : watch.monitor.protection.recovering id seen.now = true) :
    (watch.next id (.seen seen)).Holds id := by
  have entry : (watch.next id (.seen seen)).monitor.observations.lookup id =
      some (Observation.fresh seen) := Monitor.observe_recovering recovering
  have failures : (watch.next id (.seen seen)).history.failures = [] := by
    simp only [next, History.next, recovering, if_true]
  refine
    { past := ?_
      ordered := ?_
      absent := ?_
      last := ?_
      unseen := fun _ => failures
      kept := ?_ }
  · rw [failures]
    exact fun _ impossible => nomatch impossible
  · rw [failures]
    exact List.Pairwise.nil
  · intro none
    rw [entry] at none
    cases none
  · intro state found
    rw [entry] at found
    cases found
    exact ⟨seen, rfl, rfl, rfl⟩
  · intro _ state found
    rw [entry] at found
    cases found
    exact ⟨⟨[], failures, fun _ impossible => nomatch impossible⟩, fun impossible => nomatch impossible⟩

/-- What holds beside the monitor is kept by every step that meets the condition. -/
theorem holds_next (occurrence : Occurrence) (inOrder : watch.InOrder occurrence)
    (meets : watch.Meets id occurrence) (holds : watch.Holds id) :
    (watch.next id occurrence).Holds id := by
  cases occurrence with
  | seen seen =>
      cases window : watch.monitor.protection.recovering id seen.now with
      | true => exact holds_recovering window
      | false => exact (holds_seen holds inOrder window (meets window).1 (meets window).2).1
  | manualRecovery now =>
      exact
        { past := fun _ impossible => nomatch impossible
          ordered := List.Pairwise.nil
          absent := fun none => ⟨(holds.absent none).1, rfl⟩
          last := holds.last
          unseen := fun _ => rfl
          kept := fun impossible => nomatch impossible }
  | forgotten =>
      exact
        { past := holds.past
          ordered := holds.ordered
          absent := holds.absent
          last := holds.last
          unseen := holds.unseen
          kept := holds.kept }
  | gone =>
      have erased : (watch.next id .gone).monitor.observations.lookup id = none :=
        AList.lookup_erase id watch.monitor.observations
      refine
        { past := fun _ impossible => nomatch impossible
          ordered := List.Pairwise.nil
          absent := fun _ => ⟨rfl, rfl⟩
          last := ?_
          unseen := fun _ => rfl
          kept := ?_ }
      · intro state found
        rw [erased] at found
        cases found
      · intro _ state found
        rw [erased] at found
        cases found

theorem holds_start : (({} : Watch)).Holds id where
  past := fun _ impossible => nomatch impossible
  ordered := List.Pairwise.nil
  absent := fun _ => ⟨rfl, rfl⟩
  last := fun _ impossible => nomatch impossible
  unseen := fun _ => rfl
  kept := fun _ _ impossible => nomatch impossible

/-- What is to hold after an observation follows from what holds before it. -/
theorem guarded_of_holds (holds : watch.Holds id) (inOrder : watch.history.now <= seen.now)
    (meets : watch.Meets id (.seen seen)) : watch.Guarded id seen := by
  intro outside
  rcases holds_seen holds inOrder outside (meets outside).1 (meets outside).2 with ⟨after, engaged⟩
  refine ⟨engaged, ?_⟩
  rintro ⟨state, found, quarantined⟩
  exact (after.kept rfl state found).quarantined quarantined

/-- Crash loops are caught in every run in which no observation finds the container stable while
a failure is recent, and nothing is left over from before a manual recovery. -/
theorem protected_of_meets (id : Text) (run : List Occurrence)
    (inOrder : Machine.Along (next id) InOrder {} run)
    (meets : Machine.Along (next id) (Meets id) {} run) : Protected id run := by
  have both := Machine.along_and inOrder meets
  apply Machine.along_of_reach
  intro front occurrence back whole
  rw [whole] at both
  rcases (Machine.along_append _ _ _ _ _).mp both with ⟨before, met, _⟩
  have holds : (Machine.reach (next id) {} front).Holds id :=
    Machine.along_invariant (fun _ occurrence met => holds_next occurrence met.1 met.2) holds_start before
  cases occurrence with
  | seen seen => exact guarded_of_holds holds met.1 met.2
  | manualRecovery now => trivial
  | forgotten => trivial
  | gone => trivial

/-- A server that crashes three times within half a minute. -/
def crashing : List Occurrence :=
  [.seen ⟨seconds 10, 0, true, 0⟩, .seen ⟨seconds 20, 1, true, 0⟩, .seen ⟨seconds 30, 2, true, 0⟩,
    .seen ⟨seconds 40, 3, true, 1⟩]

theorem crashing_protected : Protected "a".toList crashing := by
  apply protected_of_meets
  · decide +kernel
  · decide +kernel

/-- Three restarts at once of a container that is found running after two minutes are forgotten as
they are counted, and a quarantine from before a manual recovery stays when no observation falls
into its window. -/
theorem crash_loops_missed :
    (Machine.Along (next "a".toList) InOrder {}
        [.seen ⟨0, 0, true, 0⟩, .seen ⟨seconds 120, 3, true, 0⟩] /\
      Not (Protected "a".toList [.seen ⟨0, 0, true, 0⟩, .seen ⟨seconds 120, 3, true, 0⟩])) /\
    (Machine.Along (next "a".toList) InOrder {}
        [.seen ⟨0, 0, true, 0⟩, .seen ⟨seconds 10, 3, true, 0⟩, .manualRecovery (seconds 20),
          .seen ⟨seconds 200, 3, true, 0⟩] /\
      Not (Protected "a".toList
        [.seen ⟨0, 0, true, 0⟩, .seen ⟨seconds 10, 3, true, 0⟩, .manualRecovery (seconds 20),
          .seen ⟨seconds 200, 3, true, 0⟩])) := by
  refine ⟨⟨by decide +kernel, ?_⟩, ⟨by decide +kernel, ?_⟩⟩
  · rintro ⟨_, second, _⟩
    have engaged := (second (by decide +kernel)).1 (by decide +kernel)
    rcases engaged with ⟨state, found, quarantined⟩
    have entry : (Machine.reach (next "a".toList) {} [.seen ⟨0, 0, true, 0⟩,
        .seen ⟨seconds 120, 3, true, 0⟩]).monitor.observations.lookup "a".toList =
        some ⟨3, true, some 0, [], false⟩ := by decide +kernel
    cases entry.symm.trans found
    cases quarantined
  · rintro ⟨_, _, _, last, _⟩
    have looped := (last (by decide +kernel)).2
    have entry : (Machine.reach (next "a".toList) {} [.seen ⟨0, 0, true, 0⟩,
        .seen ⟨seconds 10, 3, true, 0⟩, .manualRecovery (seconds 20),
          .seen ⟨seconds 200, 3, true, 0⟩]).monitor.observations.lookup "a".toList =
        some ⟨3, true, some 0, [], true⟩ := by decide +kernel
    rcases looped ⟨_, entry, rfl⟩ with ⟨three, inside, length, _⟩
    have none : three = [] := List.sublist_nil.mp inside
    rw [none] at length
    cases length

end Watch

end Runtime
end Agapornis
