import Agapornis.Foundations.Machine
import Mathlib.Data.List.Induction

namespace Agapornis
namespace Runtime

open Foundations

/-!
# The serve loop

The agent serves with a certificate bundle until it is interrupted or notified
that the bundle was changed.  It then drains the connections, and goes on with
the new bundle if the notified value is another than the one it captured when it
began to serve; otherwise it leaves the loop, which ends the process.

A notification is awaited by the version of the watched value that was seen
last, whereas the loop compares values.  The two come apart when a notification
arrives while connections are drained or the bundle is loaded.
-/

/-- How far the loop is.  The captured value is that of the round. -/
inductive LoopPhase where
  | loading
  | serving (current : Nat)
  | draining (current : Nat)
  | exited
  deriving DecidableEq, Repr

structure ServeLoop where
  value : Nat := 0
  version : Nat := 0
  seen : Nat := 0
  phase : LoopPhase := .loading
  /-- An interrupt has been received, ever and since the loop serves. -/
  asked : Bool := false
  signalled : Bool := false
  /-- What the tasks that are about to notify have made of the value. -/
  notices : List Nat := []
  /-- The last notification since the value was captured, for the statements only. -/
  notified : Option Nat := none
  deriving DecidableEq, Repr

inductive LoopAction where
  /-- A task of `schedule_reload` wakes up and reads the value. -/
  | borrow
  /-- Such a task sends the value behind the one it read. -/
  | send (task : Nat)
  | interrupt
  /-- The bundle is loaded, and the loop begins to serve. -/
  | serve
  /-- The loop stops serving because it is interrupted. -/
  | interrupted
  /-- The loop stops serving because a version is there that it has not seen. -/
  | changed
  /-- The connections are drained, and the loop looks at the value. -/
  | check
  deriving DecidableEq, Repr

namespace ServeLoop

def send (loop : ServeLoop) (value : Nat) : ServeLoop :=
  { loop with value := value, version := loop.version + 1, notified := some value }

def step (loop : ServeLoop) : LoopAction -> ServeLoop
  | .borrow => { loop with notices := loop.notices ++ [loop.value + 1] }
  | .send task =>
      match loop.notices[task]? with
      | none => loop
      | some next => { loop.send next with notices := loop.notices.eraseIdx task }
  | .interrupt =>
      match loop.phase with
      | .serving _ => { loop with asked := true, signalled := true }
      | _ => { loop with asked := true }
  | .serve =>
      match loop.phase with
      | .loading => { loop with phase := .serving loop.value, signalled := false, notified := none }
      | _ => loop
  | .interrupted =>
      match loop.phase with
      | .serving current => if loop.signalled then { loop with phase := .draining current } else loop
      | _ => loop
  | .changed =>
      match loop.phase with
      | .serving current =>
          if loop.seen = loop.version then loop
          else { loop with phase := .draining current, seen := loop.version }
      | _ => loop
  | .check =>
      match loop.phase with
      | .draining current =>
          if loop.value = current then { loop with phase := .exited } else { loop with phase := .loading }
      | _ => loop

abbrev after (run : List LoopAction) : ServeLoop :=
  Machine.reach step {} run

/-- The loop is left only after an interrupt. -/
def StopsOnlyWhenAsked (run : List LoopAction) : Prop :=
  forall front back, run = front ++ back -> (after front).phase = .exited -> (after front).asked = true

/-- When the loop looks at the value without having been interrupted, it has been
notified since it captured the value, and last of another value. -/
def Answered (loop : ServeLoop) (action : LoopAction) : Prop :=
  action = .check -> loop.asked = false -> forall current, loop.phase = .draining current ->
    Exists fun value => loop.notified = some value /\ Not (value = current)

/-- In a round, the value is the one captured or the one last notified. -/
def Current (loop : ServeLoop) : Prop :=
  forall current, loop.phase = .serving current \/ loop.phase = .draining current ->
    loop.value = loop.notified.getD current

theorem current_step {loop : ServeLoop} (current : loop.Current) (action : LoopAction) :
    (loop.step action).Current := by
  cases action with
  | borrow => exact current
  | send task =>
      rw [step]
      split
      · exact current
      · exact fun _ _ => rfl
  | interrupt =>
      rw [step]
      split <;> exact current
  | serve =>
      rw [step]
      split
      · rintro captured (same | impossible)
        · cases same
          rfl
        · cases impossible
      · exact current
  | interrupted =>
      rw [step]
      split
      · next captured serving =>
          split
          · rintro other (impossible | same)
            · cases impossible
            · cases same
              exact current captured (Or.inl serving)
          · exact current
      · exact current
  | changed =>
      rw [step]
      split
      · next captured serving =>
          split
          · exact current
          · rintro other (impossible | same)
            · cases impossible
            · cases same
              exact current captured (Or.inl serving)
      · exact current
  | check =>
      rw [step]
      split
      · split
        · rintro other (impossible | impossible) <;> cases impossible
        · rintro other (impossible | impossible) <;> cases impossible
      · exact current

theorem current_after (run : List LoopAction) : (after run).Current := by
  have keeps : forall (loop : ServeLoop) action, loop.Current -> (loop.step action).Current :=
    fun _ action current => current_step current action
  apply Machine.invariant keeps
  rintro captured (impossible | impossible) <;> cases impossible

/-- An interrupt is not forgotten. -/
theorem asked_step {loop : ServeLoop} (asked : loop.asked = true) (action : LoopAction) :
    (loop.step action).asked = true := by
  cases action with
  | borrow => exact asked
  | send task =>
      rw [step]
      split <;> exact asked
  | interrupt =>
      rw [step]
      split <;> rfl
  | serve =>
      rw [step]
      split <;> exact asked
  | interrupted =>
      rw [step]
      split
      · split <;> exact asked
      · exact asked
  | changed =>
      rw [step]
      split
      · split <;> exact asked
      · exact asked
  | check =>
      rw [step]
      split
      · split <;> exact asked
      · exact asked

/-- Only a look at the value that was captured leaves the loop. -/
theorem exited_of_step {loop : ServeLoop} {action : LoopAction}
    (exited : (loop.step action).phase = .exited) : loop.phase = .exited \/
      action = .check /\ loop.phase = .draining loop.value := by
  cases action with
  | borrow => exact Or.inl exited
  | send task =>
      left
      rw [step] at exited
      split at exited <;> exact exited
  | interrupt =>
      left
      rw [step] at exited
      split at exited <;> exact exited
  | serve =>
      left
      rw [step] at exited
      split at exited
      · cases exited
      · exact exited
  | interrupted =>
      left
      rw [step] at exited
      split at exited
      · split at exited
        · cases exited
        · exact exited
      · exact exited
  | changed =>
      left
      rw [step] at exited
      split at exited
      · split at exited
        · exact exited
        · cases exited
      · exact exited
  | check =>
      rw [step] at exited
      split at exited
      · next captured draining =>
          split at exited
          · next same =>
              right
              rw [same]
              exact ⟨rfl, draining⟩
          · cases exited
      · exact Or.inl exited

/-- The loop is left only after an interrupt exactly when every round that ends
without one was notified in time. -/
theorem stopsOnlyWhenAsked_iff_answered (run : List LoopAction) :
    StopsOnlyWhenAsked run <-> Machine.Along step Answered {} run := by
  constructor
  · intro stops
    apply Machine.along_of_reach
    intro front action back split isCheck unasked captured draining
    subst isCheck
    have current := current_after front captured (Or.inr draining)
    by_contra unanswered
    have same : (after front).value = captured := by
      cases found : (after front).notified with
      | none =>
          rw [found] at current
          exact current
      | some value =>
          rw [found] at current
          by_contra different
          exact unanswered ⟨value, found, fun equal => different (current.trans equal)⟩
    have left : (after (front ++ [.check])) = { after front with phase := .exited } := by
      rw [after, Machine.reach_append, Machine.reach_cons, Machine.reach_nil, step, draining]
      exact if_pos same
    have asked := stops (front ++ [.check]) back (by rw [split, List.append_assoc]; rfl)
      (by rw [left])
    rw [left] at asked
    exact absurd (unasked.symm.trans asked) nofun
  · intro answered front
    induction front using List.reverseRecOn with
    | nil =>
        intro _ _ impossible
        cases impossible
    | append_singleton earlier action induction =>
        intro back split exited
        have whole : run = earlier ++ action :: back := by
          rw [split, List.append_assoc]
          rfl
        rw [after, Machine.reach_append] at exited ⊢
        rcases exited_of_step exited with before | ⟨isCheck, draining⟩
        · exact asked_step (induction (action :: back) whole before) action
        · subst isCheck
          cases asked : (after earlier).asked with
          | true => exact asked_step asked .check
          | false =>
              rw [whole] at answered
              rcases answered.at rfl asked _ draining with ⟨value, notified, different⟩
              have current := current_after earlier _ (Or.inr draining)
              rw [notified] at current
              exact absurd current.symm different

/-- Every notification arrives while the loop serves, and is not of the value captured. -/
def Timely (loop : ServeLoop) (action : LoopAction) : Prop :=
  forall task next, action = .send task -> loop.notices[task]? = some next ->
    Exists fun current => loop.phase = .serving current /\ Not (next = current)

/-- What holds before the first interrupt if all notifications arrive in time. -/
structure Attentive (loop : ServeLoop) : Prop where
  unsignalled : loop.signalled = false
  loading : loop.phase = .loading -> loop.seen = loop.version
  unnotified : forall current, loop.phase = .serving current -> loop.notified = none ->
    loop.seen = loop.version
  other : forall current value, loop.phase = .serving current -> loop.notified = some value ->
    Not (value = current)
  drained : forall current, loop.phase = .draining current -> loop.seen = loop.version /\
    Exists fun value => loop.notified = some value /\ Not (value = current)

theorem attentive_step {loop : ServeLoop} (attentive : Attentive loop) {action : LoopAction}
    (timely : Timely loop action) (unasked : (loop.step action).asked = false) :
    Attentive (loop.step action) := by
  cases action with
  | borrow =>
      exact ⟨attentive.unsignalled, attentive.loading, attentive.unnotified, attentive.other,
        attentive.drained⟩
  | send task =>
      rw [step]
      split
      · exact attentive
      · next next found =>
          rcases timely task next rfl found with ⟨current, serving, different⟩
          refine ⟨attentive.unsignalled, ?_, nofun, ?_, ?_⟩
          · intro loading
            cases serving.symm.trans loading
          · intro captured value same notified
            cases serving.symm.trans same
            cases notified
            exact different
          · intro captured draining
            cases serving.symm.trans draining
  | interrupt =>
      rw [step] at unasked
      split at unasked <;> cases unasked
  | serve =>
      rw [step]
      split
      · next loading =>
          refine ⟨rfl, nofun, fun _ _ _ => attentive.loading loading, ?_, nofun⟩
          intro _ value _ impossible
          cases impossible
      · exact attentive
  | interrupted =>
      rw [step]
      split
      · rw [if_neg (by rw [attentive.unsignalled]; nofun)]
        exact attentive
      · exact attentive
  | changed =>
      rw [step]
      split
      · next current serving =>
          split
          · exact attentive
          · next unseen =>
              refine ⟨attentive.unsignalled, nofun, nofun, nofun, ?_⟩
              intro captured same
              cases same
              refine ⟨rfl, ?_⟩
              cases found : loop.notified with
              | none => exact absurd (attentive.unnotified current serving found) unseen
              | some value => exact ⟨value, rfl, attentive.other current value serving found⟩
      · exact attentive
  | check =>
      rw [step]
      split
      · next current draining =>
          split
          · exact ⟨attentive.unsignalled, nofun, nofun, nofun, nofun⟩
          · exact ⟨attentive.unsignalled, fun _ => (attentive.drained current draining).1, nofun, nofun, nofun⟩
      · exact attentive

/-- As long as notifications arrive in time, the loop is left only after an interrupt. -/
theorem stopsOnlyWhenAsked_of_timely {run : List LoopAction}
    (timely : Machine.Along step Timely {} run) : StopsOnlyWhenAsked run := by
  have keeps : forall (loop : ServeLoop) action, Timely loop action ->
      (loop.asked = false -> Attentive loop) ->
      (loop.step action).asked = false -> Attentive (loop.step action) := by
    intro loop action timely attentive unasked
    apply attentive_step (attentive ?_) timely unasked
    cases asked : loop.asked with
    | false => rfl
    | true => exact (asked_step asked action).symm.trans unasked
  rw [stopsOnlyWhenAsked_iff_answered]
  apply Machine.along_of_reach
  intro front action back split _ unasked captured draining
  rw [split] at timely
  have early := ((Machine.along_append step Timely front (action :: back) {}).mp timely).1
  have start : ({} : ServeLoop).asked = false -> Attentive {} :=
    fun _ => ⟨rfl, fun _ => rfl, nofun, nofun, nofun⟩
  exact ((Machine.along_invariant keeps start early unasked).drained captured draining).2

/-- A second notification while the connections are drained for the first one ends the agent. -/
theorem second_notification_stops : Not (forall run : List LoopAction, StopsOnlyWhenAsked run) := by
  intro always
  have asked := always [.serve, .borrow, .send 0, .changed, .borrow, .send 0, .check, .serve, .changed, .check]
    _ [] (List.append_nil _).symm (by decide)
  exact absurd asked (by decide)

end ServeLoop

end Runtime
end Agapornis
