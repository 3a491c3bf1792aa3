import Agapornis.Foundations.RateWindows
import Agapornis.Foundations.Table
import Agapornis.Foundations.Text

namespace Agapornis
namespace Security

open Foundations

/-!
# Limits of rates

Every server has two limits: its console lines in a second, and the commands
sent to it in five.  Lines beyond the limit are suppressed, but the first of
them in a window may give a notice, or trip the protection when there have been
enough such windows one after the other.

A call reads the clock once, in nanoseconds.
-/

def seconds (count : Nat) : Nat :=
  count * 1000000000

/-- The limits that the process was started with. -/
structure ProtectionLimits where
  consoleLinesPerSecond : Nat := 2000
  consoleStrikeLimit : Nat := 3
  consoleCommandsPer5Seconds : Nat := 20
  deriving DecidableEq, Repr

structure Rate where
  started : Nat
  count : Nat
  deriving DecidableEq, Repr

structure ConsoleRate where
  started : Nat
  count : Nat := 0
  strikes : Nat := 0
  lastStrike : Option Nat := none
  exceeded : Bool := false
  deriving DecidableEq, Repr

inductive LineDecision where
  | allow
  | suppress
  | notify
  | trip
  deriving DecidableEq, Repr

namespace ConsoleRate

/-- Strikes are forgotten ten seconds after the last one. -/
def decay (rate : ConsoleRate) (now : Nat) : ConsoleRate :=
  match rate.lastStrike with
  | some lastStrike =>
      if seconds 10 <= now - lastStrike then { rate with strikes := 0, lastStrike := none } else rate
  | none => rate

/-- A window is over after a second. -/
def roll (rate : ConsoleRate) (now : Nat) : ConsoleRate :=
  if seconds 1 <= now - rate.started then { rate with started := now, count := 0, exceeded := false }
  else rate

/-- What becomes of the first line beyond the limit in a window. -/
def verdict (limits : ProtectionLimits) (strikes : Nat) : LineDecision :=
  if limits.consoleStrikeLimit <= strikes then .trip
  else if strikes = 1 then .notify
  else .suppress

/-- Count one more line. -/
def countLine (limits : ProtectionLimits) (rate : ConsoleRate) (now : Nat) : LineDecision × ConsoleRate :=
  let rate := { rate with count := rate.count + 1 }
  if rate.count <= limits.consoleLinesPerSecond then (.allow, rate)
  else if rate.exceeded then (.suppress, rate)
  else
    let rate := { rate with exceeded := true, strikes := rate.strikes + 1, lastStrike := some now }
    (verdict limits rate.strikes, rate)

def observe (limits : ProtectionLimits) (rate : Option ConsoleRate) (now : Nat) :
    LineDecision × ConsoleRate :=
  countLine limits (((rate.getD { started := now }).decay now).roll now) now

end ConsoleRate

def Rate.accept (limits : ProtectionLimits) (rate : Option Rate) (now : Nat) : Bool × Rate :=
  let rate := rate.getD { started := now, count := 0 }
  let rate := if seconds 5 <= now - rate.started then { started := now, count := 0 } else rate
  let rate := { rate with count := rate.count + 1 }
  (decide (rate.count <= limits.consoleCommandsPer5Seconds), rate)

structure ProtectionState where
  limits : ProtectionLimits
  commands : Table Text Rate := ∅
  console : Table Text ConsoleRate := ∅

namespace ProtectionState

def observeLine (state : ProtectionState) (id : Text) (now : Nat) : LineDecision × ProtectionState :=
  let observed := ConsoleRate.observe state.limits (state.console.lookup id) now
  (observed.1, { state with console := state.console.insert id observed.2 })

def acceptCommand (state : ProtectionState) (id : Text) (now : Nat) : Bool × ProtectionState :=
  let accepted := Rate.accept state.limits (state.commands.lookup id) now
  (accepted.1, { state with commands := state.commands.insert id accepted.2 })

end ProtectionState

/-! ## The calls for one server -/

inductive ProtectionCall where
  | observeLine (id : Text)
  | acceptCommand (id : Text)
  deriving DecidableEq, Repr

namespace ProtectionState

def step (state : ProtectionState) (now : Nat) : ProtectionCall -> ProtectionState
  | .observeLine id => (state.observeLine id now).2
  | .acceptCommand id => (state.acceptCommand id now).2

/-- What is decided about the lines of a server, among calls for any servers. -/
def decisions (id : Text) : ProtectionState -> List (Nat × ProtectionCall) -> List (Nat × LineDecision)
  | _, [] => []
  | state, (now, call) :: later =>
      (if call = .observeLine id then [(now, (state.observeLine id now).1)] else []) ++
        decisions id (state.step now call) later

/-- Which commands to a server are accepted, among calls for any servers. -/
def acceptances (id : Text) : ProtectionState -> List (Nat × ProtectionCall) -> List (Nat × Bool)
  | _, [] => []
  | state, (now, call) :: later =>
      (if call = .acceptCommand id then [(now, (state.acceptCommand id now).1)] else []) ++
        acceptances id (state.step now call) later

/-- The times at which a call is made. -/
def timesOf (call : ProtectionCall) (calls : List (Nat × ProtectionCall)) : List Nat :=
  (calls.filter fun row => row.2 = call).map Prod.fst

/-- The calls are made one after the other. -/
def InTime (calls : List (Nat × ProtectionCall)) : Prop :=
  calls.Pairwise fun earlier later => earlier.1 <= later.1

end ProtectionState

/-- The decisions that one server's rate makes. -/
def observed (limits : ProtectionLimits) : Option ConsoleRate -> List Nat -> List (Nat × LineDecision)
  | _, [] => []
  | rate, now :: later =>
      let decided := ConsoleRate.observe limits rate now
      (now, decided.1) :: observed limits (some decided.2) later

namespace ProtectionState

theorem timesOf_inTime {calls : List (Nat × ProtectionCall)} (inTime : InTime calls)
    (call : ProtectionCall) : (timesOf call calls).Pairwise (· <= ·) :=
  List.pairwise_map.mpr (inTime.sublist List.filter_sublist)

theorem step_limits (state : ProtectionState) (now : Nat) (call : ProtectionCall) :
    (state.step now call).limits = state.limits := by
  cases call <;> rfl

theorem timesOf_cons (call other : ProtectionCall) (now : Nat) (later : List (Nat × ProtectionCall)) :
    timesOf call ((now, other) :: later) =
      (if other = call then [now] else []) ++ timesOf call later := by
  unfold timesOf
  by_cases same : other = call
  · simp [same]
  · simp [same]

/-- Calls for other servers, and those of the other kind, leave a server's lines alone. -/
theorem decisions_eq (id : Text) (calls : List (Nat × ProtectionCall)) : forall state : ProtectionState,
    decisions id state calls =
      observed state.limits (state.console.lookup id) (timesOf (.observeLine id) calls) := by
  induction calls with
  | nil => exact fun state => rfl
  | cons row later induction =>
      intro state
      rcases row with ⟨now, call⟩
      rw [decisions, induction, step_limits, timesOf_cons]
      by_cases mine : call = .observeLine id
      · subst mine
        rw [if_pos rfl, if_pos rfl, List.singleton_append, List.singleton_append, observed, step,
          observeLine, AList.lookup_insert]
      · have kept : (state.step now call).console.lookup id = state.console.lookup id := by
          cases call with
          | observeLine other =>
              exact Table.lookup_insert_of_ne _ fun same => mine (by rw [same])
          | acceptCommand other => rfl
        rw [if_neg mine, if_neg mine, List.nil_append, List.nil_append, kept]

theorem acceptances_eq (id : Text) (calls : List (Nat × ProtectionCall)) : forall state : ProtectionState,
    acceptances id state calls =
      RateWindows.accepted (Rate.accept state.limits) (state.commands.lookup id)
        (timesOf (.acceptCommand id) calls) := by
  induction calls with
  | nil => exact fun state => rfl
  | cons row later induction =>
      intro state
      rcases row with ⟨now, call⟩
      rw [acceptances, induction, step_limits, timesOf_cons]
      by_cases mine : call = .acceptCommand id
      · subst mine
        rw [if_pos rfl, if_pos rfl, List.singleton_append, List.singleton_append, RateWindows.accepted, step,
          acceptCommand, AList.lookup_insert]
      · have kept : (state.step now call).commands.lookup id = state.commands.lookup id := by
          cases call with
          | acceptCommand other =>
              exact Table.lookup_insert_of_ne _ fun same => mine (by rw [same])
          | observeLine other => rfl
        rw [if_neg mine, if_neg mine, List.nil_append, List.nil_append, kept]

end ProtectionState

/-! ## Any interval -/

namespace ConsoleRate

@[simp] theorem decay_started (rate : ConsoleRate) (now : Nat) : (rate.decay now).started = rate.started := by
  unfold decay
  split
  · split <;> rfl
  · rfl

@[simp] theorem decay_count (rate : ConsoleRate) (now : Nat) : (rate.decay now).count = rate.count := by
  unfold decay
  split
  · split <;> rfl
  · rfl

@[simp] theorem decay_exceeded (rate : ConsoleRate) (now : Nat) :
    (rate.decay now).exceeded = rate.exceeded := by
  unfold decay
  split
  · split <;> rfl
  · rfl

theorem roll_within {rate : ConsoleRate} {now : Nat} (within : now < rate.started + seconds 1) :
    rate.roll now = rate := by
  unfold roll
  rw [if_neg]
  unfold seconds at *
  omega

theorem roll_over {rate : ConsoleRate} {now : Nat} (past : rate.started + seconds 1 <= now) :
    rate.roll now = { rate with started := now, count := 0, exceeded := false } := by
  unfold roll
  rw [if_pos]
  unfold seconds at *
  omega

/-- What of a window's quota is used: its lines up to the limit, and one beyond. -/
def used (limits : ProtectionLimits) (rate : ConsoleRate) : Nat :=
  min rate.count limits.consoleLinesPerSecond + rate.exceeded.toNat

@[simp] theorem countLine_started (limits : ProtectionLimits) (rate : ConsoleRate) (now : Nat) :
    (countLine limits rate now).2.started = rate.started := by
  unfold countLine
  dsimp only
  split
  · rfl
  · split <;> rfl

theorem countLine_used (limits : ProtectionLimits) (rate : ConsoleRate) (now : Nat) :
    rate.used limits + (decide (Not ((countLine limits rate now).1 = .suppress))).toNat <=
      (countLine limits rate now).2.used limits := by
  unfold countLine used
  dsimp only
  split
  · next within =>
      simp only [reduceCtorEq, not_false_eq_true, decide_true, Bool.toNat_true]
      omega
  · split
    · next beyond exceeded =>
        simp only [not_true_eq_false, decide_false, Bool.toNat_false, exceeded, Bool.toNat_true]
        omega
    · next beyond exceeded =>
        have few := Bool.toNat_le (decide (Not (verdict limits (rate.strikes + 1) = LineDecision.suppress)))
        have none : rate.exceeded = false := by simpa using exceeded
        simp only [none, Bool.toNat_false, Bool.toNat_true]
        omega

/-- The rate of the lines is a limiter whose quota is one above the limit. -/
theorem observe_windowed (limits : ProtectionLimits) :
    RateWindows.Windowed (seconds 1) (limits.consoleLinesPerSecond + 1)
      (fun rate now => (decide (Not ((observe limits rate now).1 = .suppress)), (observe limits rate now).2))
      started (used limits) where
  bounded rate := by
    have few := Bool.toNat_le rate.exceeded
    unfold used
    omega
  opens now := by
    unfold observe
    rw [countLine_started, Option.getD_none,
      roll_within (by rw [decay_started]; exact Nat.lt_add_of_pos_right (by decide)),
      decay_started]
  stays rate now within := by
    unfold observe
    rw [Option.getD_some, roll_within (by rw [decay_started]; exact within)]
    have uses := countLine_used limits (rate.decay now) now
    have same : (rate.decay now).used limits = rate.used limits := by
      rw [used, decay_count, decay_exceeded]
      rfl
    rw [same] at uses
    exact ⟨by rw [countLine_started, decay_started], uses⟩
  reopens rate now past := by
    unfold observe
    rw [Option.getD_some, countLine_started, roll_over (by rw [decay_started]; exact past)]
  counts rate now := by
    have uses := countLine_used limits (((rate.getD { started := now }).decay now).roll now) now
    exact (Nat.le_add_left _ _).trans uses

end ConsoleRate

/-- The rate of the commands is a limiter. -/
theorem Rate.accept_windowed (limits : ProtectionLimits) :
    RateWindows.Windowed (seconds 5) limits.consoleCommandsPer5Seconds (Rate.accept limits) Rate.started
      (fun rate => min rate.count limits.consoleCommandsPer5Seconds) where
  bounded rate := Nat.min_le_right _ _
  opens now := by
    unfold Rate.accept
    dsimp only [Option.getD_none]
    split <;> rfl
  stays rate now within := by
    have still : Not (seconds 5 <= now - rate.started) := by
      unfold seconds at *
      omega
    unfold Rate.accept
    simp only [Option.getD_some, if_neg still]
    refine ⟨trivial, ?_⟩
    by_cases few : rate.count + 1 <= limits.consoleCommandsPer5Seconds
    · rw [decide_eq_true few, Bool.toNat_true]
      omega
    · rw [decide_eq_false few, Bool.toNat_false]
      omega
  reopens rate now past := by
    have done : seconds 5 <= now - rate.started := by
      unfold seconds at *
      omega
    unfold Rate.accept
    simp only [Option.getD_some, if_pos done]
  counts rate now := by
    unfold Rate.accept
    dsimp only
    generalize (if seconds 5 <= now - (rate.getD ⟨now, 0⟩).started then (⟨now, 0⟩ : Rate)
      else rate.getD ⟨now, 0⟩) = current
    by_cases few : current.count + 1 <= limits.consoleCommandsPer5Seconds
    · rw [decide_eq_true few, Bool.toNat_true]
      omega
    · rw [decide_eq_false few, Bool.toNat_false]
      exact Nat.zero_le _

end Security
end Agapornis
