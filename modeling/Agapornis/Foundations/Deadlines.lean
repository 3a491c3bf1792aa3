import Agapornis.Foundations.Program

namespace Agapornis
namespace Foundations

/-!
# Programs that are given up

A program that is not over after a number of calls is given up while its next
call is under way.  What becomes of that call is for the one who gives it up to
say: it may be lost, carried out, or carried out later.
-/

namespace Program

variable {Call : Type} {Reply : Call -> Type} {Failure Result Later State : Type}
  (perform : (request : Call) -> State -> Reply request × State) (giveUp : Call -> State -> State)

/-- Run a program for a number of calls at most.  There is no outcome where it is given up. -/
def timed : Nat -> Program Call Reply Failure Result -> State -> Option (Except Failure Result) × State
  | _, .done result, state => (some (.ok result), state)
  | _, .failed failure, state => (some (.error failure), state)
  | 0, .call request _, state => (none, giveUp request state)
  | calls + 1, .call request next, state =>
      timed calls (next (perform request state).1) (perform request state).2

/-- Run a program for a number of calls at most, or to its end where there is no limit. -/
def within (limit : Option Nat) (program : Program Call Reply Failure Result) (state : State) :
    Option (Except Failure Result) × State :=
  match limit with
  | some calls => program.timed perform giveUp calls state
  | none => (some (program.run perform state).1, (program.run perform state).2)

variable {perform giveUp}

@[simp] theorem timed_done (calls : Nat) (result : Result) (state : State) :
    (.done result : Program Call Reply Failure Result).timed perform giveUp calls state =
    (some (.ok result), state) := by
  cases calls <;> rfl

@[simp] theorem timed_failed (calls : Nat) (failure : Failure) (state : State) :
    (.failed failure : Program Call Reply Failure Result).timed perform giveUp calls state =
      (some (.error failure), state) := by
  cases calls <;> rfl

/-- One call takes one of the calls that are left. -/
theorem within_call (limit : Option Nat) (request : Call) (next : Reply request -> Program Call Reply Failure Result)
    (state : State) :
    (.call request next : Program Call Reply Failure Result).within perform giveUp
        (limit.map fun calls => calls + 1) state =
      (next (perform request state).1).within perform giveUp limit (perform request state).2 := by
  cases limit <;> rfl

/-- A number of calls is no call, or one call more than another number. -/
theorem limit_cases (limit : Option Nat) :
    limit = some 0 \/ Exists fun fewer : Option Nat => limit = fewer.map fun calls => calls + 1 := by
  cases limit with
  | none => exact Or.inr ⟨none, rfl⟩
  | some calls =>
      cases calls with
      | zero => exact Or.inl rfl
      | succ calls => exact Or.inr ⟨some calls, rfl⟩

/-- A limit leaves time for so many calls. -/
def Allows (needed : Nat) : Option Nat -> Prop
  | none => True
  | some calls => needed <= calls

/-- A program that makes a call is done in time if there is time for the call and then for the rest. -/
theorem within_call_done {limit : Option Nat} {request : Call}
    {next : Reply request -> Program Call Reply Failure Result}
    {state : State} {result : Result} {needed : Nat} {rest : Prop}
    (after : forall fewer : Option Nat,
      ((next (perform request state).1).within perform giveUp fewer (perform request state).2).1 = some (.ok result) <->
        rest /\ Allows needed fewer) :
    ((.call request next : Program Call Reply Failure Result).within perform giveUp limit state).1 =
      some (.ok result) <->
      rest /\ Allows (needed + 1) limit := by
  rcases limit_cases limit with rfl | ⟨fewer, rfl⟩
  · exact iff_of_false (fun impossible => by cases impossible) (fun both => Nat.not_succ_le_zero _ both.2)
  · rw [within_call, after]
    cases fewer with
    | none => exact Iff.rfl
    | some calls => exact and_congr_right' Nat.succ_le_succ_iff.symm

/-- A program that is over in time ends as it does without a limit. -/
theorem timed_some {program : Program Call Reply Failure Result} {calls : Nat} {state after : State}
    {outcome : Except Failure Result} (ended : program.timed perform giveUp calls state = (some outcome, after)) :
    program.run perform state = (outcome, after) := by
  induction program generalizing calls state with
  | done result =>
      rw [timed_done] at ended
      cases ended
      rfl
  | failed failure =>
      rw [timed_failed] at ended
      cases ended
      rfl
  | call request next induction =>
      cases calls with
      | zero => cases ended
      | succ calls => exact induction _ ended

/-- A program that ends badly without a limit is not done within one. -/
theorem within_not_ok {limit : Option Nat} {program : Program Call Reply Failure Result} {state : State}
    (bad : Exists fun failure => (program.run perform state).1 = .error failure) (result : Result) :
    Not ((program.within perform giveUp limit state).1 = some (.ok result)) := by
  intro good
  rcases bad with ⟨failure, bad⟩
  cases limit with
  | none =>
      cases bad.symm.trans (Option.some.inj good)
  | some calls =>
      have ended := timed_some (Prod.ext good rfl : program.timed perform giveUp calls state = (some (.ok result), _))
      rw [ended] at bad
      cases bad

/-- What every allowed call preserves, also when it is given up, a program of such calls preserves. -/
theorem within_of_only {allowed : Call -> Prop} {holds : State -> Prop}
    (preserves : forall request state, allowed request -> holds state -> holds (perform request state).2)
    (survives : forall request state, allowed request -> holds state -> holds (giveUp request state))
    (limit : Option Nat) {program : Program Call Reply Failure Result} (only : program.Only allowed) {state : State}
    (here : holds state) : holds (program.within perform giveUp limit state).2 := by
  cases limit with
  | none => exact run_of_only perform preserves only here
  | some calls =>
      show holds (program.timed perform giveUp calls state).2
      induction program generalizing calls state with
      | done result => rwa [timed_done]
      | failed failure => rwa [timed_failed]
      | call request next induction =>
          cases calls with
          | zero => exact survives request state only.1 here
          | succ calls => exact induction _ (only.2 _) (preserves request state only.1 here) calls

end Program

end Foundations
end Agapornis
