import Agapornis.Foundations.PathWalk

namespace Agapornis
namespace Core

open Foundations

/-!
Failures of the agent's operations.  An operation fails with a message of its
own, with the error of a call it made, or with such a failure and a sentence
of context in front of it.
-/

inductive Failure where
  | bail (message : String)
  | io (error : Errno)
  | context (message : String) (cause : Failure)
  deriving DecidableEq, Repr

/-- The whole chain of a failure on one line. -/
def Failure.chain (describe : Errno -> String) : Failure -> String
  | .bail message => message
  | .io error => describe error
  | .context message cause => message ++ ": " ++ cause.chain describe

/-- Lift the error of a call. -/
def attempt {Result : Type} : Except Errno Result -> Except Failure Result
  | .ok value => .ok value
  | .error error => .error (.io error)

/-- Fail with a message when something is the case. -/
def refuseIf (condition : Bool) (message : String) : Except Failure Unit :=
  if condition then .error (.bail message) else .ok ()

theorem refuseIf_eq_ok {condition : Bool} {message : String} {unused : Unit} :
    refuseIf condition message = .ok unused <-> condition = false := by
  cases condition <;> simp [refuseIf]

theorem refuseIf_eq_error {condition : Bool} {message : String} :
    (Exists fun failure => refuseIf condition message = .error failure) <-> condition = true := by
  cases condition <;> simp [refuseIf]

theorem attempt_eq_ok {Result : Type} {outcome : Except Errno Result} {value : Result} :
    attempt outcome = .ok value <-> outcome = .ok value := by
  cases outcome <;> simp [attempt]

/-- Put a sentence of context in front of a failure. -/
def withContext {Result : Type} (message : String) : Except Failure Result -> Except Failure Result
  | .ok result => .ok result
  | .error cause => .error (.context message cause)

theorem withContext_eq_ok {Result : Type} {message : String} {outcome : Except Failure Result}
    {result : Result} : withContext message outcome = .ok result <-> outcome = .ok result := by
  cases outcome <;> simp [withContext]

/-- A sequence succeeds when both its parts do. -/
theorem bind_eq_ok {First Second : Type} {first : Except Failure First}
    {second : First -> Except Failure Second} {value : Second} :
    (first >>= second) = .ok value <->
      Exists fun middle => first = .ok middle /\ second middle = .ok value := by
  cases first with
  | error failure =>
      constructor
      · intro impossible
        cases impossible
      · rintro ⟨middle, impossible, _⟩
        cases impossible
  | ok middle =>
      constructor
      · intro continued
        exact ⟨middle, rfl, continued⟩
      · rintro ⟨same, first, continued⟩
        cases first
        exact continued

/-- A check and what follows it succeed together. -/
theorem check_eq_ok {Result : Type} {check : Except Failure Unit} {rest : Unit -> Except Failure Result}
    {value : Result} : (check >>= rest) = .ok value <-> check = .ok () /\ rest () = .ok value := by
  rw [bind_eq_ok]
  constructor
  · rintro ⟨_, checked, continued⟩
    exact ⟨checked, continued⟩
  · rintro ⟨checked, continued⟩
    exact ⟨(), checked, continued⟩

/-- A sequence fails where one of its parts does. -/
theorem bind_eq_error {First Second : Type} {first : Except Failure First}
    {second : First -> Except Failure Second} :
    (Exists fun failure => (first >>= second) = .error failure) <->
      (Exists fun failure => first = .error failure) \/
        Exists fun middle => first = .ok middle /\ Exists fun failure => second middle = .error failure := by
  cases first with
  | error failure => exact iff_of_true ⟨failure, rfl⟩ (Or.inl ⟨failure, rfl⟩)
  | ok middle =>
      constructor
      · intro failed
        exact Or.inr ⟨middle, rfl, failed⟩
      · rintro (⟨failure, impossible⟩ | ⟨other, same, failed⟩)
        · cases impossible
        · cases same
          exact failed

end Core
end Agapornis
