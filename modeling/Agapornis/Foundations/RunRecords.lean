import Agapornis.Foundations.Program

namespace Agapornis
namespace Foundations

/-!
# What a run has done

Each call with its reply adds some items to a record.  The record of a run is
that of its calls in their order.
-/

namespace Program

variable {Call : Type} {Reply : Call -> Type} {Failure Result Later State Item : Type}
  (perform : (request : Call) -> State -> Reply request × State)
  (items : (request : Call) -> Reply request -> List Item)

/-- The record of a run to the end. -/
def record : Program Call Reply Failure Result -> State -> List Item
  | .done _, _ => []
  | .failed _, _ => []
  | .call request next, state =>
      items request (perform request state).1 ++
        (next (perform request state).1).record (perform request state).2

variable {perform items}

theorem bind_assoc {Last : Type} (program : Program Call Reply Failure Result)
    (later : Result -> Program Call Reply Failure Later) (further : Later -> Program Call Reply Failure Last) :
    (program >>= later >>= further) = (program >>= fun result => later result >>= further) := by
  induction program with
  | done result => rfl
  | failed failure => rfl
  | call request next induction =>
      rw [call_bind, call_bind, call_bind]
      congr 1
      funext reply
      exact induction reply

theorem record_ask (request : Call) (state : State) :
    (ask request : Program Call Reply Failure (Reply request)).record perform items state =
      items request (perform request state).1 :=
  List.append_nil _

theorem record_bind (program : Program Call Reply Failure Result)
    (later : Result -> Program Call Reply Failure Later) (state : State) :
    (program >>= later).record perform items state =
      program.record perform items state ++
        match program.run perform state with
        | (.ok result, after) => (later result).record perform items after
        | (.error _, _) => [] := by
  induction program generalizing state with
  | done result => rfl
  | failed failure => rfl
  | call request next induction =>
      rw [call_bind, record, record, induction, List.append_assoc]
      rfl

theorem record_bind_failed {program : Program Call Reply Failure Result} {state : State} {failure : Failure}
    (later : Result -> Program Call Reply Failure Later) (ran : (program.run perform state).1 = .error failure) :
    (program >>= later).record perform items state = program.record perform items state := by
  rw [record_bind]
  split
  · next here =>
      rw [here] at ran
      cases ran
  · exact List.append_nil _

/-- Discarding the result of a program adds nothing. -/
theorem record_discard (program : Program Call Reply Failure Result) (later : Later) (state : State) :
    (program >>= fun _ => (.done later : Program Call Reply Failure Later)).record perform items state =
      program.record perform items state := by
  rw [record_bind]
  split <;> exact List.append_nil _

theorem record_bind_ok {program : Program Call Reply Failure Result} {state after : State} {result : Result}
    (later : Result -> Program Call Reply Failure Later) (ran : program.run perform state = (.ok result, after)) :
    (program >>= later).record perform items state =
      program.record perform items state ++ (later result).record perform items after := by
  rw [record_bind, ran]

theorem record_required {Error : Type} (failure : Error -> Failure)
    (program : Program Call Reply Failure (Except Error Result)) (state : State) :
    (required failure program).record perform items state = program.record perform items state := by
  induction program generalizing state with
  | done result => cases result <;> rfl
  | failed failure => rfl
  | call request next induction => exact congrArg (List.append _) (induction _ _)

theorem run_required_bind {Error : Type} (failure : Error -> Failure)
    (program : Program Call Reply Failure (Except Error Result))
    (later : Result -> Program Call Reply Failure Later) (state : State) :
    (required failure program >>= later).run perform state =
      match program.run perform state with
      | (.ok (.ok result), after) => (later result).run perform after
      | (.ok (.error error), after) => (.error (failure error), after)
      | (.error other, after) => (.error other, after) := by
  rw [run_bind, run_required]
  rcases program.run perform state with ⟨(_ | (_ | _)), _⟩ <;> rfl

/-- What follows a call that is required to succeed is recorded if it does. -/
theorem record_required_bind {Error : Type} (failure : Error -> Failure)
    (program : Program Call Reply Failure (Except Error Result))
    (later : Result -> Program Call Reply Failure Later) (state : State) :
    (required failure program >>= later).record perform items state =
      program.record perform items state ++
        match program.run perform state with
        | (.ok (.ok result), after) => (later result).record perform items after
        | _ => [] := by
  rw [record_bind, record_required, run_required]
  rcases program.run perform state with ⟨(_ | (_ | _)), _⟩ <;> rfl

/-- Calls that add nothing leave no record. -/
theorem record_of_only {allowed : Call -> Prop}
    (silent : forall request reply, allowed request -> items request reply = [])
    {program : Program Call Reply Failure Result} (only : program.Only allowed) (state : State) :
    program.record perform items state = [] := by
  induction program generalizing state with
  | done result => rfl
  | failed failure => rfl
  | call request next induction =>
      rw [record, silent _ _ only.1, List.nil_append]
      exact induction _ (only.2 _) _

/-- What a program of allowed calls records is what such calls add. -/
theorem forall_mem_record {allowed : Call -> Prop} {holds : Item -> Prop}
    (each : forall request reply item, allowed request -> item ∈ items request reply -> holds item)
    {program : Program Call Reply Failure Result} (only : program.Only allowed) (state : State) :
    forall item, item ∈ program.record perform items state -> holds item := by
  induction program generalizing state with
  | done result => exact fun _ member => absurd member List.not_mem_nil
  | failed failure => exact fun _ member => absurd member List.not_mem_nil
  | call request next induction =>
      intro item member
      rcases List.mem_append.mp member with here | later
      · exact each request _ item only.1 here
      · exact induction _ (only.2 _) _ item later

end Program

end Foundations
end Agapornis
