import Mathlib.Logic.Basic

namespace Agapornis
namespace Foundations

/-!
# Programs that make calls

A program makes one call after the other, going on by the reply, until it is
done or has failed.  It can be run to its end over a state, or cut off after
any number of calls.
-/

inductive Program (Call : Type) (Reply : Call -> Type) (Failure Result : Type) where
  | done (result : Result)
  | failed (failure : Failure)
  | call (request : Call) (next : Reply request -> Program Call Reply Failure Result)

namespace Program

variable {Call : Type} {Reply : Call -> Type} {Failure Result Later State : Type}

/-- Go on with the result of a program; its failure is the failure of both. -/
def bind : Program Call Reply Failure Result ->
    (Result -> Program Call Reply Failure Later) -> Program Call Reply Failure Later
  | .done result, later => later result
  | .failed failure, _ => .failed failure
  | .call request next, later => .call request (fun reply => (next reply).bind later)

instance : Monad (Program Call Reply Failure) where
  pure := .done
  bind := bind

/-- Make one call and return its reply. -/
def ask (request : Call) : Program Call Reply Failure (Reply request) :=
  .call request .done

/-- Go through a list, carrying a result from each item to the next. -/
def forEach {Item : Type} (step : Result -> Item -> Program Call Reply Failure Result) :
    Result -> List Item -> Program Call Reply Failure Result
  | result, [] => .done result
  | result, item :: rest => (step result item).bind (fun next => forEach step next rest)

/-- Fail with the error of a call. -/
def required {Error : Type} (failure : Error -> Failure)
    (program : Program Call Reply Failure (Except Error Result)) : Program Call Reply Failure Result :=
  program.bind (fun
    | .ok result => .done result
    | .error error => .failed (failure error))

/-- The program that makes no call. -/
def ofExcept : Except Failure Result -> Program Call Reply Failure Result
  | .ok result => .done result
  | .error failure => .failed failure

@[simp] theorem pure_eq (result : Result) :
    (pure result : Program Call Reply Failure Result) = .done result := rfl

@[simp] theorem done_bind (result : Result) (later : Result -> Program Call Reply Failure Later) :
    (.done result >>= later) = later result := rfl

@[simp] theorem failed_bind (failure : Failure) (later : Result -> Program Call Reply Failure Later) :
    (.failed failure >>= later) = .failed failure := rfl

@[simp] theorem call_bind (request : Call) (next : Reply request -> Program Call Reply Failure Result)
    (later : Result -> Program Call Reply Failure Later) :
    (.call request next >>= later) = .call request (fun reply => next reply >>= later) := rfl

section Runs

variable (perform : (request : Call) -> State -> Reply request × State)

/-- Run a program to its end. -/
def run : Program Call Reply Failure Result -> State -> Except Failure Result × State
  | .done result, state => (.ok result, state)
  | .failed failure, state => (.error failure, state)
  | .call request next, state =>
      (next (perform request state).1).run (perform request state).2

/-- The state after at most the given number of calls. -/
def cut : Nat -> Program Call Reply Failure Result -> State -> State
  | 0, _, state => state
  | _ + 1, .done _, state => state
  | _ + 1, .failed _, state => state
  | calls + 1, .call request next, state =>
      cut calls (next (perform request state).1) (perform request state).2

/-- The last of at most the given number of calls. -/
def lastCall : Nat -> Program Call Reply Failure Result -> State -> Option Call
  | 0, _, _ => none
  | _ + 1, .done _, _ => none
  | _ + 1, .failed _, _ => none
  | calls + 1, .call request next, state =>
      (lastCall calls (next (perform request state).1) (perform request state).2).or (some request)

/-- Something holds right after each call, of the call and of the state. -/
def Throughout (holds : Call -> State -> Prop) :
    Program Call Reply Failure Result -> State -> Prop
  | .done _, _ => True
  | .failed _, _ => True
  | .call request next, state =>
      holds request (perform request state).2 /\
        (next (perform request state).1).Throughout holds (perform request state).2

/-- Something holds right before each call, of the call and of the state in
which it is made. -/
def Before (holds : Call -> State -> Prop) : Program Call Reply Failure Result -> State -> Prop
  | .done _, _ => True
  | .failed _, _ => True
  | .call request next, state =>
      holds request state /\
        (next (perform request state).1).Before holds (perform request state).2

theorem run_bind (program : Program Call Reply Failure Result)
    (later : Result -> Program Call Reply Failure Later) (state : State) :
    (program >>= later).run perform state =
      match program.run perform state with
      | (.ok result, after) => (later result).run perform after
      | (.error failure, after) => (.error failure, after) := by
  induction program generalizing state with
  | done result => rfl
  | failed failure => rfl
  | call request next ih => exact ih _ _

theorem run_required {Error : Type} (failure : Error -> Failure)
    (program : Program Call Reply Failure (Except Error Result)) (state : State) :
    (required failure program).run perform state =
      match program.run perform state with
      | (.ok (.ok result), after) => (.ok result, after)
      | (.ok (.error error), after) => (.error (failure error), after)
      | (.error other, after) => (.error other, after) := by
  induction program generalizing state with
  | done result => cases result <;> rfl
  | failed other => rfl
  | call request next ih => exact ih _ _

/-- Discarding the result of a program does not change where it leads. -/
theorem run_discard (program : Program Call Reply Failure Result) (later : Later) (state : State) :
    ((program >>= fun _ => pure later).run perform state).2 = (program.run perform state).2 := by
  rw [run_bind]
  split <;> next ran => simp only [ran, run, pure_eq]

theorem throughout_bind (holds : Call -> State -> Prop)
    (program : Program Call Reply Failure Result)
    (later : Result -> Program Call Reply Failure Later) (state : State) :
    (program >>= later).Throughout perform holds state <->
      program.Throughout perform holds state /\
        forall result after, program.run perform state = (.ok result, after) ->
          (later result).Throughout perform holds after := by
  induction program generalizing state with
  | done result =>
      constructor
      · intro rest
        exact ⟨trivial, fun other after same => by cases same; exact rest⟩
      · intro both
        exact both.2 result state rfl
  | failed failure =>
      exact iff_of_true trivial ⟨trivial, fun other after same => by cases same⟩
  | call request next ih =>
      have later := ih (perform request state).1 (perform request state).2
      constructor
      · intro both
        rcases later.mp both.2 with ⟨first, rest⟩
        exact ⟨⟨both.1, first⟩, rest⟩
      · intro both
        exact ⟨both.1.1, later.mpr ⟨both.1.2, both.2⟩⟩

theorem run_ask (request : Call) (state : State) :
    (ask request : Program Call Reply Failure (Reply request)).run perform state =
      (.ok (perform request state).1, (perform request state).2) := rfl

theorem throughout_ask {holds : Call -> State -> Prop} (request : Call) (state : State) :
    (ask request : Program Call Reply Failure (Reply request)).Throughout perform holds state <->
      holds request (perform request state).2 :=
  and_iff_left trivial

/-- Failing with the error of a call makes no further call. -/
theorem throughout_required_iff {Error : Type} (failure : Error -> Failure) (holds : Call -> State -> Prop)
    (program : Program Call Reply Failure (Except Error Result)) (state : State) :
    (required failure program).Throughout perform holds state <->
      program.Throughout perform holds state := by
  induction program generalizing state with
  | done result => cases result <;> exact Iff.rfl
  | failed failure => exact Iff.rfl
  | call request next ih => exact and_congr_right' (ih _ _)

/-- What follows a call that is required to succeed. -/
theorem throughout_required {Error : Type} (failure : Error -> Failure) (holds : Call -> State -> Prop)
    (program : Program Call Reply Failure (Except Error Result))
    (later : Result -> Program Call Reply Failure Later) (state : State) :
    (required failure program >>= later).Throughout perform holds state <->
      program.Throughout perform holds state /\
        forall result after, program.run perform state = (.ok (.ok result), after) ->
          (later result).Throughout perform holds after := by
  have inner (result : Except Error Result) (after : State) :
      ((match result with
          | .ok result => .done result
          | .error error => .failed (failure error) : Program Call Reply Failure Result) >>=
        later).Throughout perform holds after <->
          forall value, result = .ok value -> (later value).Throughout perform holds after := by
    cases result with
    | error error => exact iff_of_true trivial (fun _ impossible => by cases impossible)
    | ok value =>
        constructor
        · intro rest other same
          cases same
          exact rest
        · intro rest
          exact rest value rfl
  induction program generalizing state with
  | done result =>
      refine (inner result state).trans ?_
      constructor
      · intro rest
        refine ⟨trivial, fun value after same => ?_⟩
        cases same
        exact rest value rfl
      · rintro ⟨_, rest⟩ value same
        subst same
        exact rest value state rfl
  | failed failure => exact iff_of_true trivial ⟨trivial, fun _ _ same => by cases same⟩
  | call request next ih => exact (and_congr_right' (ih _ _)).trans and_assoc.symm

section Loops

variable {Item : Type}

/-- Something holds of each item with what is carried to it and with the state
in which the loop comes to it. -/
def Along (step : Result -> Item -> Program Call Reply Failure Result)
    (good : Result -> Item -> State -> Prop) : Result -> List Item -> State -> Prop
  | _, [], _ => True
  | result, item :: rest, state =>
      good result item state /\
        forall next after, (step result item).run perform state = (.ok next, after) ->
          Along step good next rest after

/-- Something holds throughout a loop if it holds throughout each round. -/
theorem throughout_forEach {holds : Call -> State -> Prop}
    {step : Result -> Item -> Program Call Reply Failure Result}
    {good : Result -> Item -> State -> Prop}
    (round : forall result item state,
      (step result item).Throughout perform holds state <-> good result item state)
    (result : Result) (items : List Item) (state : State) :
    (forEach step result items).Throughout perform holds state <->
      Along perform step good result items state := by
  induction items generalizing result state with
  | nil => exact Iff.rfl
  | cons item rest ih =>
      have split := throughout_bind perform holds (step result item)
        (fun next => forEach step next rest) state
      refine split.trans ?_
      rw [Along, round]
      simp only [ih]

end Loops

/-- A program that is cut off has made no call, or something that holds
throughout holds of its last call and of the state it leaves. -/
theorem cut_of_throughout {holds : Call -> State -> Prop}
    {program : Program Call Reply Failure Result} {state : State}
    (throughout : program.Throughout perform holds state) (calls : Nat) :
    (program.lastCall perform calls state = none /\ program.cut perform calls state = state) \/
      Exists fun request => program.lastCall perform calls state = some request /\
        holds request (program.cut perform calls state) := by
  induction program generalizing state calls with
  | done result => cases calls <;> exact Or.inl ⟨rfl, rfl⟩
  | failed failure => cases calls <;> exact Or.inl ⟨rfl, rfl⟩
  | call request next ih =>
      cases calls with
      | zero => exact Or.inl ⟨rfl, rfl⟩
      | succ calls =>
          right
          rcases ih (perform request state).1 throughout.2 calls with none | last
          · refine ⟨request, ?_, ?_⟩
            · simp only [lastCall, none.1, Option.none_or]
            · simp only [cut, none.2]
              exact throughout.1
          · rcases last with ⟨other, isLast, holdsHere⟩
            refine ⟨other, ?_, holdsHere⟩
            simp only [lastCall, isLast, Option.some_or]

/-- A program that runs to its end has made no call, or something that holds
throughout holds of one of its calls and of the state it leaves. -/
theorem run_of_throughout {holds : Call -> State -> Prop}
    {program : Program Call Reply Failure Result} {state : State}
    (throughout : program.Throughout perform holds state) :
    (program.run perform state).2 = state \/
      Exists fun request => holds request (program.run perform state).2 := by
  induction program generalizing state with
  | done result => exact Or.inl rfl
  | failed failure => exact Or.inl rfl
  | call request next ih =>
      right
      rcases ih (perform request state).1 throughout.2 with same | last
      · exact ⟨request, by rw [run, same]; exact throughout.1⟩
      · exact last

/-- One call more takes a program that is cut off one step further, or the program was over. -/
theorem cut_succ (program : Program Call Reply Failure Result) (calls : Nat) (state : State) :
    program.cut perform (calls + 1) state = program.cut perform calls state \/
      Exists fun request => program.lastCall perform (calls + 1) state = some request /\
        program.cut perform (calls + 1) state = (perform request (program.cut perform calls state)).2 := by
  induction program generalizing calls state with
  | done result => cases calls <;> exact Or.inl rfl
  | failed failure => cases calls <;> exact Or.inl rfl
  | call request next ih =>
      cases calls with
      | zero => exact Or.inr ⟨request, rfl, by simp only [cut]⟩
      | succ calls =>
          rcases ih _ calls (perform request state).2 with stopped | ⟨other, last, step⟩
          · exact Or.inl stopped
          · refine Or.inr ⟨other, ?_, step⟩
            rw [lastCall, last, Option.some_or]

/-- A program that is cut off has come to a state from which its end is reached by further steps. -/
theorem cut_reaches_run {reaches : State -> State -> Prop} (stays : forall state, reaches state state)
    (goesOn : forall first second third, reaches first second -> reaches second third -> reaches first third)
    (step : forall request state, reaches state (perform request state).2)
    (program : Program Call Reply Failure Result) (calls : Nat) (state : State) :
    reaches (program.cut perform calls state) (program.run perform state).2 := by
  have whole (program : Program Call Reply Failure Result) : forall state,
      reaches state (program.run perform state).2 := by
    induction program with
    | done result => exact stays
    | failed failure => exact stays
    | call request next ih => exact fun state => goesOn _ _ _ (step request state) (ih _ _)
  induction program generalizing calls state with
  | done result => cases calls <;> exact stays state
  | failed failure => cases calls <;> exact stays state
  | call request next ih =>
      cases calls with
      | zero => exact whole (.call request next) state
      | succ calls => exact ih _ calls _

theorem Throughout.mono {holds other : Call -> State -> Prop}
    {program : Program Call Reply Failure Result} {state : State}
    (throughout : program.Throughout perform holds state)
    (implies : forall request after, holds request after -> other request after) :
    program.Throughout perform other state := by
  induction program generalizing state with
  | done result => trivial
  | failed failure => trivial
  | call request next ih => exact ⟨implies _ _ throughout.1, ih _ throughout.2⟩

/-- Every call that a program may make is an allowed one. -/
def Only (allowed : Call -> Prop) : Program Call Reply Failure Result -> Prop
  | .done _ => True
  | .failed _ => True
  | .call request next => allowed request /\ forall reply, (next reply).Only allowed

theorem only_bind {allowed : Call -> Prop} {program : Program Call Reply Failure Result}
    {later : Result -> Program Call Reply Failure Later} (first : program.Only allowed)
    (rest : forall result, (later result).Only allowed) : (program >>= later).Only allowed := by
  induction program with
  | done result => exact rest result
  | failed failure => trivial
  | call request next ih => exact ⟨first.1, fun reply => ih reply (first.2 reply)⟩

/-- What holds throughout holds of an allowed call. -/
theorem Throughout.ofOnly {allowed : Call -> Prop} {holds : Call -> State -> Prop}
    {program : Program Call Reply Failure Result} {state : State}
    (throughout : program.Throughout perform holds state) (only : program.Only allowed) :
    program.Throughout perform (fun request after => allowed request /\ holds request after) state := by
  induction program generalizing state with
  | done result => trivial
  | failed failure => trivial
  | call request next ih => exact ⟨⟨only.1, throughout.1⟩, ih _ throughout.2 (only.2 _)⟩

theorem only_ofExcept {allowed : Call -> Prop} (outcome : Except Failure Result) :
    (ofExcept outcome : Program Call Reply Failure Result).Only allowed := by
  cases outcome <;> trivial

theorem only_ofExcept_bind {allowed : Call -> Prop} (outcome : Except Failure Result)
    {later : Result -> Program Call Reply Failure Later}
    (rest : forall result, outcome = .ok result -> (later result).Only allowed) :
    (ofExcept outcome >>= later).Only allowed := by
  cases outcome with
  | error failure => trivial
  | ok result => exact rest result rfl

theorem only_required {allowed : Call -> Prop} {Error : Type} (failure : Error -> Failure)
    {program : Program Call Reply Failure (Except Error Result)} (only : program.Only allowed) :
    (required failure program).Only allowed := by
  apply only_bind only
  intro result
  cases result <;> trivial

theorem only_forEach {allowed : Call -> Prop} {Item : Type}
    {step : Result -> Item -> Program Call Reply Failure Result}
    (round : forall result item, (step result item).Only allowed) (result : Result) (items : List Item) :
    (forEach step result items).Only allowed := by
  induction items generalizing result with
  | nil => trivial
  | cons item rest ih => exact only_bind (round result item) ih

/-- Where a call keeps something exactly if it is a good one, a program of
allowed calls keeps it throughout exactly if it makes good calls only. -/
theorem throughout_iff_before {allowed : Call -> Prop} {keeps : State -> Prop} {good : Call -> State -> Prop}
    (step : forall request state, allowed request -> keeps state ->
      (keeps (perform request state).2 <-> good request state))
    {program : Program Call Reply Failure Result} (only : program.Only allowed) {state : State}
    (here : keeps state) :
    program.Throughout perform (fun _ after => keeps after) state <-> program.Before perform good state := by
  induction program generalizing state with
  | done result => exact Iff.rfl
  | failed failure => exact Iff.rfl
  | call request next ih =>
      have first := step request state only.1 here
      constructor
      · rintro ⟨kept, rest⟩
        exact ⟨first.mp kept, (ih _ (only.2 _) kept).mp rest⟩
      · rintro ⟨good, rest⟩
        have kept := first.mpr good
        exact ⟨kept, (ih _ (only.2 _) kept).mpr rest⟩

/-- What every allowed call preserves, a program of such calls preserves. -/
theorem run_of_only {allowed : Call -> Prop} {holds : State -> Prop}
    (preserves : forall request state, allowed request -> holds state ->
      holds (perform request state).2)
    {program : Program Call Reply Failure Result} (only : program.Only allowed) {state : State}
    (here : holds state) : holds (program.run perform state).2 := by
  induction program generalizing state with
  | done result => exact here
  | failed failure => exact here
  | call request next ih => exact ih _ (only.2 _) (preserves _ _ only.1 here)

end Runs

end Program

end Foundations
end Agapornis
