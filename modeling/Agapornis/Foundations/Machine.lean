import Mathlib.Data.List.Basic

namespace Agapornis
namespace Foundations

/-!
# Machines and their runs

A machine takes one action after the other.  What each of its steps keeps holds
in every state of a run, and where a step keeps it only under a condition, in
every run whose steps all meet that condition.
-/

namespace Machine

variable {State Action : Type}

/-- The state which a run of actions comes to. -/
def reach (step : State -> Action -> State) (start : State) (run : List Action) : State :=
  run.foldl step start

@[simp] theorem reach_nil (step : State -> Action -> State) (start : State) :
    reach step start [] = start :=
  rfl

@[simp] theorem reach_cons (step : State -> Action -> State) (start : State) (action : Action)
    (rest : List Action) : reach step start (action :: rest) = reach step (step start action) rest :=
  rfl

theorem reach_append (step : State -> Action -> State) (start : State) (front back : List Action) :
    reach step start (front ++ back) = reach step (reach step start front) back :=
  List.foldl_append

/-- Every step of a run meets a condition on the state before it and its action. -/
def Along (step : State -> Action -> State) (condition : State -> Action -> Prop) :
    State -> List Action -> Prop
  | _, [] => True
  | state, action :: rest => condition state action /\ Along step condition (step state action) rest

instance Along.decidable (step : State -> Action -> State) (condition : State -> Action -> Prop)
    [forall state action, Decidable (condition state action)] :
    forall (run : List Action) (state : State), Decidable (Along step condition state run)
  | [], _ => isTrue trivial
  | action :: rest, state =>
      haveI := Along.decidable step condition rest (step state action)
      inferInstanceAs (Decidable (condition state action /\ Along step condition (step state action) rest))

theorem along_append (step : State -> Action -> State) (condition : State -> Action -> Prop)
    (front back : List Action) : forall start : State,
    Along step condition start (front ++ back) <->
      Along step condition start front /\ Along step condition (reach step start front) back := by
  induction front with
  | nil =>
      intro start
      simp only [List.nil_append, Along, reach_nil, true_and]
  | cons action rest induction =>
      intro start
      simp only [List.cons_append, Along, reach_cons, induction, and_assoc]

/-- What holds at the start and is kept by each step that meets the condition
holds where the run ends. -/
theorem along_invariant {step : State -> Action -> State} {condition : State -> Action -> Prop}
    {holds : State -> Prop}
    (keeps : forall state action, condition state action -> holds state -> holds (step state action))
    {run : List Action} : forall {start : State}, holds start -> Along step condition start run ->
      holds (reach step start run) := by
  induction run with
  | nil =>
      intro start atStart _
      exact atStart
  | cons action rest induction =>
      intro start atStart met
      exact induction (keeps start action met.1 atStart) met.2

/-- What holds at the start and is kept by each step holds in every state of the run. -/
theorem invariant {step : State -> Action -> State} {holds : State -> Prop}
    (keeps : forall state action, holds state -> holds (step state action))
    {start : State} (atStart : holds start) (run : List Action) : holds (reach step start run) := by
  induction run generalizing start with
  | nil => exact atStart
  | cons action rest induction => exact induction (keeps start action atStart)

/-- Where a step from a good state comes to a good state exactly under a condition, every state
of a run is good exactly when all its steps meet the condition. -/
theorem always_iff_along {step : State -> Action -> State} {condition : State -> Action -> Prop}
    {holds : State -> Prop}
    (exactly : forall state action, holds state -> (holds (step state action) <-> condition state action))
    {run : List Action} : forall {start : State}, holds start ->
      ((forall front, front <+: run -> holds (reach step start front)) <->
        Along step condition start run) := by
  induction run with
  | nil =>
      intro start atStart
      refine iff_of_true ?_ trivial
      intro front within
      rw [List.prefix_nil.mp within]
      exact atStart
  | cons action rest induction =>
      intro start atStart
      rw [Along]
      constructor
      · intro always
        have after : holds (step start action) := always [action] ⟨rest, rfl⟩
        refine ⟨(exactly start action atStart).mp after, (induction after).mp ?_⟩
        intro front within
        exact always (action :: front) ((List.prefix_cons_inj action).mpr within)
      · rintro ⟨first, later⟩ front within
        have after := (exactly start action atStart).mpr first
        cases front with
        | nil => exact atStart
        | cons head tail =>
            rcases List.cons_prefix_cons.mp within with ⟨same, within⟩
            rw [same, reach_cons]
            exact (induction after).mpr later tail within

/-- Where what can be seen of a step from a good state is right exactly under a
condition, which keeps the state good, it is right all through a run exactly
when all its steps meet the condition. -/
theorem seen_iff_along {step : State -> Action -> State} {condition : State -> Action -> Prop}
    {holds seen : State -> Prop} (shows : forall state, holds state -> seen state)
    (exactly : forall state action, holds state -> seen (step state action) -> condition state action)
    (keeps : forall state action, condition state action -> holds state -> holds (step state action))
    {run : List Action} {start : State} (atStart : holds start) :
    (forall front, front <+: run -> seen (reach step start front)) <-> Along step condition start run := by
  constructor
  · intro always
    induction run generalizing start with
    | nil => trivial
    | cons action rest induction =>
        have met := exactly start action atStart (always [action] ⟨rest, rfl⟩)
        refine ⟨met, induction (keeps start action met atStart) ?_⟩
        intro front within
        exact always (action :: front) ((List.prefix_cons_inj action).mpr within)
  · intro met front within
    rcases within with ⟨back, split⟩
    rw [← split, along_append] at met
    exact shows _ (along_invariant keeps atStart met.1)

/-- A property of every state a run passes through. -/
theorem along_of_reach {step : State -> Action -> State} {condition : State -> Action -> Prop}
    {run : List Action} : forall {start : State},
    (forall front action back, run = front ++ action :: back ->
      condition (reach step start front) action) -> Along step condition start run := by
  induction run with
  | nil => exact fun _ => trivial
  | cons action rest induction =>
      intro start met
      refine ⟨met [] action rest rfl, induction ?_⟩
      intro front later back split
      exact met (action :: front) later back (by rw [split, List.cons_append])

theorem along_and {step : State -> Action -> State} {first second : State -> Action -> Prop}
    {run : List Action} : forall {start : State}, Along step first start run ->
      Along step second start run ->
      Along step (fun state action => first state action /\ second state action) start run := by
  induction run with
  | nil => exact fun _ _ => trivial
  | cons action rest induction =>
      intro start one other
      exact ⟨⟨one.1, other.1⟩, induction one.2 other.2⟩

theorem Along.at {step : State -> Action -> State} {condition : State -> Action -> Prop}
    {start : State} {front back : List Action} {action : Action}
    (met : Along step condition start (front ++ action :: back)) :
    condition (reach step start front) action :=
  ((along_append step condition front (action :: back) start).mp met).2.1

end Machine

end Foundations
end Agapornis
