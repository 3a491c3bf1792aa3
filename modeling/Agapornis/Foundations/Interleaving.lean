import Mathlib.Data.List.Basic
import Agapornis.Foundations.Program

namespace Agapornis
namespace Foundations

/-!
# Interleaved programs

Several programs share a state and take turns, one call at a time, in any
order.  Each has an owner.  An owner's program may be abandoned at any point
for another one where the owner may begin it.  What an owner has learnt about
the state has to survive the calls of the others; what it does has to keep the
invariant and leave alone what the others rely on.
-/

variable {Call : Type} {Reply : Call -> Type} {Failure Result Owner State History Choice : Type}

/-- A program under way, with its owner. -/
abbrev Task (Owner Call : Type) (Reply : Call -> Type) (Failure : Type) :=
  Owner × Program Call Reply Failure Unit

/-- The tasks and the state which a system comes to.  A call turns out as the
choice made for it says. -/
inductive Interleaved
    (perform : Choice -> (request : Call) -> State -> Reply request × State)
    (begins : Owner -> Program Call Reply Failure Unit -> Prop)
    (tasks : List (Task Owner Call Reply Failure)) (state : State) :
    List (Task Owner Call Reply Failure) -> State -> Prop
  | start : Interleaved perform begins tasks state tasks state
  | call (before after : List (Task Owner Call Reply Failure)) (owner : Owner) (request : Call)
      (next : Reply request -> Program Call Reply Failure Unit) (reached : State) (choice : Choice)
      (earlier : Interleaved perform begins tasks state
        (before ++ (owner, .call request next) :: after) reached) :
      Interleaved perform begins tasks state
        (before ++ (owner, next (perform choice request reached).1) :: after)
        (perform choice request reached).2
  | begin (before after : List (Task Owner Call Reply Failure)) (owner : Owner)
      (old new : Program Call Reply Failure Unit) (reached : State) (may : begins owner new)
      (earlier : Interleaved perform begins tasks state (before ++ (owner, old) :: after) reached) :
      Interleaved perform begins tasks state (before ++ (owner, new) :: after) reached

/-- A task that is left alone runs to its end. -/
theorem Interleaved.alone {perform : Choice -> (request : Call) -> State -> Reply request × State}
    {begins : Owner -> Program Call Reply Failure Unit -> Prop}
    {tasks : List (Task Owner Call Reply Failure)} {state : State} (choice : Choice)
    (before after : List (Task Owner Call Reply Failure)) (owner : Owner)
    (program : Program Call Reply Failure Unit) {reached : State}
    (earlier : Interleaved perform begins tasks state (before ++ (owner, program) :: after) reached) :
    Exists fun ended => Interleaved perform begins tasks state (before ++ (owner, ended) :: after)
      (program.run (perform choice) reached).2 := by
  induction program generalizing reached with
  | done result => exact ⟨_, earlier⟩
  | failed failure => exact ⟨_, earlier⟩
  | call request next ih => exact ih _ (.call before after owner request next reached choice earlier)

/-- Keep a history beside the state, which the calls do not see. -/
def withHistory (perform : Choice -> (request : Call) -> State -> Reply request × State)
    (note : State -> History -> History) (choice : Choice) (request : Call)
    (noted : State × History) : Reply request × (State × History) :=
  let performed := perform choice request noted.1
  (performed.1, (performed.2, note performed.2 noted.2))

/-- Every interleaving has a history. -/
theorem Interleaved.withHistory
    {perform : Choice -> (request : Call) -> State -> Reply request × State}
    {begins : Owner -> Program Call Reply Failure Unit -> Prop}
    {tasks reachedTasks : List (Task Owner Call Reply Failure)} {state reached : State}
    (note : State -> History -> History) (history : History)
    (interleaved : Interleaved perform begins tasks state reachedTasks reached) :
    Exists fun later => Interleaved (withHistory perform note) begins tasks (state, history)
      reachedTasks (reached, later) := by
  induction interleaved with
  | start => exact ⟨history, .start⟩
  | call before after owner request next middle choice _ ih =>
      rcases ih with ⟨noted, earlier⟩
      exact ⟨_, .call before after owner request next (middle, noted) choice earlier⟩
  | begin before after owner old new middle may _ ih =>
      rcases ih with ⟨noted, earlier⟩
      exact ⟨noted, .begin before after owner old new (middle, noted) may earlier⟩

/-- The invariant of a system, what an owner relies on when others make their
calls, and which owners are apart from each other. -/
structure Rules (Owner State : Type) where
  invariant : State -> Prop
  rely : Owner -> State -> State -> Prop
  rely_refl : forall owner state, rely owner state state
  apart : Owner -> Owner -> Prop

namespace Rules

variable (rules : Rules Owner State)

/-- A fact that the calls of others do not change. -/
def Stable (owner : Owner) (fact : State -> Prop) : Prop :=
  forall before after, fact before -> rules.rely owner before after -> fact after

/-- A change by an owner keeps the invariant and what the others rely on. -/
def Permits (owner : Owner) (before after : State) : Prop :=
  rules.invariant after /\ forall other, rules.apart other owner -> rules.rely other before after

/-- A program of an owner that knows a fact: each of its calls is permitted
and leaves it with another stable fact, up to a conclusion at the end. -/
def Behaves (perform : Choice -> (request : Call) -> State -> Reply request × State) (owner : Owner)
    (conclusion : Result -> State -> Prop) :
    Program Call Reply Failure Result -> (State -> Prop) -> Prop
  | .done result, known => forall state, rules.invariant state -> known state ->
      conclusion result state
  | .failed _, _ => True
  | .call request next, known => forall choice state, rules.invariant state -> known state ->
      rules.Permits owner state (perform choice request state).2 /\
        Exists fun learnt : State -> Prop => rules.Stable owner learnt /\
          learnt (perform choice request state).2 /\
          Behaves perform owner conclusion (next (perform choice request state).1) learnt

variable {rules} {perform : Choice -> (request : Call) -> State -> Reply request × State}
  {owner : Owner}

theorem Behaves.weaken {conclusion : Result -> State -> Prop}
    {program : Program Call Reply Failure Result} {known required : State -> Prop}
    (behaves : rules.Behaves perform owner conclusion program required)
    (implies : forall state, rules.invariant state -> known state -> required state) :
    rules.Behaves perform owner conclusion program known := by
  cases program with
  | done result =>
      intro state invariant holds
      exact behaves state invariant (implies state invariant holds)
  | failed failure => trivial
  | call request next =>
      intro choice state invariant holds
      exact behaves choice state invariant (implies state invariant holds)

theorem Behaves.conclude {conclusion weaker : Result -> State -> Prop}
    {program : Program Call Reply Failure Result} {known : State -> Prop}
    (behaves : rules.Behaves perform owner conclusion program known)
    (implies : forall result state, conclusion result state -> weaker result state) :
    rules.Behaves perform owner weaker program known := by
  induction program generalizing known with
  | done result => exact fun state invariant here => implies result state (behaves state invariant here)
  | failed failure => trivial
  | call request next ih =>
      intro choice state invariant here
      rcases behaves choice state invariant here with ⟨permitted, learnt, stable, after, continues⟩
      exact ⟨permitted, learnt, stable, after, ih _ continues⟩

/-- What is known may contain something that does not depend on the state. -/
theorem Behaves.given {conclusion : Result -> State -> Prop}
    {program : Program Call Reply Failure Result} {known : State -> Prop} (fact : Prop)
    (implies : forall state, known state -> fact)
    (behaves : fact -> rules.Behaves perform owner conclusion program known) :
    rules.Behaves perform owner conclusion program known := by
  by_cases holds : fact
  · exact behaves holds
  · cases program with
    | done result => exact fun state _ here => absurd (implies state here) holds
    | failed failure => trivial
    | call request next => exact fun choice state _ here => absurd (implies state here) holds

/-- What the first part concludes is what the rest begins with. -/
theorem Behaves.bind {Later : Type} {middle : Result -> State -> Prop}
    {conclusion : Later -> State -> Prop} {program : Program Call Reply Failure Result}
    {later : Result -> Program Call Reply Failure Later} {known : State -> Prop}
    (first : rules.Behaves perform owner middle program known)
    (rest : forall result, rules.Behaves perform owner conclusion (later result) (middle result)) :
    rules.Behaves perform owner conclusion (program >>= later) known := by
  induction program generalizing known with
  | done result => exact (rest result).weaken first
  | failed failure => trivial
  | call request next ih =>
      intro choice state invariant holds
      rcases first choice state invariant holds with ⟨permitted, learnt, stable, here, continues⟩
      exact ⟨permitted, learnt, stable, here, ih _ continues⟩

/-- A single call, which is permitted and leaves a stable fact about its reply. -/
theorem behaves_ask {request : Call} {known : State -> Prop}
    {conclusion : Reply request -> State -> Prop}
    (stable : forall reply, rules.Stable owner (conclusion reply))
    (step : forall choice state, rules.invariant state -> known state ->
      rules.Permits owner state (perform choice request state).2 /\
        conclusion (perform choice request state).1 (perform choice request state).2) :
    rules.Behaves perform owner conclusion
      (Program.ask request : Program Call Reply Failure (Reply request)) known := by
  intro choice state invariant here
  rcases step choice state invariant here with ⟨permitted, concluded⟩
  exact ⟨permitted, _, stable _, concluded, fun _ _ learnt => learnt⟩

theorem Stable.and {first second : State -> Prop} (firstStable : rules.Stable owner first)
    (secondStable : rules.Stable owner second) :
    rules.Stable owner (fun state => first state /\ second state) := by
  intro before after both others
  exact ⟨firstStable before after both.1 others, secondStable before after both.2 others⟩

theorem stable_const (fact : Prop) : rules.Stable owner (fun _ => fact) :=
  fun _ _ holds _ => holds

/-- A task behaves from something that its owner knows. -/
def Holds (rules : Rules Owner State)
    (perform : Choice -> (request : Call) -> State -> Reply request × State) (state : State)
    (task : Task Owner Call Reply Failure) : Prop :=
  Exists fun known : State -> Prop => rules.Stable task.1 known /\ known state /\
    rules.Behaves perform task.1 (fun _ _ => True) task.2 known

/-- Tasks that behave, of owners that are apart, keep the invariant in every
interleaving. -/
theorem interleaved_invariant {begins : Owner -> Program Call Reply Failure Unit -> Prop}
    {tasks reachedTasks : List (Task Owner Call Reply Failure)} {state reached : State}
    (symmetric : forall first second, rules.apart first second -> rules.apart second first)
    (apart : (tasks.map Prod.fst).Pairwise rules.apart)
    (beginning : forall owner program, begins owner program ->
      rules.Behaves perform owner (fun _ _ => True) program (fun _ => True))
    (initially : rules.invariant state)
    (behave : forall task, task ∈ tasks -> rules.Holds perform state task)
    (interleaved : Interleaved perform begins tasks state reachedTasks reached) :
    rules.invariant reached := by
  suffices all : rules.invariant reached /\ (reachedTasks.map Prod.fst).Pairwise rules.apart /\
      forall task, task ∈ reachedTasks -> rules.Holds perform reached task from all.1
  induction interleaved with
  | start => exact ⟨initially, apart, behave⟩
  | call before after owner request next middle choice _ ih =>
      rcases ih with ⟨invariant, apartHere, hold⟩
      rcases hold (owner, .call request next) (by simp) with ⟨known, _, here, behaves⟩
      rcases behaves choice middle invariant here with ⟨permitted, learnt, stable, learntHere, continues⟩
      have sameOwners : forall program : Program Call Reply Failure Unit,
          (before ++ (owner, program) :: after).map Prod.fst =
            before.map Prod.fst ++ owner :: after.map Prod.fst := by
        intro program
        simp
      rw [sameOwners] at apartHere
      refine ⟨permitted.1, by rw [sameOwners]; exact apartHere, ?_⟩
      intro task member
      have others : forall other, other ∈ before \/ other ∈ after ->
          rules.Holds perform (perform choice request middle).2 other := by
        intro other elsewhere
        have otherMember : other ∈ before ++ (owner, Program.call request next) :: after := by
          rcases elsewhere with inBefore | inAfter
          · exact List.mem_append_left _ inBefore
          · exact List.mem_append_right before (List.mem_cons_of_mem _ inAfter)
        have otherApart : rules.apart other.1 owner := by
          rcases List.pairwise_append.mp apartHere with ⟨_, fromOwner, across⟩
          rcases elsewhere with inBefore | inAfter
          · exact across other.1 (List.mem_map_of_mem inBefore) owner List.mem_cons_self
          · exact symmetric _ _ ((List.pairwise_cons.mp fromOwner).1 other.1
              (List.mem_map_of_mem inAfter))
        rcases hold other otherMember with ⟨fact, factStable, factHere, factBehaves⟩
        exact ⟨fact, factStable, factStable _ _ factHere (permitted.2 other.1 otherApart), factBehaves⟩
      rcases List.mem_append.mp member with inBefore | rest
      · exact others task (Or.inl inBefore)
      · rcases List.mem_cons.mp rest with same | inAfter
        · subst same
          exact ⟨learnt, stable, learntHere, continues⟩
        · exact others task (Or.inr inAfter)
  | begin before after owner old new middle may _ ih =>
      rcases ih with ⟨invariant, apartHere, hold⟩
      refine ⟨invariant, by simpa using apartHere, ?_⟩
      intro task member
      rcases List.mem_append.mp member with inBefore | rest
      · exact hold task (List.mem_append_left _ inBefore)
      · rcases List.mem_cons.mp rest with same | inAfter
        · subst same
          exact ⟨fun _ => True, fun _ _ _ _ => trivial, trivial, beginning owner new may⟩
        · exact hold task (List.mem_append_right before (List.mem_cons_of_mem _ inAfter))

end Rules

end Foundations
end Agapornis
