import Agapornis.Foundations.ShellWords

namespace Agapornis
namespace Foundations

/-!
# Running a shell script

A script is put together from commands by the operators of the shell.  What
each of its commands answers is given from outside, and so is whether a
pattern matches; a run says with which status the script ends, whether it was
left by `exit`, and which action is then trapped.
-/

namespace Shell

/-- The commands of a script carry labels, by which their outcomes are given. -/
inductive Script (Label : Type) where
  | simple (label : Label) (words : List (List Symbol))
  /-- The output of the command goes to the standard error. -/
  | report (label : Label) (words : List (List Symbol))
  /-- The output of the command goes to a file. -/
  | store (label : Label) (words : List (List Symbol)) (target : List Symbol)
  | exit (code : Text)
  | both (first second : Script Label)
  | either (first second : Script Label)
  | sequence (first second : Script Label)
  | pipe (first second : Script Label)
  | group (body : Script Label)
  /-- A `case` with one pattern. -/
  | select (label : Label) (subject pattern : List Symbol) (body : Script Label)
  | trap (action : List Symbol)
  | untrap

/-- What the commands of a script answer. -/
structure Outcomes (Label : Type) where
  status : Label -> Nat
  selected : Label -> Bool

inductive Progress where
  | goesOn (status : Nat)
  | exited (status : Nat)
  deriving DecidableEq, Repr

def Progress.status : Progress -> Nat
  | .goesOn status => status
  | .exited status => status

namespace Script

variable {Label : Type}

/-- The tokens which a script is written with. -/
def tokens : Script Label -> List Token
  | .simple _ words => words.map .word
  | .report _ words => words.map .word ++ [.operator ">&".toList, .word (bare "2".toList)]
  | .store _ words target => words.map .word ++ [.operator ">".toList, .word target]
  | .exit code => [.word (bare "exit".toList), .word (bare code)]
  | .both first second => first.tokens ++ .operator "&&".toList :: second.tokens
  | .either first second => first.tokens ++ .operator "||".toList :: second.tokens
  | .sequence first second => first.tokens ++ .operator ";".toList :: second.tokens
  | .pipe first second => first.tokens ++ .operator "|".toList :: second.tokens
  | .group body =>
      .word (bare "\x7b".toList) :: body.tokens ++ [.operator ";".toList, .word (bare "\x7d".toList)]
  | .select _ subject pattern body =>
      [.word (bare "case".toList), .word subject, .word (bare "in".toList), .word pattern,
          .operator ")".toList] ++ body.tokens ++ [.operator ";;".toList, .word (bare "esac".toList)]
  | .trap action => [.word (bare "trap".toList), .word action, .word (bare "EXIT".toList)]
  | .untrap => [.word (bare "trap".toList), .word (bare "-".toList), .word (bare "EXIT".toList)]

/-- Run a script under a trapped action.  The parts of a pipeline run on their own, and the last
of them gives the status. -/
def run (outcomes : Outcomes Label) : Script Label -> Option (List Symbol) ->
    Progress × Option (List Symbol)
  | .simple label _, trapped => (.goesOn (outcomes.status label), trapped)
  | .report label _, trapped => (.goesOn (outcomes.status label), trapped)
  | .store label _ _, trapped => (.goesOn (outcomes.status label), trapped)
  | .exit code, trapped => (.exited (Nat.ofDigitChars 10 code 0), trapped)
  | .both first second, trapped =>
      match first.run outcomes trapped with
      | (.goesOn 0, after) => second.run outcomes after
      | other => other
  | .either first second, trapped =>
      match first.run outcomes trapped with
      | (.goesOn (_ + 1), after) => second.run outcomes after
      | other => other
  | .sequence first second, trapped =>
      match first.run outcomes trapped with
      | (.goesOn _, after) => second.run outcomes after
      | other => other
  | .pipe _ second, trapped => (.goesOn (second.run outcomes none).1.status, trapped)
  | .group body, trapped => body.run outcomes trapped
  | .select label _ _ body, trapped =>
      if outcomes.selected label then body.run outcomes trapped else (.goesOn 0, trapped)
  | .trap action, _ => (.goesOn 0, some action)
  | .untrap, _ => (.goesOn 0, none)

attribute [local simp] run

/-- The exit status of a script.  An action that is trapped at the end does not change it. -/
def exitStatus (outcomes : Outcomes Label) (script : Script Label) : Nat :=
  (script.run outcomes none).1.status

/-- One script after the other. -/
def inOrder : Script Label -> List (Script Label) -> Script Label
  | first, [] => first
  | first, next :: rest => .sequence first (inOrder next rest)

/-- A script that goes on with status zero when a condition holds, and else leaves with another
status. -/
def Checks (outcomes : Outcomes Label) (holds : Prop) (script : Script Label) : Prop :=
  forall trapped,
    (holds -> script.run outcomes trapped = (.goesOn 0, trapped)) /\
      (Not holds -> Exists fun status => status ≠ 0 /\ script.run outcomes trapped = (.exited status, trapped))

/-- A test, and a group that says what is wrong and leaves. -/
def demand (test : Script Label) (label : Label) (message code : Text) : Script Label :=
  .either test (.group (.sequence (.report label [bare "echo".toList, quoted message]) (.exit code)))

/-- A `case` that leaves when its pattern matches. -/
def forbid (choice : Label) (subject pattern : List Symbol) (label : Label) (message code : Text) :
    Script Label :=
  .select choice subject pattern (.sequence (.report label [bare "echo".toList, quoted message]) (.exit code))

section Runs

variable {outcomes : Outcomes Label}

theorem run_sequence_of_goesOn {first second : Script Label} {trapped after : Option (List Symbol)}
    {status : Nat} (goes : first.run outcomes trapped = (.goesOn status, after)) :
    (Script.sequence first second).run outcomes trapped = second.run outcomes after := by
  rw [run, goes]

theorem run_sequence_of_exited {first second : Script Label} {trapped after : Option (List Symbol)}
    {status : Nat} (leaves : first.run outcomes trapped = (.exited status, after)) :
    (Script.sequence first second).run outcomes trapped = (.exited status, after) := by
  rw [run, leaves]

/-- A demand checks what its test checks. -/
theorem checks_demand {test : Script Label} {label : Label} {message code : Text} {holds : Prop}
    (code_ne : Nat.ofDigitChars 10 code 0 ≠ 0)
    (passes : holds -> forall trapped, test.run outcomes trapped = (.goesOn 0, trapped))
    (fails : Not holds -> forall trapped, Exists fun status =>
      test.run outcomes trapped = (.goesOn (status + 1), trapped)) :
    Checks outcomes holds (demand test label message code) := by
  intro trapped
  constructor
  · intro met
    rw [demand, run, passes met trapped]
  · intro unmet
    rcases fails unmet trapped with ⟨status, failed⟩
    refine ⟨_, code_ne, ?_⟩
    rw [demand, run, failed]
    dsimp only
    rw [run, run_sequence_of_goesOn rfl, run]

/-- A demand on a single command. -/
theorem checks_demand_simple {label report : Label} {words : List (List Symbol)} {message code : Text}
    (code_ne : Nat.ofDigitChars 10 code 0 ≠ 0) :
    Checks outcomes (outcomes.status label = 0) (demand (.simple label words) report message code) := by
  apply checks_demand code_ne
  · intro zero trapped
    rw [run, zero]
  · intro nonzero trapped
    rcases Nat.exists_eq_succ_of_ne_zero nonzero with ⟨status, same⟩
    exact ⟨status, by rw [run, same]⟩

/-- A demand on two commands. -/
theorem checks_demand_both {one other report : Label} {first second : List (List Symbol)}
    {message code : Text} (code_ne : Nat.ofDigitChars 10 code 0 ≠ 0) :
    Checks outcomes (outcomes.status one = 0 /\ outcomes.status other = 0)
      (demand (.both (.simple one first) (.simple other second)) report message code) := by
  apply checks_demand code_ne
  · rintro ⟨first, second⟩ trapped
    simp only [run, first, second]
  · intro fails trapped
    cases early : outcomes.status one with
    | succ status => exact ⟨status, by simp only [run, early]⟩
    | zero =>
        cases late : outcomes.status other with
        | succ status => exact ⟨status, by simp only [run, early, late]⟩
        | zero => exact absurd ⟨early, late⟩ fails

theorem checks_forbid {choice report : Label} {subject pattern : List Symbol} {message code : Text}
    (code_ne : Nat.ofDigitChars 10 code 0 ≠ 0) :
    Checks outcomes (outcomes.selected choice = false)
      (forbid choice subject pattern report message code) := by
  intro trapped
  constructor
  · intro none
    rw [forbid, run, none, if_neg Bool.false_ne_true]
  · intro some
    refine ⟨_, code_ne, ?_⟩
    rw [forbid, run, if_pos (by simpa using some), run_sequence_of_goesOn rfl, run]

/-- Two checks after each other check both conditions. -/
theorem checks_sequence {one other : Prop} {first second : Script Label}
    (early : Checks outcomes one first) (late : Checks outcomes other second) :
    Checks outcomes (one /\ other) (.sequence first second) := by
  intro trapped
  constructor
  · rintro ⟨isOne, isOther⟩
    rw [run_sequence_of_goesOn ((early trapped).1 isOne), (late trapped).1 isOther]
  · intro fails
    by_cases isOne : one
    · rcases (late trapped).2 (fun isOther => fails ⟨isOne, isOther⟩) with ⟨status, nonzero, left⟩
      exact ⟨status, nonzero, by rw [run_sequence_of_goesOn ((early trapped).1 isOne), left]⟩
    · rcases (early trapped).2 isOne with ⟨status, nonzero, left⟩
      exact ⟨status, nonzero, run_sequence_of_exited left⟩

/-- Scripts that check a condition each check all of them. -/
theorem checks_inOrder {Item : Type} {holds : Item -> Prop} {check : Item -> Script Label}
    (checks : forall item, Checks outcomes (holds item) (check item)) (items : List Item) :
    forall {other : Prop} {first : Script Label}, Checks outcomes other first ->
      Checks outcomes (other /\ forall item, item ∈ items -> holds item)
        (inOrder first (items.map check)) := by
  induction items with
  | nil =>
      intro other first early
      have same : (other /\ forall item, item ∈ ([] : List Item) -> holds item) = other :=
        propext (and_iff_left (fun _ impossible => nomatch impossible))
      rw [same]
      exact early
  | cons item rest induction =>
      intro other first early
      rw [List.forall_mem_cons]
      exact checks_sequence early (induction (checks item))

/-- What comes first runs first. -/
theorem run_inOrder_append (later : Script Label) (more : List (Script Label)) (front : List (Script Label)) :
    forall (first : Script Label) (trapped : Option (List Symbol)),
      (inOrder first (front ++ later :: more)).run outcomes trapped =
        (Script.sequence (inOrder first front) (inOrder later more)).run outcomes trapped := by
  induction front with
  | nil => exact fun _ _ => rfl
  | cons next rest induction =>
      intro first trapped
      rw [List.cons_append, inOrder, run, inOrder, run, run]
      rcases first.run outcomes trapped with ⟨progress, after⟩
      cases progress with
      | exited status => rfl
      | goesOn status => exact (induction next after).trans rfl

/-- A run of single commands ends with the status of the last. -/
theorem run_inOrder_simple {Item : Type} (label : Item -> Label) (words : Item -> List (List Symbol))
    (trapped : Option (List Symbol)) (items : List Item) : forall first : Item,
    (inOrder (.simple (label first) (words first))
        (items.map (fun item => .simple (label item) (words item)))).run outcomes trapped =
      (.goesOn (outcomes.status (label (items.getLast?.getD first))), trapped) := by
  induction items with
  | nil => exact fun _ => rfl
  | cons item rest induction =>
      intro first
      rw [List.map_cons, inOrder, run_sequence_of_goesOn rfl, induction]
      cases rest <;> rfl

/-- A script behind checks: it is run when all of them pass, and else the status is not zero. -/
theorem run_behind_checks {holds : Prop} {first later : Script Label}
    (checks : Checks outcomes holds first) :
    ((Script.sequence first later).exitStatus outcomes = 0 <->
      holds /\ later.exitStatus outcomes = 0) := by
  rw [exitStatus, exitStatus]
  by_cases passes : holds
  · rw [run_sequence_of_goesOn ((checks none).1 passes)]
    exact (and_iff_right passes).symm
  · rcases (checks none).2 passes with ⟨status, nonzero, left⟩
    rw [run_sequence_of_exited left]
    exact iff_of_false nonzero (fun both => passes both.1)

end Runs

/-- Related to each other one by one, where the second list is made from the numbered items. -/
theorem forall₂_zipIdx {Item First Second : Type} {related : First -> Second -> Prop} {first : Item -> First}
    {second : Item × Nat -> Second} (each : forall item, related (first item.1) (second item))
    (items : List Item) : forall number, List.Forall₂ related (items.map first)
      ((items.zipIdx number).map second) := by
  induction items with
  | nil => exact fun _ => .nil
  | cons item rest induction => exact fun number => .cons (each (item, number)) (induction (number + 1))

/-- Texts that are read as the tokens of scripts, with semicolons between them. -/
theorem reads_inOrder {texts : List Text} {scripts : List (Script Label)}
    (same : List.Forall₂ (fun text script => reads text = some script.tokens) texts scripts) :
    forall {text : Text} {script : Script Label}, reads text = some script.tokens ->
      reads ("; ".toList.intercalate (text :: texts)) = some (inOrder script scripts).tokens := by
  induction same with
  | nil =>
      intro text script found
      rw [List.intercalate_singleton]
      exact found
  | cons found _ induction =>
      intro text script first
      rw [List.intercalate_cons_cons, List.append_assoc]
      exact reads_semicolon first (induction found)

end Script

end Shell

end Foundations
end Agapornis
