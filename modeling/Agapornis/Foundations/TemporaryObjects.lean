import Mathlib.Data.List.Basic
import Agapornis.Foundations.Program

namespace Agapornis
namespace Foundations

/-!
# Temporary objects of a program

A program makes temporary objects, moves and discards them, and makes other
calls between.  Each call has a name by which it is known whether it fails.  A
discard may fail without the program being told.  The rules say of each kind of
call when the program ends with nothing left.
-/

namespace Temporaries

inductive TempCall (Step Object : Type) where
  /-- A call that is not about temporary objects. -/
  | step (name : Step)
  | make (object : Object) (name : Step)
  /-- Another program makes the object, and may leave a part of it when it fails. -/
  | produce (object : Object) (name : Step)
  | discard (object : Object) (name : Step)
  | move (source target : Object) (name : Step)

/-- Which calls fail, and which of those that fail leave something. -/
structure Outcomes (Step Error : Type) where
  fault : Step -> Option Error
  leaves : Step -> Bool

abbrev TempProgram (Step Object Error Failure Result : Type) :=
  Program (TempCall Step Object) (fun _ => Except Error Unit) Failure Result

variable {Step Object Error Failure Result Later : Type}

def TempCall.name : TempCall Step Object -> Step
  | .step name => name
  | .make _ name => name
  | .produce _ name => name
  | .discard _ name => name
  | .move _ _ name => name

/-- A call with whose failure the program fails. -/
def need (report : Error -> Failure) (request : TempCall Step Object) : TempProgram Step Object Error Failure Unit :=
  Program.required report (Program.ask request)

/-- A call whose outcome is not looked at. -/
def attempt (request : TempCall Step Object) : TempProgram Step Object Error Failure Unit :=
  (Program.ask request).bind fun _ => .done ()

section Objects

variable [DecidableEq Object]

/-- All but one object. -/
def without (objects : List Object) (object : Object) : List Object :=
  objects.filter (fun other => decide (other ≠ object))

/-- What a call that succeeds makes of the objects. -/
def TempCall.effect : TempCall Step Object -> List Object -> List Object
  | .step _, objects => objects
  | .make object _, objects => object :: objects
  | .produce object _, objects => object :: objects
  | .discard object _, objects => without objects object
  | .move source target _, objects => target :: without objects source

/-- What a call that fails leaves. -/
def TempCall.remains (leaves : Bool) : TempCall Step Object -> List Object -> List Object
  | .produce object _, objects => if leaves then object :: objects else objects
  | _, objects => objects

variable (outcomes : Outcomes Step Error)

def perform (request : TempCall Step Object) (objects : List Object) : Except Error Unit × List Object :=
  match outcomes.fault request.name with
  | none => (.ok (), request.effect objects)
  | some failure => (.error failure, request.remains (outcomes.leaves request.name) objects)

/-- The objects that are there when a program returns. -/
def leftover (program : TempProgram Step Object Error Failure Result) : List Object :=
  (program.run (perform outcomes) []).2

/-- A program fails with nothing left, or ends as demanded. -/
def EndsIn (program : TempProgram Step Object Error Failure Result) (post : Result -> List Object -> Prop)
    (objects : List Object) : Prop :=
  match program.run (perform outcomes) objects with
  | (.ok result, after) => post result after
  | (.error _, after) => after = []

def Passes (names : List Step) : Prop :=
  forall name, name ∈ names -> outcomes.fault name = none

def Fails (names : List Step) : Prop :=
  Exists fun name => name ∈ names /\ Not (outcomes.fault name = none)

variable {outcomes} {post : Result -> List Object -> Prop} {objects : List Object}

omit [DecidableEq Object] in
theorem passes_cons {name : Step} {names : List Step} :
    Passes outcomes (name :: names) <-> outcomes.fault name = none /\ Passes outcomes names :=
  List.forall_mem_cons

omit [DecidableEq Object] in
theorem passes_nil : Passes outcomes [] :=
  nofun

omit [DecidableEq Object] in
theorem passes_append {front back : List Step} :
    Passes outcomes (front ++ back) <-> Passes outcomes front /\ Passes outcomes back :=
  List.forall_mem_append

omit [DecidableEq Object] in
theorem not_fails {names : List Step} : Not (Fails outcomes names) <-> Passes outcomes names := by
  unfold Fails Passes
  constructor
  · intro none_fails name member
    by_contra failing
    exact none_fails ⟨name, member, failing⟩
  · rintro passes ⟨name, member, failing⟩
    exact failing (passes name member)

omit [DecidableEq Object] in
theorem fails_cons {name : Step} {names : List Step} :
    Fails outcomes (name :: names) <-> Not (outcomes.fault name = none) \/ Fails outcomes names := by
  unfold Fails
  simp only [List.mem_cons, or_and_right, exists_or, exists_eq_left]

omit [DecidableEq Object] in
/-- One more call in front of some that may fail. -/
theorem first_failure_cons {name : Step} {names : List Step} {nothing rest : Prop} :
    outcomes.fault name = none /\ (Fails outcomes names /\ nothing \/ Passes outcomes names /\ rest) \/
        Not (outcomes.fault name = none) /\ nothing <->
      Fails outcomes (name :: names) /\ nothing \/ Passes outcomes (name :: names) /\ rest := by
  rw [fails_cons, passes_cons]
  by_cases passes : outcomes.fault name = none
  · simp only [passes, true_and, not_true_eq_false, false_and, or_false, false_or]
  · simp only [passes, false_and, not_false_eq_true, true_and, true_or, or_false, false_or]

omit [DecidableEq Object] in
theorem first_failure_nil {nothing rest : Prop} :
    Fails outcomes [] /\ nothing \/ Passes outcomes [] /\ rest <-> rest := by
  rw [and_iff_right passes_nil, or_iff_right]
  rintro ⟨⟨_, member, _⟩, _⟩
  cases member

omit [DecidableEq Object] in
/-- A failure that leaves nothing is as good as one that does not happen. -/
theorem fails_or {names : List Step} {rest : Prop} :
    Fails outcomes names /\ ([] : List Object) = [] \/ Passes outcomes names /\ rest <->
      Fails outcomes names \/ rest := by
  rw [and_iff_left rfl, ← not_fails]
  tauto

/-! ## The rules -/

/-- Nothing is left exactly when the program ends in nothing. -/
theorem leftover_nil {program : TempProgram Step Object Error Failure Result} :
    leftover outcomes program = [] <-> EndsIn outcomes program (fun _ after => after = []) [] := by
  unfold leftover EndsIn
  rcases program.run (perform outcomes) [] with ⟨_ | _, _⟩ <;> exact Iff.rfl

theorem endsIn_bind {program : TempProgram Step Object Error Failure Result}
    {later : Result -> TempProgram Step Object Error Failure Later} {post : Later -> List Object -> Prop} :
    EndsIn outcomes (program >>= later) post objects <->
      EndsIn outcomes program (fun result after => EndsIn outcomes (later result) post after) objects := by
  unfold EndsIn
  rw [Program.run_bind]
  rcases program.run (perform outcomes) objects with ⟨_ | _, _⟩ <;> exact Iff.rfl

theorem endsIn_done {result : Result} :
    EndsIn outcomes (.done result : TempProgram Step Object Error Failure Result) post objects <->
    post result objects :=
  Iff.rfl

theorem endsIn_ofExcept {outcome : Except Failure Result} :
    EndsIn outcomes (Program.ofExcept outcome : TempProgram Step Object Error Failure Result) post objects <->
      match outcome with
      | .ok result => post result objects
      | .error _ => objects = [] := by
  cases outcome <;> exact Iff.rfl

section Loops

variable {Item : Type} {step : Result -> Item -> TempProgram Step Object Error Failure Result} {result : Result}

theorem endsIn_forEach_nil : EndsIn outcomes (Program.forEach step result []) post objects <-> post result objects :=
  Iff.rfl

theorem endsIn_forEach_cons {item : Item} {rest : List Item} :
    EndsIn outcomes (Program.forEach step result (item :: rest)) post objects <->
      EndsIn outcomes (step result item) (fun next after => EndsIn outcomes (Program.forEach step next rest) post after)
        objects :=
  endsIn_bind

end Loops

omit [DecidableEq Object] in
theorem remains_nil {leaves : Bool} {request : TempCall Step Object} (nothing : request.remains leaves objects = []) :
    objects = [] := by
  cases request with
  | step name => exact nothing
  | make object name => exact nothing
  | produce object name =>
      cases leaves with
      | true => cases nothing
      | false => exact nothing
  | discard object name => exact nothing
  | move source target name => exact nothing

theorem endsIn_need {report : Error -> Failure} {request : TempCall Step Object} {post : Unit -> List Object -> Prop} :
    EndsIn outcomes (need report request) post objects <->
      outcomes.fault request.name = none /\ post () (request.effect objects) \/
        Not (outcomes.fault request.name = none) /\
          request.remains (outcomes.leaves request.name) objects = [] := by
  unfold EndsIn need
  rw [Program.run_required, Program.run_ask]
  unfold perform
  cases outcomes.fault request.name with
  | none =>
      constructor
      · exact fun ended => Or.inl ⟨rfl, ended⟩
      · rintro (⟨_, ended⟩ | ⟨failing, _⟩)
        · exact ended
        · exact absurd rfl failing
  | some failure =>
      constructor
      · exact fun nothing => Or.inr ⟨nofun, nothing⟩
      · rintro (⟨none, _⟩ | ⟨_, nothing⟩)
        · cases none
        · exact nothing

/-- Once there is something, a call that is needed has to succeed. -/
theorem endsIn_need_held {report : Error -> Failure} {request : TempCall Step Object}
    {post : Unit -> List Object -> Prop}
    (held : Not (objects = [])) :
    EndsIn outcomes (need report request) post objects <->
      outcomes.fault request.name = none /\ post () (request.effect objects) := by
  rw [endsIn_need]
  constructor
  · rintro (ended | ⟨_, nothing⟩)
    · exact ended
    · exact absurd (remains_nil nothing) held
  · exact Or.inl

theorem endsIn_attempt {request : TempCall Step Object} {post : Unit -> List Object -> Prop} :
    EndsIn outcomes (attempt request : TempProgram Step Object Error Failure Unit) post objects <->
      (outcomes.fault request.name = none -> post () (request.effect objects)) /\
        (Not (outcomes.fault request.name = none) ->
          post () (request.remains (outcomes.leaves request.name) objects)) := by
  change post () (perform outcomes request objects).2 <-> _
  unfold perform
  cases outcomes.fault request.name with
  | none => exact ⟨fun ended => ⟨fun _ => ended, fun failing => absurd rfl failing⟩, fun both => both.1 rfl⟩
  | some failure => exact ⟨fun ended => ⟨nofun, fun _ => ended⟩, fun both => both.2 nofun⟩

omit [DecidableEq Object] in
theorem only_need {allowed : TempCall Step Object -> Prop} {report : Error -> Failure} {request : TempCall Step Object}
    (allows : allowed request) : (need report request : TempProgram Step Object Error Failure Unit).Only allowed :=
  Program.only_required report ⟨allows, fun _ => trivial⟩

omit [DecidableEq Object] in
theorem only_attempt {allowed : TempCall Step Object -> Prop} {request : TempCall Step Object}
    (allows : allowed request) : (attempt request : TempProgram Step Object Error Failure Unit).Only allowed :=
  ⟨allows, fun _ => trivial⟩

/-- An object whose discard is demanded has to be discarded. -/
theorem endsIn_discard {object : Object} {name : Step} {post : Unit -> List Object -> Prop} (member : object ∈ objects)
    (demanded : forall after, object ∈ after -> Not (post () after)) :
    EndsIn outcomes (attempt (.discard object name) : TempProgram Step Object Error Failure Unit) post objects <->
      outcomes.fault name = none /\ post () (without objects object) := by
  rw [endsIn_attempt]
  constructor
  · rintro ⟨passing, failing⟩
    by_cases passes : outcomes.fault name = none
    · exact ⟨passes, passing passes⟩
    · exact absurd (failing passes) (demanded objects member)
  · rintro ⟨passes, ended⟩
    exact ⟨fun _ => ended, fun failing => absurd passes failing⟩

/-- A call that is not about objects and whose outcome is kept. -/
theorem endsIn_ask_step {name : Step} {post : Except Error Unit -> List Object -> Prop} :
    EndsIn outcomes (Program.ask (.step name) : TempProgram Step Object Error Failure (Except Error Unit)) post
      objects <->
      post (perform outcomes (.step name) objects).1 objects := by
  have unchanged : (perform outcomes (.step name) objects).2 = objects := by
    unfold perform
    split <;> rfl
  change post _ (perform outcomes (.step name) objects).2 <-> _
  rw [unchanged]

/-! ## Objects that are never discarded -/

/-- The calls that leave an object where it is. -/
def Retains (object : Object) : TempCall Step Object -> Prop
  | .discard other _ => Not (other = object)
  | .move source _ _ => Not (source = object)
  | _ => True

theorem without_self {object : Object} (fresh : object ∉ objects) : without (object :: objects) object = objects := by
  unfold without
  rw [List.filter_cons_of_neg (by simp)]
  exact List.filter_eq_self.mpr fun other member => decide_eq_true fun same => fresh (same ▸ member)

theorem without_other {object other : Object} (different : Not (other = object)) :
    without (other :: objects) object = other :: without objects object :=
  List.filter_cons_of_pos (decide_eq_true different)

theorem mem_without {object other : Object} (member : object ∈ objects) (different : Not (other = object)) :
    object ∈ without objects other :=
  List.mem_filter.mpr ⟨member, decide_eq_true fun same => different same.symm⟩

theorem perform_retains {object : Object} (request : TempCall Step Object) (objects : List Object)
    (retains : Retains object request) (member : object ∈ objects) :
    object ∈ (perform outcomes request objects).2 := by
  unfold perform
  split
  · cases request with
    | step name => exact member
    | make other name => exact List.mem_cons_of_mem other member
    | produce other name => exact List.mem_cons_of_mem other member
    | discard other name => exact mem_without member retains
    | move source target name => exact List.mem_cons_of_mem target (mem_without member retains)
  · cases request with
    | step name => exact member
    | make other name => exact member
    | produce other name =>
        dsimp only [TempCall.remains]
        split
        · exact List.mem_cons_of_mem other member
        · exact member
    | discard other name => exact member
    | move source target name => exact member

/-- What is retained to the end is not what the end demands to be gone. -/
theorem not_endsIn_of_retains {object : Object} {program : TempProgram Step Object Error Failure Result}
    (only : program.Only (Retains object)) (demanded : forall result after, object ∈ after -> Not (post result after))
    (member : object ∈ objects) : Not (EndsIn outcomes program post objects) := by
  have kept := Program.run_of_only (perform outcomes) perform_retains only member
  unfold EndsIn
  generalize program.run (perform outcomes) objects = ended at kept ⊢
  rcases ended with ⟨failure | result, after⟩
  · exact List.ne_nil_of_mem kept
  · exact demanded result after kept

end Objects

end Temporaries

end Foundations
end Agapornis
