import Agapornis.Console.HistoryTimes
import Agapornis.Foundations.Machine

namespace Agapornis
namespace Console

open Foundations

/-!
# The sequences of a console's lines

A viewer is sent the lines whose sequence is above the last one replayed to it.
The counter of a console lives in its history, and a history forgotten for the
budget takes its counter along: the next line of the console is number one
again.
-/

inductive HistoryAction (Line : Type) where
  | push (id : Text) (line : Line)
  | snapshot (id : Text)
  | remove (id : Text)
  deriving DecidableEq

variable {Line : Type}

namespace HistoryCache

/-- The number of the last line of a console, which is nought without a history. -/
def counter (cache : HistoryCache Line) (id : Text) : Nat :=
  ((cache.entries.lookup id).getD {}).nextSequence

theorem snapshot_counter (cache : HistoryCache Line) (id other : Text) :
    (cache.snapshot other).2.counter id = cache.counter id := by
  rw [counter, snapshot_lookup, counter]
  cases cache.entries.lookup id with
  | none => rfl
  | some history =>
      simp only [Option.map_some, Option.getD_some]
      split <;> rfl

end HistoryCache

variable [LineText Line]

namespace HistoryCache

def step (cache : HistoryCache Line) : HistoryAction Line -> HistoryCache Line
  | .push id line => (cache.push id line).2
  | .snapshot id => (cache.snapshot id).2
  | .remove id => cache.remove id

/-- The entry that an action returns for a console. -/
def returned (cache : HistoryCache Line) (id : Text) : HistoryAction Line -> List (ConsoleEntry Line)
  | .push target line => if target = id then [(cache.push target line).1] else []
  | .snapshot _ => []
  | .remove _ => []

/-- The entries that the pushes of a run to a console return, one after the other. -/
def pushed (id : Text) : HistoryCache Line -> List (HistoryAction Line) -> List (ConsoleEntry Line)
  | _, [] => []
  | cache, action :: rest => cache.returned id action ++ pushed id (cache.step action) rest

/-- The state of a cache after a run. -/
abbrev after (cache : HistoryCache Line) (run : List (HistoryAction Line)) : HistoryCache Line :=
  Machine.reach step cache run

/-- The sequences of a console rise with every push, and every line pushed after
a snapshot of the console passes the filter for what the snapshot replayed. -/
def SequencesRise (cache : HistoryCache Line) (id : Text) (run : List (HistoryAction Line)) : Prop :=
  (pushed id cache run).Pairwise (fun earlier later => earlier.sequence < later.sequence) /\
    forall front back, run = front ++ .snapshot id :: back ->
      forall entry, entry ∈ pushed id (cache.after (front ++ [.snapshot id])) back ->
        passes ((cache.after front).snapshot id).1.2 entry = true

/-- No push to another console finds the history of this one outgrown, unless
nothing is pushed to this one any more. -/
def NeverOutgrown (cache : HistoryCache Line) (id : Text) (run : List (HistoryAction Line)) : Prop :=
  forall front other line back, run = front ++ .push other line :: back ->
    (cache.after front).outgrown id other line = true ->
      forall own, HistoryAction.push id own ∉ back

theorem pushed_append (id : Text) (front back : List (HistoryAction Line)) :
    forall cache : HistoryCache Line,
      pushed id cache (front ++ back) = pushed id cache front ++ pushed id (cache.after front) back := by
  induction front with
  | nil => exact fun cache => rfl
  | cons action rest induction =>
      intro cache
      rw [List.cons_append, pushed, induction, pushed, List.append_assoc]
      rfl

/-- A run without pushes to a console returns nothing for it. -/
theorem pushed_eq_nil {id : Text} {run : List (HistoryAction Line)} :
    forall {cache : HistoryCache Line}, (forall own, HistoryAction.push id own ∉ run) ->
      pushed id cache run = [] := by
  induction run with
  | nil => exact fun _ => rfl
  | cons action rest induction =>
      intro cache silent
      rw [pushed, induction fun own member => silent own (List.mem_cons_of_mem _ member),
        List.append_nil]
      cases action with
      | push target line =>
          rw [returned, if_neg]
          intro same
          subst same
          exact silent line List.mem_cons_self
      | snapshot target => rfl
      | remove target => rfl

theorem step_sound {cache : HistoryCache Line} (sound : cache.Sound) (action : HistoryAction Line) :
    (cache.step action).Sound := by
  cases action with
  | push id line => exact (push_spec sound id line).1
  | snapshot id => exact snapshot_sound sound id
  | remove id => exact remove_sound sound id

theorem step_timed {cache : HistoryCache Line} (sound : cache.Sound) (timed : cache.Timed)
    (below : cache.clock < largestWord) (action : HistoryAction Line) : (cache.step action).Timed := by
  cases action with
  | push id line => exact push_timed sound timed below id line
  | snapshot id => exact snapshot_timed timed below id
  | remove id => exact remove_timed timed id

theorem step_clock_le (cache : HistoryCache Line) (action : HistoryAction Line) :
    (cache.step action).clock <= cache.clock + 1 := by
  cases action with
  | push id line =>
      rw [step, push_clock]
      exact Nat.min_le_left _ _
  | snapshot id =>
      rw [step, snapshot_clock]
      exact Nat.min_le_left _ _
  | remove id =>
      rw [step, remove_clock]
      exact Nat.le_succ _

/-- A cache that is sound, and whose clock has words for some more actions. -/
structure Ready (cache : HistoryCache Line) (actions : Nat) : Prop where
  sound : cache.Sound
  timed : cache.Timed
  words : cache.clock + actions <= largestWord

theorem ready_step {cache : HistoryCache Line} {actions : Nat} (ready : cache.Ready (actions + 1))
    (action : HistoryAction Line) : (cache.step action).Ready actions where
  sound := step_sound ready.sound action
  timed := step_timed ready.sound ready.timed (by have words := ready.words; omega) action
  words := by
    have words := ready.words
    have tick := step_clock_le cache action
    omega

theorem ready_after {run : List (HistoryAction Line)} {actions : Nat} :
    forall {cache : HistoryCache Line}, cache.Ready (run.length + actions) ->
      (cache.after run).Ready actions := by
  induction run with
  | nil =>
      intro cache ready
      rwa [List.length_nil, Nat.zero_add] at ready
  | cons action rest induction =>
      intro cache ready
      rw [List.length_cons, Nat.add_right_comm] at ready
      exact induction (ready_step ready action)

theorem NeverOutgrown.tail {cache : HistoryCache Line} {id : Text} {front back : List (HistoryAction Line)}
    (never : cache.NeverOutgrown id (front ++ back)) : (cache.after front).NeverOutgrown id back := by
  intro middle other line rest split found
  refine never (front ++ middle) other line rest ?_ ?_
  · rw [split, List.append_assoc]
  · rw [after, Machine.reach_append]
    exact found

theorem counter_lt {cache : HistoryCache Line} {actions : Nat} (ready : cache.Ready (actions + 1))
    (id : Text) : cache.counter id < largestWord := by
  have words := ready.words
  rw [counter]
  cases found : cache.entries.lookup id with
  | none => exact Nat.lt_of_le_of_lt (Nat.zero_le cache.clock) (by omega)
  | some history =>
      have tallied := ready.timed.tallied found
      exact Nat.lt_of_le_of_lt tallied (by omega)

theorem push_counter {cache : HistoryCache Line} (sound : cache.Sound) (id : Text) (line : Line) :
    (cache.push id line).2.counter id = nextWord (cache.counter id) := by
  rcases push_spec sound id line with ⟨_, kept, _, found, _⟩
  rw [counter, found]
  rfl

/-- Nothing replayed by a snapshot has a sequence above the counter. -/
theorem snapshot_le_counter {cache : HistoryCache Line} (sound : cache.Sound) (id : Text) :
    (cache.snapshot id).1.2 <= cache.counter id := by
  simp only [snapshot, counter]
  cases found : cache.entries.lookup id with
  | none => exact Nat.le_refl _
  | some history =>
      simp only [Option.getD_some]
      cases last : history.lines.getLast? with
      | none => exact Nat.zero_le _
      | some entry => exact sound.numbered found entry (List.mem_of_getLast? last)

/-- While no history is outgrown that still grows, the lines pushed have numbers
that rise from the counter on. -/
theorem pushed_rise {id : Text} {run : List (HistoryAction Line)} :
    forall {cache : HistoryCache Line}, cache.Ready run.length ->
      HistoryAction.remove id ∉ run -> cache.NeverOutgrown id run ->
      (pushed id cache run).Pairwise (fun earlier later => earlier.sequence < later.sequence) /\
        forall entry, entry ∈ pushed id cache run -> cache.counter id < entry.sequence := by
  induction run with
  | nil =>
      intro cache _ _ _
      exact ⟨List.Pairwise.nil, fun entry member => nomatch member⟩
  | cons action rest induction =>
      intro cache ready stays never
      have neverLater : (cache.after [action]).NeverOutgrown id rest := NeverOutgrown.tail never
      have later := induction (ready_step ready action)
        (fun member => stays (List.mem_cons_of_mem _ member)) neverLater
      have unmoved : (cache.step action).counter id = cache.counter id ->
          cache.returned id action = [] ->
          (pushed id cache (action :: rest)).Pairwise
              (fun earlier later => earlier.sequence < later.sequence) /\
            forall entry, entry ∈ pushed id cache (action :: rest) ->
              cache.counter id < entry.sequence := by
        intro same nothing
        rw [pushed, nothing, List.nil_append]
        rw [same] at later
        exact later
      cases action with
      | push target line =>
          by_cases own : target = id
          · subst own
            have number : (cache.nextEntry target line).sequence = cache.counter target + 1 :=
              nextWord_of_lt (counter_lt ready target)
            have risen : (cache.step (.push target line)).counter target = cache.counter target + 1 := by
              rw [step, push_counter ready.sound]
              exact nextWord_of_lt (counter_lt ready target)
            rw [risen] at later
            rw [pushed, returned, if_pos rfl, push_entry, List.singleton_append, List.pairwise_cons]
            refine ⟨⟨?_, later.1⟩, ?_⟩
            · intro entry member
              rw [number]
              exact later.2 entry member
            · intro entry member
              rcases List.mem_cons.mp member with first | behind
              · rw [first, number]
                exact Nat.lt_succ_self _
              · exact Nat.lt_of_succ_lt (later.2 entry behind)
          · cases found : cache.outgrown id target line with
            | true =>
                have silent : pushed id (cache.step (.push target line)) rest = [] :=
                  pushed_eq_nil (never [] target line rest rfl found)
                rw [pushed, silent, returned, if_neg own]
                exact ⟨List.Pairwise.nil, fun entry member => nomatch member⟩
            | false =>
                apply unmoved
                · have words := ready.words
                  rw [List.length_cons] at words
                  rw [counter, step, push_lookup_of_ne ready.sound ready.timed (by omega) line
                    (Ne.symm own), found, counter]
                  rfl
                · exact if_neg own
      | snapshot target => exact unmoved (snapshot_counter cache id target) rfl
      | remove target =>
          apply unmoved
          · have other : Not (id = target) := by
              intro same
              subst same
              exact stays List.mem_cons_self
            rw [counter, step, remove_entries, Table.lookup_erase_of_ne other, counter]
          · rfl

/-- A history that is lost stays lost until its console is written to. -/
theorem lost_step {cache : HistoryCache Line} {id : Text} {action : HistoryAction Line}
    (lost : cache.entries.lookup id = none) (silent : forall own, Not (action = .push id own)) :
    (cache.step action).entries.lookup id = none := by
  cases action with
  | push target line =>
      have different : Not (id = target) := by
        intro same
        subst same
        exact silent line rfl
      rcases push_others cache line different with kept | gone
      · exact kept.trans lost
      · exact gone
  | snapshot target =>
      rw [step, snapshot_lookup, lost]
      rfl
  | remove target =>
      rw [step, remove_entries]
      by_cases same : id = target
      · rw [same, AList.lookup_erase]
      · rw [Table.lookup_erase_of_ne same]
        exact lost

/-- A console without history has not been written to, or will start again at one. -/
theorem pushed_of_lost {id : Text} {run : List (HistoryAction Line)} :
    forall {cache : HistoryCache Line}, cache.entries.lookup id = none ->
      (Exists fun own => HistoryAction.push id own ∈ run) ->
      Exists fun entry => entry ∈ pushed id cache run /\ entry.sequence = 1 := by
  induction run with
  | nil =>
      rintro cache _ ⟨own, member⟩
      cases member
  | cons action rest induction =>
      rintro cache lost ⟨own, member⟩
      have onward : (cache.step action).entries.lookup id = none ->
          HistoryAction.push id own ∈ rest ->
          Exists fun entry => entry ∈ pushed id cache (action :: rest) /\ entry.sequence = 1 := by
        intro still behind
        rcases induction still ⟨own, behind⟩ with ⟨entry, inside, first⟩
        exact ⟨entry, List.mem_append_right _ inside, first⟩
      cases action with
      | push target line =>
          by_cases same : target = id
          · subst same
            refine ⟨cache.nextEntry target line, ?_, ?_⟩
            · rw [pushed, returned, if_pos rfl]
              exact List.mem_append_left _ List.mem_cons_self
            · rw [nextEntry, lost]
              rfl
          · apply onward (lost_step lost fun own here => same (by cases here; rfl))
            rcases List.mem_cons.mp member with here | behind
            · cases here
              exact absurd rfl same
            · exact behind
      | snapshot target =>
          exact onward (lost_step lost fun _ impossible => (by cases impossible))
            ((List.mem_cons.mp member).resolve_left fun impossible => (by cases impossible))
      | remove target =>
          exact onward (lost_step lost fun _ impossible => (by cases impossible))
            ((List.mem_cons.mp member).resolve_left fun impossible => (by cases impossible))

/-- Who has a history has been written to. -/
theorem pushed_of_found {id : Text} {run : List (HistoryAction Line)} :
    forall {cache : HistoryCache Line}, cache.entries.lookup id = none ->
      Not ((cache.after run).entries.lookup id = none) ->
      Exists fun entry => entry ∈ pushed id cache run /\ 1 <= entry.sequence := by
  intro cache lost found
  by_cases written : Exists fun own => HistoryAction.push id own ∈ run
  · rcases pushed_of_lost lost written with ⟨entry, member, first⟩
    exact ⟨entry, member, Nat.le_of_eq first.symm⟩
  · have still : (cache.after run).entries.lookup id = none := by
      clear found
      induction run generalizing cache with
      | nil => exact lost
      | cons action rest induction =>
          apply induction
          · apply lost_step lost
            intro own here
            exact written ⟨own, by rw [here]; exact List.mem_cons_self⟩
          · rintro ⟨own, member⟩
            exact written ⟨own, List.mem_cons_of_mem _ member⟩
    exact absurd still found

theorem ready_withMaximum (maximumBytes : Nat) {actions : Nat} (few : actions < 2 ^ 64) :
    (withMaximum maximumBytes : HistoryCache Line).Ready actions where
  sound := sound_withMaximum maximumBytes
  timed := timed_withMaximum maximumBytes
  words := by
    change 0 + actions <= 2 ^ 64 - 1
    omega

/-- The sequences of a console rise, under a viewer and on the whole, exactly
when no push to another console finds its history outgrown before it is
written to again. -/
theorem sequencesRise_iff_neverOutgrown (maximumBytes : Nat) (id : Text)
    (run : List (HistoryAction Line)) (few : run.length < 2 ^ 64)
    (stays : HistoryAction.remove id ∉ run) :
    (withMaximum maximumBytes).SequencesRise id run <->
      (withMaximum maximumBytes).NeverOutgrown id run := by
  have ready : (withMaximum maximumBytes : HistoryCache Line).Ready run.length :=
    ready_withMaximum maximumBytes few
  constructor
  · rintro ⟨rise, _⟩ front other line back split found own member
    rw [split, List.length_append, List.length_cons] at ready
    have readyHere := ready_after ready
    have words := readyHere.words
    have outgrown := found
    rw [outgrown_eq_true] at outgrown
    rcases outgrown with ⟨history, held, different, _⟩
    have lost : ((withMaximum maximumBytes).after (front ++ [.push other line])).entries.lookup id = none := by
      rw [after, Machine.reach_append]
      change (push (after _ front) other line).2.entries.lookup id = none
      rw [push_lookup_of_ne readyHere.sound readyHere.timed (by omega) line different, if_pos found]
    have present : Not (((withMaximum maximumBytes).after front).entries.lookup id = none) := by
      rw [held]
      exact nofun
    rcases pushed_of_found rfl present with ⟨earlier, earlierIn, positive⟩
    rcases pushed_of_lost lost ⟨own, member⟩ with ⟨later, laterIn, first⟩
    have whole : run = (front ++ [.push other line]) ++ back := by
      rw [split, List.append_assoc]
      rfl
    rw [whole, pushed_append, pushed_append] at rise
    have less := (List.pairwise_append.mp rise).2.2 earlier (List.mem_append_left _ earlierIn) later laterIn
    omega
  · intro never
    refine ⟨(pushed_rise ready stays never).1, ?_⟩
    intro front back split entry member
    have whole : run = (front ++ [.snapshot id]) ++ back := by
      rw [split, List.append_assoc]
      rfl
    rw [whole] at never stays
    rw [whole, List.length_append] at ready
    have risen := (pushed_rise (ready_after ready)
      (fun member => stays (List.mem_append_right _ member)) never.tail).2 entry member
    rw [List.length_append, Nat.add_assoc] at ready
    have replayed := snapshot_le_counter (ready_after ready).sound id
    rw [after, Machine.reach_append] at risen
    change counter (snapshot (after _ front) id).2 id < entry.sequence at risen
    rw [snapshot_counter] at risen
    exact decide_eq_true (Nat.lt_of_le_of_lt replayed risen)

theorem sequencesRise_two_consoles :
    (withMaximum 100 : HistoryCache Text).SequencesRise ['a']
        [.push ['a'] ['x'], .push ['b'] ['y'], .snapshot ['a'], .push ['a'] ['z']] <->
      (withMaximum 100 : HistoryCache Text).NeverOutgrown ['a']
        [.push ['a'] ['x'], .push ['b'] ['y'], .snapshot ['a'], .push ['a'] ['z']] :=
  sequencesRise_iff_neverOutgrown 100 ['a'] _ (by decide) (by decide)

/-- One line of one console, then sixty-four long ones of another. -/
def crowded : List (HistoryAction Text) :=
  .push ['a'] ['x'] :: List.replicate 64 (.push ['b'] (List.replicate 1000 'y'))

/-- Within the smallest budget that can be configured the first console's next line is number one again. -/
theorem sequence_restarts : Not (forall (maximumBytes : Nat) (id : Text)
    (run : List (HistoryAction Text)), run.length < 2 ^ 64 -> HistoryAction.remove id ∉ run ->
      (withMaximum maximumBytes).SequencesRise id run) := by
  intro always
  have rise := (always consoleHistoryBytes ['a'] (crowded ++ [.push ['a'] ['z']]) (by decide)
    (by decide +kernel)).1
  have sequences : (pushed ['a'] (withMaximum consoleHistoryBytes)
      (crowded ++ [.push ['a'] ['z']])).map ConsoleEntry.sequence = [1, 1] := by
    decide +kernel
  rw [<- List.pairwise_map (f := ConsoleEntry.sequence) (R := fun one other => one < other), sequences] at rise
  exact absurd rise (by decide)

end HistoryCache

end Console
end Agapornis
