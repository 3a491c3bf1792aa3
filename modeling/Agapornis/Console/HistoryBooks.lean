import Agapornis.Console.Sequences

namespace Agapornis
namespace Console

open Foundations

/-!
# The books of the history cache

Whatever is pushed, replayed and removed, the counters of the cache count what
is there, every console keeps within its own limits, and all of them together
within the budget.  No counter comes near the largest word, so that the code's
saturating additions are plain ones.
-/

/-- The largest budget that can be configured. -/
def maxTotalHistoryBytes : Nat := 1024 * 1024 * 1024

/-- The largest length of a text in memory. -/
def largestText : Nat := 2 ^ 63 - 1

variable {Line : Type}

namespace HistoryCache

@[simp] theorem snapshot_maximumBytes (cache : HistoryCache Line) (id : Text) :
    (cache.snapshot id).2.maximumBytes = cache.maximumBytes := by
  rw [snapshot]
  split <;> rfl

@[simp] theorem snapshot_chargedBytes (cache : HistoryCache Line) (id : Text) :
    (cache.snapshot id).2.chargedBytes = cache.chargedBytes := by
  rw [snapshot]
  split <;> rfl

theorem remove_chargedBytes_le (cache : HistoryCache Line) (id : Text) :
    (cache.remove id).chargedBytes <= cache.chargedBytes := by
  rw [remove]
  split
  · exact Nat.le_refl _
  · exact Nat.sub_le _ _

variable [LineText Line]

@[simp] theorem trimGuarded_maximumBytes (cache : HistoryCache Line) (guarded : Text) :
    (cache.trimGuarded guarded).maximumBytes = cache.maximumBytes := by
  rw [trimGuarded]
  split <;> rfl

@[simp] theorem push_maximumBytes (cache : HistoryCache Line) (id : Text) (line : Line) :
    (cache.push id line).2.maximumBytes = cache.maximumBytes := by
  simp only [push, evictToBudget, trimGuarded_maximumBytes, (evictOthers_forgets id _ _).maximum]
  rfl

@[simp] theorem step_maximumBytes (cache : HistoryCache Line) (action : HistoryAction Line) :
    (cache.step action).maximumBytes = cache.maximumBytes := by
  cases action with
  | push id line => exact push_maximumBytes cache id line
  | snapshot id => exact snapshot_maximumBytes cache id
  | remove id => exact remove_maximumBytes cache id

/-- Every console keeps within its limits, and the cache within the budget. -/
structure Within (cache : HistoryCache Line) : Prop where
  fits : forall {id history}, cache.entries.lookup id = some history ->
    history.lines.length <= consoleHistoryLines /\ contentOf history.lines <= consoleHistoryBytes
  budget : cache.chargedBytes <= cache.maximumBytes

theorem within_withMaximum (maximumBytes : Nat) : (withMaximum maximumBytes : HistoryCache Line).Within where
  fits found := by cases found
  budget := Nat.zero_le _

theorem push_within {cache : HistoryCache Line} (sound : cache.Sound) (within : cache.Within) (id : Text)
    (line : Line) : (cache.push id line).2.Within := by
  rcases push_spec sound id line with ⟨_, kept, _, own, ⟨fits, budget⟩, _⟩
  refine ⟨?_, by rw [push_maximumBytes]; exact budget⟩
  intro other history found
  by_cases same : other = id
  · subst same
    cases own.symm.trans found
    exact ⟨fits.1, fits.2.1⟩
  · rcases push_others cache line same with kept | gone
    · exact within.fits (kept.symm.trans found)
    · rw [gone] at found
      cases found

theorem snapshot_within {cache : HistoryCache Line} (within : cache.Within) (id : Text) :
    (cache.snapshot id).2.Within := by
  refine ⟨?_, by rw [snapshot_maximumBytes, snapshot_chargedBytes]; exact within.budget⟩
  intro other history found
  rw [snapshot_lookup, Option.map_eq_some_iff] at found
  rcases found with ⟨before, held, same⟩
  have fits := within.fits held
  rw [<- same]
  split <;> exact fits

theorem remove_within {cache : HistoryCache Line} (within : cache.Within) (id : Text) :
    (cache.remove id).Within where
  fits found := within.fits (lookup_of_remove found)
  budget := by
    rw [remove_maximumBytes]
    exact (remove_chargedBytes_le cache id).trans within.budget

theorem step_within {cache : HistoryCache Line} (sound : cache.Sound) (within : cache.Within)
    (action : HistoryAction Line) : (cache.step action).Within := by
  cases action with
  | push id line => exact push_within sound within id line
  | snapshot id => exact snapshot_within within id
  | remove id => exact remove_within within id

/-- What a run keeps. -/
theorem after_kept (maximumBytes : Nat) (run : List (HistoryAction Line)) :
    ((withMaximum maximumBytes : HistoryCache Line).after run).Sound /\
      ((withMaximum maximumBytes : HistoryCache Line).after run).Within /\
      ((withMaximum maximumBytes : HistoryCache Line).after run).maximumBytes = max maximumBytes 1 := by
  have keeps (cache : HistoryCache Line) (action : HistoryAction Line)
      (kept : cache.Sound /\ cache.Within /\ cache.maximumBytes = max maximumBytes 1) :
      (cache.step action).Sound /\ (cache.step action).Within /\
        (cache.step action).maximumBytes = max maximumBytes 1 :=
    ⟨step_sound kept.1 action, step_within kept.1 kept.2.1 action, (step_maximumBytes cache action).trans kept.2.2⟩
  exact Machine.invariant keeps ⟨sound_withMaximum maximumBytes, within_withMaximum maximumBytes, rfl⟩ run

/-- An entry costs more than one byte. -/
theorem chargeOf_le_one {lines : List (ConsoleEntry Line)} (little : chargeOf lines <= 1) : lines = [] := by
  cases lines with
  | nil => rfl
  | cons entry rest =>
      simp only [chargeOf, List.map_cons, List.sum_cons, entryCharge] at little
      omega

/-- A cache within one byte is within none. -/
theorem chargedBytes_of_le_one {cache : HistoryCache Line} (sound : cache.Sound)
    (little : cache.chargedBytes <= 1) : cache.chargedBytes = 0 := by
  have nothing : Table.total (fun _ history => history.chargedBytes) cache.entries =
      Table.total (fun _ _ => 0) cache.entries := by
    apply Table.total_congr
    intro id history found
    have whole := Table.total_of_lookup (fun _ history => history.chargedBytes) found
    have counted := (sound.counted found).charged
    have charged := sound.charged
    have empty : history.lines = [] := chargeOf_le_one (by omega)
    rw [counted, empty]
    rfl
  rw [sound.charged, nothing, Table.total, List.map_const', List.sum_replicate]
  exact Nat.mul_zero _

/-- The books are right: the counters count the lines, and all is within the
limits of the consoles and the budget. -/
structure Booked (budget : Nat) (cache : HistoryCache Line) : Prop where
  total : cache.chargedBytes = Table.total (fun _ history => history.chargedBytes) cache.entries
  charged : forall {id history}, cache.entries.lookup id = some history ->
    history.chargedBytes = (history.lines.map entryCharge).sum
  content : forall {id history}, cache.entries.lookup id = some history ->
    history.contentBytes = (history.lines.map fun entry => LineText.len entry.line).sum
  lines : forall {id history}, cache.entries.lookup id = some history ->
    history.lines.length <= consoleHistoryLines
  bytes : forall {id history}, cache.entries.lookup id = some history ->
    history.contentBytes <= consoleHistoryBytes
  budget : cache.chargedBytes <= budget

/-- The books are right after every run. -/
theorem booked_after (budget : Nat) (run : List (HistoryAction Line)) :
    Booked budget ((withMaximum budget : HistoryCache Line).after run) := by
  rcases after_kept budget run with ⟨sound, within, maximum⟩
  have held := within.budget
  rw [maximum] at held
  refine ⟨sound.charged, fun found => (sound.counted found).charged, fun found => (sound.counted found).content,
    fun found => (within.fits found).1, ?_, ?_⟩
  · intro id history found
    rw [(sound.counted found).content]
    exact (within.fits found).2
  · by_cases none : budget = 0
    · subst none
      exact Nat.le_of_eq (chargedBytes_of_le_one sound held)
    · omega

/-- The sums which a push forms in a cache with a configured budget fit into a
machine word. -/
theorem sums_fit {budget : Nat} (configured : budget <= maxTotalHistoryBytes) {cache : HistoryCache Line}
    (booked : Booked budget cache) (id : Text) {line : Line} (short : LineText.len line <= largestText) :
    (cache.extended id line).contentBytes <= largestWord /\
      (cache.extended id line).chargedBytes <= largestWord /\
      cache.chargedBytes + entryCharge (cache.nextEntry id line) <= largestWord := by
  have within := booked.budget
  have own : ((cache.entries.lookup id).getD {}).contentBytes <= consoleHistoryBytes /\
      ((cache.entries.lookup id).getD {}).chargedBytes <= cache.chargedBytes := by
    cases found : cache.entries.lookup id with
    | none => exact ⟨Nat.zero_le _, Nat.zero_le _⟩
    | some history =>
        have whole := Table.total_of_lookup (fun _ history => history.chargedBytes) found
        have total := booked.total
        simp only [Option.getD_some]
        exact ⟨booked.bytes found, by omega⟩
  simp only [extended, entryCharge, nextEntry, consoleHistoryBytes, maxTotalHistoryBytes, largestText,
    largestWord] at *
  omega

/-! ## The additions of the code -/

/-- An addition of words, which stops at the largest. -/
def addWord (first second : Nat) : Nat :=
  min (first + second) largestWord

theorem addWord_of_le {first second : Nat} (fits : first + second <= largestWord) :
    addWord first second = first + second :=
  Nat.min_eq_left fits

/-- The history of a console with one more line at its end, its bytes counted in words. -/
def extendedInWords (cache : HistoryCache Line) (id : Text) (line : Line) : ConsoleHistory Line :=
  let history := (cache.entries.lookup id).getD {}
  { cache.extended id line with
    contentBytes := addWord history.contentBytes (LineText.len line)
    chargedBytes := addWord history.chargedBytes (entryCharge (cache.nextEntry id line)) }

def addLineInWords (cache : HistoryCache Line) (id : Text) (line : Line) : HistoryCache Line :=
  let history := cache.extendedInWords id line
  let trimmed := popWhile overLimits history.lines.length history
    (addWord cache.chargedBytes (entryCharge (cache.nextEntry id line)))
  { cache with
    entries := cache.entries.insert id trimmed.1
    chargedBytes := trimmed.2
    clock := nextWord cache.clock }

/-- The step of a cache whose additions stop at the largest word. -/
def stepInWords (cache : HistoryCache Line) : HistoryAction Line -> HistoryCache Line
  | .push id line => (cache.addLineInWords id line).evictToBudget id
  | .snapshot id => (cache.snapshot id).2
  | .remove id => cache.remove id

theorem addLineInWords_eq {budget : Nat} (configured : budget <= maxTotalHistoryBytes) {cache : HistoryCache Line}
    (booked : Booked budget cache) (id : Text) {line : Line} (short : LineText.len line <= largestText) :
    cache.addLineInWords id line = cache.addLine id line := by
  rcases sums_fit configured booked id short with ⟨content, charged, all⟩
  have same : cache.extendedInWords id line = cache.extended id line := by
    rw [extendedInWords, addWord_of_le content, addWord_of_le charged]
    rfl
  rw [addLineInWords, same, addWord_of_le all]
  rfl

/-- Within a configured budget the additions of the code, which stop at the
largest word, are plain ones, whatever is pushed, replayed and removed. -/
theorem after_inWords {budget : Nat} (configured : budget <= maxTotalHistoryBytes) (run : List (HistoryAction Line))
    (short : forall id line, HistoryAction.push id line ∈ run -> LineText.len line <= largestText) :
    Machine.reach stepInWords (withMaximum budget) run = (withMaximum budget).after run := by
  induction run using List.reverseRecOn with
  | nil => rfl
  | append_singleton run action induction =>
      have before := induction fun id line member => short id line (List.mem_append_left _ member)
      rw [Machine.reach_append, after, Machine.reach_append, before]
      cases action with
      | push id line =>
          have small := short id line (List.mem_append_right _ List.mem_cons_self)
          have same := addLineInWords_eq configured (booked_after budget run) id small
          exact congrArg (fun cache => cache.evictToBudget id) same
      | snapshot id => rfl
      | remove id => rfl

/-- The books are right after every run, and those of the code are the same. -/
theorem after_booked (budget : Nat) (run : List (HistoryAction Line)) :
    Booked budget ((withMaximum budget : HistoryCache Line).after run) /\
      (budget <= maxTotalHistoryBytes ->
        (forall id line, HistoryAction.push id line ∈ run -> LineText.len line <= largestText) ->
          Machine.reach stepInWords (withMaximum budget) run = (withMaximum budget : HistoryCache Line).after run) :=
  ⟨booked_after budget run, fun configured short => after_inWords configured run short⟩

theorem after_booked_two_lines :
    Machine.reach stepInWords (withMaximum 100 : HistoryCache Text) [.push ['a'] ['x'], .push ['b'] ['y', 'z']] =
      (withMaximum 100).after [.push ['a'] ['x'], .push ['b'] ['y', 'z']] := by
  refine (after_booked 100 [.push ['a'] ['x'], .push ['b'] ['y', 'z']]).2 (by decide) ?_
  intro id line member
  rcases List.mem_cons.mp member with first | second
  · cases first
    decide
  · cases List.mem_singleton.mp second
    decide

end HistoryCache

end Console
end Agapornis
