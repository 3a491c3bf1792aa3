import Agapornis.Console.HistoryRules

namespace Agapornis
namespace Console

open Foundations

/-!
# When a console was last used

While the clock has words left no two consoles were last used at the same time.
Which histories a push forgets is then told from the state before it: those for
which the histories used since exceed the budget.
-/

variable {Line : Type}

namespace HistoryCache

/-- The charges of the histories used at a time or later. -/
def chargedSince (cache : HistoryCache Line) (access : Nat) : Nat :=
  Table.total (fun _ history => if access <= history.lastAccess then history.chargedBytes else 0)
    cache.entries

theorem chargedSince_antitone {cache : HistoryCache Line} {earlier later : Nat} (order : earlier <= later) :
    cache.chargedSince later <= cache.chargedSince earlier := by
  apply Table.total_le_total
  intro id history
  by_cases since : later <= history.lastAccess
  · rw [if_pos since, if_pos (order.trans since)]
  · rw [if_neg since]
    exact Nat.zero_le _

/-- No two consoles were last used at the same time. -/
def Apart (cache : HistoryCache Line) : Prop :=
  forall {first second one other}, cache.entries.lookup first = some one ->
    cache.entries.lookup second = some other -> one.lastAccess = other.lastAccess -> first = second

theorem chargedSince_remove {cache : HistoryCache Line} {oldest : Text} {history : ConsoleHistory Line}
    {access : Nat} (found : cache.entries.lookup oldest = some history)
    (earlier : history.lastAccess < access) :
    (cache.remove oldest).chargedSince access = cache.chargedSince access := by
  have whole := Table.total_of_lookup
    (fun _ history => if access <= history.lastAccess then history.chargedBytes else 0) found
  rw [if_neg (Nat.not_le.mpr earlier), Nat.zero_add] at whole
  rw [chargedSince, chargedSince, remove_entries, whole]

theorem remove_apart {cache : HistoryCache Line} (apart : cache.Apart) (id : Text) :
    (cache.remove id).Apart := by
  intro first second one other foundOne foundOther
  exact apart (lookup_of_remove foundOne) (lookup_of_remove foundOther)

/-- What every operation keeps while the clock has words left: no console was
used after now or has more lines numbered, and no two were used at the same time. -/
structure Timed (cache : HistoryCache Line) : Prop where
  past : forall {id history}, cache.entries.lookup id = some history ->
    history.lastAccess <= cache.clock
  tallied : forall {id history}, cache.entries.lookup id = some history ->
    history.nextSequence <= cache.clock
  apart : cache.Apart

theorem timed_withMaximum (maximumBytes : Nat) :
    (withMaximum maximumBytes : HistoryCache Line).Timed where
  past found := by cases found
  tallied found := by cases found
  apart found := by cases found

theorem nextWord_of_lt {word : Nat} (below : word < largestWord) : nextWord word = word + 1 :=
  Nat.min_eq_left below

/-- Using one console now, and perhaps forgetting others, keeps the times apart. -/
theorem timed_used {cache after : HistoryCache Line} {id : Text} (timed : cache.Timed)
    (below : cache.clock < largestWord) (clock : after.clock = nextWord cache.clock)
    (used : forall history, after.entries.lookup id = some history ->
      history.lastAccess = after.clock /\ history.nextSequence <= after.clock)
    (others : forall other history, Not (other = id) -> after.entries.lookup other = some history ->
      cache.entries.lookup other = some history) : after.Timed := by
  rw [nextWord_of_lt below] at clock
  refine ⟨?_, ?_, ?_⟩
  · intro other history found
    by_cases same : other = id
    · subst same
      exact Nat.le_of_eq (used history found).1
    · have earlier := timed.past (others other history same found)
      omega
  · intro other history found
    by_cases same : other = id
    · subst same
      exact (used history found).2
    · have fewer := timed.tallied (others other history same found)
      omega
  · intro first second one other foundOne foundOther level
    by_cases sameFirst : first = id
    · by_cases sameSecond : second = id
      · exact sameFirst.trans sameSecond.symm
      · subst sameFirst
        have now := (used one foundOne).1
        have earlier := timed.past (others second other sameSecond foundOther)
        omega
    · by_cases sameSecond : second = id
      · subst sameSecond
        have now := (used other foundOther).1
        have earlier := timed.past (others first one sameFirst foundOne)
        omega
      · exact timed.apart (others first one sameFirst foundOne)
          (others second other sameSecond foundOther) level

theorem snapshot_timed {cache : HistoryCache Line} (timed : cache.Timed)
    (below : cache.clock < largestWord) (id : Text) : (cache.snapshot id).2.Timed := by
  apply timed_used timed below (snapshot_clock cache id)
  · intro history found
    rw [snapshot_lookup, Option.map_eq_some_iff] at found
    rcases found with ⟨before, held, same⟩
    have tallied := timed.tallied held
    rw [if_pos rfl] at same
    rw [<- same, snapshot_clock]
    refine ⟨rfl, ?_⟩
    simp only [nextWord_of_lt below]
    omega
  · intro other history different found
    rw [snapshot_lookup, Option.map_eq_some_iff] at found
    rcases found with ⟨before, held, same⟩
    rw [if_neg different] at same
    rw [held, same]

theorem remove_timed {cache : HistoryCache Line} (timed : cache.Timed) (id : Text) :
    (cache.remove id).Timed where
  past found := by
    rw [remove_clock]
    exact timed.past (lookup_of_remove found)
  tallied found := by
    rw [remove_clock]
    exact timed.tallied (lookup_of_remove found)
  apart := remove_apart timed.apart id

end HistoryCache

variable [LineText Line]

namespace HistoryCache

theorem chargedSince_le (cache : HistoryCache Line) (sound : cache.Sound) (access : Nat) :
    cache.chargedSince access <= cache.chargedBytes := by
  rw [sound.charged]
  apply Table.total_le_total
  intro key history
  split
  · exact Nat.le_refl _
  · exact Nat.zero_le _

/-- When every history is used at a time or later, all charges count. -/
theorem chargedSince_oldest {cache : HistoryCache Line} (sound : cache.Sound) {access : Nat}
    (oldest : forall id history, cache.entries.lookup id = some history -> access <= history.lastAccess) :
    cache.chargedSince access = cache.chargedBytes := by
  rw [sound.charged]
  apply Table.total_congr
  intro id history found
  exact if_pos (oldest id history found)

/-- A console loses its history exactly when the histories used no earlier than
its own, the guarded one among them, exceed the budget. -/
theorem evictOthers_lookup {guarded id : Text} (different : Not (id = guarded)) (fuel : Nat) :
    forall {cache : HistoryCache Line} {history held : ConsoleHistory Line},
      cache.Sound -> cache.Apart -> Table.size cache.entries <= fuel ->
      cache.entries.lookup id = some history -> cache.entries.lookup guarded = some held ->
      history.lastAccess <= held.lastAccess ->
      (evictOthers guarded fuel cache).entries.lookup id =
        if cache.maximumBytes < cache.chargedSince history.lastAccess then none else some history := by
  induction fuel with
  | zero =>
      intro cache history held _ _ enough found _ _
      have smaller := Table.size_of_lookup found
      omega
  | succ fuel induction =>
      intro cache history held sound apart enough found spared earlier
      have several := Table.one_lt_size found spared different
      rw [evictOthers]
      by_cases excess : cache.maximumBytes < cache.chargedBytes
      · rw [if_pos (by simp only [excess, several, decide_true, Bool.and_self])]
        cases least : Table.leastOther ConsoleHistory.lastAccess guarded cache.entries with
        | none =>
            rw [Table.leastOther_none least different] at found
            cases found
        | some oldest =>
            rcases Table.leastOther_some least with ⟨notGuarded, first, foundFirst, minimal⟩
            by_cases same : oldest = id
            · subst same
              cases foundFirst.symm.trans found
              have all : cache.chargedSince history.lastAccess = cache.chargedBytes := by
                apply chargedSince_oldest sound
                intro other some foundOther
                by_cases guardedOther : other = guarded
                · rw [guardedOther, spared] at foundOther
                  cases foundOther
                  exact earlier
                · exact minimal other some guardedOther foundOther
              rw [all, if_pos excess]
              have gone : (cache.remove oldest).entries.lookup oldest = none := by
                rw [remove_entries, AList.lookup_erase]
              rcases (evictOthers_forgets guarded fuel (cache.remove oldest)).others oldest with kept | none
              · exact kept.trans gone
              · exact none
            · have older : first.lastAccess < history.lastAccess := by
                apply Nat.lt_of_le_of_ne (minimal id history different found)
                intro level
                exact same (apart foundFirst found level)
              have smaller := Table.size_of_lookup foundFirst
              have step := induction (remove_sound sound oldest) (remove_apart apart oldest)
                (by rw [remove_entries]; omega)
                (by rw [remove_entries, Table.lookup_erase_of_ne (Ne.symm same)]; exact found)
                (by rw [remove_entries, Table.lookup_erase_of_ne (Ne.symm notGuarded)]; exact spared)
                earlier
              rw [step, chargedSince_remove foundFirst older, remove_maximumBytes]
      · rw [if_neg (by simp only [excess, decide_false, Bool.false_and]; exact Bool.false_ne_true), found]
        have little := chargedSince_le cache sound history.lastAccess
        rw [if_neg (by omega)]

/-- A push to one console finds the history of another outgrown: with the line
added, what was used since that history exceeds the budget. -/
def outgrown (cache : HistoryCache Line) (other id : Text) (line : Line) : Bool :=
  match cache.entries.lookup other with
  | none => false
  | some history =>
      other ≠ id && cache.maximumBytes < (cache.addLine id line).chargedSince history.lastAccess

theorem outgrown_eq_true {cache : HistoryCache Line} {other id : Text} {line : Line} :
    cache.outgrown other id line = true <->
      Exists fun history => cache.entries.lookup other = some history /\ Not (other = id) /\
        cache.maximumBytes < (cache.addLine id line).chargedSince history.lastAccess := by
  rw [outgrown]
  cases cache.entries.lookup other with
  | none => simp only [Bool.false_eq_true, reduceCtorEq, false_and, exists_false]
  | some history =>
      simp only [Bool.and_eq_true, decide_eq_true_eq, ne_eq, Option.some.injEq, exists_eq_left']

/-- A line more is a tick more. -/
theorem extended_tallied {cache : HistoryCache Line} (timed : cache.Timed)
    (below : cache.clock < largestWord) (id : Text) (line : Line) :
    (cache.extended id line).nextSequence <= nextWord cache.clock := by
  have tallied : ((cache.entries.lookup id).getD {}).nextSequence <= cache.clock := by
    cases found : cache.entries.lookup id with
    | none => exact Nat.zero_le _
    | some history => exact timed.tallied found
  simp only [extended, nextEntry, nextWord]
  omega

theorem addLine_timed {cache : HistoryCache Line} (sound : cache.Sound) (timed : cache.Timed)
    (below : cache.clock < largestWord) (id : Text) (line : Line) : (cache.addLine id line).Timed := by
  rcases addLine_spec sound id line with ⟨kept, _, entries, _⟩
  apply timed_used timed below rfl
  · intro history found
    rw [entries, AList.lookup_insert] at found
    cases found
    exact ⟨rfl, extended_tallied timed below id line⟩
  · intro other history different found
    rwa [addLine_lookup_of_ne cache line different] at found

theorem push_timed {cache : HistoryCache Line} (sound : cache.Sound) (timed : cache.Timed)
    (below : cache.clock < largestWord) (id : Text) (line : Line) : (cache.push id line).2.Timed := by
  rcases push_spec sound id line with ⟨_, kept, _, found, _⟩
  apply timed_used timed below (push_clock cache id line)
  · intro history held
    cases found.symm.trans held
    rw [push_clock]
    exact ⟨rfl, extended_tallied timed below id line⟩
  · intro other history different held
    rcases push_others cache line different with same | gone
    · exact same.symm.trans held
    · rw [gone] at held
      cases held

/-- A push forgets exactly the histories that it finds outgrown. -/
theorem push_lookup_of_ne {cache : HistoryCache Line} (sound : cache.Sound) (timed : cache.Timed)
    (below : cache.clock < largestWord) {id other : Text} (line : Line) (different : Not (other = id)) :
    (cache.push id line).2.entries.lookup other =
      if cache.outgrown other id line then none else cache.entries.lookup other := by
  have unchanged := addLine_lookup_of_ne cache line different
  simp only [push, evictToBudget, trimGuarded_lookup_of_ne _ different]
  cases found : cache.entries.lookup other with
  | none =>
      rw [ite_self]
      rcases (evictOthers_forgets id (Table.size (cache.addLine id line).entries)
        (cache.addLine id line)).others other with same | gone
      · rw [same, unchanged, found]
      · exact gone
  | some history =>
      rcases addLine_spec sound id line with ⟨kept, _, entries, _⟩
      have added : (cache.addLine id line).entries.lookup id =
          some ((cache.extended id line).keeping kept) := by
        rw [entries, AList.lookup_insert]
      have earlier : history.lastAccess <= ((cache.extended id line).keeping kept).lastAccess := by
        have past := timed.past found
        simp only [ConsoleHistory.keeping, extended]
        rw [nextWord_of_lt below]
        omega
      rw [evictOthers_lookup different _ (addLine_sound sound id line)
        (addLine_timed sound timed below id line).apart (Nat.le_refl _) (unchanged.trans found) added
        earlier]
      simp only [outgrown, found, different, ne_eq, not_false_eq_true, decide_true, Bool.true_and,
        decide_eq_true_eq]
      rfl

end HistoryCache

end Console
end Agapornis
