import Agapornis.Console.HistoryBooks

namespace Agapornis
namespace Console

open Foundations

/-!
# What the history cache retains

Beside the cache, a chronicle keeps all lines that were pushed to each console
since its history was last removed or forgotten, and when each console was last
pushed to or replayed.  What the cache holds of a console is an end of its
lines, numbered as they came; and what a push forgets had been used no later
than anything that it leaves.
-/

variable {Line : Type}

/-- Lines numbered one after the other, from one on. -/
def numbered (lines : List Line) : List (ConsoleEntry Line) :=
  (lines.zipIdx 1).map fun row => ⟨row.2, row.1⟩

theorem numbered_concat (lines : List Line) (line : Line) :
    numbered (lines ++ [line]) = numbered lines ++ [⟨lines.length + 1, line⟩] := by
  rw [numbered, List.zipIdx_append, List.map_append, List.zipIdx_singleton, Nat.add_comm 1]
  rfl

/-- The history cache, and what is remembered of its use. -/
structure Chronicle (Line : Type) where
  cache : HistoryCache Line
  /-- The lines pushed to a console since its history was last removed or forgotten. -/
  pushed : Text -> List Line := fun _ => []
  /-- The operation that last pushed to a console or replayed it. -/
  used : Text -> Nat := fun _ => 0
  operations : Nat := 0

namespace Chronicle

def start (maximumBytes : Nat) : Chronicle Line where
  cache := .withMaximum maximumBytes

/-- The lines pushed to a console by an action, if it is a push to it. -/
def added (id : Text) : HistoryAction Line -> List Line
  | .push target line => if target = id then [line] else []
  | .snapshot _ => []
  | .remove _ => []

/-- Whether an action pushes to a console or replays it. -/
def uses (id : Text) : HistoryAction Line -> Bool
  | .push target _ => decide (target = id)
  | .snapshot target => decide (target = id)
  | .remove _ => false

/-- What the chronicle says of the cache: its histories are ends of what was
pushed, and they were last used in the order of their times. -/
structure Tells (chronicle : Chronicle Line) : Prop where
  held : forall {id history}, chronicle.cache.entries.lookup id = some history ->
    history.lines <:+ numbered (chronicle.pushed id) /\
      history.nextSequence = (chronicle.pushed id).length
  lost : forall {id}, chronicle.cache.entries.lookup id = none -> chronicle.pushed id = []
  past : forall id, chronicle.used id <= chronicle.operations
  ordered : forall {first second one other}, chronicle.cache.entries.lookup first = some one ->
    chronicle.cache.entries.lookup second = some other -> one.lastAccess <= other.lastAccess ->
      chronicle.used first <= chronicle.used second

theorem tells_start (maximumBytes : Nat) : (start maximumBytes : Chronicle Line).Tells where
  held found := by cases found
  lost _ := rfl
  past _ := Nat.le_refl _
  ordered found := by cases found

variable [LineText Line]

/-- A console without history has nothing pushed to it since it lost that. -/
def step (chronicle : Chronicle Line) (action : HistoryAction Line) : Chronicle Line where
  cache := chronicle.cache.step action
  pushed id :=
    if (chronicle.cache.step action).entries.lookup id = none then []
    else chronicle.pushed id ++ added id action
  used id := if uses id action then chronicle.operations + 1 else chronicle.used id
  operations := chronicle.operations + 1

abbrev after (chronicle : Chronicle Line) (run : List (HistoryAction Line)) : Chronicle Line :=
  Machine.reach step chronicle run

/-- The chronicle follows the cache. -/
theorem after_cache (chronicle : Chronicle Line) (run : List (HistoryAction Line)) :
    (chronicle.after run).cache = chronicle.cache.after run := by
  induction run generalizing chronicle with
  | nil => rfl
  | cons action rest induction => exact induction (chronicle.step action)

/-- A console that has a history after an action had it before, unless it was
pushed to; the lines of it are then the same. -/
theorem held_before {cache : HistoryCache Line} {action : HistoryAction Line} {id : Text}
    {history : ConsoleHistory Line} (silent : forall line, Not (action = .push id line))
    (found : (cache.step action).entries.lookup id = some history) :
    Exists fun before => cache.entries.lookup id = some before /\ history.lines = before.lines /\
      history.nextSequence = before.nextSequence /\
      history.lastAccess = if uses id action then nextWord cache.clock else before.lastAccess := by
  cases action with
  | push target line =>
      have different : Not (id = target) := by
        intro same
        subst same
        exact silent line rfl
      rcases HistoryCache.push_others cache line different with kept | gone
      · exact ⟨history, kept.symm.trans found, rfl, rfl, by simp [uses, Ne.symm different]⟩
      · rw [HistoryCache.step, gone] at found
        cases found
  | snapshot target =>
      rw [HistoryCache.step, HistoryCache.snapshot_lookup, Option.map_eq_some_iff] at found
      rcases found with ⟨before, held, same⟩
      refine ⟨before, held, ?_⟩
      rw [<- same]
      by_cases own : id = target
      · subst own
        simp [uses]
      · simp [uses, own, Ne.symm own]
  | remove target => exact ⟨history, HistoryCache.lookup_of_remove found, rfl, rfl, rfl⟩

theorem step_pushed {chronicle : Chronicle Line} {action : HistoryAction Line} {id : Text}
    {history : ConsoleHistory Line}
    (found : (chronicle.step action).cache.entries.lookup id = some history) :
    (chronicle.step action).pushed id = chronicle.pushed id ++ added id action := by
  have present : Not ((chronicle.cache.step action).entries.lookup id = none) := by
    intro absent
    have none := absent.symm.trans found
    cases none
  exact if_neg present

/-- A console that is pushed to keeps an end of its lines with the new one. -/
theorem held_push {chronicle : Chronicle Line} (tells : chronicle.Tells)
    (sound : chronicle.cache.Sound) (timed : chronicle.cache.Timed)
    (below : chronicle.cache.clock < largestWord) {id : Text} {line : Line}
    {history : ConsoleHistory Line}
    (found : (chronicle.cache.push id line).2.entries.lookup id = some history) :
    history.lines <:+ numbered (chronicle.pushed id ++ [line]) /\
      history.nextSequence = (chronicle.pushed id ++ [line]).length /\
      history.lastAccess = chronicle.cache.clock + 1 := by
  rcases HistoryCache.push_spec sound id line with ⟨_, kept, within, own, _⟩
  cases own.symm.trans found
  have before : ((chronicle.cache.entries.lookup id).getD {}).lines <:+ numbered (chronicle.pushed id) /\
      ((chronicle.cache.entries.lookup id).getD {}).nextSequence = (chronicle.pushed id).length /\
      ((chronicle.cache.entries.lookup id).getD {}).nextSequence < largestWord := by
    cases present : chronicle.cache.entries.lookup id with
    | none =>
        rw [tells.lost present]
        exact ⟨List.suffix_rfl, rfl, Nat.zero_lt_of_lt below⟩
    | some held =>
        have tallied := timed.tallied present
        exact ⟨(tells.held present).1, (tells.held present).2, Nat.lt_of_le_of_lt tallied below⟩
  have number : (chronicle.cache.nextEntry id line).sequence = (chronicle.pushed id).length + 1 := by
    rw [HistoryCache.nextEntry, HistoryCache.nextWord_of_lt before.2.2, before.2.1]
  refine ⟨?_, ?_, ?_⟩
  · apply within.trans
    rw [numbered_concat, HistoryCache.extended, <- number]
    rcases before.1 with ⟨front, whole⟩
    exact ⟨front, by rw [<- whole, List.append_assoc]; rfl⟩
  · rw [List.length_append, List.length_singleton, <- number]
    rfl
  · exact HistoryCache.nextWord_of_lt below

/-- Who has a history after an action has just been used, or had it before and
was last used then. -/
theorem access_step {chronicle : Chronicle Line} (tells : chronicle.Tells)
    (sound : chronicle.cache.Sound) (timed : chronicle.cache.Timed)
    (below : chronicle.cache.clock < largestWord) {action : HistoryAction Line} {id : Text}
    {history : ConsoleHistory Line}
    (found : (chronicle.cache.step action).entries.lookup id = some history) :
    (uses id action = true /\ history.lastAccess = chronicle.cache.clock + 1) \/
      (uses id action = false /\ Exists fun before =>
        chronicle.cache.entries.lookup id = some before /\ history.lastAccess = before.lastAccess) := by
  by_cases pushes : Exists fun line => action = .push id line
  · rcases pushes with ⟨line, same⟩
    subst same
    exact Or.inl ⟨decide_eq_true rfl, (held_push tells sound timed below found).2.2⟩
  · rcases held_before (fun line same => pushes ⟨line, same⟩) found with ⟨before, held, _, _, access⟩
    cases used : uses id action with
    | true =>
        rw [used, if_pos rfl, HistoryCache.nextWord_of_lt below] at access
        exact Or.inl ⟨rfl, access⟩
    | false =>
        rw [used, if_neg Bool.false_ne_true] at access
        exact Or.inr ⟨rfl, before, held, access⟩

theorem tells_step {chronicle : Chronicle Line} (tells : chronicle.Tells)
    (sound : chronicle.cache.Sound) (timed : chronicle.cache.Timed)
    (below : chronicle.cache.clock < largestWord) (action : HistoryAction Line) :
    (chronicle.step action).Tells where
  held := by
    intro id history found
    rw [step_pushed found]
    by_cases pushes : Exists fun line => action = .push id line
    · rcases pushes with ⟨line, same⟩
      subst same
      rw [added, if_pos rfl]
      exact (held_push tells sound timed below found).imp_right And.left
    · have nothing : added id action = [] := by
        cases action with
        | push target line =>
            rw [added, if_neg]
            intro same
            exact pushes ⟨line, by rw [same]⟩
        | snapshot target => rfl
        | remove target => rfl
      rcases held_before (fun line same => pushes ⟨line, same⟩) found with ⟨before, held, lines, next, _⟩
      rw [nothing, List.append_nil, lines, next]
      exact tells.held held
  lost := by
    intro id absent
    exact if_pos absent
  past id := by
    have past := tells.past id
    simp only [step]
    split <;> omega
  ordered := by
    intro first second one other foundFirst foundSecond earlier
    have past := tells.past first
    simp only [step]
    rcases access_step tells sound timed below foundFirst with ⟨now, access⟩ | ⟨idle, before, held, access⟩
    · rcases access_step tells sound timed below foundSecond with ⟨nowOther, _⟩ | ⟨_, other, heldOther, same⟩
      · rw [if_pos now, if_pos nowOther]
      · have old := timed.past heldOther
        omega
    · rw [idle, if_neg Bool.false_ne_true]
      rcases access_step tells sound timed below foundSecond with
        ⟨nowOther, _⟩ | ⟨idleOther, other, heldOther, same⟩
      · rw [if_pos nowOther]
        omega
      · rw [idleOther, if_neg Bool.false_ne_true]
        exact tells.ordered held heldOther (by omega)

/-- A chronicle of a cache that has words for some more actions. -/
theorem tells_after {run : List (HistoryAction Line)} {actions : Nat} :
    forall {chronicle : Chronicle Line}, chronicle.Tells -> chronicle.cache.Ready (run.length + actions) ->
      (chronicle.after run).Tells /\ (chronicle.after run).cache.Ready actions := by
  induction run with
  | nil =>
      intro chronicle tells ready
      rw [List.length_nil, Nat.zero_add] at ready
      exact ⟨tells, ready⟩
  | cons action rest induction =>
      intro chronicle tells ready
      rw [List.length_cons, Nat.add_right_comm] at ready
      have words := ready.words
      exact induction (tells_step tells ready.sound ready.timed (by omega) action)
        (HistoryCache.ready_step ready action)

theorem ready_start {maximumBytes actions : Nat} (few : actions < 2 ^ 64) :
    (start maximumBytes : Chronicle Line).cache.Ready actions where
  sound := HistoryCache.sound_withMaximum maximumBytes
  timed := HistoryCache.timed_withMaximum maximumBytes
  words := by
    simp only [start, HistoryCache.withMaximum, largestWord]
    omega

/-! ## What a push forgets -/

/-- A push keeps its own console, and what it forgets was used no later than
all that it leaves. -/
structure ForgetsColdest (chronicle : Chronicle Line) (id : Text) (line : Line) : Prop where
  spared : Not ((chronicle.step (.push id line)).cache.entries.lookup id = none)
  coldest : forall gone survivor, Not (chronicle.cache.entries.lookup gone = none) ->
    (chronicle.step (.push id line)).cache.entries.lookup gone = none ->
    Not ((chronicle.step (.push id line)).cache.entries.lookup survivor = none) ->
    (chronicle.step (.push id line)).used gone <= (chronicle.step (.push id line)).used survivor

theorem push_forgetsColdest {chronicle : Chronicle Line} (tells : chronicle.Tells)
    (sound : chronicle.cache.Sound) (timed : chronicle.cache.Timed)
    (below : chronicle.cache.clock < largestWord) (id : Text) (line : Line) :
    chronicle.ForgetsColdest id line := by
  have spared : Not ((chronicle.cache.push id line).2.entries.lookup id = none) := by
    rcases HistoryCache.push_spec sound id line with ⟨_, kept, _, own, _⟩
    rw [own]
    exact Option.some_ne_none _
  refine ⟨spared, ?_⟩
  intro gone survivor present absent stays
  have goneOther : Not (gone = id) := by
    intro same
    subst same
    exact spared absent
  have goneUsed : (chronicle.step (.push id line)).used gone = chronicle.used gone :=
    if_neg (by simpa [uses] using Ne.symm goneOther)
  have past := tells.past gone
  rw [goneUsed]
  by_cases own : survivor = id
  · subst own
    have usedNow : (chronicle.step (.push survivor line)).used survivor = chronicle.operations + 1 :=
      if_pos (decide_eq_true rfl)
    omega
  · have survivorUsed : (chronicle.step (.push id line)).used survivor = chronicle.used survivor :=
      if_neg (by simpa [uses] using Ne.symm own)
    simp only [step, HistoryCache.step] at absent stays
    rw [HistoryCache.push_lookup_of_ne sound timed below line goneOther] at absent
    rw [HistoryCache.push_lookup_of_ne sound timed below line own] at stays
    have outgrown : chronicle.cache.outgrown gone id line = true := by
      by_contra kept
      rw [if_neg kept] at absent
      exact present absent
    have within : Not (chronicle.cache.outgrown survivor id line = true) := by
      intro lost
      exact stays (if_pos lost)
    rw [if_neg within] at stays
    rcases HistoryCache.outgrown_eq_true.mp outgrown with ⟨first, foundFirst, _, excess⟩
    rcases Option.ne_none_iff_exists'.mp stays with ⟨second, foundSecond⟩
    rw [survivorUsed]
    apply tells.ordered foundFirst foundSecond
    by_contra later
    apply within
    refine HistoryCache.outgrown_eq_true.mpr ⟨second, foundSecond, own, ?_⟩
    exact Nat.lt_of_lt_of_le excess (HistoryCache.chargedSince_antitone (Nat.le_of_not_le later))

/-- After every run the lines kept of a console are an end of those pushed to it
since it was last removed or forgotten, and every push of the run forgets the
consoles that were used longest ago, its own never. -/
theorem after_retains (maximumBytes : Nat) (run : List (HistoryAction Line)) (few : run.length < 2 ^ 64) :
    (forall id history, ((start maximumBytes : Chronicle Line).after run).cache.entries.lookup id = some history ->
      history.lines <:+ numbered (((start maximumBytes : Chronicle Line).after run).pushed id)) /\
    forall front id line back, run = front ++ .push id line :: back ->
      ((start maximumBytes : Chronicle Line).after front).ForgetsColdest id line := by
  constructor
  · have ready : (start maximumBytes : Chronicle Line).cache.Ready (run.length + 0) := ready_start few
    exact fun id history found => ((tells_after (tells_start maximumBytes) ready).1.held found).1
  · intro front id line back split
    have length : run.length = front.length + (back.length + 1) := by
      rw [split, List.length_append, List.length_cons]
    have before := tells_after (tells_start maximumBytes) (ready_start (length ▸ few))
    have words := before.2.words
    exact push_forgetsColdest before.1 before.2.sound before.2.timed (by omega) id line

/-- Under a budget for two lines the third console takes the place of the one
that was neither written to nor replayed. -/
theorem after_retains_third :
    [HistoryAction.push "a".toList "1".toList, .push "b".toList "2".toList, .snapshot "a".toList,
      .push "c".toList "3".toList].length < 2 ^ 64 /\
    (((start 50 : Chronicle Text).after [.push "a".toList "1".toList, .push "b".toList "2".toList,
      .snapshot "a".toList]).ForgetsColdest "c".toList "3".toList) :=
  ⟨by decide, (after_retains 50 [HistoryAction.push "a".toList "1".toList, .push "b".toList "2".toList,
    .snapshot "a".toList, .push "c".toList "3".toList] (by decide)).2 _ _ _ [] rfl⟩

end Chronicle

end Console
end Agapornis
