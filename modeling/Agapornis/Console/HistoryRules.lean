import Agapornis.Console.History

namespace Agapornis
namespace Console

open Foundations

/-!
# What the history cache keeps

The counters of the cache count its lines, the lines of a console stand in the
order of their sequences, and a push touches other consoles only by forgetting
them.
-/

variable {Line : Type}

theorem nextWord_le (word : Nat) : nextWord word <= largestWord :=
  Nat.min_le_right _ _

theorem le_nextWord {word : Nat} (below : word <= largestWord) : word <= nextWord word :=
  Nat.le_min.mpr ⟨Nat.le_succ word, below⟩

namespace HistoryCache

@[simp] theorem remove_clock (cache : HistoryCache Line) (id : Text) :
    (cache.remove id).clock = cache.clock := by
  rw [remove]
  split <;> rfl

@[simp] theorem remove_maximumBytes (cache : HistoryCache Line) (id : Text) :
    (cache.remove id).maximumBytes = cache.maximumBytes := by
  rw [remove]
  split <;> rfl

theorem remove_entries (cache : HistoryCache Line) (id : Text) :
    (cache.remove id).entries = cache.entries.erase id := by
  rw [remove]
  split
  · next absent => exact (Table.erase_of_absent absent).symm
  · rfl

theorem lookup_of_remove {cache : HistoryCache Line} {id other : Text}
    {history : ConsoleHistory Line}
    (found : (cache.remove id).entries.lookup other = some history) :
    cache.entries.lookup other = some history := by
  rw [remove_entries] at found
  by_cases same : other = id
  · rw [same, AList.lookup_erase] at found
    cases found
  · rwa [Table.lookup_erase_of_ne same] at found

/-- A cache with some whole histories forgotten, but not the guarded one. -/
structure Forgets (guarded : Text) (before after : HistoryCache Line) : Prop where
  clock : after.clock = before.clock
  maximum : after.maximumBytes = before.maximumBytes
  spared : after.entries.lookup guarded = before.entries.lookup guarded
  others : forall id, after.entries.lookup id = before.entries.lookup id \/
    after.entries.lookup id = none

theorem Forgets.refl (guarded : Text) (cache : HistoryCache Line) : Forgets guarded cache cache :=
  ⟨rfl, rfl, rfl, fun _ => Or.inl rfl⟩

theorem Forgets.trans {guarded : Text} {first second third : HistoryCache Line}
    (earlier : Forgets guarded first second) (later : Forgets guarded second third) :
    Forgets guarded first third where
  clock := later.clock.trans earlier.clock
  maximum := later.maximum.trans earlier.maximum
  spared := later.spared.trans earlier.spared
  others id := by
    rcases later.others id with same | gone
    · rw [same]
      exact earlier.others id
    · exact Or.inr gone

theorem forgets_remove {guarded oldest : Text} (cache : HistoryCache Line)
    (different : Not (oldest = guarded)) : Forgets guarded cache (cache.remove oldest) where
  clock := remove_clock cache oldest
  maximum := remove_maximumBytes cache oldest
  spared := by
    rw [remove_entries]
    exact Table.lookup_erase_of_ne (Ne.symm different)
  others id := by
    rw [remove_entries]
    by_cases same : id = oldest
    · rw [same, AList.lookup_erase]
      exact Or.inr rfl
    · exact Or.inl (Table.lookup_erase_of_ne same)

theorem evictOthers_forgets (guarded : Text) (fuel : Nat) : forall cache : HistoryCache Line,
    Forgets guarded cache (evictOthers guarded fuel cache) := by
  induction fuel with
  | zero => exact Forgets.refl guarded
  | succ fuel induction =>
      intro cache
      rw [evictOthers]
      split
      · split
        · exact Forgets.refl guarded cache
        · next oldest found =>
            exact (forgets_remove cache (Table.leastOther_some found).1).trans (induction _)
      · exact Forgets.refl guarded cache

/-- Forgetting ends within the budget, or with nothing but the guarded history. -/
theorem evictOthers_ends {guarded : Text} {held : ConsoleHistory Line} (fuel : Nat) :
    forall {cache : HistoryCache Line}, Table.size cache.entries <= fuel ->
      cache.entries.lookup guarded = some held ->
      (evictOthers guarded fuel cache).chargedBytes <= (evictOthers guarded fuel cache).maximumBytes \/
      forall id, Not (id = guarded) -> (evictOthers guarded fuel cache).entries.lookup id = none := by
  induction fuel with
  | zero =>
      intro cache enough spared
      have smaller := Table.size_of_lookup spared
      omega
  | succ fuel induction =>
      intro cache enough spared
      rw [evictOthers]
      split
      · split
        · next nothing => exact Or.inr fun id different => Table.leastOther_none nothing different
        · next oldest found =>
            rcases Table.leastOther_some found with ⟨notGuarded, history, present, _⟩
            have smaller := Table.size_of_lookup present
            apply induction
            · rw [remove_entries]
              omega
            · rw [remove_entries, Table.lookup_erase_of_ne (Ne.symm notGuarded)]
              exact spared
      · next within =>
          simp only [Bool.and_eq_true, decide_eq_true_eq, not_and_or, Nat.not_lt] at within
          rcases within with little | few
          · exact Or.inl little
          · right
            intro id different
            cases present : cache.entries.lookup id with
            | none => rfl
            | some history =>
                have several := Table.one_lt_size present spared different
                omega

@[simp] theorem snapshot_clock (cache : HistoryCache Line) (id : Text) :
    (cache.snapshot id).2.clock = nextWord cache.clock := by
  rw [snapshot]
  split <;> rfl

/-- A snapshot changes nothing but when its console was last used. -/
theorem snapshot_lookup (cache : HistoryCache Line) (id other : Text) :
    (cache.snapshot id).2.entries.lookup other =
      (cache.entries.lookup other).map fun history =>
        if other = id then { history with lastAccess := nextWord cache.clock } else history := by
  rw [snapshot]
  by_cases same : other = id
  · subst same
    cases found : cache.entries.lookup other with
    | none => exact found
    | some history =>
        simp only [if_true, Option.map_some]
        exact AList.lookup_insert _
  · simp only [same, if_false, Option.map_id']
    split
    · rfl
    · exact Table.lookup_insert_of_ne _ same

end HistoryCache

variable [LineText Line]

/-! ## What the counters count -/

def contentOf (lines : List (ConsoleEntry Line)) : Nat :=
  (lines.map fun entry => LineText.len entry.line).sum

def chargeOf (lines : List (ConsoleEntry Line)) : Nat :=
  (lines.map entryCharge).sum

theorem contentOf_append (front back : List (ConsoleEntry Line)) :
    contentOf (front ++ back) = contentOf front + contentOf back := by
  rw [contentOf, List.map_append, List.sum_append, contentOf, contentOf]

theorem chargeOf_append (front back : List (ConsoleEntry Line)) :
    chargeOf (front ++ back) = chargeOf front + chargeOf back := by
  rw [chargeOf, List.map_append, List.sum_append, chargeOf, chargeOf]

theorem contentOf_suffix {small lines : List (ConsoleEntry Line)} (inside : small <:+ lines) :
    contentOf small <= contentOf lines := by
  rcases inside with ⟨front, whole⟩
  rw [<- whole, contentOf_append]
  exact Nat.le_add_left _ _

/-- A history with other lines, and its counters for these. -/
def ConsoleHistory.keeping (history : ConsoleHistory Line) (kept : List (ConsoleEntry Line)) :
    ConsoleHistory Line :=
  { history with lines := kept, contentBytes := contentOf kept, chargedBytes := chargeOf kept }

/-- The counters of a history are those of its lines. -/
def ConsoleHistory.Counted (history : ConsoleHistory Line) : Prop :=
  history.keeping history.lines = history

theorem ConsoleHistory.counted_keeping (history : ConsoleHistory Line)
    (kept : List (ConsoleEntry Line)) : (history.keeping kept).Counted :=
  rfl

theorem ConsoleHistory.Counted.content {history : ConsoleHistory Line} (counted : history.Counted) :
    history.contentBytes = contentOf history.lines :=
  (congrArg ConsoleHistory.contentBytes counted).symm

theorem ConsoleHistory.Counted.charged {history : ConsoleHistory Line} (counted : history.Counted) :
    history.chargedBytes = chargeOf history.lines :=
  (congrArg ConsoleHistory.chargedBytes counted).symm

/-- Dropping lines from the front keeps some end of them, stops where there is
no longer too much, and drops nothing of an end which is not too much. -/
theorem popWhile_spec (tooMuch : ConsoleHistory Line -> Nat -> Bool) (others : Nat) :
    forall (lines : List (ConsoleEntry Line)) (history : ConsoleHistory Line) (fuel : Nat),
      lines.length <= fuel ->
      Exists fun kept => kept <:+ lines /\
        popWhile tooMuch fuel (history.keeping lines) (chargeOf lines + others) =
          (history.keeping kept, chargeOf kept + others) /\
        (kept = [] \/ tooMuch (history.keeping kept) (chargeOf kept + others) = false) /\
        forall small, small <:+ lines ->
          tooMuch (history.keeping small) (chargeOf small + others) = false -> small <:+ kept := by
  intro lines
  induction lines with
  | nil =>
      intro history fuel _
      refine ⟨[], List.suffix_rfl, ?_, Or.inl rfl, fun small within _ => within⟩
      cases fuel with
      | zero => rfl
      | succ fuel =>
          rw [popWhile]
          split
          · rfl
          · rfl
  | cons removed rest induction =>
      intro history fuel enough
      cases fuel with
      | zero => exact absurd enough (Nat.not_succ_le_zero _)
      | succ fuel =>
          cases excess : tooMuch (history.keeping (removed :: rest))
              (chargeOf (removed :: rest) + others) with
          | false =>
              refine ⟨removed :: rest, List.suffix_rfl, ?_, Or.inr excess, fun small within _ => within⟩
              rw [popWhile, if_neg (by rw [excess]; exact Bool.false_ne_true)]
          | true =>
              rcases induction history fuel (Nat.le_of_succ_le_succ enough) with
                ⟨kept, within, popped, stopped, needed⟩
              refine ⟨kept, within.trans (List.suffix_cons removed rest), ?_, stopped, ?_⟩
              · have charge : chargeOf (removed :: rest) + others - entryCharge removed =
                    chargeOf rest + others := by
                  simp only [chargeOf, List.map_cons, List.sum_cons]
                  omega
                have left : { history.keeping (removed :: rest) with
                    lines := rest
                    contentBytes := (history.keeping (removed :: rest)).contentBytes -
                      LineText.len removed.line
                    chargedBytes := (history.keeping (removed :: rest)).chargedBytes -
                      entryCharge removed } = history.keeping rest := by
                  simp only [ConsoleHistory.keeping, contentOf, chargeOf, List.map_cons, List.sum_cons,
                    Nat.add_sub_cancel_left]
                rw [popWhile, if_pos excess]
                change popWhile tooMuch fuel { history.keeping (removed :: rest) with
                    lines := rest
                    contentBytes := _
                    chargedBytes := _ } _ = _
                rw [left, charge]
                exact popped
              · intro small inside little
                rcases List.suffix_cons_iff.mp inside with whole | inner
                · subst whole
                  rw [excess] at little
                  cases little
                · exact needed small inner little

namespace HistoryCache

/-- What every operation keeps: the counters count what is there, and the lines
of a console stand in the order of their sequences, none above its counter. -/
structure Sound (cache : HistoryCache Line) : Prop where
  charged : cache.chargedBytes =
    Table.total (fun _ history => history.chargedBytes) cache.entries
  counted : forall {id history}, cache.entries.lookup id = some history -> history.Counted
  ordered : forall {id history}, cache.entries.lookup id = some history ->
    history.lines.Pairwise fun earlier later => earlier.sequence <= later.sequence
  numbered : forall {id history}, cache.entries.lookup id = some history ->
    forall entry, entry ∈ history.lines -> entry.sequence <= history.nextSequence
  bounded : forall {id history}, cache.entries.lookup id = some history ->
    history.nextSequence <= largestWord

theorem sound_withMaximum (maximumBytes : Nat) :
    (withMaximum maximumBytes : HistoryCache Line).Sound where
  charged := rfl
  counted found := by cases found
  ordered found := by cases found
  numbered found := by cases found
  bounded found := by cases found

theorem remove_sound {cache : HistoryCache Line} (sound : cache.Sound) (id : Text) :
    (cache.remove id).Sound := by
  refine ⟨?_, fun found => sound.counted (lookup_of_remove found), fun found => sound.ordered (lookup_of_remove found),
    fun found => sound.numbered (lookup_of_remove found), fun found => sound.bounded (lookup_of_remove found)⟩
  cases present : cache.entries.lookup id with
  | none =>
      rw [remove, present]
      exact sound.charged
  | some history =>
      rw [remove_entries, remove, present]
      have whole := Table.total_of_lookup (fun _ history => history.chargedBytes) present
      have charged := sound.charged
      simp only
      omega

theorem evictOthers_sound (guarded : Text) (fuel : Nat) : forall {cache : HistoryCache Line},
    cache.Sound -> (evictOthers guarded fuel cache).Sound := by
  induction fuel with
  | zero => exact fun sound => sound
  | succ fuel induction =>
      intro cache sound
      rw [evictOthers]
      split
      · split
        · exact sound
        · exact induction (remove_sound sound _)
      · exact sound

/-- Lines that fit into the limits of a console and into the budget. -/
def Fits (maximumBytes : Nat) (lines : List (ConsoleEntry Line)) : Prop :=
  lines.length <= consoleHistoryLines /\ contentOf lines <= consoleHistoryBytes /\
    chargeOf lines <= maximumBytes

theorem extended_counted {cache : HistoryCache Line} (sound : cache.Sound) (id : Text) (line : Line) :
    (cache.extended id line).Counted := by
  have counted : ((cache.entries.lookup id).getD {}).Counted := by
    cases found : cache.entries.lookup id with
    | none => rfl
    | some history => exact sound.counted found
  have content := counted.content
  have charged := counted.charged
  simp only [ConsoleHistory.Counted, ConsoleHistory.keeping, extended, contentOf_append, chargeOf_append,
    content, charged]
  simp only [contentOf, chargeOf, List.map_cons, List.map_nil, List.sum_cons, List.sum_nil, Nat.add_zero]
  rfl

/-- What adding a line does to its own console. -/
theorem addLine_spec {cache : HistoryCache Line} (sound : cache.Sound) (id : Text) (line : Line) :
    Exists fun kept => kept <:+ (cache.extended id line).lines /\
      (cache.addLine id line).entries =
        cache.entries.insert id ((cache.extended id line).keeping kept) /\
      (cache.addLine id line).chargedBytes =
        chargeOf kept + Table.total (fun _ history => history.chargedBytes) (cache.entries.erase id) /\
      (kept.length <= consoleHistoryLines /\ contentOf kept <= consoleHistoryBytes) /\
      forall small, small <:+ (cache.extended id line).lines ->
        small.length <= consoleHistoryLines -> contentOf small <= consoleHistoryBytes ->
        small <:+ kept := by
  have counted := extended_counted sound id line
  have charge : cache.chargedBytes + entryCharge (cache.nextEntry id line) =
      chargeOf (cache.extended id line).lines +
        Table.total (fun _ history => history.chargedBytes) (cache.entries.erase id) := by
    rw [<- counted.charged, sound.charged]
    cases found : cache.entries.lookup id with
    | none =>
        simp only [extended, found, Option.getD_none, Table.erase_of_absent found]
        omega
    | some history =>
        rw [Table.total_of_lookup (fun _ history => history.chargedBytes) found]
        simp only [extended, found, Option.getD_some]
        omega
  rcases popWhile_spec overLimits
      (Table.total (fun _ history => history.chargedBytes) (cache.entries.erase id))
      (cache.extended id line).lines (cache.extended id line) (cache.extended id line).lines.length
      (Nat.le_refl _) with ⟨kept, within, popped, stopped, needed⟩
  rw [counted, <- charge] at popped
  refine ⟨kept, within, ?_, ?_, ?_, ?_⟩
  · simp only [addLine, popped]
  · simp only [addLine, popped]
  · rcases stopped with nothing | little
    · rw [nothing]
      exact ⟨Nat.zero_le _, Nat.zero_le _⟩
    · rw [overLimits, Bool.or_eq_false_iff] at little
      exact ⟨Nat.not_lt.mp (of_decide_eq_false little.1), Nat.not_lt.mp (of_decide_eq_false little.2)⟩
  · intro small inside few short
    apply needed small inside
    rw [overLimits, Bool.or_eq_false_iff]
    exact ⟨decide_eq_false (Nat.not_lt.mpr few), decide_eq_false (Nat.not_lt.mpr short)⟩

theorem addLine_lookup_of_ne (cache : HistoryCache Line) {id other : Text} (line : Line)
    (different : Not (other = id)) :
    (cache.addLine id line).entries.lookup other = cache.entries.lookup other := by
  rw [addLine]
  exact Table.lookup_insert_of_ne _ different

/-- The lines of the history before, and the new one behind them. -/
theorem extended_mem {cache : HistoryCache Line} {id : Text} {line : Line} {entry : ConsoleEntry Line}
    (member : entry ∈ (cache.extended id line).lines) :
    (Exists fun history => cache.entries.lookup id = some history /\ entry ∈ history.lines) \/
      entry = cache.nextEntry id line := by
  rcases List.mem_append.mp member with old | new
  · cases found : cache.entries.lookup id with
    | none =>
        rw [found] at old
        cases old
    | some history =>
        rw [found] at old
        exact Or.inl ⟨history, rfl, old⟩
  · exact Or.inr (List.mem_singleton.mp new)

/-- The history with one more line is as ordered as the one before. -/
theorem extended_ordered {cache : HistoryCache Line} (sound : cache.Sound) (id : Text) (line : Line) :
    ((cache.extended id line).lines.Pairwise fun earlier later => earlier.sequence <= later.sequence) /\
      forall entry, entry ∈ (cache.extended id line).lines ->
        entry.sequence <= (cache.extended id line).nextSequence := by
  have numbered : forall entry, entry ∈ ((cache.entries.lookup id).getD {}).lines ->
      entry.sequence <= (cache.nextEntry id line).sequence := by
    intro entry member
    cases found : cache.entries.lookup id with
    | none =>
        rw [found] at member
        cases member
    | some history =>
        rw [found] at member
        simp only [nextEntry, found, Option.getD_some]
        exact (sound.numbered found entry member).trans (le_nextWord (sound.bounded found))
  refine ⟨?_, ?_⟩
  · rw [extended, List.pairwise_append]
    refine ⟨?_, List.pairwise_singleton _ _, ?_⟩
    · cases found : cache.entries.lookup id with
      | none => exact List.Pairwise.nil
      | some history => exact sound.ordered found
    · intro earlier old later new
      rw [List.mem_singleton.mp new]
      exact numbered earlier old
  · intro entry member
    rcases List.mem_append.mp member with old | new
    · exact numbered entry old
    · rw [List.mem_singleton.mp new]
      exact Nat.le_refl _

/-- A table of histories in which one has been replaced by an ordered end of itself. -/
theorem sound_insert {cache after : HistoryCache Line} {id : Text} {history : ConsoleHistory Line}
    {kept : List (ConsoleEntry Line)} (sound : cache.Sound)
    (entries : after.entries = cache.entries.insert id (history.keeping kept))
    (charged : after.chargedBytes = chargeOf kept +
      Table.total (fun _ history => history.chargedBytes) (cache.entries.erase id))
    (within : kept <:+ history.lines)
    (ordered : history.lines.Pairwise fun earlier later => earlier.sequence <= later.sequence)
    (numbered : forall entry, entry ∈ history.lines -> entry.sequence <= history.nextSequence)
    (bounded : history.nextSequence <= largestWord) : after.Sound := by
  have row : forall {other held}, after.entries.lookup other = some held ->
      held = history.keeping kept \/ cache.entries.lookup other = some held := by
    intro other held found
    rw [entries] at found
    by_cases same : other = id
    · rw [same, AList.lookup_insert] at found
      exact Or.inl (Option.some.inj found).symm
    · rw [Table.lookup_insert_of_ne _ same] at found
      exact Or.inr found
  refine ⟨?_, ?_, ?_, ?_, ?_⟩
  · rw [charged, entries, Table.total_insert]
    rfl
  · intro other held found
    rcases row found with new | old
    · rw [new]
      exact ConsoleHistory.counted_keeping history kept
    · exact sound.counted old
  · intro other held found
    rcases row found with new | old
    · rw [new]
      exact ordered.sublist within.sublist
    · exact sound.ordered old
  · intro other held found
    rcases row found with new | old
    · rw [new]
      exact fun entry member => numbered entry (within.subset member)
    · exact sound.numbered old
  · intro other held found
    rcases row found with new | old
    · rw [new]
      exact bounded
    · exact sound.bounded old

theorem addLine_sound {cache : HistoryCache Line} (sound : cache.Sound) (id : Text) (line : Line) :
    (cache.addLine id line).Sound := by
  rcases addLine_spec sound id line with ⟨kept, within, entries, charged, _⟩
  have ordered := extended_ordered sound id line
  exact sound_insert sound entries charged within ordered.1 ordered.2 (nextWord_le _)

/-- What trimming does to the guarded history, when the others are within the
budget with it or there are none. -/
theorem trimGuarded_spec {cache : HistoryCache Line} {guarded : Text} {history : ConsoleHistory Line}
    (sound : cache.Sound) (found : cache.entries.lookup guarded = some history)
    (ended : cache.chargedBytes <= cache.maximumBytes \/
      forall id, Not (id = guarded) -> cache.entries.lookup id = none) :
    Exists fun kept => kept <:+ history.lines /\
      (cache.trimGuarded guarded).entries = cache.entries.insert guarded (history.keeping kept) /\
      (cache.trimGuarded guarded).chargedBytes =
        chargeOf kept + Table.total (fun _ history => history.chargedBytes) (cache.entries.erase guarded) /\
      (cache.trimGuarded guarded).chargedBytes <= cache.maximumBytes /\
      forall small, small <:+ history.lines -> chargeOf small <= cache.maximumBytes ->
        small <:+ kept := by
  have counted := sound.counted found
  have charge : cache.chargedBytes = chargeOf history.lines +
      Table.total (fun _ history => history.chargedBytes) (cache.entries.erase guarded) := by
    rw [<- counted.charged, sound.charged]
    exact Table.total_of_lookup (fun _ history => history.chargedBytes) found
  rcases popWhile_spec (fun _ charged => decide (cache.maximumBytes < charged))
      (Table.total (fun _ history => history.chargedBytes) (cache.entries.erase guarded))
      history.lines history history.lines.length (Nat.le_refl _) with ⟨kept, within, popped, stopped, needed⟩
  rw [counted, <- charge] at popped
  have alone (none : forall id, Not (id = guarded) -> cache.entries.lookup id = none) :
      Table.total (fun _ history => history.chargedBytes) (cache.entries.erase guarded) = 0 := by
    apply Table.total_of_empty
    intro id
    by_cases same : id = guarded
    · rw [same, AList.lookup_erase]
    · rw [Table.lookup_erase_of_ne same]
      exact none id same
  refine ⟨kept, within, ?_, ?_, ?_, ?_⟩
  · simp only [trimGuarded, found, popped]
  · simp only [trimGuarded, found, popped]
  · simp only [trimGuarded, found, popped]
    rcases stopped with nothing | little
    · rw [nothing, chargeOf, List.map_nil, List.sum_nil, Nat.zero_add]
      rcases ended with short | none
      · omega
      · rw [alone none]
        exact Nat.zero_le _
    · exact Nat.not_lt.mp (of_decide_eq_false little)
  · intro small inside little
    rcases ended with short | none
    · have whole := needed history.lines List.suffix_rfl (by
        rw [<- charge]
        exact decide_eq_false (Nat.not_lt.mpr short))
      exact inside.trans whole
    · apply needed small inside
      rw [alone none]
      exact decide_eq_false (Nat.not_lt.mpr little)

@[simp] theorem trimGuarded_clock (cache : HistoryCache Line) (guarded : Text) :
    (cache.trimGuarded guarded).clock = cache.clock := by
  rw [trimGuarded]
  split <;> rfl

theorem trimGuarded_lookup_of_ne (cache : HistoryCache Line) {guarded other : Text}
    (different : Not (other = guarded)) :
    (cache.trimGuarded guarded).entries.lookup other = cache.entries.lookup other := by
  rw [trimGuarded]
  split
  · rfl
  · exact Table.lookup_insert_of_ne _ different

@[simp] theorem push_entry (cache : HistoryCache Line) (id : Text) (line : Line) :
    (cache.push id line).1 = cache.nextEntry id line :=
  rfl

@[simp] theorem push_clock (cache : HistoryCache Line) (id : Text) (line : Line) :
    (cache.push id line).2.clock = nextWord cache.clock := by
  simp only [push, evictToBudget, trimGuarded_clock, (evictOthers_forgets id _ _).clock]
  rfl

/-- A push keeps the longest end of its console's lines that fits, and ends within the budget. -/
theorem push_spec {cache : HistoryCache Line} (sound : cache.Sound) (id : Text) (line : Line) :
    (cache.push id line).2.Sound /\
      Exists fun kept => kept <:+ (cache.extended id line).lines /\
        (cache.push id line).2.entries.lookup id = some ((cache.extended id line).keeping kept) /\
        (Fits cache.maximumBytes kept /\ (cache.push id line).2.chargedBytes <= cache.maximumBytes) /\
        forall small, small <:+ (cache.extended id line).lines -> Fits cache.maximumBytes small ->
          small <:+ kept := by
  rcases addLine_spec sound id line with ⟨limited, within, entries, _, limits, needed⟩
  have soundAdded := addLine_sound sound id line
  have forgets := evictOthers_forgets id (Table.size (cache.addLine id line).entries)
    (cache.addLine id line)
  have soundEvicted := evictOthers_sound id (Table.size (cache.addLine id line).entries) soundAdded
  have added : (cache.addLine id line).entries.lookup id =
      some ((cache.extended id line).keeping limited) := by
    rw [entries, AList.lookup_insert]
  have evicted := forgets.spared.trans added
  rcases trimGuarded_spec soundEvicted evicted (evictOthers_ends _ (Nat.le_refl _) added).symm.symm with
    ⟨kept, inside, trimmed, charged, budget, fitting⟩
  have ordered := extended_ordered sound id line
  have maximum : (evictOthers id (Table.size (cache.addLine id line).entries)
      (cache.addLine id line)).maximumBytes = cache.maximumBytes := forgets.maximum
  rw [maximum] at budget fitting
  refine ⟨?_, kept, inside.trans within, ?_, ⟨⟨?_, ?_, ?_⟩, budget⟩, ?_⟩
  · exact sound_insert soundEvicted trimmed charged inside
      (ordered.1.sublist within.sublist) (fun entry member => ordered.2 entry (within.subset member))
      (nextWord_le _)
  · simp only [push, evictToBudget, trimmed, AList.lookup_insert]
    rfl
  · exact inside.sublist.length_le.trans limits.1
  · exact (contentOf_suffix inside).trans limits.2
  · omega
  · intro small smallWithin fits
    exact fitting small (needed small smallWithin fits.1 fits.2.1) fits.2.2

/-- Other consoles keep their history through a push, or lose it whole. -/
theorem push_others (cache : HistoryCache Line) {id other : Text} (line : Line)
    (different : Not (other = id)) :
    (cache.push id line).2.entries.lookup other = cache.entries.lookup other \/
      (cache.push id line).2.entries.lookup other = none := by
  simp only [push, evictToBudget, trimGuarded_lookup_of_ne _ different]
  rw [<- addLine_lookup_of_ne cache line different]
  exact (evictOthers_forgets id _ _).others other

theorem snapshot_sound {cache : HistoryCache Line} (sound : cache.Sound) (id : Text) :
    (cache.snapshot id).2.Sound := by
  rw [snapshot]
  cases found : cache.entries.lookup id with
  | none => exact ⟨sound.charged, sound.counted, sound.ordered, sound.numbered, sound.bounded⟩
  | some history =>
      have kept : ({ history with lastAccess := nextWord cache.clock } : ConsoleHistory Line).keeping
          history.lines = { history with lastAccess := nextWord cache.clock } := by
        simp only [ConsoleHistory.keeping, <- (sound.counted found).content,
          <- (sound.counted found).charged]
      have ordered := sound.ordered found
      have numbered := sound.numbered found
      have bounded := sound.bounded found
      refine sound_insert sound (congrArg (AList.insert id · cache.entries) kept.symm) ?_
        List.suffix_rfl ordered numbered bounded
      simp only
      rw [<- (sound.counted found).charged, sound.charged]
      exact Table.total_of_lookup (fun _ history => history.chargedBytes) found

end HistoryCache

end Console
end Agapornis
