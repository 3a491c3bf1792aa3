import Mathlib.Data.List.Chain
import Agapornis.Security.Protection

namespace Agapornis
namespace Security

open Foundations

/-!
# Episodes of strikes

A window strikes with its first line beyond the limit.  Windows whose strikes
are less than ten seconds apart make an episode, and the verdict on a strike is
told by its place in the episode.
-/

/-- The lines of one window, with what is decided about each. -/
abbrev LineWindow :=
  List (Nat × LineDecision)

/-- When the first line beyond the limit comes. -/
def firstExcess (limits : ProtectionLimits) (window : LineWindow) : Option Nat :=
  (window[limits.consoleLinesPerSecond]?).map Prod.fst

/-- The windows with more lines than the limit. -/
def overLimit (limits : ProtectionLimits) (windows : List LineWindow) : List LineWindow :=
  windows.filter fun window => limits.consoleLinesPerSecond < window.length

/-- A window strikes less than ten seconds after another. -/
def SoonAfter (limits : ProtectionLimits) (earlier later : LineWindow) : Prop :=
  forall first, first ∈ firstExcess limits earlier ->
    forall second, second ∈ firstExcess limits later -> second < first + seconds 10

/-- Windows over the limit that strike less than ten seconds after each other,
and not so after the windows that are before them. -/
structure Episode (limits : ProtectionLimits) (front episode : List LineWindow) : Prop where
  close : episode.IsChain (SoonAfter limits)
  apart : forall before, before ∈ front.getLast? -> forall first, first ∈ episode.head? ->
    Not (SoonAfter limits before first)

/-- What is decided about the first line beyond the limit, by the place of its
window in the episode. -/
def episodeVerdict (limits : ProtectionLimits) (place : Nat) : LineDecision :=
  if limits.consoleStrikeLimit <= place + 1 then .trip
  else if place = 0 then .notify
  else .suppress

/-- What is decided about all lines of a window over the limit. -/
def episodeDecisions (limits : ProtectionLimits) (place lines : Nat) : List LineDecision :=
  List.replicate limits.consoleLinesPerSecond .allow ++
    episodeVerdict limits place :: List.replicate (lines - limits.consoleLinesPerSecond - 1) .suppress

theorem verdict_eq (limits : ProtectionLimits) (place : Nat) :
    ConsoleRate.verdict limits (place + 1) = episodeVerdict limits place := by
  unfold ConsoleRate.verdict episodeVerdict
  simp only [Nat.add_eq_right]

/-! ## Strikes in a row -/

/-- The strikes that count at the last of some times, the last told first. -/
def strikesOf : List Nat -> Nat
  | [] => 0
  | [_] => 1
  | now :: before :: earlier =>
      if before + seconds 10 <= now then 1 else strikesOf (before :: earlier) + 1

/-- The times of the strikes, with that of one more window. -/
def excessesAfter (limits : ProtectionLimits) (window : LineWindow) (excesses : List Nat) : List Nat :=
  match firstExcess limits window with
  | some first => first :: excesses
  | none => excesses

/-- The decision about a line by its number in the window. -/
def decidedAt (limits : ProtectionLimits) (excesses : List Nat) (index now : Nat) : LineDecision :=
  if index < limits.consoleLinesPerSecond then .allow
  else if index = limits.consoleLinesPerSecond then ConsoleRate.verdict limits (strikesOf (now :: excesses))
  else .suppress

/-- The lines of a window are decided upon by their numbers. -/
def Decided (limits : ProtectionLimits) (excesses : List Nat) (window : LineWindow) : Prop :=
  forall index row, window[index]? = some row -> row.2 = decidedAt limits excesses index row.1

/-- All windows are, each after the strikes before it. -/
def AllDecided (limits : ProtectionLimits) : List Nat -> List LineWindow -> Prop
  | _, [] => True
  | excesses, window :: later =>
      Decided limits excesses window /\ AllDecided limits (excessesAfter limits window excesses) later

section Windows

variable {limits : ProtectionLimits}

theorem firstExcess_within {window : LineWindow} (within : window.length <= limits.consoleLinesPerSecond) :
    firstExcess limits window = none := by
  unfold firstExcess
  rw [List.getElem?_eq_none within, Option.map_none]

theorem firstExcess_append {window : LineWindow} (row : Nat × LineDecision) :
    firstExcess limits (window ++ [row]) =
      if window.length = limits.consoleLinesPerSecond then some row.1 else firstExcess limits window := by
  unfold firstExcess
  split
  · next full => rw [← full, List.getElem?_concat_length, Option.map_some]
  · next apart =>
      rcases Nat.lt_or_gt_of_ne apart with few | many
      · rw [List.getElem?_eq_none (Nat.le_of_lt few), List.getElem?_eq_none]
        rw [List.length_append, List.length_singleton]
        exact few
      · rw [List.getElem?_append_left many]

theorem Decided.append {excesses : List Nat} {window : LineWindow} (decidedAll : Decided limits excesses window)
    {now : Nat} {decision : LineDecision} (right : decision = decidedAt limits excesses window.length now) :
    Decided limits excesses (window ++ [(now, decision)]) := by
  intro index row found
  rcases Nat.lt_trichotomy index window.length with inside | last | outside
  · rw [List.getElem?_append_left inside] at found
    exact decidedAll index row found
  · subst last
    rw [List.getElem?_concat_length, Option.some_inj] at found
    subst found
    exact right
  · rw [List.getElem?_eq_none] at found
    · cases found
    · rw [List.length_append, List.length_singleton]
      exact outside

end Windows

/-! ## The rate along the windows -/

/-- A rate knows the strikes that count until some time. -/
def KnowsStrikes (rate : ConsoleRate) (excesses : List Nat) (last : Nat) : Prop :=
  match rate.lastStrike with
  | some lastStrike => excesses.head? = some lastStrike /\ rate.strikes = strikesOf excesses
  | none => rate.strikes = 0 /\ forall before, before ∈ excesses.head? -> before + seconds 10 <= last

/-- A rate is that of an open window, after the strikes of the windows before. -/
structure Tracks (limits : ProtectionLimits) (rate : ConsoleRate) (current : LineWindow)
    (excesses : List Nat) (last : Nat) : Prop where
  counted : rate.count = current.length
  exceeded : rate.exceeded = decide (limits.consoleLinesPerSecond < current.length)
  decided : Decided limits excesses current
  strikes : KnowsStrikes rate (excessesAfter limits current excesses) last

section Tracking

variable {limits : ProtectionLimits} {rate : ConsoleRate} {current : LineWindow} {excesses : List Nat}
  {last now : Nat}

/-- A strike that still counts is less than ten seconds old. -/
def YoungStrike (rate : ConsoleRate) (now : Nat) : Prop :=
  forall lastStrike, lastStrike ∈ rate.lastStrike -> now < lastStrike + seconds 10

theorem decay_cases (rate : ConsoleRate) (now : Nat) :
    (YoungStrike rate now /\ rate.decay now = rate) \/
      exists lastStrike, rate.lastStrike = some lastStrike /\ lastStrike + seconds 10 <= now /\
        rate.decay now = { rate with strikes := 0, lastStrike := none } := by
  unfold ConsoleRate.decay YoungStrike
  cases strike : rate.lastStrike with
  | none => exact Or.inl ⟨fun lastStrike member => (by cases member), rfl⟩
  | some lastStrike =>
      dsimp only
      split
      · next old =>
          refine Or.inr ⟨lastStrike, rfl, ?_, rfl⟩
          unfold seconds at *
          omega
      · next young =>
          refine Or.inl ⟨fun other member => ?_, rfl⟩
          rw [Option.mem_some_iff] at member
          subst member
          unfold seconds at *
          omega

theorem decay_young (rate : ConsoleRate) (now : Nat) : YoungStrike (rate.decay now) now := by
  rcases decay_cases rate now with ⟨young, same⟩ | ⟨_, _, _, forgotten⟩
  · rw [same]
    exact young
  · rw [forgotten]
    exact fun lastStrike member => by cases member

theorem KnowsStrikes.decay (knows : KnowsStrikes rate excesses last) (later : last <= now) :
    KnowsStrikes (rate.decay now) excesses now := by
  rcases decay_cases rate now with ⟨_, same⟩ | ⟨lastStrike, strike, old, forgotten⟩
  · rw [same]
    unfold KnowsStrikes at *
    cases strike : rate.lastStrike with
    | none =>
        rw [strike] at knows
        exact ⟨knows.1, fun before member => (knows.2 before member).trans later⟩
    | some lastStrike =>
        rw [strike] at knows
        exact knows
  · rw [forgotten]
    unfold KnowsStrikes at knows
    rw [strike] at knows
    refine ⟨rfl, fun before member => ?_⟩
    rw [knows.1, Option.mem_some_iff] at member
    subst member
    exact old

/-- One more strike is counted as the times tell. -/
theorem KnowsStrikes.strike (knows : KnowsStrikes rate excesses now) (young : YoungStrike rate now) :
    rate.strikes + 1 = strikesOf (now :: excesses) := by
  unfold KnowsStrikes at knows
  cases strike : rate.lastStrike with
  | none =>
      rw [strike] at knows
      rcases knows with ⟨zero, old⟩
      rw [zero]
      cases excesses with
      | nil => rfl
      | cons before earlier => rw [strikesOf, if_pos (old before rfl)]
  | some lastStrike =>
      rw [strike] at knows
      rcases knows with ⟨head, same⟩
      rcases List.head?_eq_some_iff.mp head with ⟨earlier, shape⟩
      subst shape
      rw [same, strikesOf, if_neg (Nat.not_le_of_lt (young lastStrike strike))]

theorem Tracks.decay (tracks : Tracks limits rate current excesses last) (later : last <= now) :
    Tracks limits (rate.decay now) current excesses now where
  counted := by rw [ConsoleRate.decay_count, tracks.counted]
  exceeded := by rw [ConsoleRate.decay_exceeded, tracks.exceeded]
  decided := tracks.decided
  strikes := tracks.strikes.decay later

/-- A window that is over leaves its strike to the next. -/
theorem Tracks.reopen (tracks : Tracks limits rate current excesses now) :
    Tracks limits { rate with started := now, count := 0, exceeded := false } []
      (excessesAfter limits current excesses) now where
  counted := rfl
  exceeded := rfl
  decided index row found := by cases found
  strikes := by
    rw [excessesAfter, firstExcess_within (Nat.zero_le _)]
    exact tracks.strikes

/-- One more line is decided upon as its number tells. -/
theorem Tracks.countLine (tracks : Tracks limits rate current excesses now) (young : YoungStrike rate now) :
    Tracks limits (ConsoleRate.countLine limits rate now).2
      (current ++ [(now, (ConsoleRate.countLine limits rate now).1)]) excesses now := by
  have length : forall decision : LineDecision, (current ++ [(now, decision)]).length = rate.count + 1 := by
    intro decision
    rw [List.length_append, List.length_singleton, tracks.counted]
  have strikes := tracks.strikes
  unfold ConsoleRate.countLine
  dsimp only
  split
  · next within =>
      rw [tracks.counted] at within
      refine ⟨(length _).symm, ?_, tracks.decided.append ?_, ?_⟩
      · rw [length, tracks.exceeded, decide_eq_decide]
        have counted := tracks.counted
        omega
      · rw [decidedAt, if_pos (Nat.lt_of_succ_le within)]
      · rw [excessesAfter, firstExcess_append, if_neg (by omega)]
        exact strikes
  · next beyond =>
      rw [tracks.counted] at beyond
      split
      · next exceeded =>
          rw [tracks.exceeded, decide_eq_true_eq] at exceeded
          refine ⟨(length _).symm, ?_, tracks.decided.append ?_, ?_⟩
          · rw [length, tracks.exceeded, decide_eq_decide]
            have counted := tracks.counted
            omega
          · rw [decidedAt, if_neg (by omega), if_neg (by omega)]
          · rw [excessesAfter, firstExcess_append, if_neg (by omega)]
            exact strikes
      · next first =>
          rw [tracks.exceeded, decide_eq_true_eq] at first
          have full : current.length = limits.consoleLinesPerSecond := by omega
          rw [excessesAfter, firstExcess_within (by omega)] at strikes
          refine ⟨(length _).symm, ?_, tracks.decided.append ?_, ?_⟩
          · rw [length, eq_comm, decide_eq_true_eq]
            have counted := tracks.counted
            omega
          · rw [decidedAt, if_neg (by omega), if_pos full, strikes.strike young]
          · rw [excessesAfter, firstExcess_append, if_pos full]
            exact ⟨rfl, strikes.strike young⟩

/-- The decisions along a run are those of its windows. -/
theorem Tracks.allDecided (times : List Nat) :
    forall (rate : ConsoleRate) (current : LineWindow) (excesses : List Nat) (last : Nat),
      Tracks limits rate current excesses last -> times.Pairwise (· <= ·) ->
      (forall now, now ∈ times -> last <= now) ->
      AllDecided limits excesses
        (RateWindows.windowsFrom (seconds 1) rate.started current (observed limits (some rate) times)) := by
  induction times with
  | nil => exact fun rate current excesses last tracks _ _ => ⟨tracks.decided, trivial⟩
  | cons now later induction =>
      intro rate current excesses last tracks sorted after
      rcases List.pairwise_cons.mp sorted with ⟨least, sortedLater⟩
      have decayed := tracks.decay (after now List.mem_cons_self)
      have young := decay_young rate now
      rw [observed, RateWindows.windowsFrom]
      split
      · next within =>
          have same : ConsoleRate.observe limits (some rate) now =
              ConsoleRate.countLine limits (rate.decay now) now := by
            rw [ConsoleRate.observe, Option.getD_some,
              ConsoleRate.roll_within (by rw [ConsoleRate.decay_started]; exact within)]
          have rest := induction _ _ _ now (decayed.countLine young) sortedLater least
          rw [ConsoleRate.countLine_started, ConsoleRate.decay_started] at rest
          rw [same]
          exact rest
      · next past =>
          have rolled : ConsoleRate.observe limits (some rate) now = ConsoleRate.countLine limits
              { rate.decay now with started := now, count := 0, exceeded := false } now := by
            rw [ConsoleRate.observe, Option.getD_some, ConsoleRate.roll_over]
            rw [ConsoleRate.decay_started]
            exact Nat.le_of_not_lt past
          have rest := induction _ _ _ now (decayed.reopen.countLine young) sortedLater least
          rw [ConsoleRate.countLine_started] at rest
          rw [rolled]
          exact ⟨tracks.decided, rest⟩

end Tracking

/-- So it is from the first line of a server on. -/
theorem observed_allDecided (limits : ProtectionLimits) {times : List Nat} (sorted : times.Pairwise (· <= ·)) :
    AllDecided limits [] (RateWindows.windows (seconds 1) (observed limits none times)) := by
  cases times with
  | nil => exact trivial
  | cons now later =>
      rcases List.pairwise_cons.mp sorted with ⟨least, sortedLater⟩
      have fresh : Tracks limits { started := now } [] [] now :=
        ⟨rfl, rfl, fun index row found => (by cases found), ⟨rfl, fun before member => by cases member⟩⟩
      have same : ConsoleRate.observe limits none now = ConsoleRate.countLine limits { started := now } now := by
        rw [ConsoleRate.observe, Option.getD_none, ConsoleRate.roll_within]
        · rfl
        · exact Nat.lt_add_of_pos_right (by decide)
      have rest := Tracks.allDecided later _ _ _ now
        (fresh.countLine fun lastStrike member => by cases member) sortedLater least
      rw [ConsoleRate.countLine_started] at rest
      rw [observed, RateWindows.windows, same]
      exact rest

/-! ## The windows of an episode -/

/-- The strikes of some windows, the last told first. -/
def excessesOf (limits : ProtectionLimits) (windows : List LineWindow) : List Nat :=
  windows.foldl (fun excesses window => excessesAfter limits window excesses) []

section Episodes

variable {limits : ProtectionLimits}

theorem allDecided_overLimit (windows : List LineWindow) :
    forall excesses, AllDecided limits excesses windows ->
      AllDecided limits excesses (overLimit limits windows) := by
  induction windows with
  | nil => exact fun excesses _ => trivial
  | cons window later induction =>
      intro excesses all
      have rest := induction _ all.2
      unfold overLimit at *
      by_cases exceeds : limits.consoleLinesPerSecond < window.length
      · rw [List.filter_cons, if_pos (decide_eq_true exceeds)]
        exact ⟨all.1, rest⟩
      · rw [List.filter_cons, if_neg (by rw [decide_eq_true_eq]; exact exceeds)]
        rw [excessesAfter, firstExcess_within (Nat.le_of_not_lt exceeds)] at rest
        exact rest

theorem AllDecided.at (front : List LineWindow) {window : LineWindow} {back : List LineWindow} :
    forall excesses, AllDecided limits excesses (front ++ window :: back) ->
      Decided limits (front.foldl (fun excesses window => excessesAfter limits window excesses) excesses)
        window := by
  induction front with
  | nil => exact fun excesses all => all.1
  | cons first front induction => exact fun excesses all => induction _ all.2

theorem firstExcess_over {window : LineWindow} (exceeds : limits.consoleLinesPerSecond < window.length) :
    exists first, firstExcess limits window = some first := by
  unfold firstExcess
  rw [List.getElem?_eq_getElem exceeds]
  exact ⟨_, rfl⟩

theorem excessesOf_append (windows : List LineWindow) {window : LineWindow} {first : Nat}
    (strikes : firstExcess limits window = some first) :
    excessesOf limits (windows ++ [window]) = first :: excessesOf limits windows := by
  unfold excessesOf
  rw [List.foldl_append, List.foldl_cons, List.foldl_nil, excessesAfter, strikes]

/-- The last strike is that of the last window. -/
theorem excessesOf_head (windows : List LineWindow)
    (exceeds : forall window, window ∈ windows -> limits.consoleLinesPerSecond < window.length) :
    (excessesOf limits windows).head? = windows.getLast?.bind (firstExcess limits) := by
  induction windows using List.reverseRecOn with
  | nil => rfl
  | append_singleton windows window _ =>
      rcases firstExcess_over (exceeds window (by simp)) with ⟨first, strikes⟩
      rw [excessesOf_append windows strikes, List.getLast?_concat, List.head?_cons, Option.bind_some, strikes]

theorem Episode.shorten {front episode more : List LineWindow}
    (within : Episode limits front (episode ++ more)) : Episode limits front episode where
  close := within.close.left_of_append
  apart before member first head := within.apart before member first (by
    rw [List.head?_append, Option.mem_def.mp head]
    rfl)

/-- The strikes that count at a window of an episode are those of the windows up to it. -/
theorem Episode.strikes {front : List LineWindow} (episode : List LineWindow) :
    forall (window : LineWindow) (first : Nat), Episode limits front (episode ++ [window]) ->
      (forall window, window ∈ front ++ episode -> limits.consoleLinesPerSecond < window.length) ->
      firstExcess limits window = some first ->
      strikesOf (first :: excessesOf limits (front ++ episode)) = episode.length + 1 := by
  induction episode using List.reverseRecOn with
  | nil =>
      intro window first within exceeds strikes
      rw [List.append_nil] at *
      cases before : excessesOf limits front with
      | nil => rfl
      | cons last earlier =>
          have head := excessesOf_head front exceeds
          rw [before, List.head?_cons] at head
          rcases Option.bind_eq_some_iff.mp head.symm with ⟨previous, isLast, struck⟩
          have apart := within.apart previous isLast window rfl
          rw [strikesOf, if_pos, List.length_nil]
          by_contra soon
          refine apart fun earlierTime earlierStrike laterTime laterStrike => ?_
          rw [struck, Option.mem_some_iff] at earlierStrike
          rw [strikes, Option.mem_some_iff] at laterStrike
          omega
  | append_singleton episode previous induction =>
      intro window first within exceeds strikes
      rcases firstExcess_over (exceeds previous (by simp)) with ⟨last, struck⟩
      have counted := induction previous last within.shorten
        (fun other member => exceeds other (by
          rw [← List.append_assoc]
          exact List.mem_append_left _ member)) struck
      have soon : first < last + seconds 10 :=
        List.isChain_append.mp within.close |>.2.2 previous (by simp) window rfl last struck first strikes
      rw [← List.append_assoc, excessesOf_append _ struck, strikesOf, if_neg (Nat.not_le_of_lt soon), counted,
        List.length_append, List.length_singleton]

/-- A window of an episode is decided upon by its place. -/
theorem Decided.episode {front episode : List LineWindow} {window : LineWindow}
    (decided : Decided limits (excessesOf limits (front ++ episode)) window)
    (within : Episode limits front (episode ++ [window]))
    (exceeds : forall other, other ∈ front ++ (episode ++ [window]) -> limits.consoleLinesPerSecond < other.length) :
    window.map Prod.snd = episodeDecisions limits episode.length window.length := by
  have many := exceeds window (by simp)
  unfold episodeDecisions
  refine List.ext_getElem (by simp; omega) fun index inside bound => ?_
  rw [List.length_map] at inside
  have right := decided index window[index] (List.getElem?_eq_getElem inside)
  rw [List.getElem_map, right]
  unfold decidedAt
  rcases Nat.lt_trichotomy index limits.consoleLinesPerSecond with few | first | beyond
  · rw [if_pos few, List.getElem_append_left (by rw [List.length_replicate]; exact few), List.getElem_replicate]
  · have struck : firstExcess limits window = some window[index].1 := by
      unfold firstExcess
      rw [← first, List.getElem?_eq_getElem inside, Option.map_some]
    have counted := Episode.strikes episode window _ within
      (fun other member => exceeds other (by
        rw [← List.append_assoc]
        exact List.mem_append_left _ member)) struck
    rw [if_neg (by omega), if_pos first, counted, verdict_eq]
    subst first
    simp
  · rw [if_neg (by omega), if_neg (by omega), List.getElem_append_right (by rw [List.length_replicate]; omega),
      List.getElem_cons, dif_neg (by rw [List.length_replicate]; omega), List.getElem_replicate]

end Episodes

/-! ## What holds of all calls -/

/-- The lines that are not suppressed. -/
def passed (lines : List (Nat × LineDecision)) : List (Nat × Bool) :=
  lines.map fun row => (row.1, decide (Not (row.2 = .suppress)))

/-- The rates of a server's lines and commands are held, over any interval, and
the strikes of its lines are told once for each window of an episode. -/
structure RatesHeld (limits : ProtectionLimits) (lines : List (Nat × LineDecision))
    (commands : List (Nat × Bool)) : Prop where
  lines_interval : forall first, RateWindows.acceptedBetween first (first + seconds 1) (passed lines) <=
    2 * (limits.consoleLinesPerSecond + 1)
  commands_interval : forall first, RateWindows.acceptedBetween first (first + seconds 5) commands <=
    2 * limits.consoleCommandsPer5Seconds
  cut : (RateWindows.windows (seconds 1) lines).flatten = lines
  episodes : forall front episode back,
    overLimit limits (RateWindows.windows (seconds 1) lines) = front ++ episode ++ back ->
    Episode limits front episode ->
    forall (place : Nat) (window : LineWindow), episode[place]? = some window ->
      window.map Prod.snd = episodeDecisions limits place window.length

theorem passed_observed (limits : ProtectionLimits) (times : List Nat) : forall rate,
    passed (observed limits rate times) =
      RateWindows.accepted (fun rate now => (decide (Not ((ConsoleRate.observe limits rate now).1 = .suppress)),
        (ConsoleRate.observe limits rate now).2)) rate times := by
  induction times with
  | nil => exact fun rate => rfl
  | cons now later induction =>
      intro rate
      rw [observed, RateWindows.accepted, ← induction]
      rfl

theorem observed_episodes (limits : ProtectionLimits) {times : List Nat} (sorted : times.Pairwise (· <= ·))
    (front episode back : List LineWindow)
    (split : overLimit limits (RateWindows.windows (seconds 1) (observed limits none times)) =
      front ++ episode ++ back)
    (within : Episode limits front episode) (place : Nat) (window : LineWindow)
    (found : episode[place]? = some window) :
    window.map Prod.snd = episodeDecisions limits place window.length := by
  rcases List.getElem?_eq_some_iff.mp found with ⟨inside, same⟩
  have shape : episode.take place ++ window :: episode.drop (place + 1) = episode := by
    rw [← same, List.getElem_cons_drop, List.take_append_drop]
  have length : (episode.take place).length = place := by
    rw [List.length_take, Nat.min_eq_left (Nat.le_of_lt inside)]
  have all := allDecided_overLimit _ _ (observed_allDecided limits sorted)
  have exceeds : forall other, other ∈ front ++ episode ++ back ->
      limits.consoleLinesPerSecond < other.length := by
    rw [← split]
    exact fun other member => of_decide_eq_true (List.mem_filter.mp member).2
  generalize episode.take place = before at *
  generalize episode.drop (place + 1) = after at *
  subst shape
  rw [split, List.append_assoc, List.append_assoc, List.cons_append, ← List.append_assoc front before] at all
  have first : Episode limits front (before ++ [window] ++ after) := by
    rw [List.append_assoc, List.singleton_append]
    exact within
  rw [← length]
  refine (AllDecided.at _ _ all).episode first.shorten fun other member => exceeds other ?_
  simp only [List.mem_append, List.mem_cons, List.not_mem_nil, or_false] at member ⊢
  tauto

/-- The limits hold whatever calls are made, for a server that is not known yet
when they begin: at the start, or when it was removed. -/
theorem ProtectionState.rates_held (state : ProtectionState) (id : Text)
    (calls : List (Nat × ProtectionCall)) (inTime : InTime calls)
    (unknown : state.console.lookup id = none) :
    RatesHeld state.limits (decisions id state calls) (acceptances id state calls) where
  lines_interval first := by
    rw [decisions_eq, passed_observed]
    exact RateWindows.accepted_interval (ConsoleRate.observe_windowed state.limits) (by decide) first _ _
      (timesOf_inTime inTime _)
  commands_interval first := by
    rw [acceptances_eq]
    exact RateWindows.accepted_interval (Rate.accept_windowed state.limits) (by decide) first _ _
      (timesOf_inTime inTime _)
  cut := RateWindows.windows_flatten _ _
  episodes := by
    rw [decisions_eq, unknown]
    exact observed_episodes state.limits (timesOf_inTime inTime _)

/-- Four lines in two windows with a limit of one, and a command between them. -/
theorem ProtectionState.rates_held_two_windows :
    let state : ProtectionState := { limits := ⟨1, 2, 1⟩ }
    let calls : List (Nat × ProtectionCall) :=
      [(0, .observeLine ['a']), (1, .observeLine ['a']), (2, .acceptCommand ['a']),
        (seconds 1, .observeLine ['a']), (seconds 1, .observeLine ['a'])]
    decisions ['a'] state calls =
        [(0, .allow), (1, .notify), (seconds 1, .allow), (seconds 1, .trip)] /\
      RatesHeld state.limits (decisions ['a'] state calls) (acceptances ['a'] state calls) := by
  intro state calls
  exact ⟨by decide, ProtectionState.rates_held state ['a'] calls (by unfold InTime; decide) rfl⟩

end Security
end Agapornis
