import Mathlib.Data.List.Basic

namespace Agapornis
namespace Foundations

/-!
# Limits by windows

A limiter accepts so many calls in a window.  A window opens with a call, at
the first one of all or at one that comes when the window before is over, so
that windows stand anywhere but never overlap.  An interval as long as a window
then meets two windows at most, wherever it lies.
-/

namespace RateWindows

variable {State : Type}

/-- What a limiter does with a call: whether it accepts it, and its next state. -/
abbrev Limiter (State : Type) :=
  Option State -> Nat -> Bool × State

/-- The calls of a limiter, and which of them it accepts. -/
def accepted (call : Limiter State) : Option State -> List Nat -> List (Nat × Bool)
  | _, [] => []
  | state, now :: later =>
      let called := call state now
      (now, called.1) :: accepted call (some called.2) later

/-- How many calls are accepted between two times. -/
def acceptedBetween (first last : Nat) (calls : List (Nat × Bool)) : Nat :=
  (calls.filter fun row => row.2 && (decide (first <= row.1) && decide (row.1 <= last))).length

/-- A limiter by windows: a state knows when its window was opened and how many
of the quota it has used in it. -/
structure Windowed (width quota : Nat) (call : Limiter State) (opened used : State -> Nat) : Prop where
  bounded : forall state, used state <= quota
  opens : forall now, opened (call none now).2 = now
  stays : forall state now, now < opened state + width -> opened (call (some state) now).2 = opened state /\
    used state + (call (some state) now).1.toNat <= used (call (some state) now).2
  reopens : forall state now, opened state + width <= now -> opened (call (some state) now).2 = now
  counts : forall state now, (call state now).1.toNat <= used (call state now).2

theorem acceptedBetween_cons (first last now : Nat) (taken : Bool) (later : List (Nat × Bool)) :
    acceptedBetween first last ((now, taken) :: later) =
      (if first <= now /\ now <= last then taken.toNat else 0) + acceptedBetween first last later := by
  unfold acceptedBetween
  rw [List.filter_cons]
  by_cases inside : first <= now /\ now <= last
  · rw [if_pos inside]
    cases taken
    · simp
    · simp [inside, Nat.add_comm]
  · rw [if_neg inside, if_neg, Nat.zero_add]
    simp only [Bool.and_eq_true, decide_eq_true_eq]
    exact fun both => inside both.2

/-- Nothing is accepted after the last time of interest. -/
theorem acceptedBetween_late {call : Limiter State} {first last : Nat} {times : List Nat}
    (late : forall now, now ∈ times -> last < now) : forall state,
      acceptedBetween first last (accepted call state times) = 0 := by
  induction times with
  | nil => exact fun state => rfl
  | cons now later induction =>
      intro state
      have past := late now List.mem_cons_self
      rw [accepted, acceptedBetween_cons, if_neg (by omega), Nat.zero_add]
      exact induction (fun other member => late other (List.mem_cons_of_mem _ member)) _

section Bounds

variable {width quota : Nat} {call : Limiter State} {opened used : State -> Nat}

/-- Before the end of so many windows no more is accepted than so many quotas
less what is used. -/
theorem accepted_windows (windowed : Windowed width quota call opened used) (first last : Nat)
    (times : List Nat) : forall (state : State) (windows : Nat), times.Pairwise (· <= ·) ->
      last < opened state + (windows + 1) * width ->
      acceptedBetween first last (accepted call (some state) times) + used state <=
        (windows + 1) * quota := by
  induction times with
  | nil =>
      intro state windows _ _
      have bounded := windowed.bounded state
      have enough : quota <= (windows + 1) * quota := Nat.le_mul_of_pos_left _ (Nat.succ_pos _)
      simp only [accepted, acceptedBetween, List.filter_nil, List.length_nil]
      omega
  | cons now later induction =>
      intro state windows sorted before
      rcases List.pairwise_cons.mp sorted with ⟨least, sortedLater⟩
      have enough : quota <= (windows + 1) * quota := Nat.le_mul_of_pos_left _ (Nat.succ_pos _)
      rw [accepted, acceptedBetween_cons]
      by_cases past : last < now
      · have nothing : acceptedBetween first last (accepted call (some (call (some state) now).2) later) = 0 :=
          acceptedBetween_late (fun other member => Nat.lt_of_lt_of_le past (least other member)) _
        have bounded := windowed.bounded state
        rw [if_neg (by omega), nothing]
        omega
      · have counted : (if first <= now /\ now <= last then (call (some state) now).1.toNat else 0) <=
            (call (some state) now).1.toNat := by
          split
          · exact Nat.le_refl _
          · exact Nat.zero_le _
        by_cases inWindow : now < opened state + width
        · rcases windowed.stays state now inWindow with ⟨same, uses⟩
          have rest := induction (call (some state) now).2 windows sortedLater (by rw [same]; exact before)
          omega
        · have opensNow := windowed.reopens state now (Nat.le_of_not_lt inWindow)
          cases windows with
          | zero => omega
          | succ windows =>
              have fewer : last < now + (windows + 1) * width := by
                have split : (windows + 1 + 1) * width = (windows + 1) * width + width := Nat.succ_mul _ _
                omega
              have rest := induction (call (some state) now).2 windows sortedLater
                (by rw [opensNow]; exact fewer)
              have uses := windowed.counts (some state) now
              have bounded := windowed.bounded state
              have split : (windows + 1 + 1) * quota = (windows + 1) * quota + quota := Nat.succ_mul _ _
              omega

/-- In an interval as long as a window no more than two quotas are accepted. -/
theorem accepted_interval (windowed : Windowed width quota call opened used) (positive : 0 < width)
    (first : Nat) (times : List Nat) : forall state : Option State, times.Pairwise (· <= ·) ->
      acceptedBetween first (first + width) (accepted call state times) <= 2 * quota := by
  induction times with
  | nil => exact fun state _ => Nat.zero_le _
  | cons now later induction =>
      intro state sorted
      have sortedLater := (List.pairwise_cons.mp sorted).2
      rw [accepted, acceptedBetween_cons]
      by_cases early : now < first
      · rw [if_neg (by omega), Nat.zero_add]
        exact induction _ sortedLater
      · have counted : (if first <= now /\ now <= first + width then (call state now).1.toNat else 0) <=
            (call state now).1.toNat := by
          split
          · exact Nat.le_refl _
          · exact Nat.zero_le _
        have opened : now < opened (call state now).2 + width := by
          cases state with
          | none =>
              rw [windowed.opens]
              omega
          | some state =>
              by_cases inWindow : now < opened state + width
              · rw [(windowed.stays state now inWindow).1]
                exact inWindow
              · rw [windowed.reopens state now (Nat.le_of_not_lt inWindow)]
                omega
        have rest := accepted_windows windowed first (first + width) later (call state now).2 1 sortedLater
          (by omega)
        have uses := windowed.counts state now
        omega

end Bounds

/-! ## The windows of a run -/

variable {Note : Type}

/-- Cut timed notes into windows, of which one is open. -/
def windowsFrom (width : Nat) : Nat -> List (Nat × Note) -> List (Nat × Note) -> List (List (Nat × Note))
  | _, current, [] => [current]
  | opened, current, (now, note) :: later =>
      if now < opened + width then windowsFrom width opened (current ++ [(now, note)]) later
      else current :: windowsFrom width now [(now, note)] later

def windows (width : Nat) : List (Nat × Note) -> List (List (Nat × Note))
  | [] => []
  | (now, note) :: later => windowsFrom width now [(now, note)] later

theorem windowsFrom_flatten (width : Nat) (notes : List (Nat × Note)) :
    forall (opened : Nat) (current : List (Nat × Note)),
      (windowsFrom width opened current notes).flatten = current ++ notes := by
  induction notes with
  | nil => exact fun opened current => by rw [windowsFrom, List.flatten_singleton, List.append_nil]
  | cons row later induction =>
      intro opened current
      rcases row with ⟨now, note⟩
      rw [windowsFrom]
      split
      · rw [induction, List.append_assoc, List.singleton_append]
      · rw [List.flatten_cons, induction, List.singleton_append]

/-- The windows are the notes, cut. -/
theorem windows_flatten (width : Nat) (notes : List (Nat × Note)) :
    (windows width notes).flatten = notes := by
  cases notes with
  | nil => rfl
  | cons row later =>
      rcases row with ⟨now, note⟩
      rw [windows, windowsFrom_flatten, List.singleton_append]

end RateWindows

end Foundations
end Agapornis
