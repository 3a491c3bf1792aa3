import Agapornis.Security.Protection

namespace Agapornis
namespace Security

/-!
# Lines within the limit

Whether all of a server's lines are allowed can be told from their times: no
window may hold more of them than the limit.
-/

/-- A window of lines: when it was opened, and how many lines it has. -/
structure OpenWindow where
  started : Nat
  count : Nat
  deriving DecidableEq, Repr

/-- The window that a line comes into. -/
def OpenWindow.enter (window : Option OpenWindow) (now : Nat) : OpenWindow :=
  match window with
  | none => ⟨now, 0⟩
  | some opened => if seconds 1 <= now - opened.started then ⟨now, 0⟩ else opened

/-- At so many times from the first on there is a line each. -/
def lineTimes (clock : Nat -> Nat) (first count : Nat) : List Nat :=
  (List.range' first count).map clock

/-- No window has more lines than the limit. -/
def WithinLimit (limit : Nat) : Option OpenWindow -> List Nat -> Prop
  | _, [] => True
  | window, now :: later =>
      let opened := OpenWindow.enter window now
      opened.count < limit /\ WithinLimit limit (some ⟨opened.started, opened.count + 1⟩) later

def ConsoleRate.window (rate : ConsoleRate) : OpenWindow :=
  ⟨rate.started, rate.count⟩

theorem lineTimes_succ (clock : Nat -> Nat) (first count : Nat) :
    lineTimes clock first (count + 1) = clock first :: lineTimes clock (first + 1) count :=
  rfl

namespace WithinLimit

variable {limit : Nat}

theorem append {front back : List Nat} : forall {window : Option OpenWindow},
    WithinLimit limit window (front ++ back) -> WithinLimit limit window front := by
  induction front with
  | nil => exact fun _ => trivial
  | cons now later induction => exact fun within => ⟨within.1, induction within.2⟩

/-- The first of some lines are within the limit when all of them are. -/
theorem take {clock : Nat -> Nat} {window : Option OpenWindow} {first few many : Nat}
    (within : WithinLimit limit window (lineTimes clock first many)) (fewer : few <= many) :
    WithinLimit limit window (lineTimes clock first few) := by
  have split : lineTimes clock first many =
      lineTimes clock first few ++ lineTimes clock (first + few) (many - few) := by
    rw [lineTimes, lineTimes, lineTimes, <- List.map_append, List.range'_append_1,
      Nat.add_sub_cancel' fewer]
  rw [split] at within
  exact within.append

/-- So few lines are within the limit at any times. -/
theorem of_few (times : List Nat) : forall {window : Option OpenWindow},
    times.length <= limit - (window.map OpenWindow.count).getD 0 -> WithinLimit limit window times := by
  induction times with
  | nil => exact fun _ => trivial
  | cons now later induction =>
      intro window few
      rw [List.length_cons] at few
      have least : (OpenWindow.enter window now).count <= (window.map OpenWindow.count).getD 0 := by
        cases window with
        | none => exact le_rfl
        | some opened =>
            rw [OpenWindow.enter]
            split
            · exact Nat.zero_le _
            · exact le_rfl
      refine ⟨by omega, induction ?_⟩
      rw [Option.map_some, Option.getD_some]
      dsimp only
      omega

/-- Lines that are a second apart are within any limit. -/
theorem of_apart (positive : 0 < limit) {clock : Nat -> Nat}
    (apart : forall index, clock index + seconds 1 <= clock (index + 1)) (count : Nat) :
    forall {window : Option OpenWindow} {first : Nat},
      (forall opened, window = some opened -> opened.started + seconds 1 <= clock first) ->
        WithinLimit limit window (lineTimes clock first count) := by
  induction count with
  | zero => exact fun _ => trivial
  | succ count induction =>
      intro window first before
      have fresh : OpenWindow.enter window (clock first) = ⟨clock first, 0⟩ := by
        cases window with
        | none => rfl
        | some opened =>
            have past := before opened rfl
            rw [OpenWindow.enter, if_pos (Nat.le_sub_of_add_le (Nat.add_comm _ _ ▸ past))]
      rw [lineTimes_succ, WithinLimit, fresh]
      refine ⟨positive, induction ?_⟩
      intro opened same
      cases same
      exact apart first

/-- Lines that come at once are all in one window. -/
theorem together {count : Nat} {window : Option OpenWindow} {instant first : Nat}
    (same : forall opened, window = some opened -> opened.started = instant) (positive : 0 < count)
    (within : WithinLimit limit window (lineTimes (fun _ => instant) first count)) :
    (window.map OpenWindow.count).getD 0 + count <= limit := by
  induction count generalizing window first with
  | zero => cases positive
  | succ count induction =>
      have opened : OpenWindow.enter window instant =
          ⟨instant, (window.map OpenWindow.count).getD 0⟩ := by
        cases window with
        | none => rfl
        | some opened =>
            have started := same opened rfl
            rw [OpenWindow.enter, started, Nat.sub_self, if_neg (by decide), <- started]
            rfl
      rw [lineTimes_succ, WithinLimit, opened] at within
      rcases Nat.eq_zero_or_pos count with none | more
      · subst none
        exact within.1
      · have rest := @induction (some ⟨instant, (window.map OpenWindow.count).getD 0 + 1⟩) (first + 1)
          (fun opened equal => by cases equal; rfl) more within.2
        rw [Option.map_some, Option.getD_some] at rest
        dsimp only at rest
        omega

end WithinLimit

namespace ConsoleRate

theorem window_roll (rate : ConsoleRate) (now : Nat) :
    (rate.roll now).window = OpenWindow.enter (some rate.window) now := by
  rw [roll]
  split
  · next past => exact (if_pos past).symm
  · next within => exact (if_neg within).symm

/-- A line is counted in the window that it comes into, and allowed within the limit. -/
theorem observe_window (limits : ProtectionLimits) (rate : Option ConsoleRate) (now : Nat) :
    (observe limits rate now).2.window =
        ⟨(OpenWindow.enter (rate.map window) now).started,
          (OpenWindow.enter (rate.map window) now).count + 1⟩ /\
      ((observe limits rate now).1 = .allow <->
        (OpenWindow.enter (rate.map window) now).count < limits.consoleLinesPerSecond) := by
  have rolled : (((rate.getD { started := now }).decay now).roll now).window =
      OpenWindow.enter (rate.map window) now := by
    rw [window_roll, window, decay_started, decay_count]
    cases rate with
    | none =>
        apply if_neg
        rw [Option.getD_none, Nat.sub_self]
        decide
    | some rate => rfl
  rw [<- rolled, observe, countLine, window]
  dsimp only
  split
  · next within => exact ⟨rfl, iff_of_true rfl within⟩
  · next past =>
      split
      · exact ⟨rfl, iff_of_false nofun past⟩
      · refine ⟨rfl, iff_of_false ?_ past⟩
        rw [verdict]
        split
        · exact nofun
        · split <;> exact nofun

end ConsoleRate

end Security
end Agapornis
