import Agapornis.Runtime.DiskCache

namespace Agapornis
namespace Runtime

open Foundations Agapornis.Core

/-!
# Waiting for a disk calculation

The disk-usage cache again, in smaller steps.  A caller reads the token of
another while it has the lock, and creates its wait when it has given the lock
back.  Who changes the entry keeps the lock until it has notified: then all
waits that exist on the token are over, and no others.

That a calculation has notified is kept for the statements only.
-/

/-- How far a caller of `disk_cached` has come, with the waits told apart. -/
inductive DiskWaiter where
  | idle
  /-- Waiting for the lock in `begin_disk_calculation`. -/
  | asking (force : Bool)
  /-- The token of another is read, and the lock given back. -/
  | read (force : Bool) (token : Nat)
  /-- The wait on the token is created. -/
  | waiting (force : Bool) (token : Nat)
  /-- The wait is over. -/
  | notified (force : Bool) (token : Nat)
  /-- The wait has timed out; waiting for the lock. -/
  | impatient (force : Bool) (token : Nat)
  /-- The token is taken away, and the lock still held. -/
  | removed (force : Bool) (token : Nat)
  /-- Measuring, with the guard armed. -/
  | measuring (token : Nat)
  /-- Waiting for the lock to install the result, with the guard armed. -/
  | measured (token : Nat) (usage limit : Int)
  /-- The result is installed, and the lock still held. -/
  | installed (token : Nat) (usage limit : Int)
  /-- The guard was dropped; its task waits for the lock. -/
  | dropped (token : Nat)
  /-- The task has taken the token away, and still holds the lock. -/
  | cleared (token : Nat)
  | done (outcome : Option (Int × Int))
  deriving DecidableEq, Repr

inductive WaiterEvent where
  | call (force : Bool)
  /-- The caller gets the lock; an entry may have expired by then. -/
  | lock (expired : Bool)
  /-- The wait is created. -/
  | enroll
  | resume
  | timeout
  | measure (usage limit : Int)
  /-- The caller that holds the lock notifies, and gives the lock back. -/
  | notifyWaiters
  /-- The caller fails, or is cancelled. -/
  | abandon
  deriving DecidableEq, Repr

inductive WaiterAction where
  | caller (index : Nat) (event : WaiterEvent)
  /-- An update of the resources, a deletion, a creation or a replacement. -/
  | invalidate
  deriving DecidableEq, Repr

structure DiskWaits where
  entry : Option CacheState
  nextToken : Nat
  caller : Nat -> DiskWaiter
  /-- Whether a caller holds the lock over more than one step. -/
  locked : Bool
  /-- The tokens whose calculations have notified. -/
  ended : List Nat

namespace DiskWaits

def start : DiskWaits where
  entry := none
  nextToken := 0
  caller _ := .idle
  locked := false
  ended := []

def setCaller (waits : DiskWaits) (index : Nat) (phase : DiskWaiter) : DiskWaits :=
  { waits with caller := Function.update waits.caller index phase }

/-- Put a new token into the entry. -/
def beginCalculation (waits : DiskWaits) (index : Nat) : DiskWaits :=
  { waits with
    entry := some (.calculating waits.nextToken)
    nextToken := waits.nextToken + 1
    caller := Function.update waits.caller index (.measuring waits.nextToken) }

/-- Take the entry away if the token in it is this one, and keep the lock. -/
def removeToken (waits : DiskWaits) (token : Nat) : DiskWaits :=
  { waits with
    entry := if waits.entry = some (.calculating token) then none else waits.entry
    locked := true }

/-- Install a result if the token in the entry is still this one, and keep the lock. -/
def install (waits : DiskWaits) (token : Nat) (usage limit : Int) : DiskWaits :=
  { waits with
    entry := if waits.entry = some (.calculating token) then some (.ready usage limit token)
      else waits.entry
    locked := true }

/-- A wait on this token is over. -/
def awake (token : Nat) : DiskWaiter -> DiskWaiter
  | .waiting force other => if other = token then .notified force other else .waiting force other
  | phase => phase

/-- Notify the waits on a token, and give the lock back. -/
def notifyWaiters (waits : DiskWaits) (token : Nat) : DiskWaits :=
  { waits with caller := fun index => awake token (waits.caller index), locked := false }

/-- The calculation has notified. -/
def endCalculation (waits : DiskWaits) (token : Nat) : DiskWaits :=
  { waits with ended := token :: waits.ended }

@[simp] theorem setCaller_self (waits : DiskWaits) (index : Nat) (phase : DiskWaiter) :
    (waits.setCaller index phase).caller index = phase := by
  simp only [setCaller, Function.update_self]

theorem setCaller_of_ne (waits : DiskWaits) {index other : Nat} (phase : DiskWaiter) (apart : Not (other = index)) :
    (waits.setCaller index phase).caller other = waits.caller other := by
  simp only [setCaller, Function.update_of_ne apart]

@[simp] theorem beginCalculation_self (waits : DiskWaits) (index : Nat) :
    (waits.beginCalculation index).caller index = .measuring waits.nextToken :=
  Function.update_self index _ waits.caller

theorem beginCalculation_of_ne (waits : DiskWaits) {index other : Nat} (apart : Not (other = index)) :
    (waits.beginCalculation index).caller other = waits.caller other :=
  Function.update_of_ne apart _ waits.caller

@[simp] theorem notifyWaiters_caller (waits : DiskWaits) (token index : Nat) :
    (waits.notifyWaiters token).caller index = awake token (waits.caller index) :=
  rfl

/-- What a caller does with the lock of the cache in `begin_disk_calculation`. -/
def beginDiskCalculation (waits : DiskWaits) (index : Nat) (force expired : Bool) : DiskWaits :=
  match waits.entry with
  | some (.ready usage limit _) =>
      if !force && !expired then waits.setCaller index (.done (some (usage, limit)))
      else waits.beginCalculation index
  | some (.calculating token) => waits.setCaller index (.read force token)
  | none => waits.beginCalculation index

/-- What a caller does that gets the lock. -/
def stepLocked (waits : DiskWaits) (index : Nat) (expired : Bool) : DiskWaits :=
  match waits.caller index with
  | .asking force => waits.beginDiskCalculation index force expired
  | .impatient force token => (waits.removeToken token).setCaller index (.removed force token)
  | .measured token usage limit =>
      (waits.install token usage limit).setCaller index (.installed token usage limit)
  | .dropped token => (waits.removeToken token).setCaller index (.cleared token)
  | _ => waits

def stepCaller (waits : DiskWaits) (index : Nat) (event : WaiterEvent) : DiskWaits :=
  match waits.caller index, event with
  | _, .lock expired => if waits.locked then waits else waits.stepLocked index expired
  | .idle, .call force => waits.setCaller index (.asking force)
  | .read force token, .enroll => waits.setCaller index (.waiting force token)
  | .waiting force token, .timeout => waits.setCaller index (.impatient force token)
  | .notified force _, .resume => waits.setCaller index (.asking force)
  | .measuring token, .measure usage limit => waits.setCaller index (.measured token usage limit)
  | .removed force token, .notifyWaiters => (waits.notifyWaiters token).setCaller index (.asking force)
  | .installed token usage limit, .notifyWaiters =>
      ((waits.notifyWaiters token).endCalculation token).setCaller index (.done (some (usage, limit)))
  | .cleared token, .notifyWaiters =>
      ((waits.notifyWaiters token).endCalculation token).setCaller index (.done none)
  | .asking _, .abandon => waits.setCaller index (.done none)
  | .waiting _ _, .abandon => waits.setCaller index (.done none)
  | .notified _ _, .abandon => waits.setCaller index (.done none)
  | .impatient _ _, .abandon => waits.setCaller index (.done none)
  | .measuring token, .abandon => waits.setCaller index (.dropped token)
  | .measured token _ _, .abandon => waits.setCaller index (.dropped token)
  | _, _ => waits

def step (waits : DiskWaits) : WaiterAction -> DiskWaits
  | .caller index event => waits.stepCaller index event
  | .invalidate => if waits.locked then waits else { waits with entry := none }

/-- No caller waits for a calculation that has notified. -/
def NoneLeftBehind (waits : DiskWaits) : Prop :=
  forall index force token, waits.caller index = .waiting force token -> token ∉ waits.ended

/-- The token whose calculation a caller ends with its next notification. -/
def ending : DiskWaiter -> Option Nat
  | .installed token _ _ => some token
  | .cleared token => some token
  | _ => none

/-- A wait is created only on a token whose calculation has not notified yet. -/
def EnrollsInTime (waits : DiskWaits) : WaiterAction -> Prop
  | .caller index .enroll => forall force token, waits.caller index = .read force token -> token ∉ waits.ended
  | _ => True

/-- A calculation notifies only when no caller has read its token and not yet
created its wait. -/
def NotifiesAfterReads (waits : DiskWaits) : WaiterAction -> Prop
  | .caller index .notifyWaiters => forall token, ending (waits.caller index) = some token ->
      forall reader force, Not (waits.caller reader = .read force token)
  | _ => True

/-! ## What one step does -/

/-- The token a caller knows of. -/
def tokenOf : DiskWaiter -> Option Nat
  | .read _ token => some token
  | .waiting _ token => some token
  | .notified _ token => some token
  | .impatient _ token => some token
  | .removed _ token => some token
  | .measuring token => some token
  | .measured token _ _ => some token
  | .installed token _ _ => some token
  | .dropped token => some token
  | .cleared token => some token
  | _ => none

/-- A caller that comes to a phase in which it neither waits nor ends a
calculation, and knows of no other token than before. -/
structure Plain (waits : DiskWaits) (index : Nat) (phase : DiskWaiter) : Prop where
  known : forall token, tokenOf phase = some token -> tokenOf (waits.caller index) = some token
  unended : ending phase = none
  unread : forall force token, Not (phase = .read force token)
  unwaiting : forall force token, Not (phase = .waiting force token)

/-- What a step does that creates no wait. -/
inductive Moved (waits : DiskWaits) (action : WaiterAction) : DiskWaits -> Prop where
  | stays : Moved waits action waits
  | goes : Moved waits action { waits with entry := none }
  | moves {index : Nat} {phase : DiskWaiter} :
      waits.Plain index phase -> Moved waits action (waits.setCaller index phase)
  | reads {index : Nat} (force : Bool) {token : Nat} : waits.entry = some (.calculating token) ->
      Moved waits action (waits.setCaller index (.read force token))
  | begins (index : Nat) : Moved waits action (waits.beginCalculation index)
  | takes {index token : Nat} (force : Bool) : waits.caller index = .impatient force token ->
      Moved waits action ((waits.removeToken token).setCaller index (.removed force token))
  | clears {index token : Nat} : waits.caller index = .dropped token ->
      Moved waits action ((waits.removeToken token).setCaller index (.cleared token))
  | installs {index token : Nat} {usage limit : Int} : waits.caller index = .measured token usage limit ->
      Moved waits action ((waits.install token usage limit).setCaller index (.installed token usage limit))
  | wakes {index token : Nat} {force : Bool} : waits.caller index = .removed force token ->
      Moved waits action ((waits.notifyWaiters token).setCaller index (.asking force))
  | ends {index token : Nat} (outcome : Option (Int × Int)) : action = .caller index .notifyWaiters ->
      ending (waits.caller index) = some token ->
      Moved waits action (((waits.notifyWaiters token).endCalculation token).setCaller index (.done outcome))

theorem plain_of_unknowing {waits : DiskWaits} {index : Nat} {phase : DiskWaiter}
    (unknowing : tokenOf phase = none) : waits.Plain index phase := by
  refine ⟨fun token known => ?_, ?_, ?_, ?_⟩
  · rw [unknowing] at known
    cases known
  · cases phase <;> first | rfl | cases unknowing
  · rintro force token rfl
    cases unknowing
  · rintro force token rfl
    cases unknowing

theorem beginDiskCalculation_moved (waits : DiskWaits) (action : WaiterAction) (index : Nat) (force expired : Bool) :
    Moved waits action (waits.beginDiskCalculation index force expired) := by
  unfold beginDiskCalculation
  split
  · split
    · exact .moves (plain_of_unknowing rfl)
    · exact .begins index
  · next token here => exact .reads force here
  · exact .begins index

theorem stepLocked_moved (waits : DiskWaits) (action : WaiterAction) (index : Nat) (expired : Bool) :
    Moved waits action (waits.stepLocked index expired) := by
  unfold stepLocked
  split
  · exact beginDiskCalculation_moved waits action index _ expired
  · next found => exact .takes _ found
  · next found => exact .installs found
  · next found => exact .clears found
  · exact .stays

/-- The wait of a caller is created. -/
structure Enrolls (waits : DiskWaits) (action : WaiterAction) (index : Nat) (force : Bool) (token : Nat) :
    Prop where
  enroll : action = .caller index .enroll
  found : waits.caller index = .read force token

theorem Enrolls.step {waits : DiskWaits} {action : WaiterAction} {index token : Nat} {force : Bool}
    (enrolls : waits.Enrolls action index force token) :
    waits.step action = waits.setCaller index (.waiting force token) := by
  rw [enrolls.enroll]
  change waits.stepCaller index .enroll = _
  unfold stepCaller
  rw [enrolls.found]

theorem step_moved {waits : DiskWaits} {action : WaiterAction}
    (other : Not (Exists fun index => Exists fun force => Exists fun token =>
      waits.Enrolls action index force token)) : Moved waits action (waits.step action) := by
  cases action with
  | invalidate =>
      change Moved waits .invalidate (if waits.locked then waits else { waits with entry := none })
      split
      · exact .stays
      · exact .goes
  | caller index event =>
      change Moved waits (.caller index event) (waits.stepCaller index event)
      unfold stepCaller
      split
      · split
        · exact .stays
        · exact stepLocked_moved waits _ index _
      · exact .moves (plain_of_unknowing rfl)
      · next force token found => exact absurd ⟨index, force, token, rfl, found⟩ other
      · next found => exact .moves ⟨by rw [found]; exact fun _ => id, rfl, nofun, nofun⟩
      · exact .moves (plain_of_unknowing rfl)
      · next found => exact .moves ⟨by rw [found]; exact fun _ => id, rfl, nofun, nofun⟩
      · next found => exact .wakes found
      · next found => exact .ends _ rfl (by rw [found]; rfl)
      · next found => exact .ends _ rfl (by rw [found]; rfl)
      · exact .moves (plain_of_unknowing rfl)
      · exact .moves (plain_of_unknowing rfl)
      · exact .moves (plain_of_unknowing rfl)
      · exact .moves (plain_of_unknowing rfl)
      · next found => exact .moves ⟨by rw [found]; exact fun _ => id, rfl, nofun, nofun⟩
      · next found => exact .moves ⟨by rw [found]; exact fun _ => id, rfl, nofun, nofun⟩
      · exact .stays

/-! ## Tokens along a run -/

/-- Tokens are made in order; the token in the entry is that of a calculation
that has not notified, nor is about to. -/
structure Ordered (waits : DiskWaits) : Prop where
  known : forall index token, tokenOf (waits.caller index) = some token -> token < waits.nextToken
  begun : forall token, waits.entry = some (.calculating token) -> token < waits.nextToken
  running : forall token, waits.entry = some (.calculating token) -> token ∉ waits.ended
  past : forall token, token ∈ waits.ended -> token < waits.nextToken
  ending : forall index token, ending (waits.caller index) = some token ->
    Not (waits.entry = some (.calculating token))

theorem tokenOf_of_ending {phase : DiskWaiter} {token : Nat} (found : DiskWaits.ending phase = some token) :
    tokenOf phase = some token := by
  unfold DiskWaits.ending at found
  split at found
  · exact found
  · exact found
  · cases found

theorem tokenOf_awake (token : Nat) (phase : DiskWaiter) : tokenOf (awake token phase) = tokenOf phase := by
  unfold awake
  split
  · split <;> rfl
  · rfl

theorem ending_awake (token : Nat) (phase : DiskWaiter) :
    DiskWaits.ending (awake token phase) = DiskWaits.ending phase := by
  unfold awake
  split
  · split <;> rfl
  · rfl

theorem ordered_start : Ordered start where
  known _ _ found := by cases found
  begun _ found := by cases found
  running _ found := by cases found
  past _ found := by cases found
  ending _ _ found := by cases found

/-- A caller may come to a phase in which it knows a token that was made, and
ends a calculation whose token is not in the entry. -/
theorem Ordered.setCaller {waits : DiskWaits} (ordered : waits.Ordered) {index : Nat} {phase : DiskWaiter}
    (known : forall token, tokenOf phase = some token -> token < waits.nextToken)
    (ending : forall token, DiskWaits.ending phase = some token -> Not (waits.entry = some (.calculating token))) :
    (waits.setCaller index phase).Ordered where
  known other token found := by
    by_cases same : other = index
    · subst same
      rw [setCaller_self] at found
      exact known token found
    · rw [setCaller_of_ne _ _ same] at found
      exact ordered.known other token found
  begun := ordered.begun
  running := ordered.running
  past := ordered.past
  ending other token found := by
    by_cases same : other = index
    · subst same
      rw [setCaller_self] at found
      exact ending token found
    · rw [setCaller_of_ne _ _ same] at found
      exact ordered.ending other token found

/-- The entry may go, or get a result. -/
theorem Ordered.settle {waits after : DiskWaits} (ordered : waits.Ordered)
    (entry : forall token, after.entry = some (.calculating token) -> waits.entry = some (.calculating token))
    (next : after.nextToken = waits.nextToken) (caller : after.caller = waits.caller)
    (ended : after.ended = waits.ended) : after.Ordered where
  known index token found := by
    rw [caller] at found
    rw [next]
    exact ordered.known index token found
  begun token found := by
    rw [next]
    exact ordered.begun token (entry token found)
  running token found := by
    rw [ended]
    exact ordered.running token (entry token found)
  past token found := by
    rw [ended] at found
    rw [next]
    exact ordered.past token found
  ending index token found here := by
    rw [caller] at found
    exact ordered.ending index token found (entry token here)

theorem removeToken_entry (waits : DiskWaits) {token other : Nat}
    (found : (waits.removeToken token).entry = some (.calculating other)) :
    waits.entry = some (.calculating other) /\ Not (other = token) := by
  change (if waits.entry = some (.calculating token) then none else waits.entry) = _ at found
  split at found
  · cases found
  · next absent => exact ⟨found, fun same => absent (same ▸ found)⟩

theorem install_entry (waits : DiskWaits) {token other : Nat} {usage limit : Int}
    (found : (waits.install token usage limit).entry = some (.calculating other)) :
    waits.entry = some (.calculating other) /\ Not (other = token) := by
  change (if waits.entry = some (.calculating token) then some (.ready usage limit token) else waits.entry) =
    _ at found
  split at found
  · cases found
  · next absent => exact ⟨found, fun same => absent (same ▸ found)⟩

theorem Ordered.notifyWaiters {waits : DiskWaits} (ordered : waits.Ordered) (token : Nat) :
    (waits.notifyWaiters token).Ordered where
  known index other found := by
    rw [notifyWaiters_caller, tokenOf_awake] at found
    exact ordered.known index other found
  begun := ordered.begun
  running := ordered.running
  past := ordered.past
  ending index other found := by
    rw [notifyWaiters_caller, ending_awake] at found
    exact ordered.ending index other found

theorem Ordered.endCalculation {waits : DiskWaits} (ordered : waits.Ordered) {token : Nat}
    (made : token < waits.nextToken) (gone : Not (waits.entry = some (.calculating token))) :
    (waits.endCalculation token).Ordered where
  known := ordered.known
  begun := ordered.begun
  running other found member := by
    rcases List.mem_cons.mp member with same | earlier
    · exact gone (same ▸ found)
    · exact ordered.running other found earlier
  past other member := by
    rcases List.mem_cons.mp member with same | earlier
    · exact same ▸ made
    · exact ordered.past other earlier
  ending := ordered.ending

theorem Ordered.beginCalculation {waits : DiskWaits} (ordered : waits.Ordered) (index : Nat) :
    (waits.beginCalculation index).Ordered where
  known other token found := by
    by_cases same : other = index
    · subst same
      rw [beginCalculation_self] at found
      cases found
      exact Nat.lt_succ_self _
    · rw [beginCalculation_of_ne _ same] at found
      exact Nat.lt_succ_of_lt (ordered.known other token found)
  begun token found := by
    cases found
    exact Nat.lt_succ_self _
  running token found member := by
    cases found
    exact Nat.lt_irrefl _ (ordered.past _ member)
  past token member := Nat.lt_succ_of_lt (ordered.past token member)
  ending other token found here := by
    cases here
    by_cases same : other = index
    · subst same
      rw [beginCalculation_self] at found
      cases found
    · rw [beginCalculation_of_ne _ same] at found
      exact Nat.lt_irrefl _ (ordered.known other _ (tokenOf_of_ending found))

theorem Moved.ordered {waits after : DiskWaits} {action : WaiterAction} (moved : Moved waits action after)
    (ordered : waits.Ordered) :
    after.Ordered := by
  cases moved with
  | stays => exact ordered
  | goes => exact ordered.settle nofun rfl rfl rfl
  | moves plain =>
      refine ordered.setCaller (fun token found => ordered.known _ token (plain.known token found)) ?_
      intro token found
      rw [plain.unended] at found
      cases found
  | reads force here =>
      refine ordered.setCaller (fun token found => ?_) nofun
      cases found
      exact ordered.begun _ here
  | begins index => exact ordered.beginCalculation index
  | takes force found =>
      refine (ordered.settle (fun _ here => (removeToken_entry waits here).1) rfl rfl rfl).setCaller ?_ nofun
      intro token same
      exact ordered.known _ token (by rw [found]; exact same)
  | clears found =>
      refine (ordered.settle (fun _ here => (removeToken_entry waits here).1) rfl rfl rfl).setCaller ?_ ?_
      · intro token same
        exact ordered.known _ token (by rw [found]; exact same)
      · intro token same here
        cases same
        exact (removeToken_entry waits here).2 rfl
  | installs found =>
      refine (ordered.settle (fun _ here => (install_entry waits here).1) rfl rfl rfl).setCaller ?_ ?_
      · intro token same
        exact ordered.known _ token (by rw [found]; exact same)
      · intro token same here
        cases same
        exact (install_entry waits here).2 rfl
  | wakes found => exact (ordered.notifyWaiters _).setCaller nofun nofun
  | ends outcome notifies found =>
      have made := ordered.known _ _ (tokenOf_of_ending found)
      exact ((ordered.notifyWaiters _).endCalculation made (ordered.ending _ _ found)).setCaller nofun nofun

theorem Enrolls.ordered {waits : DiskWaits} {action : WaiterAction} {index token : Nat} {force : Bool}
    (enrolls : waits.Enrolls action index force token) (ordered : waits.Ordered) :
    (waits.setCaller index (.waiting force token)).Ordered := by
  refine ordered.setCaller (fun other same => ?_) nofun
  cases same
  exact ordered.known index token (by rw [enrolls.found]; rfl)

theorem Ordered.step {waits : DiskWaits} (ordered : waits.Ordered) (action : WaiterAction) :
    (waits.step action).Ordered := by
  by_cases enrolls : Exists fun index => Exists fun force => Exists fun token =>
      waits.Enrolls action index force token
  · rcases enrolls with ⟨index, force, token, enrolls⟩
    rw [enrolls.step]
    exact enrolls.ordered ordered
  · exact (step_moved enrolls).ordered ordered

/-! ## Waits along a run -/

theorem waiting_of_awake {token other : Nat} {force : Bool} {phase : DiskWaiter}
    (still : awake token phase = .waiting force other) : phase = .waiting force other /\ Not (other = token) := by
  unfold awake at still
  split at still
  · split at still
    · cases still
    · next apart =>
        cases still
        exact ⟨rfl, apart⟩
  · next unwaiting => exact absurd still (unwaiting force other)

theorem read_of_awake {token other : Nat} {force : Bool} {phase : DiskWaiter}
    (still : awake token phase = .read force other) : phase = .read force other := by
  unfold awake at still
  split at still
  · split at still <;> cases still
  · exact still

theorem NoneLeftBehind.setCaller {waits : DiskWaits} (none : waits.NoneLeftBehind) {index : Nat}
    {phase : DiskWaiter} (fresh : forall force token, phase = .waiting force token -> token ∉ waits.ended) :
    (waits.setCaller index phase).NoneLeftBehind := by
  intro other force token found
  by_cases same : other = index
  · subst same
    rw [setCaller_self] at found
    exact fresh force token found
  · rw [setCaller_of_ne _ _ same] at found
    exact none other force token found

theorem NoneLeftBehind.beginCalculation {waits : DiskWaits} (none : waits.NoneLeftBehind) (index : Nat) :
    (waits.beginCalculation index).NoneLeftBehind := by
  intro other force token found
  by_cases same : other = index
  · subst same
    rw [beginCalculation_self] at found
    cases found
  · rw [beginCalculation_of_ne _ same] at found
    exact none other force token found

theorem NoneLeftBehind.removeToken {waits : DiskWaits} (none : waits.NoneLeftBehind) (token : Nat) :
    (waits.removeToken token).NoneLeftBehind :=
  none

theorem NoneLeftBehind.install {waits : DiskWaits} (none : waits.NoneLeftBehind) (token : Nat)
    (usage limit : Int) : (waits.install token usage limit).NoneLeftBehind :=
  none

/-- A notification ends all waits on its token. -/
theorem NoneLeftBehind.notifyWaiters {waits : DiskWaits} (none : waits.NoneLeftBehind) (token : Nat) :
    (waits.notifyWaiters token).NoneLeftBehind :=
  fun index force other found => none index force other (waiting_of_awake found).1

theorem NoneLeftBehind.endCalculation {waits : DiskWaits} (none : waits.NoneLeftBehind) (token : Nat) :
    ((waits.notifyWaiters token).endCalculation token).NoneLeftBehind := by
  intro index force other found member
  rcases waiting_of_awake found with ⟨before, apart⟩
  rcases List.mem_cons.mp member with same | earlier
  · exact apart same
  · exact none index force other before earlier

/-- Nobody is left behind by a step that creates no wait. -/
theorem Moved.noneLeftBehind {waits after : DiskWaits} {action : WaiterAction}
    (moved : Moved waits action after) (none : waits.NoneLeftBehind) : after.NoneLeftBehind := by
  cases moved with
  | stays => exact none
  | goes => exact none
  | moves plain => exact none.setCaller fun force token found => absurd found (plain.unwaiting force token)
  | reads force here => exact none.setCaller nofun
  | begins index => exact none.beginCalculation index
  | takes force found => exact (none.removeToken _).setCaller nofun
  | clears found => exact (none.removeToken _).setCaller nofun
  | installs found => exact (none.install _ _ _).setCaller nofun
  | wakes found => exact (none.notifyWaiters _).setCaller nofun
  | ends outcome notifies found => exact (none.endCalculation _).setCaller nofun

/-- From a good state a step leaves somebody behind just when it creates a wait
too late. -/
theorem step_exactly (waits : DiskWaits) (action : WaiterAction)
    (good : waits.Ordered /\ waits.NoneLeftBehind) :
    ((waits.step action).Ordered /\ (waits.step action).NoneLeftBehind) <-> waits.EnrollsInTime action := by
  by_cases enrolls : Exists fun index => Exists fun force => Exists fun token =>
      waits.Enrolls action index force token
  · rcases enrolls with ⟨index, force, token, enrolls⟩
    rw [enrolls.step, enrolls.enroll]
    constructor
    · intro after otherForce other found
      rw [enrolls.found] at found
      cases found
      exact after.2 index force token (setCaller_self waits index _)
    · intro inTime
      refine ⟨enrolls.ordered good.1, good.2.setCaller fun otherForce other same => ?_⟩
      cases same
      exact inTime force token enrolls.found
  · have moved := step_moved enrolls
    refine iff_of_true ⟨moved.ordered good.1, moved.noneLeftBehind good.2⟩ ?_
    unfold EnrollsInTime
    split
    · next index => exact fun force token found => absurd ⟨index, force, token, rfl, found⟩ enrolls
    · trivial

/-! ## Notifying after the reads -/

/-- No caller has read the token of a calculation that has notified. -/
def NoneLate (waits : DiskWaits) : Prop :=
  forall index force token, waits.caller index = .read force token -> token ∉ waits.ended

theorem NoneLate.setCaller {waits : DiskWaits} (none : waits.NoneLate) {index : Nat} {phase : DiskWaiter}
    (fresh : forall force token, phase = .read force token -> token ∉ waits.ended) :
    (waits.setCaller index phase).NoneLate := by
  intro other force token found
  by_cases same : other = index
  · subst same
    rw [setCaller_self] at found
    exact fresh force token found
  · rw [setCaller_of_ne _ _ same] at found
    exact none other force token found

theorem NoneLate.removeToken {waits : DiskWaits} (none : waits.NoneLate) (token : Nat) :
    (waits.removeToken token).NoneLate :=
  none

theorem NoneLate.install {waits : DiskWaits} (none : waits.NoneLate) (token : Nat) (usage limit : Int) :
    (waits.install token usage limit).NoneLate :=
  none

theorem NoneLate.notifyWaiters {waits : DiskWaits} (none : waits.NoneLate) (token : Nat) :
    (waits.notifyWaiters token).NoneLate :=
  fun index force other reads => none index force other (read_of_awake reads)

theorem NoneLate.endCalculation {waits : DiskWaits} (none : waits.NoneLate) {token : Nat}
    (afterReads : forall reader force, Not (waits.caller reader = .read force token)) :
    ((waits.notifyWaiters token).endCalculation token).NoneLate := by
  intro index force other reads member
  have before := read_of_awake reads
  rcases List.mem_cons.mp member with same | earlier
  · subst same
    exact afterReads index force before
  · exact none index force other before earlier

/-- A step that notifies after the reads leaves no read late. -/
theorem Moved.noneLate {waits after : DiskWaits} {action : WaiterAction} (moved : Moved waits action after)
    (ordered : waits.Ordered) (afterReads : waits.NotifiesAfterReads action) (none : waits.NoneLate) :
    after.NoneLate := by
  cases moved with
  | stays => exact none
  | goes => exact none
  | moves plain => exact none.setCaller fun force token found => absurd found (plain.unread force token)
  | reads force here =>
      refine none.setCaller fun otherForce token same => ?_
      cases same
      exact ordered.running _ here
  | begins index =>
      intro other force token found
      by_cases same : other = index
      · subst same
        rw [beginCalculation_self] at found
        cases found
      · rw [beginCalculation_of_ne _ same] at found
        exact none other force token found
  | takes force found => exact (none.removeToken _).setCaller nofun
  | clears found => exact (none.removeToken _).setCaller nofun
  | installs found => exact (none.install _ _ _).setCaller nofun
  | wakes found => exact (none.notifyWaiters _).setCaller nofun
  | ends outcome notifies found =>
      subst notifies
      exact (none.endCalculation (afterReads _ found)).setCaller nofun

theorem noneLate_reach {run : List WaiterAction} (afterReads : Machine.Along step NotifiesAfterReads start run) :
    (Machine.reach step start run).Ordered /\ (Machine.reach step start run).NoneLate := by
  have keeps (waits : DiskWaits) (action : WaiterAction) (met : waits.NotifiesAfterReads action)
      (good : waits.Ordered /\ waits.NoneLate) :
      (waits.step action).Ordered /\ (waits.step action).NoneLate := by
    refine ⟨good.1.step action, ?_⟩
    by_cases enrolls : Exists fun index => Exists fun force => Exists fun token =>
        waits.Enrolls action index force token
    · rcases enrolls with ⟨index, force, token, enrolls⟩
      rw [enrolls.step]
      exact good.2.setCaller nofun
    · exact (step_moved enrolls).noneLate good.1 met good.2
  exact Machine.along_invariant keeps ⟨ordered_start, fun _ _ _ found => by cases found⟩ afterReads

/-- Where every calculation notifies after the reads, every wait is created in time. -/
theorem enrollsInTime_of_afterReads {run : List WaiterAction}
    (afterReads : Machine.Along step NotifiesAfterReads start run) :
    Machine.Along step EnrollsInTime start run := by
  refine Machine.along_of_reach fun front action back split => ?_
  rw [split] at afterReads
  have good := noneLate_reach ((Machine.along_append _ _ front (action :: back) _).mp afterReads).1
  unfold EnrollsInTime
  split
  · next index => exact fun force token found => good.2 index force token found
  · trivial

/-- A calculation that notifies between a read and its wait leaves the reader behind. -/
theorem left_behind {waits : DiskWaits} {action : WaiterAction} (early : Not (waits.NotifiesAfterReads action)) :
    Exists fun reader => Not ((waits.step action).step (.caller reader .enroll)).NoneLeftBehind := by
  unfold NotifiesAfterReads at early
  split at early
  · next index =>
      simp only [not_forall, not_not] at early
      rcases early with ⟨token, found, reader, force, reads⟩
      have apart : Not (reader = index) := by
        intro same
        rw [← same, reads] at found
        cases found
      have notified : Exists fun outcome => waits.step (.caller index .notifyWaiters) =
          ((waits.notifyWaiters token).endCalculation token).setCaller index (.done outcome) := by
        cases phase : waits.caller index with
        | installed known usage limit =>
            rw [phase] at found
            cases found
            refine ⟨some (usage, limit), ?_⟩
            change waits.stepCaller index .notifyWaiters = _
            unfold stepCaller
            rw [phase]
        | cleared known =>
            rw [phase] at found
            cases found
            refine ⟨none, ?_⟩
            change waits.stepCaller index .notifyWaiters = _
            unfold stepCaller
            rw [phase]
        | _ =>
            rw [phase] at found
            cases found
      rcases notified with ⟨outcome, after⟩
      have still : (waits.step (.caller index .notifyWaiters)).Enrolls (.caller reader .enroll) reader force token := by
        refine ⟨rfl, ?_⟩
        rw [after, setCaller_of_ne _ _ apart]
        change awake token (waits.caller reader) = _
        rw [reads]
        rfl
      refine ⟨reader, fun none => ?_⟩
      rw [still.step] at none
      refine none reader force token (setCaller_self _ reader _) ?_
      rw [after]
      exact List.mem_cons_self
  · exact absurd trivial early

/-- Nobody is ever left behind just when every wait is created in time, which it is
when every calculation notifies after the reads; one that does not can leave a
reader behind with the next step. -/
theorem none_left_behind (run : List WaiterAction) :
    ((forall front, front <+: run -> (Machine.reach step start front).NoneLeftBehind) <->
        Machine.Along step EnrollsInTime start run) /\
      (Machine.Along step NotifiesAfterReads start run -> Machine.Along step EnrollsInTime start run) /\
      forall action, Not ((Machine.reach step start run).NotifiesAfterReads action) -> Exists fun reader =>
        Not (Machine.reach step start (run ++ [action, .caller reader .enroll])).NoneLeftBehind := by
  have ordered (front : List WaiterAction) : (Machine.reach step start front).Ordered :=
    Machine.invariant (fun waits action ordered => ordered.step action) ordered_start front
  have exactly : (forall front, front <+: run -> (Machine.reach step start front).Ordered /\
      (Machine.reach step start front).NoneLeftBehind) <-> Machine.Along step EnrollsInTime start run :=
    Machine.always_iff_along step_exactly ⟨ordered_start, fun _ _ _ found => by cases found⟩
  refine ⟨?_, enrollsInTime_of_afterReads, fun action early => ?_⟩
  · rw [← exactly]
    exact ⟨fun none front within => ⟨ordered front, none front within⟩, fun good front within => (good front within).2⟩
  · rcases left_behind early with ⟨reader, behind⟩
    refine ⟨reader, ?_⟩
    rw [Machine.reach_append]
    exact behind

/-- The first caller notifies between the second's read and its wait. -/
def lateRun : List WaiterAction :=
  [.caller 0 (.call true), .caller 0 (.lock false), .caller 1 (.call true), .caller 1 (.lock false),
    .caller 0 (.measure 1 2), .caller 0 (.lock false), .caller 0 .notifyWaiters, .caller 1 .enroll]

/-- The second caller waits for a calculation that has notified and done its work. -/
theorem lateRun_leaves_behind :
    (Machine.reach step start lateRun).caller 0 = .done (some (1, 2)) /\
      (Machine.reach step start lateRun).caller 1 = .waiting true 0 /\
      Not (Machine.reach step start lateRun).NoneLeftBehind := by
  have waits : (Machine.reach step start lateRun).caller 1 = .waiting true 0 := by decide
  refine ⟨by decide, waits, fun none => ?_⟩
  exact none 1 true 0 waits (by decide)

/-! ## The smaller steps and the larger -/

/-- How far a caller has come in larger steps. -/
def phaseOf : DiskWaiter -> DiskCaller
  | .idle => .idle
  | .asking force => .asking force
  | .read force token => .waiting force token
  | .waiting force token => .waiting force token
  | .notified force token => .waiting force token
  | .impatient force token => .impatient force token
  | .removed force _ => .asking force
  | .measuring token => .measuring token
  | .measured token usage limit => .measured token usage limit
  | .installed _ usage limit => .done (some (usage, limit))
  | .dropped token => .dropped token
  | .cleared _ => .done none
  | .done outcome => .done outcome

def cacheOf (waits : DiskWaits) : DiskCache where
  entry := waits.entry
  nextToken := waits.nextToken
  caller index := phaseOf (waits.caller index)

theorem cacheOf_setCaller (waits : DiskWaits) (index : Nat) (phase : DiskWaiter) :
    (waits.setCaller index phase).cacheOf = waits.cacheOf.setCaller index (phaseOf phase) := by
  have callers : (fun other => phaseOf ((waits.setCaller index phase).caller other)) =
      Function.update (fun other => phaseOf (waits.caller other)) index (phaseOf phase) :=
    Function.comp_update phaseOf waits.caller index phase
  unfold cacheOf DiskCache.setCaller
  rw [callers]
  rfl

theorem cacheOf_beginCalculation (waits : DiskWaits) (index : Nat) :
    (waits.beginCalculation index).cacheOf = waits.cacheOf.beginCalculation index := by
  have callers : (fun other => phaseOf ((waits.beginCalculation index).caller other)) =
      Function.update (fun other => phaseOf (waits.caller other)) index (.measuring waits.nextToken) :=
    Function.comp_update phaseOf waits.caller index _
  unfold cacheOf DiskCache.beginCalculation
  rw [callers]
  rfl

theorem cacheOf_removeToken (waits : DiskWaits) (token : Nat) :
    (waits.removeToken token).cacheOf = waits.cacheOf.removeToken token := by
  unfold cacheOf DiskCache.removeToken removeToken
  dsimp only
  split <;> rfl

theorem cacheOf_install (waits : DiskWaits) (token : Nat) (usage limit : Int) :
    (waits.install token usage limit).cacheOf = waits.cacheOf.install token usage limit := by
  unfold cacheOf DiskCache.install install
  dsimp only
  split <;> rfl

/-- A notification is no step of its own in the larger ones. -/
theorem cacheOf_notifyWaiters (waits : DiskWaits) (token : Nat) :
    (waits.notifyWaiters token).cacheOf = waits.cacheOf := by
  have callers : (fun index => phaseOf (awake token (waits.caller index))) = fun index =>
      phaseOf (waits.caller index) := by
    funext index
    unfold awake
    split
    · next found =>
        rw [found]
        split <;> rfl
    · rfl
  unfold cacheOf notifyWaiters
  dsimp only
  rw [callers]

theorem cacheOf_setCaller_same (waits : DiskWaits) {index : Nat} {phase : DiskWaiter}
    (same : phaseOf phase = phaseOf (waits.caller index)) : (waits.setCaller index phase).cacheOf = waits.cacheOf := by
  rw [cacheOf_setCaller, same, DiskCache.setCaller]
  exact congrArg (fun caller => { waits.cacheOf with caller := caller }) (Function.update_eq_self index _)

theorem cacheOf_beginDiskCalculation (waits : DiskWaits) (index : Nat) (force expired : Bool) :
    (waits.beginDiskCalculation index force expired).cacheOf =
      waits.cacheOf.beginDiskCalculation index force expired := by
  unfold beginDiskCalculation DiskCache.beginDiskCalculation
  change _ = match waits.entry with
    | some (.ready usage limit _) => _
    | some (.calculating token) => _
    | none => _
  split
  · split
    · exact cacheOf_setCaller waits index _
    · exact cacheOf_beginCalculation waits index
  · exact cacheOf_setCaller waits index _
  · exact cacheOf_beginCalculation waits index

/-- A caller moves as it does in larger steps. -/
theorem cacheOf_moves {waits : DiskWaits} {index : Nat} {phase next : DiskWaiter} (event : DiskEvent)
    (found : waits.caller index = phase)
    (larger : forall cache : DiskCache, cache.caller index = phaseOf phase ->
      cache.stepCaller index event = cache.setCaller index (phaseOf next)) :
    Exists fun larger => (waits.setCaller index next).cacheOf = waits.cacheOf.step larger := by
  refine ⟨.caller index event, ?_⟩
  rw [cacheOf_setCaller]
  exact (larger waits.cacheOf (congrArg phaseOf found)).symm

theorem cacheOf_stepLocked (waits : DiskWaits) (index : Nat) (expired : Bool) :
    (waits.stepLocked index expired).cacheOf = waits.cacheOf \/
      Exists fun larger => (waits.stepLocked index expired).cacheOf = waits.cacheOf.step larger := by
  have larger (phase : DiskWaiter) (found : waits.caller index = phase) :
      waits.cacheOf.caller index = phaseOf phase := congrArg phaseOf found
  unfold stepLocked
  split
  · next force found =>
      refine Or.inr ⟨.caller index (.lock expired), ?_⟩
      change _ = waits.cacheOf.stepCaller index _
      unfold DiskCache.stepCaller
      rw [larger _ found, cacheOf_beginDiskCalculation]
      rfl
  · next force token found =>
      refine Or.inr ⟨.caller index (.lock expired), ?_⟩
      change _ = waits.cacheOf.stepCaller index _
      unfold DiskCache.stepCaller
      rw [larger _ found, cacheOf_setCaller, cacheOf_removeToken]
      rfl
  · next token usage limit found =>
      refine Or.inr ⟨.caller index (.lock expired), ?_⟩
      change _ = waits.cacheOf.stepCaller index _
      unfold DiskCache.stepCaller
      rw [larger _ found, cacheOf_setCaller, cacheOf_install]
      rfl
  · next token found =>
      refine Or.inr ⟨.caller index (.lock expired), ?_⟩
      change _ = waits.cacheOf.stepCaller index _
      unfold DiskCache.stepCaller
      rw [larger _ found, cacheOf_setCaller, cacheOf_removeToken]
      rfl
  · exact Or.inl rfl

/-- Every smaller step is a larger one, or none. -/
theorem cacheOf_step (waits : DiskWaits) (action : WaiterAction) :
    (waits.step action).cacheOf = waits.cacheOf \/
      Exists fun larger => (waits.step action).cacheOf = waits.cacheOf.step larger := by
  cases action with
  | invalidate =>
      change DiskWaits.cacheOf (if waits.locked then waits else { waits with entry := none }) = _ \/
        Exists fun larger => DiskWaits.cacheOf (if waits.locked then waits else { waits with entry := none }) = _
      split
      · exact Or.inl rfl
      · exact Or.inr ⟨.invalidate, rfl⟩
  | caller index event =>
      change (waits.stepCaller index event).cacheOf = _ \/
        Exists fun larger => (waits.stepCaller index event).cacheOf = _
      unfold stepCaller
      split
      · split
        · exact Or.inl rfl
        · exact cacheOf_stepLocked waits index _
      · next force found => exact Or.inr (cacheOf_moves (.call force) found fun cache here => by
          unfold DiskCache.stepCaller; rw [here]; rfl)
      · next found => exact Or.inl (cacheOf_setCaller_same waits (by rw [found]; rfl))
      · next found => exact Or.inr (cacheOf_moves .timeout found fun cache here => by
          unfold DiskCache.stepCaller; rw [here]; rfl)
      · next found => exact Or.inr (cacheOf_moves .woken found fun cache here => by
          unfold DiskCache.stepCaller; rw [here]; rfl)
      · next found => exact Or.inr (cacheOf_moves (.measure _ _) found fun cache here => by
          unfold DiskCache.stepCaller; rw [here]; rfl)
      · next found =>
          refine Or.inl ((cacheOf_setCaller_same _ ?_).trans (cacheOf_notifyWaiters waits _))
          rw [notifyWaiters_caller, found]
          rfl
      · next found =>
          refine Or.inl ((cacheOf_setCaller_same _ ?_).trans (cacheOf_notifyWaiters waits _))
          change _ = phaseOf (awake _ (waits.caller index))
          rw [found]
          rfl
      · next found =>
          refine Or.inl ((cacheOf_setCaller_same _ ?_).trans (cacheOf_notifyWaiters waits _))
          change _ = phaseOf (awake _ (waits.caller index))
          rw [found]
          rfl
      · next found => exact Or.inr (cacheOf_moves .abandon found fun cache here => by
          unfold DiskCache.stepCaller; rw [here]; rfl)
      · next found => exact Or.inr (cacheOf_moves .abandon found fun cache here => by
          unfold DiskCache.stepCaller; rw [here]; rfl)
      · next found => exact Or.inr (cacheOf_moves .abandon found fun cache here => by
          unfold DiskCache.stepCaller; rw [here]; rfl)
      · next found => exact Or.inr (cacheOf_moves .abandon found fun cache here => by
          unfold DiskCache.stepCaller; rw [here]; rfl)
      · next found => exact Or.inr (cacheOf_moves .abandon found fun cache here => by
          unfold DiskCache.stepCaller; rw [here]; rfl)
      · next found => exact Or.inr (cacheOf_moves .abandon found fun cache here => by
          unfold DiskCache.stepCaller; rw [here]; rfl)
      · exact Or.inl rfl

/-- What callers do in smaller steps they can do in larger ones. -/
theorem cacheOf_reach (run : List WaiterAction) : Exists fun larger =>
    (Machine.reach step start run).cacheOf = Machine.reach DiskCache.step DiskCache.start larger := by
  induction run using List.reverseRecOn with
  | nil => exact ⟨[], rfl⟩
  | append_singleton run action induction =>
      rcases induction with ⟨larger, same⟩
      rw [Machine.reach_append]
      rcases cacheOf_step (Machine.reach step start run) action with none | ⟨one, stepped⟩
      · exact ⟨larger, none.trans same⟩
      · refine ⟨larger ++ [one], ?_⟩
        rw [Machine.reach_append, ← same]
        exact stepped

end DiskWaits

end Runtime
end Agapornis
