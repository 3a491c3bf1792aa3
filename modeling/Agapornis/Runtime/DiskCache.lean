import Mathlib.Data.List.Induction
import Mathlib.Logic.Function.Basic
import Agapornis.Foundations.Machine
import Agapornis.Core.Failure

namespace Agapornis
namespace Runtime

open Foundations Agapornis.Core

/-!
# The disk-usage cache

One entry of the cache, with any number of callers.  A caller that finds
nothing of use puts a token of its own into the entry, measures, and installs
its result if its token is still there; one that finds the token of another
waits, and takes the token away when it has waited too long.  Whoever changes
what a measurement depends on takes the entry away.

Tokens are numbered in the order they are made, and so are the calculations.
Which calculation a result comes from is kept for the statements only.
-/

inductive CacheState where
  | ready (usage limit : Int) (calculation : Nat)
  | calculating (token : Nat)
  deriving DecidableEq, Repr

/-- How far a caller of `disk_cached` has come. -/
inductive DiskCaller where
  | idle
  /-- Waiting for the lock in `begin_disk_calculation`. -/
  | asking (force : Bool)
  | waiting (force : Bool) (token : Nat)
  /-- The wait has timed out; waiting for the lock. -/
  | impatient (force : Bool) (token : Nat)
  /-- Measuring, with the guard armed. -/
  | measuring (token : Nat)
  /-- Waiting for the lock to install the result, with the guard armed. -/
  | measured (token : Nat) (usage limit : Int)
  /-- The guard was dropped; its task waits for the lock. -/
  | dropped (token : Nat)
  | done (outcome : Option (Int × Int))
  deriving DecidableEq, Repr

inductive DiskEvent where
  | call (force : Bool)
  /-- The caller gets the lock; an entry may have expired by then. -/
  | lock (expired : Bool)
  | woken
  | timeout
  | measure (usage limit : Int)
  /-- The caller fails, or is cancelled. -/
  | abandon
  deriving DecidableEq, Repr

inductive DiskAction where
  | caller (index : Nat) (event : DiskEvent)
  /-- An update of the resources, a deletion, a creation or a replacement. -/
  | invalidate
  deriving DecidableEq, Repr

structure DiskCache where
  entry : Option CacheState
  nextToken : Nat
  caller : Nat -> DiskCaller

namespace DiskCache

def start : DiskCache where
  entry := none
  nextToken := 0
  caller _ := .idle

def setCaller (cache : DiskCache) (index : Nat) (phase : DiskCaller) : DiskCache :=
  { cache with caller := Function.update cache.caller index phase }

/-- Put a new token into the entry. -/
def beginCalculation (cache : DiskCache) (index : Nat) : DiskCache :=
  { cache with
    entry := some (.calculating cache.nextToken)
    nextToken := cache.nextToken + 1
    caller := Function.update cache.caller index (.measuring cache.nextToken) }

/-- Take the entry away if the token in it is this one. -/
def removeToken (cache : DiskCache) (token : Nat) : DiskCache :=
  if cache.entry = some (.calculating token) then { cache with entry := none } else cache

/-- Install a result if the token in the entry is still this one. -/
def install (cache : DiskCache) (token : Nat) (usage limit : Int) : DiskCache :=
  if cache.entry = some (.calculating token) then
    { cache with entry := some (.ready usage limit token) }
  else cache

/-- What a caller does with the lock of the cache in `begin_disk_calculation`. -/
def beginDiskCalculation (cache : DiskCache) (index : Nat) (force expired : Bool) : DiskCache :=
  match cache.entry with
  | some (.ready usage limit _) =>
      if !force && !expired then cache.setCaller index (.done (some (usage, limit)))
      else cache.beginCalculation index
  | some (.calculating token) => cache.setCaller index (.waiting force token)
  | none => cache.beginCalculation index

def stepCaller (cache : DiskCache) (index : Nat) (event : DiskEvent) : DiskCache :=
  match cache.caller index, event with
  | .idle, .call force => cache.setCaller index (.asking force)
  | .asking force, .lock expired => cache.beginDiskCalculation index force expired
  | .waiting force _, .woken => cache.setCaller index (.asking force)
  | .waiting force token, .timeout => cache.setCaller index (.impatient force token)
  | .impatient force token, .lock _ => (cache.removeToken token).setCaller index (.asking force)
  | .measuring token, .measure usage limit => cache.setCaller index (.measured token usage limit)
  | .measured token usage limit, .lock _ =>
      (cache.install token usage limit).setCaller index (.done (some (usage, limit)))
  | .dropped token, .lock _ => (cache.removeToken token).setCaller index (.done none)
  | .asking _, .abandon => cache.setCaller index (.done none)
  | .waiting _ _, .abandon => cache.setCaller index (.done none)
  | .impatient _ _, .abandon => cache.setCaller index (.done none)
  | .measuring token, .abandon => cache.setCaller index (.dropped token)
  | .measured token _ _, .abandon => cache.setCaller index (.dropped token)
  | _, _ => cache

def step (cache : DiskCache) : DiskAction -> DiskCache
  | .caller index event => cache.stepCaller index event
  | .invalidate => { cache with entry := none }

/-- The result of a calculation stands in the entry. -/
def ReadyFrom (cache : DiskCache) (calculation : Nat) : Prop :=
  Exists fun usage => Exists fun limit => cache.entry = some (.ready usage limit calculation)

/-- A calculation that has begun and whose result some later step installs. -/
def CanInstall (cache : DiskCache) (calculation : Nat) : Prop :=
  calculation < cache.nextToken /\ Exists fun run => Exists fun action =>
    Not ((Machine.reach step cache run).ReadyFrom calculation) /\
      (Machine.reach step cache (run ++ [action])).ReadyFrom calculation

/-- A calculation began in a run with no invalidation since. -/
def BegunSince (run : List DiskAction) (calculation : Nat) : Prop :=
  Exists fun front => Exists fun action => Exists fun back => run = front ++ action :: back /\
    (Machine.reach step start front).nextToken = calculation /\
    (Machine.reach step start (front ++ [action])).entry = some (.calculating calculation) /\
    .invalidate ∉ back

/-! ## What one step does to the entry -/

/-- An entry stays, goes, gets a new token, or gets the result that belongs to
its token. -/
inductive EntryMoved (cache after : DiskCache) : Prop where
  | stays : after.entry = cache.entry -> after.nextToken = cache.nextToken -> EntryMoved cache after
  | goes : after.entry = none -> after.nextToken = cache.nextToken -> EntryMoved cache after
  | begins : after.entry = some (.calculating cache.nextToken) ->
      after.nextToken = cache.nextToken + 1 -> EntryMoved cache after
  | installs {token : Nat} {usage limit : Int} : cache.entry = some (.calculating token) ->
      after.entry = some (.ready usage limit token) -> after.nextToken = cache.nextToken ->
      EntryMoved cache after

theorem setCaller_stays (cache : DiskCache) (index : Nat) (phase : DiskCaller) :
    EntryMoved cache (cache.setCaller index phase) :=
  .stays rfl rfl

theorem removeToken_moved (cache : DiskCache) (token index : Nat) (phase : DiskCaller) :
    EntryMoved cache ((cache.removeToken token).setCaller index phase) := by
  unfold removeToken
  split
  · exact .goes rfl rfl
  · exact setCaller_stays cache index phase

theorem install_moved (cache : DiskCache) (token : Nat) (usage limit : Int) (index : Nat)
    (phase : DiskCaller) : EntryMoved cache ((cache.install token usage limit).setCaller index phase) := by
  unfold install
  split
  · next here => exact .installs here rfl rfl
  · exact setCaller_stays cache index phase

theorem beginDiskCalculation_moved (cache : DiskCache) (index : Nat) (force expired : Bool) :
    EntryMoved cache (cache.beginDiskCalculation index force expired) := by
  unfold beginDiskCalculation
  split
  · split
    · exact setCaller_stays cache index _
    · exact .begins rfl rfl
  · exact setCaller_stays cache index _
  · exact .begins rfl rfl

theorem step_moved (cache : DiskCache) (action : DiskAction) : EntryMoved cache (cache.step action) := by
  cases action with
  | invalidate => exact .goes rfl rfl
  | caller index event =>
      change EntryMoved cache (cache.stepCaller index event)
      unfold stepCaller
      split
      · exact setCaller_stays cache index _
      · exact beginDiskCalculation_moved cache index _ _
      · exact setCaller_stays cache index _
      · exact setCaller_stays cache index _
      · exact removeToken_moved cache _ index _
      · exact setCaller_stays cache index _
      · exact install_moved cache _ _ _ index _
      · exact removeToken_moved cache _ index _
      · exact setCaller_stays cache index _
      · exact setCaller_stays cache index _
      · exact setCaller_stays cache index _
      · exact setCaller_stays cache index _
      · exact setCaller_stays cache index _
      · exact .stays rfl rfl

/-! ## Whole runs -/

/-- What stands in the entry belongs to a calculation that began in the run
with no invalidation since. -/
def Current (run : List DiskAction) (cache : DiskCache) : Prop :=
  forall calculation, cache.entry = some (.calculating calculation) \/ cache.ReadyFrom calculation ->
    BegunSince run calculation

theorem BegunSince.append {run : List DiskAction} {calculation : Nat}
    (begun : BegunSince run calculation) {action : DiskAction} (kept : Not (action = .invalidate)) :
    BegunSince (run ++ [action]) calculation := by
  rcases begun with ⟨front, first, back, split, next, token, none⟩
  refine ⟨front, first, back ++ [action], by rw [split]; simp, next, token, ?_⟩
  intro member
  rcases List.mem_append.mp member with earlier | last
  · exact none earlier
  · exact kept (List.mem_singleton.mp last).symm

theorem current_reach (run : List DiskAction) : Current run (Machine.reach step start run) := by
  induction run using List.reverseRecOn with
  | nil =>
      rintro calculation (token | ⟨usage, limit, ready⟩)
      · cases token
      · cases ready
  | append_singleton run action induction =>
      have after : Machine.reach step start (run ++ [action]) = (Machine.reach step start run).step action := by
        rw [Machine.reach_append]
        rfl
      by_cases invalidated : action = .invalidate
      · have empty : (Machine.reach step start (run ++ [action])).entry = none := by
          rw [after, invalidated]
          rfl
        rintro calculation (token | ⟨usage, limit, ready⟩)
        · rw [empty] at token
          cases token
        · rw [empty] at ready
          cases ready
      · have moved := step_moved (Machine.reach step start run) action
        rw [<- after] at moved
        intro calculation stands
        cases moved with
        | stays entry next =>
            unfold ReadyFrom at stands
            rw [entry] at stands
            exact (induction calculation stands).append invalidated
        | goes entry next =>
            rcases stands with token | ⟨usage, limit, ready⟩
            · rw [entry] at token
              cases token
            · rw [entry] at ready
              cases ready
        | begins entry next =>
            rcases stands with token | ⟨usage, limit, ready⟩
            · have same := token
              rw [entry] at same
              cases same
              exact ⟨run, action, [], rfl, rfl, token, List.not_mem_nil⟩
            · rw [entry] at ready
              cases ready
        | installs before entry next =>
            rcases stands with token | ⟨usage, limit, ready⟩
            · rw [entry] at token
              cases token
            · rw [entry] at ready
              cases ready
              exact (induction calculation (Or.inl before)).append invalidated

/-- The token of a calculation that has begun does not come back. -/
theorem lost_token {calculation : Nat} {cache : DiskCache} (begun : calculation < cache.nextToken)
    (lost : Not (cache.entry = some (.calculating calculation))) (run : List DiskAction) :
    calculation < (Machine.reach step cache run).nextToken /\
      Not ((Machine.reach step cache run).entry = some (.calculating calculation)) := by
  have keeps (state : DiskCache) (action : DiskAction)
      (before : calculation < state.nextToken /\ Not (state.entry = some (.calculating calculation))) :
      calculation < (state.step action).nextToken /\
        Not ((state.step action).entry = some (.calculating calculation)) := by
    rcases before with ⟨old, absent⟩
    cases step_moved state action with
    | stays entry next => exact ⟨next ▸ old, entry ▸ absent⟩
    | goes entry next => exact ⟨next ▸ old, by rw [entry]; nofun⟩
    | begins entry next =>
        refine ⟨by omega, ?_⟩
        rw [entry]
        intro same
        cases same
        exact Nat.lt_irrefl _ old
    | installs before entry next => exact ⟨next ▸ old, by rw [entry]; nofun⟩
  exact Machine.invariant keeps ⟨begun, lost⟩ run

/-- Only the calculation whose token stands in the entry can install its result. -/
theorem CanInstall.token {cache : DiskCache} {calculation : Nat} (can : cache.CanInstall calculation) :
    cache.entry = some (.calculating calculation) := by
  rcases can with ⟨begun, run, action, notYet, installed⟩
  by_contra lost
  have later := lost_token begun lost run
  have after : Machine.reach step cache (run ++ [action]) = (Machine.reach step cache run).step action := by
    rw [Machine.reach_append]
    rfl
  rcases installed with ⟨usage, limit, ready⟩
  rw [after] at ready
  cases step_moved (Machine.reach step cache run) action with
  | stays entry next => exact notYet ⟨usage, limit, entry ▸ ready⟩
  | goes entry next =>
      rw [entry] at ready
      cases ready
  | begins entry next =>
      rw [entry] at ready
      cases ready
  | installs before entry next =>
      rw [entry] at ready
      cases ready
      exact later.2 before

/-- In every run the result in the entry comes from a calculation that began
after the last invalidation, and at most one calculation can still install
its result. -/
theorem never_stale (run : List DiskAction) :
    (forall calculation, (Machine.reach step start run).ReadyFrom calculation -> BegunSince run calculation) /\
      forall first second, (Machine.reach step start run).CanInstall first ->
        (Machine.reach step start run).CanInstall second -> first = second := by
  refine ⟨fun calculation ready => current_reach run calculation (Or.inr ready), ?_⟩
  intro first second canFirst canSecond
  have same := canFirst.token.symm.trans canSecond.token
  cases same
  rfl

/-- A calculation overtaken by an invalidation and by a second one. -/
example : (Machine.reach step start [.caller 0 (.call true), .caller 0 (.lock false), .invalidate,
    .caller 1 (.call true), .caller 1 (.lock false), .caller 0 (.measure 7 10), .caller 0 (.lock false),
    .caller 1 (.measure 8 20), .caller 1 (.lock false)]).entry = some (.ready 8 20 1) := by
  decide

end DiskCache

end Runtime
end Agapornis
