import Mathlib.Logic.Function.Basic
import Agapornis.Foundations.Machine
import Agapornis.Foundations.Ownership
import Agapornis.Runtime.Ports

namespace Agapornis
namespace Runtime

open Foundations Agapornis.Core

/-!
# Reservations of host ports

A request for a host port puts it into the set of reserved ports and returns
an object that takes it out again when it is dropped, at once if the set is
not locked and through a task of its own otherwise.  A request can be
cancelled wherever it waits; between the insertion and the making of the
object it does not wait.
-/

/-- The part of a creation request that is about its host port. -/
structure PortRequest where
  exposePublicPort : Bool
  hostPort : Int
  deriving DecidableEq, Repr

/-- How far a request for a port has come, and its reservation after it. -/
inductive RequestPhase where
  | idle
  | asked (spec : PortRequest)
  /-- The requested port could be bound; waiting for the lock. -/
  | checked (port : HostPort)
  /-- Waiting for the bind of a random port, with attempts left. -/
  | binding (left : Nat) (port : HostPort)
  /-- The random port could be bound; waiting for the lock. -/
  | bound (left : Nat) (port : HostPort)
  /-- The lock is released and the reservation not made yet. -/
  | inserted (hostPort : Int)
  | reserved (hostPort : Int) (port : Option HostPort)
  /-- The reservation gave up its port and has not tried the lock yet. -/
  | dropping (port : HostPort)
  /-- A task of its own waits for the lock. -/
  | deferred (port : HostPort)
  | ended (failure : Option Failure)
  deriving DecidableEq, Repr

/-- What happens to a request next. -/
inductive RequestEvent where
  | call (spec : PortRequest)
  | enter (available : Bool) (draw : Fin 1000)
  | lock (draw : Fin 1000)
  | bind (succeeds : Bool) (draw : Fin 1000)
  | construct
  | cancel
  | drop
  | tryLock (busy : Bool)
  | release
  deriving DecidableEq, Repr

def randomPort (draw : Fin 1000) : HostPort :=
  ⟨25000 + draw, by omega⟩

/-- The next turn of the loop in `find_port`. -/
def nextAttempt (left : Nat) (draw : Fin 1000) : RequestPhase :=
  match left with
  | 0 => .ended (some (.bail "No open ports found."))
  | left + 1 => .binding left (randomPort draw)

/-- `reserve_host_port` up to its first waiting point. -/
def enterRequest (spec : PortRequest) (available : Bool) (draw : Fin 1000) : RequestPhase :=
  if !spec.exposePublicPort then .inserted 0
  else if 0 < spec.hostPort then
    match hostPortOf spec.hostPort with
    | none =>
        .ended (some (.context "host port is outside the valid range"
          (.bail "out of range integral type conversion attempted")))
    | some port =>
        match ensurePort available port.val with
        | .error failure => .ended (some failure)
        | .ok () => .checked port
  else nextAttempt 50 draw

/-- What an event does to the reserved ports and to a request. -/
def advance (reserved : Finset HostPort) (phase : RequestPhase) (event : RequestEvent) :
    Finset HostPort × RequestPhase :=
  match phase, event with
  | .idle, .call spec => (reserved, .asked spec)
  | .asked spec, .enter available draw => (reserved, enterRequest spec available draw)
  | .checked port, .lock _ =>
      if port ∈ reserved then
        (reserved, .ended (some (.bail s!"Requested host port {port.val} is already being allocated.")))
      else (insert port reserved, .inserted port.val)
  | .binding left port, .bind true _ => (reserved, .bound left port)
  | .binding left _, .bind false draw => (reserved, nextAttempt left draw)
  | .bound left port, .lock draw =>
      if port ∈ reserved then (reserved, nextAttempt left draw)
      else (insert port reserved, .inserted port.val)
  | .inserted hostPort, .construct => (reserved, .reserved hostPort (hostPortOf hostPort))
  | .reserved _ none, .drop => (reserved, .ended none)
  | .reserved _ (some port), .drop => (reserved, .dropping port)
  | .dropping port, .tryLock busy =>
      if busy then (reserved, .deferred port) else (reserved.erase port, .ended none)
  | .deferred port, .release => (reserved.erase port, .ended none)
  | .asked _, .cancel => (reserved, .ended none)
  | .checked _, .cancel => (reserved, .ended none)
  | .binding _ _, .cancel => (reserved, .ended none)
  | .bound _ _, .cancel => (reserved, .ended none)
  | phase, _ => (reserved, phase)

/-- The set of reserved ports and all requests there ever are. -/
structure PortRegistry where
  reserved : Finset HostPort
  request : Nat -> RequestPhase

namespace PortRegistry

def start : PortRegistry where
  reserved := ∅
  request _ := .idle

def step (registry : PortRegistry) (action : Nat × RequestEvent) : PortRegistry where
  reserved := (advance registry.reserved (registry.request action.1) action.2).1
  request := Function.update registry.request action.1
    (advance registry.reserved (registry.request action.1) action.2).2

end PortRegistry

/-- The port of a live reservation, from its insertion on. -/
def RequestPhase.live : RequestPhase -> Option HostPort
  | .inserted hostPort => hostPortOf hostPort
  | .reserved _ port => port
  | _ => none

/-- The port of a release that is still pending. -/
def RequestPhase.pending : RequestPhase -> Option HostPort
  | .dropping port => some port
  | .deferred port => some port
  | _ => none

def RequestPhase.holds (phase : RequestPhase) : Option HostPort :=
  phase.live.or phase.pending

theorem holds_eq_some {phase : RequestPhase} {port : HostPort} :
    phase.holds = some port <-> phase.live = some port \/ phase.pending = some port := by
  cases phase <;> simp [RequestPhase.holds, RequestPhase.live, RequestPhase.pending]

theorem nextAttempt_holds (left : Nat) (draw : Fin 1000) : (nextAttempt left draw).holds = none := by
  cases left <;> rfl

theorem enterRequest_holds (spec : PortRequest) (available : Bool) (draw : Fin 1000) :
    (enterRequest spec available draw).holds = none := by
  unfold enterRequest
  split
  · rfl
  · split
    · split
      · rfl
      · split <;> rfl
    · exact nextAttempt_holds 50 draw

/-- An event keeps what the request holds, takes a free port for a request
that holds none, or gives back the port the request holds. -/
inductive Advanced (reserved : Finset HostPort) (phase : RequestPhase) :
    Finset HostPort -> RequestPhase -> Prop where
  | kept {later : RequestPhase} : later.holds = phase.holds -> Advanced reserved phase reserved later
  | taken {port : HostPort} {later : RequestPhase} : phase.holds = none -> port ∉ reserved ->
      later.holds = some port -> (Exists fun hostPort => later = .inserted hostPort) ->
      Advanced reserved phase (insert port reserved) later
  | released {port : HostPort} : phase.pending = some port ->
      Advanced reserved phase (reserved.erase port) (.ended none)

theorem inserted_holds (port : HostPort) : (RequestPhase.inserted (port.val : Int)).holds = some port :=
  holds_eq_some.mpr (Or.inl (hostPortOf_port port))

theorem advanced (reserved : Finset HostPort) (phase : RequestPhase) (event : RequestEvent) :
    Advanced reserved phase (advance reserved phase event).1 (advance reserved phase event).2 := by
  unfold advance
  split
  · exact .kept rfl
  · next spec available draw => exact .kept (enterRequest_holds spec available draw)
  · next port _ =>
      split
      · exact .kept rfl
      · next free => exact .taken rfl free (inserted_holds port) ⟨_, rfl⟩
  · exact .kept rfl
  · next left _ draw => exact .kept (nextAttempt_holds left draw)
  · next left port draw =>
      split
      · exact .kept (nextAttempt_holds left draw)
      · next free => exact .taken rfl free (inserted_holds port) ⟨_, rfl⟩
  · exact .kept rfl
  · exact .kept rfl
  · exact .kept rfl
  · split
    · exact .kept rfl
    · exact .released rfl
  · exact .released rfl
  · exact .kept rfl
  · exact .kept rfl
  · exact .kept rfl
  · exact .kept rfl
  · exact .kept rfl

namespace PortRegistry

/-- What each request holds. -/
def holder (registry : PortRegistry) (request : Nat) : Option HostPort :=
  (registry.request request).holds

theorem step_holder_other (registry : PortRegistry) (action : Nat × RequestEvent) {other : Nat}
    (different : Not (other = action.1)) :
    (registry.step action).holder other = registry.holder other := by
  simp only [holder, step, Function.update_of_ne different]

theorem step_request (registry : PortRegistry) (action : Nat × RequestEvent) :
    (registry.step action).request action.1 =
      (advance registry.reserved (registry.request action.1) action.2).2 :=
  Function.update_self ..

/-- The reserved ports are held, each by one request. -/
def Exact (registry : PortRegistry) : Prop :=
  Exclusive registry.reserved registry.holder

theorem exact_start : start.Exact :=
  exclusive_empty

theorem Exact.step {registry : PortRegistry} (exact_ : registry.Exact) (action : Nat × RequestEvent) :
    (registry.step action).Exact := by
  have others (other : Nat) (different : Not (other = action.1)) :=
    registry.step_holder_other action different
  have here : (registry.step action).holder action.1 =
      (advance registry.reserved (registry.request action.1) action.2).2.holds := by
    rw [holder, step_request]
  have outcome := advanced registry.reserved (registry.request action.1) action.2
  change Exclusive (advance registry.reserved (registry.request action.1) action.2).1 _
  generalize (advance registry.reserved (registry.request action.1) action.2).1 = reserved at outcome
  generalize (advance registry.reserved (registry.request action.1) action.2).2 = phase at outcome here
  cases outcome with
  | kept same =>
      refine exact_.keep (fun owner => ?_)
      by_cases isHere : owner = action.1
      · rw [isHere, here, same]
        rfl
      · exact others owner isHere
  | taken empty free now _ => exact exact_.acquire empty free (here.trans now) others
  | released pending =>
      have owned : registry.holder action.1 = some _ := holds_eq_some.mpr (Or.inr pending)
      exact exact_.release owned here others

theorem exact_reach (run : List (Nat × RequestEvent)) : (Machine.reach step start run).Exact :=
  Machine.invariant (fun _ action exact_ => exact_.step action) exact_start run

/-- No event of one request frees the port of another. -/
theorem Exact.other_kept {registry : PortRegistry} (exact_ : registry.Exact)
    (action : Nat × RequestEvent) {other : Nat} (different : Not (other = action.1)) {port : HostPort}
    (held : registry.holder other = some port) : port ∈ (registry.step action).reserved :=
  (exact_.step action).mem ((registry.step_holder_other action different).trans held)

/-- In every run of requests and drops, the reserved ports are exactly those of
live reservations and of pending releases, no port is held twice, a request
that fails or is cancelled frees nothing, and no step of one request frees
the port that another holds. -/
theorem reservations_exclusive (run : List (Nat × RequestEvent)) :
    (forall port, port ∈ (Machine.reach step start run).reserved <->
      (Exists fun request => ((Machine.reach step start run).request request).live = some port) \/
        Exists fun request => ((Machine.reach step start run).request request).pending = some port) /\
    (forall first second port,
      ((Machine.reach step start run).request first).holds = some port ->
      ((Machine.reach step start run).request second).holds = some port -> first = second) /\
    (forall request port,
      Not (((Machine.reach step start run).request request).live = some port /\
        ((Machine.reach step start run).request request).pending = some port)) /\
    (forall request event,
      ((Machine.reach step start run).request request).pending = none ->
      (Exists fun failure => ((Machine.reach step start (run ++ [(request, event)])).request request) =
        .ended failure) ->
      (Machine.reach step start (run ++ [(request, event)])).reserved =
        (Machine.reach step start run).reserved) /\
    (forall request event other port, Not (other = request) ->
      ((Machine.reach step start run).request other).holds = some port ->
      port ∈ (Machine.reach step start (run ++ [(request, event)])).reserved) := by
  have exact_ := exact_reach run
  generalize reached : Machine.reach step start run = registry at exact_
  refine ⟨?_, ?_, ?_, ?_, ?_⟩
  · intro port
    rw [exact_.covered, <- exists_or]
    exact exists_congr (fun request => holds_eq_some)
  · exact exact_.alone
  · rintro request port ⟨live, pending⟩
    cases phase : registry.request request <;>
      simp [phase, RequestPhase.live, RequestPhase.pending] at live pending
  · rintro request event notPending ⟨failure, ended⟩
    rw [Machine.reach_append, reached] at ended ⊢
    have here : (advance registry.reserved (registry.request request) event).2 = .ended failure := by
      rw [<- step_request registry (request, event)]
      exact ended
    change (advance registry.reserved (registry.request request) event).1 = registry.reserved
    have outcome := advanced registry.reserved (registry.request request) event
    generalize (advance registry.reserved (registry.request request) event).1 = reserved at outcome
    generalize (advance registry.reserved (registry.request request) event).2 = phase at outcome here
    cases outcome with
    | kept same => rfl
    | taken empty free now inserted =>
        rcases inserted with ⟨hostPort, same⟩
        rw [same] at here
        cases here
    | released pending =>
        rw [notPending] at pending
        cases pending
  · intro request event other port different held
    rw [Machine.reach_append, reached]
    exact exact_.other_kept (request, event) different held

/-- Two requests for one port, of which the second fails and the first is
released by a task of its own. -/
example : (Machine.reach step start [(0, .call ⟨true, 30000⟩), (0, .enter true 0), (0, .lock 0),
    (1, .call ⟨true, 30000⟩), (1, .enter true 0), (1, .lock 0), (0, .construct), (0, .drop),
    (0, .tryLock true), (0, .release)]).reserved = ∅ := by
  decide

end PortRegistry

end Runtime
end Agapornis
