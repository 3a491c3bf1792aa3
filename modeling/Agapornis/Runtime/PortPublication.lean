import Agapornis.Runtime.PortReservations

namespace Agapornis
namespace Runtime

open Foundations Agapornis.Core

/-!
# Publication of host ports

Creations and updates of the ports go on side by side.  A creation reserves at
most the one port of its request, for as long as it lasts; the ports of its
mappings and those of an update are only looked at.  From the moment a port has
passed its last check until the container with it exists, the call is about to
publish it.
-/

/-- How far a creation or an update of the ports has come. -/
inductive CallPhase where
  | idle
  /-- A creation that waits for its reservation. -/
  | creating (spec : PublicationSpec)
  | prepared (spec : PublicationSpec) (hostPort : Int)
  /-- An update whose mappings are valid. -/
  | updating (requested : PortBindings)
  | inspected (requested current : PortBindings)
  /-- About to create the container, a creation with its host port. -/
  | publishing (hostPort : Option Int) (bindings : PortBindings)
  | created (hostPort : Option Int) (bindings : PortBindings)
  | ended (failure : Option Failure)

/-- What happens to a call next. -/
inductive CallEvent where
  | create (spec : PublicationSpec)
  | request (event : RequestEvent)
  | prepare
  | build (available : Nat -> Bool)
  | update (mappings : List (Text × Int))
  | inspect (current : Option PortBindings)
  | check (available : Nat -> Bool)
  | createContainer (succeeds : Bool)
  | fail
  | finish

/-- The calls under way and their reservations, under the same numbers. -/
structure Publications where
  registry : PortRegistry
  call : Nat -> CallPhase

/-- A request goes on by itself up to its reservation, and a dropped
reservation goes on after its call. -/
def ownEvent : CallPhase -> RequestEvent -> Bool
  | .creating _, .enter _ _ => true
  | .creating _, .lock _ => true
  | .creating _, .bind _ _ => true
  | .creating _, .construct => true
  | .ended _, .tryLock _ => true
  | .ended _, .release => true
  | _, _ => false

/-- Whether a port is among the reserved ones. -/
def isReserved (reserved : Finset HostPort) (port : Nat) : Bool :=
  (hostPortOf port).any (fun port => decide (port ∈ reserved))

/-- The end of a call; a creation drops its reservation. -/
def endCall (registry : PortRegistry) (call : Nat) (hostPort : Option Int) (failure : Option Failure) :
    PortRegistry × CallPhase :=
  match hostPort with
  | some _ => (registry.step (call, .drop), .ended failure)
  | none => (registry, .ended failure)

/-- What an event does to the reservations and to a call. -/
def advanceCall (registry : PortRegistry) (call : Nat) (phase : CallPhase) (event : CallEvent) :
    PortRegistry × CallPhase :=
  match phase, event with
  | .idle, .create spec =>
      (registry.step (call, .call ⟨spec.exposePublicPort, spec.hostPort⟩), .creating spec)
  | phase, .request event =>
      if ownEvent phase event then (registry.step (call, event), phase) else (registry, phase)
  | .creating spec, .prepare =>
      match registry.request call with
      | .reserved hostPort _ => (registry, .prepared spec hostPort)
      | .ended failure => (registry, .ended failure)
      | _ => (registry, .creating spec)
  | .creating spec, .fail =>
      match registry.request call with
      | .inserted _ => (registry, .creating spec)
      | .reserved _ _ => (registry, .creating spec)
      | _ => (registry.step (call, .cancel), .ended none)
  | .prepared spec hostPort, .build available =>
      match serverPorts available spec hostPort with
      | .ok ports => (registry, .publishing (some hostPort) ports.bindings)
      | .error failure => endCall registry call (some hostPort) (some failure)
  | .prepared _ hostPort, .fail => endCall registry call (some hostPort) none
  | .idle, .update mappings =>
      match validatedPortBindings mappings with
      | .ok ports => (registry, .updating ports.bindings)
      | .error failure => (registry, .ended (some failure))
  | .updating requested, .inspect (some current) => (registry, .inspected requested current)
  | .updating _, .inspect none => (registry, .ended none)
  | .inspected requested current, .check available =>
      match ensureBindingsAvailable (isReserved registry.reserved) available (boundHostPorts current)
          (bindingsOf requested) with
      | .ok () => (registry, .publishing none requested)
      | .error failure => (registry, .ended (some failure))
  | .publishing hostPort bindings, .createContainer true => (registry, .created hostPort bindings)
  | .publishing hostPort _, .createContainer false => endCall registry call hostPort none
  | .publishing hostPort _, .fail => endCall registry call hostPort none
  | .created hostPort _, .finish => endCall registry call hostPort none
  | .created hostPort _, .fail => endCall registry call hostPort none
  | phase, _ => (registry, phase)

namespace Publications

def start : Publications where
  registry := PortRegistry.start
  call _ := .idle

def step (state : Publications) (action : Nat × CallEvent) : Publications where
  registry := (advanceCall state.registry action.1 (state.call action.1) action.2).1
  call := Function.update state.call action.1
    (advanceCall state.registry action.1 (state.call action.1) action.2).2

end Publications

/-- The ports which a call has checked and is about to publish. -/
def CallPhase.window : CallPhase -> List HostPort
  | .publishing _ bindings => publishedPorts bindings
  | _ => []

/-- Every port between its check and the creation of the container is held by
the reservation of that call, by no other, and is published by no other. -/
structure Publications.PublishesAlone (state : Publications) : Prop where
  held : forall call port, port ∈ (state.call call).window ->
    (state.registry.request call).live = some port
  alone : forall call port, port ∈ (state.call call).window ->
    forall other, (state.registry.request other).holds = some port -> other = call
  apart : forall first second port, port ∈ (state.call first).window ->
    port ∈ (state.call second).window -> first = second

/-- A creation gets ahead with its mappings only if it maps nothing but the
port it has reserved, and no check of an update succeeds. -/
def Reserving (state : Publications) (action : Nat × CallEvent) : Prop :=
  match state.call action.1, action.2 with
  | .prepared spec hostPort, .build available =>
      spec.exposePublicPort = true -> (serverPorts available spec hostPort).isOk = true ->
        forall mapping, mapping ∈ spec.portMappings -> mapping.2 = 0 \/ mapping.2 = hostPort
  | .inspected requested current, .check available =>
      (ensureBindingsAvailable (isReserved state.registry.reserved) available (boundHostPorts current)
        (bindingsOf requested)).isOk = false
  | _, _ => True

/-! ## The ports of bindings -/

theorem mem_bindingsOf {bindings : PortBindings} {binding : PortBinding} :
    binding ∈ bindingsOf bindings <-> Exists fun key => Exists fun list =>
      bindings.lookup key = some (some list) /\ binding ∈ list := by
  unfold bindingsOf
  rw [List.mem_flatMap]
  constructor
  · rintro ⟨row, inTable, inside⟩
    rcases row with ⟨key, value⟩
    cases value with
    | none => cases inside
    | some list => exact ⟨key, list, Table.mem_entries.mp inTable, inside⟩
  · rintro ⟨key, list, found, inside⟩
    exact ⟨⟨key, some list⟩, Table.mem_entries.mpr found, inside⟩

theorem bindingsOf_insert {bindings : PortBindings} {key : Text} {added binding : PortBinding} :
    binding ∈ bindingsOf (bindings.insert key
      (some (((bindings.lookup key).getD none).getD [] ++ [added]))) <->
      binding ∈ bindingsOf bindings \/ binding = added := by
  simp only [mem_bindingsOf]
  constructor
  · rintro ⟨other, list, found, inside⟩
    by_cases same : other = key
    · rw [same, AList.lookup_insert] at found
      cases found
      rcases List.mem_append.mp inside with earlier | new
      · left
        cases before : bindings.lookup key with
        | none => rw [before] at earlier; cases earlier
        | some value =>
            cases value with
            | none => rw [before] at earlier; cases earlier
            | some list => exact ⟨key, list, before, by rw [before] at earlier; exact earlier⟩
      · exact Or.inr (List.mem_singleton.mp new)
    · rw [Table.lookup_insert_of_ne _ same] at found
      exact Or.inl ⟨other, list, found, inside⟩
  · rintro (⟨other, list, found, inside⟩ | same)
    · by_cases isKey : other = key
      · subst isKey
        refine ⟨other, _, AList.lookup_insert _, ?_⟩
        rw [found]
        exact List.mem_append_left _ inside
      · exact ⟨other, list, (Table.lookup_insert_of_ne _ isKey).trans found, inside⟩
    · exact ⟨key, _, AList.lookup_insert _, by simp [same]⟩

theorem mem_publishedPorts {bindings : PortBindings} {port : HostPort} :
    port ∈ publishedPorts bindings <-> Exists fun binding => binding ∈ bindingsOf bindings /\
      binding.hostPort.bind (fun text =>
        (Text.parseUnsigned 65535 text).bind (fun port => hostPortOf port)) = some port := by
  unfold publishedPorts
  exact List.mem_filterMap

theorem bindingTo_port {value : Nat} (small : value ≤ 65535) :
    (bindingTo value).hostPort.bind (fun text =>
      (Text.parseUnsigned 65535 text).bind (fun port => hostPortOf port)) = hostPortOf value := by
  simp only [bindingTo, Option.bind_some, Text.parseUnsigned_decimal small]

theorem publishedPorts_insert (bindings : PortBindings) (key : Text) {value : Nat} (small : value ≤ 65535)
    {port : HostPort} :
    port ∈ publishedPorts (bindings.insert key
      (some (((bindings.lookup key).getD none).getD [] ++ [bindingTo value]))) <->
      port ∈ publishedPorts bindings \/ hostPortOf value = some port := by
  simp only [mem_publishedPorts, bindingsOf_insert]
  constructor
  · rintro ⟨binding, earlier | new, named⟩
    · exact Or.inl ⟨binding, earlier, named⟩
    · rw [new, bindingTo_port small] at named
      exact Or.inr named
  · rintro (⟨binding, earlier, named⟩ | named)
    · exact ⟨binding, Or.inl earlier, named⟩
    · exact ⟨bindingTo value, Or.inr rfl, (bindingTo_port small).trans named⟩

theorem u16TryFrom_ok {value : Int} {number : Nat} (converted : u16TryFrom value = .ok number) :
    value = number /\ number ≤ 65535 := by
  unfold u16TryFrom at converted
  split at converted
  · cases converted
    omega
  · cases converted

/-- What a successful mapping publishes besides the earlier ports. -/
theorem addPortMapping_ports {available : Bool} {ports after : ServerPorts} {internalPort : Text}
    {hostPort : Option Int} (added : addPortMapping available ports internalPort hostPort = .ok after) :
    forall port, port ∈ publishedPorts after.bindings <->
      port ∈ publishedPorts ports.bindings \/ hostPort.bind hostPortOf = some port := by
  intro port
  unfold addPortMapping at added
  rcases bind_eq_ok.mp added with ⟨portKey, _, rest⟩
  cases hostPort with
  | none =>
      cases rest
      simp
  | some hostPort =>
      rcases bind_eq_ok.mp rest with ⟨number, converted, rest⟩
      rcases bind_eq_ok.mp rest with ⟨_, _, same⟩
      cases same
      rcases u16TryFrom_ok (withContext_eq_ok.mp converted) with ⟨same, small⟩
      rw [publishedPorts_insert _ _ small, Option.bind_some, same]

theorem addPortMapping_range {available : Bool} {ports after : ServerPorts} {internalPort : Text}
    {hostPort : Int} (added : addPortMapping available ports internalPort (some hostPort) = .ok after) :
    0 ≤ hostPort /\ hostPort ≤ 65535 := by
  unfold addPortMapping at added
  rcases bind_eq_ok.mp added with ⟨portKey, _, rest⟩
  rcases bind_eq_ok.mp rest with ⟨number, converted, _⟩
  rcases u16TryFrom_ok (withContext_eq_ok.mp converted) with ⟨same, small⟩
  omega

theorem addPortMappings_ports {available : Nat -> Bool} {mappings : List (Text × Int)} :
    forall {index : Nat} {ports after : ServerPorts},
      addPortMappings available index ports mappings = .ok after ->
      (forall mapping, mapping ∈ mappings -> 0 ≤ mapping.2 /\ mapping.2 ≤ 65535) /\
      forall port, port ∈ publishedPorts after.bindings <-> port ∈ publishedPorts ports.bindings \/
        Exists fun mapping => mapping ∈ mappings /\ hostPortOf mapping.2 = some port := by
  induction mappings with
  | nil =>
      intro index ports after added
      cases added
      refine ⟨fun mapping impossible => (by cases impossible), fun port => ?_⟩
      simp
  | cons mapping rest induction =>
      intro index ports after added
      rcases bind_eq_ok.mp added with ⟨middle, first, later⟩
      rcases induction later with ⟨ranges, published⟩
      refine ⟨?_, fun port => ?_⟩
      · intro other member
        rcases List.mem_cons.mp member with same | inRest
        · subst same
          exact addPortMapping_range first
        · exact ranges other inRest
      · rw [published port, addPortMapping_ports first port, or_assoc]
        simp only [List.mem_cons, Option.bind_some, exists_eq_or_imp]

/-- What a new container publishes: nothing, the reserved port, or its mappings. -/
theorem serverPorts_ports {available : Nat -> Bool} {spec : PublicationSpec} {hostPort : Int}
    {ports : ServerPorts} (built : serverPorts available spec hostPort = .ok ports) :
    (spec.exposePublicPort = true /\
      (forall mapping, mapping ∈ spec.portMappings -> 0 ≤ mapping.2 /\ mapping.2 ≤ 65535) /\
      forall mapping port, mapping ∈ spec.portMappings -> hostPortOf mapping.2 = some port ->
        port ∈ publishedPorts ports.bindings) /\
      (forall port, port ∈ publishedPorts ports.bindings ->
        Exists fun mapping => mapping ∈ spec.portMappings /\ hostPortOf mapping.2 = some port) \/
    (Not (spec.exposePublicPort = true /\ Not (spec.portMappings = [])) /\
      forall port, port ∈ publishedPorts ports.bindings -> hostPortOf hostPort = some port) := by
  unfold serverPorts at built
  split at built
  · next mapped =>
      simp only [Bool.and_eq_true, Bool.not_eq_true', List.isEmpty_eq_false_iff] at mapped
      rcases addPortMappings_ports built with ⟨ranges, published⟩
      refine Or.inl ⟨⟨mapped.1, ranges, fun mapping port member named => ?_⟩, fun port member => ?_⟩
      · exact (published port).mpr (Or.inr ⟨mapping, member, named⟩)
      · rcases (published port).mp member with impossible | found
        · cases impossible
        · exact found
  · next plain =>
      refine Or.inr ⟨fun both => plain (by simpa using both), ?_⟩
      rcases bind_eq_ok.mp built with ⟨internalPort, _, rest⟩
      cases internalPort with
      | none =>
          cases rest
          intro port impossible
          cases impossible
      | some internalPort =>
          intro port member
          rcases (addPortMapping_ports rest port).mp member with impossible | named
          · cases impossible
          · split at named
            · exact named
            · cases named

/-- Mappings that pass keep the earlier bindings. -/
theorem validateMappings_keeps {mappings : List (Text × Int)} :
    forall {ports after : ServerPorts} {seen : List Int}, validateMappings ports seen mappings = .ok after ->
      forall port, port ∈ publishedPorts ports.bindings -> port ∈ publishedPorts after.bindings := by
  induction mappings with
  | nil =>
      intro ports after seen passed port member
      cases passed
      exact member
  | cons mapping rest induction =>
      intro ports after seen passed port member
      rcases bind_eq_ok.mp passed with ⟨_, inRange, passed⟩
      rcases bind_eq_ok.mp passed with ⟨key, _, passed⟩
      rcases bind_eq_ok.mp passed with ⟨_, unique, passed⟩
      refine induction passed port ?_
      have absent : ports.bindings.lookup key = none := by
        simpa [refuseIf, Option.isSome_iff_ne_none] using unique
      have small : mapping.2.toNat ≤ 65535 := by
        simp only [refuseIf] at inRange
        split at inRange
        · cases inRange
        · next valid =>
            simp only [Bool.or_eq_true, Bool.not_eq_true', decide_eq_false_iff_not, not_or, not_not] at valid
            omega
      have grown := (publishedPorts_insert ports.bindings key small).mpr (Or.inl member)
      rw [absent] at grown
      exact grown

/-- An update with valid mappings publishes some port. -/
theorem validatedPortBindings_nonempty {mappings : List (Text × Int)} {ports : ServerPorts}
    (valid : validatedPortBindings mappings = .ok ports) : Not (publishedPorts ports.bindings = []) := by
  unfold validatedPortBindings at valid
  rcases bind_eq_ok.mp valid with ⟨_, counted, passed⟩
  cases mappings with
  | nil => cases counted
  | cons mapping rest =>
      rcases bind_eq_ok.mp passed with ⟨_, inRange, passed⟩
      rcases bind_eq_ok.mp passed with ⟨key, _, passed⟩
      rcases bind_eq_ok.mp passed with ⟨_, _, passed⟩
      have range : 1 ≤ mapping.2 /\ mapping.2 ≤ 65535 := by
        simp only [refuseIf] at inRange
        split at inRange
        · cases inRange
        · next valid =>
            simp only [Bool.or_eq_true, Bool.not_eq_true', decide_eq_false_iff_not, not_or, not_not] at valid
            exact valid.1
      have named : hostPortOf (mapping.2.toNat : Int) = some ⟨mapping.2.toNat, by omega⟩ :=
        hostPortOf_port ⟨mapping.2.toNat, by omega⟩
      have small : mapping.2.toNat ≤ 65535 := by omega
      have grown := (publishedPorts_insert noPorts.bindings key small).mpr (Or.inr named)
      have kept := validateMappings_keeps passed _ grown
      intro empty
      rw [empty] at kept
      cases kept

/-! ## A call and its request -/

/-- How a call and its request for a port go together. -/
def Fits : CallPhase -> RequestPhase -> Prop
  | .idle, request => request = .idle
  | .updating requested, request => request = .idle /\ Not (publishedPorts requested = [])
  | .inspected requested _, request => request = .idle /\ Not (publishedPorts requested = [])
  | .publishing none bindings, request => request = .idle /\ Not (publishedPorts bindings = [])
  | .created none _, request => request = .idle
  | .creating _, request => forall hostPort port, request = .reserved hostPort port -> port = hostPortOf hostPort
  | .prepared _ hostPort, request => request = .reserved hostPort (hostPortOf hostPort)
  | .publishing (some hostPort) _, request => request = .reserved hostPort (hostPortOf hostPort)
  | .created (some hostPort) _, request => request = .reserved hostPort (hostPortOf hostPort)
  | .ended _, _ => True

theorem advance_reserved {reserved : Finset HostPort} {phase : RequestPhase} {event : RequestEvent}
    (named : forall hostPort port, phase = .reserved hostPort port -> port = hostPortOf hostPort) :
    forall hostPort port, (advance reserved phase event).2 = .reserved hostPort port ->
      port = hostPortOf hostPort := by
  intro hostPort port
  have notAttempt (left : Nat) (draw : Fin 1000) : Not (nextAttempt left draw = .reserved hostPort port) := by
    cases left <;> nofun
  have notEntered (spec : PortRequest) (available : Bool) (draw : Fin 1000) :
      Not (enterRequest spec available draw = .reserved hostPort port) := by
    unfold enterRequest
    split
    · nofun
    · split
      · split
        · nofun
        · split <;> nofun
      · exact notAttempt 50 draw
  unfold advance
  split
  · nofun
  · exact fun entered => absurd entered (notEntered _ _ _)
  · split <;> nofun
  · nofun
  · exact fun attempt => absurd attempt (notAttempt _ _)
  · split
    · exact fun attempt => absurd attempt (notAttempt _ _)
    · nofun
  · intro made
    cases made
    rfl
  · nofun
  · nofun
  · split <;> nofun
  · nofun
  · nofun
  · nofun
  · nofun
  · nofun
  · exact named hostPort port

/-- Only a creation that waits, or a call that is over, lets its request go on. -/
theorem ownEvent_phase {phase : CallPhase} {event : RequestEvent} (own : ownEvent phase event = true) :
    (Exists fun spec => phase = .creating spec) \/ Exists fun failure => phase = .ended failure := by
  unfold ownEvent at own
  split at own
  · next spec _ _ => exact Or.inl ⟨spec, rfl⟩
  · next spec _ => exact Or.inl ⟨spec, rfl⟩
  · next spec _ _ => exact Or.inl ⟨spec, rfl⟩
  · next spec => exact Or.inl ⟨spec, rfl⟩
  · next failure _ => exact Or.inr ⟨failure, rfl⟩
  · next failure => exact Or.inr ⟨failure, rfl⟩
  · cases own

/-- A call that has moved leaves the requests of other calls alone, and goes
together with its own. -/
structure Moved (registry after : PortRegistry) (call : Nat) (later : CallPhase) : Prop where
  exact_ : after.Exact
  others : forall other, Not (other = call) -> after.request other = registry.request other
  fits : Fits later (after.request call)

namespace Moved

variable {registry : PortRegistry} {call : Nat}

theorem stay (exact_ : registry.Exact) {later : CallPhase} (fits : Fits later (registry.request call)) :
    Moved registry registry call later :=
  ⟨exact_, fun _ _ => rfl, fits⟩

theorem event (exact_ : registry.Exact) (event : RequestEvent) {later : CallPhase}
    (fits : Fits later (advance registry.reserved (registry.request call) event).2) :
    Moved registry (registry.step (call, event)) call later := by
  refine ⟨exact_.step (call, event), fun other different => ?_, ?_⟩
  · exact Function.update_of_ne different ..
  · rw [registry.step_request (call, event)]
    exact fits

theorem finish (exact_ : registry.Exact) (hostPort : Option Int) (failure : Option Failure) :
    Moved registry (endCall registry call hostPort failure).1 call
      (endCall registry call hostPort failure).2 := by
  unfold endCall
  split
  · exact event exact_ .drop trivial
  · exact stay exact_ trivial

end Moved

theorem moved {registry : PortRegistry} {call : Nat} {phase : CallPhase} (exact_ : registry.Exact)
    (fits : Fits phase (registry.request call)) (event : CallEvent) :
    Moved registry (advanceCall registry call phase event).1 call
      (advanceCall registry call phase event).2 := by
  unfold advanceCall
  split
  · next spec =>
      refine Moved.event exact_ _ ?_
      have isIdle : registry.request call = .idle := fits
      rw [isIdle]
      nofun
  · split
    · next own =>
        refine Moved.event exact_ _ ?_
        rcases ownEvent_phase own with ⟨spec, same⟩ | ⟨failure, same⟩
        · rw [same] at fits ⊢
          exact advance_reserved fits
        · rw [same]
          trivial
    · exact Moved.stay exact_ fits
  · next spec =>
      split
      · next hostPort port reserved =>
          refine Moved.stay exact_ ?_
          change registry.request call = _
          rw [reserved, fits hostPort port reserved]
      · exact Moved.stay exact_ trivial
      · exact Moved.stay exact_ fits
  · next spec =>
      split
      · exact Moved.stay exact_ fits
      · exact Moved.stay exact_ fits
      · exact Moved.event exact_ _ trivial
  · split
    · exact Moved.stay exact_ fits
    · exact Moved.finish exact_ _ _
  · exact Moved.finish exact_ _ _
  · split
    · next ports valid => exact Moved.stay exact_ ⟨fits, validatedPortBindings_nonempty valid⟩
    · exact Moved.stay exact_ trivial
  · exact Moved.stay exact_ fits
  · exact Moved.stay exact_ trivial
  · split
    · exact Moved.stay exact_ fits
    · exact Moved.stay exact_ trivial
  · next hostPort bindings =>
      refine Moved.stay exact_ ?_
      cases hostPort with
      | none => exact fits.1
      | some hostPort => exact fits
  · exact Moved.finish exact_ _ _
  · exact Moved.finish exact_ _ _
  · exact Moved.finish exact_ _ _
  · exact Moved.finish exact_ _ _
  · exact Moved.stay exact_ fits

namespace Publications

/-- Every call goes together with its request. -/
structure Linked (state : Publications) : Prop where
  exact_ : state.registry.Exact
  fits : forall call, Fits (state.call call) (state.registry.request call)

theorem linked_start : start.Linked where
  exact_ := PortRegistry.exact_start
  fits _ := rfl

theorem step_call (state : Publications) (action : Nat × CallEvent) :
    (state.step action).call action.1 =
      (advanceCall state.registry action.1 (state.call action.1) action.2).2 :=
  Function.update_self ..

theorem step_call_other (state : Publications) (action : Nat × CallEvent) {other : Nat}
    (different : Not (other = action.1)) : (state.step action).call other = state.call other :=
  Function.update_of_ne different ..

theorem Linked.step {state : Publications} (linked : state.Linked) (action : Nat × CallEvent) :
    (state.step action).Linked := by
  have there := moved linked.exact_ (linked.fits action.1) action.2
  refine ⟨there.exact_, fun call => ?_⟩
  by_cases same : call = action.1
  · rw [same, step_call]
    exact there.fits
  · rw [step_call_other state action same]
    change Fits _ ((advanceCall state.registry action.1 (state.call action.1) action.2).1.request call)
    rw [there.others call same]
    exact linked.fits call

theorem linked_reach (run : List (Nat × CallEvent)) : (Machine.reach step start run).Linked :=
  Machine.invariant (fun _ action linked => linked.step action) linked_start run

/-- Every port about to be published is held by the reservation of its call. -/
def Held (state : Publications) : Prop :=
  forall call port, port ∈ (state.call call).window -> (state.registry.request call).live = some port

theorem Linked.publishesAlone_iff_held {state : Publications} (linked : state.Linked) :
    state.PublishesAlone <-> state.Held := by
  constructor
  · exact fun alone => alone.held
  · intro held
    have holds {call : Nat} {port : HostPort} (member : port ∈ (state.call call).window) :
        state.registry.holder call = some port := holds_eq_some.mpr (Or.inl (held call port member))
    refine ⟨held, fun call port member other other_holds => ?_, fun first second port one two => ?_⟩
    · exact linked.exact_.alone other call port other_holds (holds member)
    · exact linked.exact_.alone first second port (holds one) (holds two)

end Publications

/-- A call enters its window by building its container or by a check. -/
theorem window_entered {registry : PortRegistry} {call : Nat} {phase : CallPhase} {event : CallEvent}
    {port : HostPort} (inside : port ∈ (advanceCall registry call phase event).2.window) :
    ((advanceCall registry call phase event).1 = registry) /\
      (port ∈ phase.window \/
      (Exists fun spec => Exists fun hostPort => Exists fun available => Exists fun ports =>
        phase = .prepared spec hostPort /\ event = .build available /\
          serverPorts available spec hostPort = .ok ports /\ port ∈ publishedPorts ports.bindings) \/
      Exists fun requested => Exists fun current => Exists fun available =>
        phase = .inspected requested current /\ event = .check available /\
          ensureBindingsAvailable (isReserved registry.reserved) available (boundHostPorts current)
            (bindingsOf requested) = .ok () /\ port ∈ publishedPorts requested) := by
  have notEnded (hostPort : Option Int) (failure : Option Failure) :
      Not (port ∈ (endCall registry call hostPort failure).2.window) := by
    cases hostPort <;> exact List.not_mem_nil
  unfold advanceCall at inside ⊢
  split at inside
  · cases inside
  · split at inside
    · next own =>
        rcases ownEvent_phase own with ⟨spec, same⟩ | ⟨failure, same⟩ <;> rw [same] at inside <;> cases inside
    · next own => exact ⟨by rw [if_neg own], Or.inl inside⟩
  · split at inside <;> cases inside
  · split at inside <;> cases inside
  · next spec hostPort available =>
      split at inside
      · next ports built =>
          exact ⟨rfl, Or.inr (Or.inl ⟨spec, hostPort, available, ports, rfl, rfl, built, inside⟩)⟩
      · exact absurd inside (notEnded _ _)
  · exact absurd inside (notEnded _ _)
  · split at inside <;> cases inside
  · cases inside
  · cases inside
  · next requested current available =>
      split at inside
      · next passed =>
          exact ⟨rfl, Or.inr (Or.inr ⟨requested, current, available, rfl, rfl, passed, inside⟩)⟩
      · cases inside
  · cases inside
  · exact absurd inside (notEnded _ _)
  · exact absurd inside (notEnded _ _)
  · exact absurd inside (notEnded _ _)
  · exact absurd inside (notEnded _ _)
  · exact ⟨rfl, Or.inl inside⟩

namespace Publications

/-- The reservation of a creation holds the port of its request. -/
theorem Linked.live_of_prepared {state : Publications} (linked : state.Linked) {call : Nat}
    {spec : PublicationSpec} {hostPort : Int} (phase : state.call call = .prepared spec hostPort) :
    (state.registry.request call).live = hostPortOf hostPort := by
  have fits := linked.fits call
  rw [phase] at fits
  have reserved : state.registry.request call = .reserved hostPort (hostPortOf hostPort) := fits
  rw [reserved]
  rfl

theorem Linked.held_step {state : Publications} (linked : state.Linked) (held : state.Held)
    {action : Nat × CallEvent} (reserving : Reserving state action) : (state.step action).Held := by
  intro call port inside
  by_cases same : call = action.1
  · subst same
    rw [step_call] at inside
    rcases window_entered inside with ⟨sameRegistry, entered⟩
    change ((advanceCall state.registry action.1 (state.call action.1) action.2).1.request action.1).live = _
    rw [sameRegistry]
    rcases entered with before | ⟨spec, hostPort, available, ports, phase, event, built, published⟩ |
        ⟨requested, current, available, phase, event, passed, _⟩
    · exact held action.1 port before
    · rw [linked.live_of_prepared phase]
      simp only [Reserving, phase, event] at reserving
      rcases serverPorts_ports built with ⟨⟨exposed, _, _⟩, onlyMapped⟩ | ⟨_, onlyReserved⟩
      · rcases onlyMapped port published with ⟨mapping, member, named⟩
        rcases reserving exposed (by rw [built]; rfl) mapping member with zero | isReserved
        · rw [zero] at named
          cases named
        · exact isReserved ▸ named
      · exact onlyReserved port published
    · simp only [Reserving, phase, event, passed] at reserving
      cases reserving
  · rw [step_call_other state action same] at inside
    have there := moved linked.exact_ (linked.fits action.1) action.2
    change ((advanceCall state.registry action.1 (state.call action.1) action.2).1.request call).live = _
    rw [there.others call same]
    exact held call port inside

theorem Linked.reserving_of_held {state : Publications} (linked : state.Linked)
    {action : Nat × CallEvent} (held : (state.step action).Held) : Reserving state action := by
  have here (port : HostPort) := held action.1 port
  rw [step_call] at here
  change forall port : HostPort, port ∈ _ ->
    ((advanceCall state.registry action.1 (state.call action.1) action.2).1.request action.1).live = _ at here
  unfold Reserving
  split
  · next spec hostPort available phase event =>
      intro exposed succeeds mapping member
      cases built : serverPorts available spec hostPort with
      | error failure =>
          rw [built] at succeeds
          cases succeeds
      | ok ports =>
          rw [phase, event] at here
          simp only [advanceCall, built] at here
          rw [linked.live_of_prepared phase] at here
          rcases serverPorts_ports built with ⟨⟨_, ranges, published⟩, _⟩ | ⟨plain, _⟩
          · rcases ranges mapping member with ⟨low, high⟩
            by_cases zero : mapping.2 = 0
            · exact Or.inl zero
            · have named : hostPortOf mapping.2 = some ⟨mapping.2.toNat, by omega⟩ := by
                unfold hostPortOf
                rw [dif_pos (by omega)]
              have reserved := eq_of_hostPortOf (here _ (published mapping _ member named))
              refine Or.inr ?_
              rw [reserved]
              change mapping.2 = (mapping.2.toNat : Int)
              omega
          · exact absurd ⟨exposed, List.ne_nil_of_mem member⟩ plain
  · next requested current available phase event =>
      cases passed : ensureBindingsAvailable (isReserved state.registry.reserved) available
          (boundHostPorts current) (bindingsOf requested) with
      | error failure => rfl
      | ok done =>
          cases done
          have fits := linked.fits action.1
          rw [phase] at fits
          rw [phase, event] at here
          simp only [advanceCall, passed] at here
          cases published : publishedPorts requested with
          | nil => exact absurd published fits.2
          | cons port rest =>
              have impossible := here port (by rw [CallPhase.window, published]; exact List.mem_cons_self)
              rw [fits.1] at impossible
              cases impossible
  · trivial

/-- In every state of a run each port that is about to be published is held by
the reservation of its call alone, if and only if no step goes ahead with a
mapping to a port that is not the reserved one and no update passes its check. -/
theorem publishesAlone_iff (run : List (Nat × CallEvent)) :
    (forall front back, run = front ++ back -> (Machine.reach step start front).PublishesAlone) <->
      Machine.Along step Reserving start run := by
  constructor
  · intro always
    apply Machine.along_of_reach
    intro front action back split
    have linked := linked_reach front
    have after : Machine.reach step start (front ++ [action]) =
        (Machine.reach step start front).step action := by
      rw [Machine.reach_append]
      rfl
    have alone := always (front ++ [action]) back (by rw [split]; simp)
    rw [after] at alone
    exact linked.reserving_of_held alone.held
  · intro along front back split
    rw [split, Machine.along_append] at along
    have atStart : start.Held := by
      intro call port impossible
      cases impossible
    have keeps (state : Publications) (action : Nat × CallEvent) (reserving : Reserving state action)
        (both : state.Linked /\ state.Held) : (state.step action).Linked /\ (state.step action).Held :=
      ⟨both.1.step action, both.1.held_step both.2 reserving⟩
    have both := Machine.along_invariant keeps ⟨linked_start, atStart⟩ along.1
    exact both.1.publishesAlone_iff_held.mpr both.2

end Publications

/-- A server on one mapped port, with another one reserved for it. -/
def mappedSpec (hostPort : Int) : PublicationSpec where
  exposePublicPort := true
  hostPort := hostPort
  internalPort := []
  env := []
  portMappings := [("25565".toList, 30000)]

/-- A creation that comes to publish its mapping. -/
def creationOf (call : Nat) (hostPort : Int) : List (Nat × CallEvent) :=
  [(call, .create (mappedSpec hostPort)), (call, .request (.enter true 0)), (call, .request (.lock 0)),
    (call, .request .construct), (call, .prepare), (call, .build (fun _ => true))]

/-- Two creations which map one host port are both about to publish it. -/
theorem two_creations_on_one_port :
    Not (forall (run front back : List (Nat × CallEvent)), run = front ++ back ->
      (Machine.reach Publications.step Publications.start front).PublishesAlone) := by
  intro claimed
  have alone := claimed (creationOf 0 30001 ++ creationOf 1 30002) _ [] (List.append_nil _).symm
  have first : (⟨30000, by decide⟩ : HostPort) ∈ ((Machine.reach Publications.step Publications.start
      (creationOf 0 30001 ++ creationOf 1 30002)).call 0).window := by decide +kernel
  have second : (⟨30000, by decide⟩ : HostPort) ∈ ((Machine.reach Publications.step Publications.start
      (creationOf 0 30001 ++ creationOf 1 30002)).call 1).window := by decide +kernel
  have same := alone.apart 0 1 _ first second
  cases same

end Runtime
end Agapornis
