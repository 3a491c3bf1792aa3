import Agapornis.Foundations.Numerals
import Agapornis.Foundations.Table
import Agapornis.Core.Failure

namespace Agapornis
namespace Runtime

open Foundations Agapornis.Core

/-!
# Host ports and container ports

A creation publishes the ports of its explicit mappings or the one internal
port of the server; an update of the ports publishes the mappings it is given.
Both end in bindings, a table from container ports to the host ports which
Docker forwards to them.
-/

/-- A port a listener can be bound to, zero being the wildcard. -/
abbrev HostPort := { port : Nat // 0 < port /\ port ≤ 65535 }

/-- The port of a number, if it is one. -/
def hostPortOf (value : Int) : Option HostPort :=
  if valid : 0 < value.toNat /\ value.toNat ≤ 65535 then some ⟨value.toNat, valid⟩ else none

theorem hostPortOf_port (port : HostPort) : hostPortOf (port.val : Int) = some port := by
  unfold hostPortOf
  rw [dif_pos (by rw [Int.toNat_natCast]; exact port.property)]
  simp only [Int.toNat_natCast]

theorem eq_of_hostPortOf {value : Int} {port : HostPort} (found : hostPortOf value = some port) :
    value = port.val := by
  unfold hostPortOf at found
  split at found
  · next valid =>
      cases found
      change value = (value.toNat : Int)
      omega
  · cases found

/-- A number as an unsigned one of sixteen bits. -/
def u16TryFrom (value : Int) : Except Failure Nat :=
  if 0 ≤ value /\ value ≤ 65535 then .ok value.toNat
  else .error (.bail "out of range integral type conversion attempted")

def parseU16 (text : Text) : Except Failure Nat :=
  match Text.parseUnsigned 65535 text with
  | some value => .ok value
  | none => .error (.bail (Text.parseError text))

structure PortBinding where
  hostIp : Option Text
  hostPort : Option Text
  deriving DecidableEq, Repr

abbrev PortBindings := Table Text (Option (List PortBinding))

/-- A binding to a host port on all interfaces. -/
def bindingTo (port : Nat) : PortBinding where
  hostIp := some "0.0.0.0".toList
  hostPort := some (Text.decimal port)

/-- All bindings of a table. -/
def bindingsOf (bindings : PortBindings) : List PortBinding :=
  bindings.entries.flatMap (fun row => row.2.getD [])

/-- The host ports which bindings forward; Docker chooses one for a zero. -/
def publishedPorts (bindings : PortBindings) : List HostPort :=
  (bindingsOf bindings).filterMap (fun binding =>
    binding.hostPort.bind (fun text => (Text.parseUnsigned 65535 text).bind (fun port => hostPortOf port)))

/-- Check that a port can be bound. -/
def ensurePort (available : Bool) (port : Nat) : Except Failure Unit :=
  if available then .ok ()
  else .error (.context s!"Requested host port {port} is already in use." (.io .other))

def normalizeContainerPort (port : Text) : Except Failure Text := do
  let port := Text.trim port
  refuseIf port.isEmpty "container port cannot be empty"
  let parts := (Text.rsplitOnce '/' port).getD (port, "tcp".toList)
  let number <- withContext s!"invalid container port: {String.ofList port}" (parseU16 parts.1)
  let protocol := parts.2.map Char.toLower
  refuseIf (decide (protocol ∉ ["tcp".toList, "udp".toList, "sctp".toList]))
    s!"unsupported port protocol: {String.ofList protocol}"
  .ok (Text.decimal number ++ '/' :: protocol)

/-- The ports of a container that is being put together. -/
structure ServerPorts where
  exposed : List Text
  bindings : PortBindings

def addPortMapping (available : Bool) (ports : ServerPorts) (internalPort : Text)
    (hostPort : Option Int) : Except Failure ServerPorts := do
  let portKey <- normalizeContainerPort internalPort
  let exposed := if portKey ∈ ports.exposed then ports.exposed else ports.exposed ++ [portKey]
  match hostPort with
  | none => .ok { ports with exposed := exposed }
  | some hostPort =>
      let port <- withContext "mapped host port is outside the valid range" (u16TryFrom hostPort)
      ensurePort available port
      let earlier := ((ports.bindings.lookup portKey).getD none).getD []
      .ok ⟨exposed, ports.bindings.insert portKey (some (earlier ++ [bindingTo port]))⟩

/-- Add one mapping after the other; the probe answers for each of them. -/
def addPortMappings (available : Nat -> Bool) :
    Nat -> ServerPorts -> List (Text × Int) -> Except Failure ServerPorts
  | _, ports, [] => .ok ports
  | index, ports, mapping :: rest => do
      let after <- addPortMapping (available index) ports mapping.1 (some mapping.2)
      addPortMappings available (index + 1) after rest

def databasePort (env : List Text) : Option Nat :=
  env.findSome? (fun entry =>
    (Text.stripPrefix "AGAPORNIS_DATABASE_PORT=".toList entry).bind (Text.parseUnsigned 65535))

def effectiveInternalPort (internalPort : Text) (env : List Text) : Except Failure (Option Text) :=
  match databasePort env with
  | some port => .ok (some (Text.decimal port ++ "/tcp".toList))
  | none =>
      let value := Text.trim internalPort
      if value.isEmpty then .ok none
      else do
        let parts := (Text.splitOnce '/' value).getD (value, "tcp".toList)
        let port <- withContext s!"Invalid internal port '{String.ofList internalPort}'." (parseU16 parts.1)
        refuseIf (decide (parts.2 ∉ ["tcp".toList, "udp".toList, "sctp".toList]))
          s!"Invalid internal port protocol '{String.ofList parts.2}'."
        .ok (some (Text.decimal port ++ '/' :: parts.2))

/-- The part of a creation request that is about ports. -/
structure PublicationSpec where
  exposePublicPort : Bool
  hostPort : Int
  internalPort : Text
  env : List Text
  portMappings : List (Text × Int)
  deriving DecidableEq, Repr

def noPorts : ServerPorts where
  exposed := []
  bindings := ∅

/-- The ports of a new container, the reserved host port among them where the
server has no mappings of its own. -/
def serverPorts (available : Nat -> Bool) (spec : PublicationSpec) (hostPort : Int) :
    Except Failure ServerPorts :=
  if spec.exposePublicPort && !spec.portMappings.isEmpty then
    addPortMappings available 0 noPorts spec.portMappings
  else do
    match <- effectiveInternalPort spec.internalPort spec.env with
    | none => .ok noPorts
    | some internalPort =>
        addPortMapping (available 0) noPorts internalPort
          (if spec.exposePublicPort then some hostPort else none)

/-! ## Updates of the ports -/

/-- The key of an internal port, and what is wrong with it otherwise. -/
def mappedPort (internal : Text) : Except Failure Text := do
  let normalized := if internal.contains '/' then internal else internal ++ "/tcp".toList
  match Text.splitOnce '/' normalized with
  | none => .error (.bail "internal port must use the form port/protocol")
  | some (number, protocol) =>
      let port <- withContext "internal port is not a valid number" (parseU16 number)
      refuseIf (port == 0 || decide (protocol ∉ ["tcp".toList, "udp".toList]))
        "internal ports must be between 1 and 65535 and use tcp or udp"
      .ok (Text.decimal port ++ '/' :: protocol)

/-- The loop over the mappings of an update, with the host ports seen so far. -/
def validateMappings :
    ServerPorts -> List Int -> List (Text × Int) -> Except Failure ServerPorts
  | ports, _, [] => .ok ports
  | ports, seen, (internal, hostPort) :: rest => do
      refuseIf (!decide (1 ≤ hostPort /\ hostPort ≤ 65535) || seen.contains hostPort)
        "host ports must be unique numbers between 1 and 65535"
      let key <- mappedPort internal
      refuseIf (ports.bindings.lookup key).isSome "internal port mappings must be unique"
      validateMappings ⟨ports.exposed ++ [key], ports.bindings.insert key (some [bindingTo hostPort.toNat])⟩
        (hostPort :: seen) rest

def validatedPortBindings (mappings : List (Text × Int)) : Except Failure ServerPorts := do
  refuseIf (mappings.isEmpty || decide (32 < mappings.length))
    "a server must have between 1 and 32 port mappings"
  validateMappings noPorts [] mappings

/-- The host ports which the bindings of a container name. -/
def boundHostPorts (bindings : PortBindings) : List Nat :=
  (bindingsOf bindings).filterMap (fun binding =>
    binding.hostPort.bind (fun text => Text.parseUnsigned 65535 text))

/-- Look at one requested binding after the other, with the lock held. -/
def ensureBindingsAvailable (reserved : Nat -> Bool) (available : Nat -> Bool) (current : List Nat) :
    List PortBinding -> Except Failure Unit
  | [] => .ok ()
  | binding :: rest => do
      match binding.hostPort with
      | none => .error (.bail "requested host port is missing")
      | some text =>
          let port <- withContext "requested host port is invalid" (parseU16 text)
          refuseIf (!current.contains port && (reserved port || !available port))
            s!"requested host port {port} is already in use"
          ensureBindingsAvailable reserved available current rest

end Runtime
end Agapornis
