import Agapornis.Core.Paths
import Agapornis.Runtime.Containers

namespace Agapornis
namespace Runtime

open Foundations Agapornis.Core

/-!
# Reconfiguration of a server

A container cannot be changed, so it is replaced by another one: it is stopped
if it runs, renamed, and removed when the new container is there.  When the
new one cannot be created the old one gets its name back, but nothing starts
it again, and the descriptor of the configuration files has been written long
before.
-/

/-! ## Operations -/

abbrev Containers := Text -> Option Container

namespace Containers

def rename (containers : Containers) (old new : Text) : Containers :=
  fun name => if name = new then containers old else if name = old then none else containers name

def put (containers : Containers) (name : Text) (container : Option Container) : Containers :=
  fun other => if other = name then container else containers other

def setRunning (containers : Containers) (name : Text) (running : Bool) : Containers :=
  containers.put name ((containers name).map (fun container => { container with running := running }))

@[simp] theorem put_self (containers : Containers) (name : Text) (container : Option Container) :
    containers.put name container name = container := if_pos rfl

theorem put_other (containers : Containers) {name other : Text} (container : Option Container)
    (different : Not (other = name)) : containers.put name container other = containers other :=
  if_neg different

@[simp] theorem rename_new (containers : Containers) (old new : Text) :
    containers.rename old new new = containers old := if_pos rfl

end Containers

/-- The containers, and the descriptor of the configuration files of a server. -/
structure ServerState where
  containers : Containers
  descriptor : Option Text

/-- How the calls of a reconfiguration end.  A write that fails leaves anything
in the file, and a stop or a start that fails leaves the container running or
not. -/
structure ReconfigurationCourse where
  startup : Option Failure
  inspect : Option String
  createDir : Option Failure
  write : Option (Failure × Option Text)
  reserved : Nat -> Bool
  available : Nat -> Bool
  stop : Option (Failure × Bool)
  uuid : Text
  rename : Option String
  create : Option String
  rollback : Option String
  remove : Option String
  start : Option (Failure × Bool)
  /-- The environment of the image when the new container is created. -/
  image : List Text

def serverIdLabel : Text :=
  "agapornis.server_id".toList

def stopCommandLabel : Text :=
  "agapornis.stop_command".toList

def startupDoneLabel : Text :=
  "agapornis.startup_done".toList

/-- A call that succeeds unless it has a fault. -/
def faultless (fault : Option Failure) : Except Failure Unit :=
  match fault with
  | none => .ok ()
  | some failure => .error failure

def staleName (course : ReconfigurationCourse) (id : Text) : Text :=
  id ++ "-stale-".toList ++ course.uuid

def replaceStaleContainer (course : ReconfigurationCourse) (id : Text) (body : ContainerBody)
    (containers : Containers) : Containers × Except Failure Unit :=
  let stale := staleName course id
  let name := String.ofList id
  match course.rename with
  | some error => (containers, .error (.context s!"rename stale Docker container {name}" (.bail error)))
  | none =>
      let renamed := containers.rename id stale
      match course.create, course.rollback with
      | some error, none =>
          (renamed.rename stale id, .error (.context s!"recreate Docker container {name}" (.bail error)))
      | some error, some rollbackError =>
          (renamed, .error (.context
            s!"recreate Docker container {name}; restoring its old name also failed: {rollbackError}"
            (.bail error)))
      | none, _ =>
          let created := renamed.put id (some (body.created course.image))
          (if course.remove = none then created.put stale none else created, .ok ())

/-- Stop a server that is running. -/
def stopRunning (course : ReconfigurationCourse) (id : Text) (wasRunning : Bool)
    (containers : Containers) : Containers × Except Failure Unit :=
  if wasRunning then
    match course.stop with
    | none => (containers.setRunning id false, .ok ())
    | some (failure, running) => (containers.setRunning id running, .error failure)
  else (containers, .ok ())

/-- Start a server that was running before. -/
def startStopped (course : ReconfigurationCourse) (id : Text) (wasRunning : Bool)
    (containers : Containers) : Containers × Except Failure Unit :=
  if wasRunning then
    match course.start with
    | none => (containers.setRunning id true, .ok ())
    | some (failure, running) => (containers.setRunning id running, .error failure)
  else (containers, .ok ())

/-- The stop, the replacement and the start at the end of a reconfiguration. -/
def replaceServer (course : ReconfigurationCourse) (id : Text) (wasRunning : Bool) (body : ContainerBody)
    (containers : Containers) : Containers × Except Failure Unit :=
  let stopped := stopRunning course id wasRunning containers
  match stopped.2 with
  | .error failure => (stopped.1, .error failure)
  | .ok () =>
      let replaced := replaceStaleContainer course id body stopped.1
      match replaced.2 with
      | .error failure => (replaced.1, .error failure)
      | .ok () => startStopped course id wasRunning replaced.1

/-- The configuration and the labels of a container that belongs to the server. -/
def ownedConfig (what : String) (id : Text) (container : Container) :
    Except Failure (ContainerConfig × Table Text Text) :=
  match container.config with
  | none => .error (.bail "Docker container has no reusable configuration")
  | some config =>
      match config.labels with
      | none => .error (.bail s!"refusing to update {what} without Agapornis ownership labels")
      | some labels =>
          if labels.lookup serverIdLabel = some id then .ok (config, labels)
          else .error (.bail
            s!"refusing to update {what} on a container not owned by this Agapornis server")

/-- Inspect a container of the server. -/
def inspectContainer (course : ReconfigurationCourse) (id : Text) (containers : Containers) :
    Except Failure Container :=
  let name := String.ofList id
  match course.inspect, containers id with
  | some error, _ => .error (.context s!"inspect Docker container {name}" (.bail error))
  | none, none => .error (.context s!"inspect Docker container {name}" (.bail "No such container"))
  | none, some container => .ok container

structure ConfigurationRequest where
  env : List Text
  startupCommand : Text
  stopCommand : Text
  startupDone : Text
  configFilesJson : Text

/-- The part of an update of the configuration before it writes the descriptor. -/
def prepareConfiguration (course : ReconfigurationCourse) (id : Text) (containers : Containers) :
    Except Failure (Container × ContainerConfig × Table Text Text) := do
  Paths.validateId id
  faultless course.startup
  let container <- inspectContainer course id containers
  let (config, labels) <- ownedConfig "configuration" id container
  faultless course.createDir
  .ok (container, config, labels)

/-- Whether the container differs from what is asked for. -/
def configurationChanged (request : ConfigurationRequest) (config : ContainerConfig)
    (labels : Table Text Text) (hostConfig : Option HostConfig) : Bool :=
  let merged := mergedEnvironment config.env (runtimeEnvironment request.env)
  decide (Not (normalizedEnvironment config.env = normalizedEnvironment (some merged))) ||
    decide (Not (config.cmd = runtimeServerCommand request.startupCommand)) ||
    !runtimeTmpfsReady hostConfig merged ||
    decide (Not ((labels.lookup stopCommandLabel).getD [] = request.stopCommand)) ||
    decide (Not ((labels.lookup startupDoneLabel).getD [] = request.startupDone))

/-- The configuration that is asked for, in place of the present one. -/
def requestedConfig (request : ConfigurationRequest) (config : ContainerConfig)
    (labels : Table Text Text) : ContainerConfig :=
  let merged := mergedEnvironment config.env (runtimeEnvironment request.env)
  { config with
    env := if merged.isEmpty then none else some merged
    cmd := runtimeServerCommand request.startupCommand
    labels := some ((labels.insert stopCommandLabel request.stopCommand).insert startupDoneLabel
      request.startupDone) }

/-- Replace the container if it differs from what is asked for. -/
def configureContainer (course : ReconfigurationCourse) (id : Text) (request : ConfigurationRequest)
    (container : Container) (config : ContainerConfig) (labels : Table Text Text)
    (containers : Containers) : Containers × Except Failure Unit :=
  if configurationChanged request config labels container.hostConfig then
    match container.hostConfig with
    | none => (containers, .error (.bail "Docker container has no reusable host configuration"))
    | some hostConfig => replaceServer course id container.running
        (createBody (requestedConfig request config labels) hostConfig container.networks) containers
  else (containers, .ok ())

def updateConfiguration (course : ReconfigurationCourse) (id : Text) (request : ConfigurationRequest)
    (state : ServerState) : ServerState × Except Failure Unit :=
  match prepareConfiguration course id state.containers with
  | .error failure => (state, .error failure)
  | .ok (container, config, labels) =>
      match course.write with
      | some (failure, left) => ({ state with descriptor := left }, .error failure)
      | none =>
          let configured := configureContainer course id request container config labels state.containers
          (⟨configured.1, some request.configFilesJson⟩, configured.2)

/-- The part of an update of the ports before it touches the container. -/
def preparePorts (course : ReconfigurationCourse) (id : Text) (mappings : List (Text × Int))
    (containers : Containers) : Except Failure (Container × ContainerBody) := do
  Paths.validateId id
  let ports <- validatedPortBindings mappings
  let container <- inspectContainer course id containers
  let (config, _) <- ownedConfig "ports" id container
  match container.hostConfig with
  | none => .error (.bail "Docker container has no reusable host configuration")
  | some hostConfig => do
      ensureBindingsAvailable course.reserved course.available
        (boundHostPorts (hostConfig.portBindings.getD ∅)) (bindingsOf ports.bindings)
      .ok (container, createBody { config with exposedPorts := some ports.exposed }
        { hostConfig with portBindings := some ports.bindings } container.networks)

def updatePorts (course : ReconfigurationCourse) (id : Text) (mappings : List (Text × Int))
    (state : ServerState) : ServerState × Except Failure Unit :=
  match preparePorts course id mappings state.containers with
  | .error failure => (state, .error failure)
  | .ok (container, body) =>
      let replaced := replaceServer course id container.running body state.containers
      ({ state with containers := replaced.1 }, replaced.2)

end Runtime
end Agapornis
