import Agapornis.Runtime.Recreation

namespace Agapornis
namespace Runtime

open Foundations Agapornis.Core

/-!
# What a failed reconfiguration leaves behind

A reconfiguration that fails has done the server no harm when its container is
as it was, running or not, and the descriptor is the same.  What is left is
followed from one call to the next; a container that is replaced because
something changed is never the same as the new one.
-/

/-! ## Containers that are the same -/

namespace Container

def environment (container : Container) : List Text :=
  (container.config.bind ContainerConfig.env).getD []

def command (container : Container) : Option (List Text) :=
  container.config.bind ContainerConfig.cmd

def label (container : Container) (key : Text) : Option Text :=
  optionalEntry (container.config.bind ContainerConfig.labels) key

def exposed (container : Container) : List Text :=
  (container.config.bind ContainerConfig.exposedPorts).getD []

def limits (container : Container) : Option LimitBody :=
  container.hostConfig.map HostConfig.limits

def tmpfs (container : Container) (place : Text) : Option Text :=
  optionalEntry (container.hostConfig.bind HostConfig.tmpfs) place

def bindings (container : Container) (port : Text) : Option (Option (List PortBinding)) :=
  ((container.hostConfig.bind HostConfig.portBindings).getD ∅).lookup port

end Container

/-- Two containers are configured alike. -/
structure SameConfiguration (first second : Container) : Prop where
  environment : first.environment = second.environment
  command : first.command = second.command
  labels : forall key, first.label key = second.label key
  exposed : forall port, port ∈ first.exposed <-> port ∈ second.exposed
  limits : first.limits = second.limits
  tmpfs : forall place, first.tmpfs place = second.tmpfs place
  bindings : forall port, first.bindings port = second.bindings port
  networks : first.networks = second.networks

theorem SameConfiguration.refl (container : Container) : SameConfiguration container container :=
  ⟨rfl, rfl, fun _ => rfl, fun _ => Iff.rfl, rfl, fun _ => rfl, fun _ => rfl, rfl⟩

/-- A container of this name exists as it was before, running exactly if it
was running, and the descriptor is the same. -/
structure Unharmed (id : Text) (before after : ServerState) : Prop where
  container : forall old, before.containers id = some old -> Exists fun now =>
    after.containers id = some now /\ SameConfiguration old now /\ now.running = old.running
  descriptor : after.descriptor = before.descriptor

theorem Unharmed.refl (id : Text) (state : ServerState) : Unharmed id state state :=
  ⟨fun old present => ⟨old, present, SameConfiguration.refl old, rfl⟩, rfl⟩

/-! ## The replacement -/

section Replacement

variable {course : ReconfigurationCourse} {id : Text}

theorem staleName_ne (course : ReconfigurationCourse) (id : Text) : Not (staleName course id = id) := by
  intro same
  have lengths := congrArg List.length same
  have dash : "-stale-".toList.length = 7 := by decide
  simp only [staleName, List.length_append, dash] at lengths
  omega

theorem Containers.setRunning_self {containers : Containers} {container : Container}
    (present : containers id = some container) (running : Bool) :
    containers.setRunning id running id = some { container with running := running } := by
  unfold Containers.setRunning
  rw [Containers.put_self, present]
  rfl

/-- A replacement that succeeds leaves the new container under the name. -/
theorem replaceStaleContainer_ok {body : ContainerBody} {containers after : Containers}
    (ran : replaceStaleContainer course id body containers = (after, .ok ())) :
    (course.rename = none /\ course.create = none) /\ after id = some (body.created course.image) := by
  unfold replaceStaleContainer at ran
  dsimp only at ran
  split at ran
  · cases ran
  · next renamed =>
      split at ran
      · cases ran
      · cases ran
      · next creating =>
          cases ran
          refine ⟨⟨renamed, creating⟩, ?_⟩
          split
          · rw [Containers.put_other _ _ (fun same => staleName_ne course id same.symm), Containers.put_self]
          · rw [Containers.put_self]

end Replacement

/-! ## A change that is seen is a difference -/

section Changes

variable (request : ConfigurationRequest) (config : ContainerConfig) (labels : Table Text Text)
  (hostConfig : HostConfig) (networks : Option (List Text)) (image : List Text)

/-- The environment that a reconfiguration asks for. -/
def requestedEnvironment : List Text :=
  mergedEnvironment config.env (runtimeEnvironment request.env)

/-- The container that a reconfiguration makes. -/
def requestedContainer : Container :=
  (createBody (requestedConfig request config labels) hostConfig networks).created image

theorem requestedConfig_env : (requestedConfig request config labels).env.getD [] =
    requestedEnvironment request config := by
  unfold requestedConfig
  dsimp only
  split
  · next empty => exact (List.isEmpty_iff.mp empty).symm
  · rfl

theorem requestedEnvironment_inOrder : runtimeEnvironment (requestedEnvironment request config) =
    requestedEnvironment request config :=
  runtimeEnvironment_override _ _

theorem requestedContainer_environment :
    (requestedContainer request config labels hostConfig networks image).environment =
      requestedEnvironment request config ++ imageEntries image (requestedEnvironment request config) := by
  unfold requestedContainer createBody ContainerBody.created Container.environment
  dsimp only [Option.bind_some, Option.getD_some]
  rw [requestedConfig_env, requestedEnvironment_inOrder]

theorem requestedContainer_command :
    (requestedContainer request config labels hostConfig networks image).command =
      runtimeServerCommand request.startupCommand :=
  repair_runtimeServerCommand request.startupCommand

variable {request config labels hostConfig networks image}

/-- The managed directory is mounted once it was made ready. -/
theorem ensureRuntimeTmpfs_ready {environment : List Text}
    (managed : runtimeEnvironmentValue environment = some managedXdgRuntimeDir) :
    optionalEntry (ensureRuntimeTmpfs hostConfig environment).tmpfs managedXdgRuntimeDir =
      some managedXdgRuntimeTmpfsOptions := by
  unfold ensureRuntimeTmpfs
  rw [if_pos managed]
  unfold optionalEntry
  rw [Option.bind_some, AList.lookup_insert]

end Changes

/-! ## When a failure does no harm -/

variable {course : ReconfigurationCourse} {id : Text}

theorem SameConfiguration.setRunning {first second : Container} {running : Bool} :
    SameConfiguration first { second with running := running } <-> SameConfiguration first second :=
  ⟨fun same => ⟨same.environment, same.command, same.labels, same.exposed, same.limits, same.tmpfs,
      same.bindings, same.networks⟩,
    fun same => ⟨same.environment, same.command, same.labels, same.exposed, same.limits, same.tmpfs,
      same.bindings, same.networks⟩⟩

theorem inspectContainer_ok {containers : Containers} {container : Container}
    (found : inspectContainer course id containers = .ok container) : containers id = some container := by
  unfold inspectContainer at found
  dsimp only at found
  split at found
  · cases found
  · cases found
  · next present =>
      cases found
      exact present

theorem ownedConfig_ok {what : String} {container : Container} {config : ContainerConfig}
    {labels : Table Text Text} (owned : ownedConfig what id container = .ok (config, labels)) :
    container.config = some config /\ config.labels = some labels /\ labels.lookup serverIdLabel = some id := by
  unfold ownedConfig at owned
  split at owned
  · cases owned
  · next ofContainer =>
      split at owned
      · cases owned
      · next ofConfig =>
          split at owned
          · next ofServer =>
              cases owned
              exact ⟨ofContainer, ofConfig, ofServer⟩
          · cases owned

theorem prepareConfiguration_ok {containers : Containers} {container : Container}
    {config : ContainerConfig} {labels : Table Text Text}
    (prepared : prepareConfiguration course id containers = .ok (container, config, labels)) :
    containers id = some container /\ container.config = some config /\ config.labels = some labels /\
      labels.lookup serverIdLabel = some id := by
  unfold prepareConfiguration at prepared
  rcases bind_eq_ok.mp prepared with ⟨_, _, prepared⟩
  rcases bind_eq_ok.mp prepared with ⟨_, _, prepared⟩
  rcases bind_eq_ok.mp prepared with ⟨found, inspected, prepared⟩
  rcases bind_eq_ok.mp prepared with ⟨⟨ownConfig, ownLabels⟩, owned, prepared⟩
  rcases bind_eq_ok.mp prepared with ⟨_, _, same⟩
  cases same
  exact ⟨inspectContainer_ok inspected, ownedConfig_ok owned⟩

theorem preparePorts_ok {mappings : List (Text × Int)} {containers : Containers} {container : Container}
    {body : ContainerBody} (prepared : preparePorts course id mappings containers = .ok (container, body)) :
    containers id = some container /\ optionalEntry body.config.labels serverIdLabel = some id := by
  unfold preparePorts at prepared
  rcases bind_eq_ok.mp prepared with ⟨_, _, prepared⟩
  rcases bind_eq_ok.mp prepared with ⟨ports, _, prepared⟩
  rcases bind_eq_ok.mp prepared with ⟨found, inspected, prepared⟩
  rcases bind_eq_ok.mp prepared with ⟨⟨config, labels⟩, owned, prepared⟩
  dsimp only at prepared
  split at prepared
  · cases prepared
  · rcases bind_eq_ok.mp prepared with ⟨_, _, same⟩
    cases same
    rcases ownedConfig_ok owned with ⟨_, ofConfig, ofServer⟩
    refine ⟨inspectContainer_ok inspected, ?_⟩
    change optionalEntry config.labels serverIdLabel = some id
    rw [ofConfig]
    exact ofServer

/-- A container of a server as the agent makes it. -/
def sampleContainer (running : Bool) : Container where
  config := some {
    env := some [runtimeDirEntry managedXdgRuntimeDir]
    cmd := runtimeServerCommand "./server".toList
    labels := some (AList.singleton serverIdLabel "server-1".toList)
    exposedPorts := none }
  hostConfig := some {
    limits := ⟨none, none, none, none⟩
    tmpfs := some (AList.singleton managedXdgRuntimeDir managedXdgRuntimeTmpfsOptions)
    portBindings := none
    restartPolicy := some manualRestartPolicy }
  networks := some ["agapornis_ntw".toList]
  running := running

def sampleServer (running : Bool) : ServerState where
  containers name := if name = "server-1".toList then some (sampleContainer running) else none
  descriptor := some "\x7b\x7d".toList

/-- A reconfiguration in which Docker refuses to rename the container. -/
def refusedRename : ReconfigurationCourse where
  startup := none
  inspect := none
  createDir := none
  write := none
  reserved _ := false
  available _ := true
  stop := none
  uuid := "00000000000040008000000000000000".toList
  rename := some "Docker responded with status code 500: rename failed"
  create := none
  rollback := none
  remove := none
  start := none
  image := []

end Runtime
end Agapornis
