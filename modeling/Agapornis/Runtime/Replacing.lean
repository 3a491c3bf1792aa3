import Agapornis.Foundations.Machine
import Agapornis.Runtime.Reconfiguration

namespace Agapornis
namespace Runtime
namespace Replacing

open Foundations Agapornis.Core

/-!
# Requests that replace containers take turns

No lock keeps two requests for one server apart.  Each of them inspects the
container, stops it if it has to, renames it, creates the new one under the
name of the server and removes the old one; between two of these calls other
requests go on, servers are started, stopped, created and deleted, and the
request itself may be given up.  Docker renames no container to a name that is
taken and creates none under such a name.
-/

/-- What a request changes.  A repair of the mounts goes on only if the
container has a managed mount. -/
inductive Change where
  | repair (mounted : Bool)
  | configuration (request : ConfigurationRequest)
  | ports (mappings : List (Text × Int))

/-- The container to be made, and whether it is to run. -/
structure Plan where
  wasRunning : Bool
  body : ContainerBody

/-- The call a request makes next. -/
inductive Phase where
  | inspecting
  | writing (request : ConfigurationRequest) (container : Container) (config : ContainerConfig)
      (labels : Table Text Text)
  | stopping (body : ContainerBody)
  | settingAside (plan : Plan)
  | creating (plan : Plan)
  | rollingBack (createError : String)
  | removing (wasRunning : Bool)
  | starting
  | ended (result : Except Failure Unit)
  /-- The old container has not got its name back. -/
  | strayed (failure : Failure)

structure Task where
  server : Text
  change : Change
  course : ReconfigurationCourse
  phase : Phase

def Task.stale (task : Task) : Text :=
  staleName task.course task.server

/-- The containers, and the descriptors of the configuration files of the servers. -/
structure Host where
  containers : Containers
  descriptors : Text -> Option Text

/-! ## What Docker refuses -/

def noSuchContainer : String :=
  "No such container"

def nameTaken : String :=
  "Conflict. The container name is already in use"

def renameFault (fault : Option String) (containers : Containers) (old new : Text) : Option String :=
  match fault with
  | some error => some error
  | none =>
      if containers old = none then some noSuchContainer
      else if containers new = none then none
      else some nameTaken

def createFault (fault : Option String) (containers : Containers) (name : Text) : Option String :=
  match fault with
  | some error => some error
  | none => if containers name = none then none else some nameTaken

/-- A stop or a start of a container which is no longer there fails. -/
def powerFault (fault : Option (Failure × Bool)) (containers : Containers) (name : Text) :
    Option (Failure × Bool) :=
  if containers name = none then some (.bail noSuchContainer, false) else fault

/-! ## The calls of a request -/

/-- The container that takes the place of one with stale mounts. -/
def repairBody (id : Text) (mounted : Bool) (container : Container) : Except Failure ContainerBody :=
  match container.config with
  | none => .error (.bail "stale Docker container has no reusable configuration")
  | some config =>
      match config.labels with
      | none => .error (.bail "refusing to recreate a container without Agapornis ownership labels")
      | some labels =>
          if labels.lookup serverIdLabel = some id then
            match container.hostConfig with
            | none => .error (.bail "stale Docker container has no reusable host configuration")
            | some hostConfig =>
                if mounted then .ok (createBody config hostConfig container.networks)
                else .error (.bail "stale Docker container has no managed bind mounts to repair")
          else .error (.bail "refusing to recreate a container not owned by this Agapornis server")

/-- The part of a repair of the mounts before it touches the container. -/
def prepareRepair (course : ReconfigurationCourse) (id : Text) (mounted : Bool) (containers : Containers) :
    Except Failure ContainerBody :=
  let name := String.ofList id
  match course.inspect, containers id with
  | some error, _ => .error (.context s!"inspect stale Docker container {name}" (.bail error))
  | none, none => .error (.context s!"inspect stale Docker container {name}" (.bail noSuchContainer))
  | none, some container => repairBody id mounted container

/-- A server that runs is stopped before its container is renamed. -/
def replaceNext (plan : Plan) : Phase :=
  if plan.wasRunning then .stopping plan.body else .settingAside plan

def Task.inspect (task : Task) (containers : Containers) : Phase :=
  match task.change with
  | .repair mounted =>
      match prepareRepair task.course task.server mounted containers with
      | .error failure => .ended (.error failure)
      | .ok body => .settingAside ⟨false, body⟩
  | .configuration request =>
      match prepareConfiguration task.course task.server containers with
      | .error failure => .ended (.error failure)
      | .ok (container, config, labels) => .writing request container config labels
  | .ports mappings =>
      match preparePorts task.course task.server mappings containers with
      | .error failure => .ended (.error failure)
      | .ok (container, body) => replaceNext ⟨container.running, body⟩

def afterWrite (request : ConfigurationRequest) (container : Container) (config : ContainerConfig)
    (labels : Table Text Text) : Phase :=
  if configurationChanged request config labels container.hostConfig then
    match container.hostConfig with
    | none => .ended (.error (.bail "Docker container has no reusable host configuration"))
    | some hostConfig => replaceNext ⟨container.running,
        createBody (requestedConfig request config labels) hostConfig container.networks⟩
  else .ended (.ok ())

def startNext (wasRunning : Bool) : Phase :=
  if wasRunning then .starting else .ended (.ok ())

namespace Host

variable (host : Host)

def describe (server : Text) (descriptor : Option Text) : Host :=
  { host with descriptors := fun other => if other = server then descriptor else host.descriptors other }

def setRunning (server : Text) (running : Bool) : Host :=
  { host with containers := host.containers.setRunning server running }

def rename (old new : Text) : Host :=
  { host with containers := host.containers.rename old new }

def put (name : Text) (container : Option Container) : Host :=
  { host with containers := host.containers.put name container }

end Host

/-- The next call of a request. -/
def Task.advance (task : Task) (host : Host) : Host × Phase :=
  let id := task.server
  let name := String.ofList id
  match task.phase with
  | .inspecting => (host, task.inspect host.containers)
  | .writing request container config labels =>
      match task.course.write with
      | some (failure, left) => (host.describe id left, .ended (.error failure))
      | none => (host.describe id (some request.configFilesJson), afterWrite request container config labels)
  | .stopping body =>
      match powerFault task.course.stop host.containers id with
      | none => (host.setRunning id false, .settingAside ⟨true, body⟩)
      | some (failure, running) => (host.setRunning id running, .ended (.error failure))
  | .settingAside plan =>
      match renameFault task.course.rename host.containers id task.stale with
      | some error => (host, .ended (.error (.context s!"rename stale Docker container {name}" (.bail error))))
      | none => (host.rename id task.stale, .creating plan)
  | .creating plan =>
      match createFault task.course.create host.containers id with
      | some error => (host, .rollingBack error)
      | none => (host.put id (some (plan.body.created task.course.image)), .removing plan.wasRunning)
  | .rollingBack error =>
      match renameFault task.course.rollback host.containers task.stale id with
      | none => (host.rename task.stale id,
          .ended (.error (.context s!"recreate Docker container {name}" (.bail error))))
      | some rollbackError => (host, .strayed (.context
          s!"recreate Docker container {name}; restoring its old name also failed: {rollbackError}"
          (.bail error)))
  | .removing wasRunning =>
      (if task.course.remove = none then host.put task.stale none else host, startNext wasRunning)
  | .starting =>
      match powerFault task.course.start host.containers id with
      | none => (host.setRunning id true, .ended (.ok ()))
      | some (failure, running) => (host.setRunning id running, .ended (.error failure))
  | .ended result => (host, .ended result)
  | .strayed failure => (host, .strayed failure)

/-! ## Turns -/

structure State where
  host : Host
  tasks : List Task

/-- What happens next: a request arrives or makes its next call; a server is
started or stopped, or a call of its creation or deletion is made.  A request
that is given up has no turn any more. -/
inductive Turn where
  | request (server : Text) (change : Change) (course : ReconfigurationCourse)
  | advance (task : Nat)
  | power (server : Text) (running : Bool)
  /-- A creation writes the descriptor before anything else can fail, or what a failing write
  leaves of it; a deletion removes it after the container. -/
  | describe (server : Text) (descriptor : Option Text)
  | create (server : Text) (container : Container)
  | delete (server : Text)

/-- A container is created for a server with the label of the server. -/
def Host.create (host : Host) (server : Text) (container : Container) : Host :=
  if host.containers server = none /\ container.label serverIdLabel = some server then
    host.put server (some container)
  else host

def takeTurn (state : State) : Turn -> State
  | .request server change course =>
      { state with tasks := state.tasks ++ [⟨server, change, course, .inspecting⟩] }
  | .advance index =>
      match state.tasks[index]? with
      | none => state
      | some task =>
          let done := task.advance state.host
          ⟨done.1, state.tasks.set index { task with phase := done.2 }⟩
  | .power server running => { state with host := state.host.setRunning server running }
  | .describe server descriptor => { state with host := state.host.describe server descriptor }
  | .create server container => { state with host := state.host.create server container }
  | .delete server => { state with host := state.host.put server none }

def after (start : Host) (run : List Turn) : State :=
  Machine.reach takeTurn ⟨start, []⟩ run

/-- The server that a turn names. -/
def Turn.named : Turn -> Option Text
  | .request server _ _ | .power server _ | .describe server _ | .create server _ | .delete server => some server
  | .advance _ => none

/-- The name that a request gives the container it replaces. -/
def Turn.stale : Turn -> Option Text
  | .request server _ course => some (staleName course server)
  | .advance _ | .power _ _ | .describe _ _ | .create _ _ | .delete _ => none

/-- A creation which gets as far as the container, and one which fails before it. -/
def creation (server : Text) (descriptor : Text) (container : Option Container) : List Turn :=
  .describe server (some descriptor) :: (container.map (Turn.create server)).toList

/-- A deletion which works. -/
def deletion (server : Text) : List Turn :=
  [.delete server, .describe server none]

/-- The stale names of a run are all different, and none is the id of a server. -/
structure Apart (servers : List Text) (run : List Turn) : Prop where
  named : forall turn, turn ∈ run -> forall server, turn.named = some server -> server ∈ servers
  stales : (run.filterMap Turn.stale).Nodup
  unlike : forall stale, stale ∈ run.filterMap Turn.stale -> stale ∉ servers

end Replacing
end Runtime
end Agapornis
