import Agapornis.Foundations.Program
import Agapornis.Foundations.Utf8
import Agapornis.Runtime.Agreement
import Agapornis.Runtime.Configuration

namespace Agapornis
namespace Runtime

open Foundations Agapornis.Core Storage

/-!
# Creation of a server

A creation prepares the storage of a server, runs its installer, applies the
generated configuration and hands the storage to the runtime user, all before
Docker is asked for the container.  It is a program of calls; what those calls
come to that are answered elsewhere is a course.
-/

/-! ## Calls -/

inductive MetadataFile where
  | diskLimit
  | configFiles
  deriving DecidableEq, Repr

inductive CreateCall where
  | reserveHostPort (exposed : Bool) (port : Int)
  | createDirAll (path : List Text)
  | writeMetadata (file : MetadataFile) (path : List Text) (content : Bytes)
  | pullImage (image : Text)
  | writeScript (content : Text)
  | execInstaller (attempt : Nat) (image : Text) (command environment : List Text)
  | startupMetadata (path : List (Component Text))
  | ensureNetwork (name : Text)
  | inspectNetwork (name : Text)
  | applyConfigFile (target : List (Component Text)) (config : Value)
  | directoryUsage (path : List Text)
  | chown (path : List Text)
  | createContainer (id : Text) (body : ContainerBody)

@[reducible] def CreateCall.Reply : CreateCall -> Type
  | .reserveHostPort _ _ => Except Failure Int
  | .createDirAll _ => Except Errno Unit
  | .writeMetadata _ _ _ => Except Errno Unit
  | .pullImage _ => Except Failure Unit
  | .writeScript _ => Except Errno Unit
  | .execInstaller _ _ _ _ => Except Failure Unit
  | .startupMetadata _ => Except Errno Bool
  | .ensureNetwork _ => Except Failure Unit
  | .inspectNetwork _ => Except Failure Text
  | .applyConfigFile _ _ => Except Failure Unit
  | .directoryUsage _ => Except Failure Int
  | .chown _ => Except Failure Unit
  | .createContainer _ _ => Except Failure Unit

/-- The file system: its tree, and the owner of each place. -/
structure HostFiles where
  tree : FileTree Text Bytes
  owner : List Text -> Text

structure NodeState where
  files : HostFiles
  containers : Containers

/-- An attempt to run the installer: how it ends, and what its container and
the log of its output leave of the files. -/
structure InstallerRun where
  result : Except Failure Unit
  leaves : HostFiles -> HostFiles

/-- What the calls of a creation come to.  A write that fails leaves other
bytes in the file, and a change of owners that fails has reached some places. -/
structure CreationCourse where
  reserve : Except Failure Int
  createDir : List Text -> Option Errno
  write : MetadataFile -> Option (Errno × Bytes)
  pull : Text -> Except Failure Unit
  script : Except Errno Unit
  installer : Nat -> InstallerRun
  network : Except Failure Unit
  interface : Except Failure Text
  usage : FileTree Text Bytes -> Except Failure Int
  chown : Option (Failure × (List Text -> Bool))
  image : List Text
  create : Except Failure Unit

def serverRuntimeUser : Text :=
  "999:999".toList

/-- Change the owner of the places below a directory, as far as it is reached. -/
def HostFiles.chown (files : HostFiles) (path : List Text) (reached : List Text -> Bool) : HostFiles :=
  { files with
    owner := fun place => if path <+: place /\ reached place = true then serverRuntimeUser
      else files.owner place }

/-- Whether a path leads to a regular file. -/
def metadataIsFile (tree : FileTree Text Bytes) (path : List (Component Text)) : Except Errno Bool :=
  match resolve tree .follow path with
  | .ok (.found place, _) => .ok (!tree.isDirectoryAt place)
  | .ok (.absent _ _, _) => .error .notFound
  | .error error => .error error

/-- What Docker answers to a name that is taken. -/
def conflict (id : Text) : Failure :=
  .bail ("Docker responded with status code 409: Conflict. The container name \"/" ++
    String.ofList id ++ "\" is already in use")

def NodeState.withTree (state : NodeState) (tree : FileTree Text Bytes) : NodeState :=
  { state with files := { state.files with tree := tree } }

def performCreate (parsers : Parsers) (course : CreationCourse) :
    (request : CreateCall) -> NodeState -> request.Reply × NodeState
  | .reserveHostPort _ _, state => (course.reserve, state)
  | .createDirAll path, state =>
      match course.createDir path with
      | some error => (.error error, state)
      | none =>
          let making := makeDirectories state.files.tree (path.map .normal)
          (making.result, state.withTree making.tree)
  | .writeMetadata file path content, state =>
      match openForWriting state.files.tree (path.map .normal)
          (((course.write file).map Prod.snd).getD content) with
      | .error error => (.error error, state)
      | .ok (_, written) =>
          (((course.write file).map (fun fault => .error fault.1)).getD (.ok ()), state.withTree written)
  | .pullImage image, state => (course.pull image, state)
  | .writeScript _, state => (course.script, state)
  | .execInstaller attempt _ _ _, state =>
      let run := course.installer attempt
      (run.result, { state with files := run.leaves state.files })
  | .startupMetadata path, state => (metadataIsFile state.files.tree path, state)
  | .ensureNetwork _, state => (course.network, state)
  | .inspectNetwork _, state => (course.interface, state)
  | .applyConfigFile target config, state =>
      let run := Runtime.applyConfigFile parsers state.files.tree target config
      (run.result, state.withTree run.tree)
  | .directoryUsage _, state => (course.usage state.files.tree, state)
  | .chown path, state =>
      match course.chown with
      | none => (.ok (), { state with files := state.files.chown path (fun _ => true) })
      | some (failure, reached) => (.error failure, { state with files := state.files.chown path reached })
  | .createContainer id body, state =>
      match state.containers id, course.create with
      | some _, _ => (.error (conflict id), state)
      | none, .error failure => (.error failure, state)
      | none, .ok () =>
          (.ok (), { state with containers := state.containers.put id (some (body.created course.image)) })

abbrev CreateProgram := Program CreateCall CreateCall.Reply Failure

/-! ## The storage of a server -/

/-- Write a metadata file into its directory. -/
def storeMetadata (file : MetadataFile) (path : List Text) (content : Text) : CreateProgram Unit := do
  Program.required .io (Program.ask (CreateCall.createDirAll path.dropLast))
  Program.required .io (Program.ask (CreateCall.writeMetadata file path (encodeUtf8 content)))

def storeDiskLimit (environment : Environment) (id : Text) (effective : Int) : CreateProgram Unit :=
  if 0 < effective then do
    let path <- Program.ofExcept (Paths.diskLimitPath environment id)
    storeMetadata .diskLimit path (Text.signedDecimal effective)
  else .done ()

def storeConfigFiles (environment : Environment) (id json : Text) : CreateProgram Unit := do
  let path <- Program.ofExcept (Paths.configFilesPath environment id)
  storeMetadata .configFiles path json

/-! ## The startup target -/

/-- The words of a text. -/
def splitWhitespace (text : Text) : List Text :=
  (text.splitOnP Text.isWhitespace).filter (fun word => !word.isEmpty)

/-- Drop characters at both ends. -/
def trimMatches (characters : List Char) (text : Text) : Text :=
  (Text.trimStartMatches characters (Text.trimStartMatches characters text).reverse).reverse

/-- Drop a beginning of two characters as often as it occurs. -/
def trimDotSlash : Text -> Text
  | '.' :: '/' :: rest => trimDotSlash rest
  | text => text

/-- The file that a startup command starts, if it names one. -/
def startupTarget (command : Text) : Option Text :=
  (((splitWhitespace command).map (trimMatches ['\'', '"'])).find? (fun word =>
    ".jar".toList.isSuffixOf word || "./".toList.isPrefixOf word)).map trimDotSlash

structure MissingStartupTarget where
  target : Text
  resolved : Text

def MissingStartupTarget.failure (missing : MissingStartupTarget) : Failure :=
  .bail s!"Startup target '{String.ofList missing.target}' was not found at '{String.ofList missing.resolved}'."

/-- The text of the path to a startup target; an absolute one is taken as it is. -/
def resolvedTarget (host : List Text) (target : Text) : Text :=
  if target.head? = some '/' then target else Paths.joinText ('/' :: Paths.display host) [target]

/-- The startup target, if it is missing. -/
def missingStartupTarget (host : List Text) (command : Text) :
    CreateProgram (Option MissingStartupTarget) :=
  match startupTarget command with
  | none => .done none
  | some target =>
      let resolved := resolvedTarget host target
      Program.ask (CreateCall.startupMetadata (pathComponents resolved)) >>= fun
        | .ok true => .done none
        | .ok false => .failed (.bail
            (s!"Startup target '{String.ofList target}' exists at '{String.ofList resolved}', " ++
              "but is not a regular file."))
        | .error .notFound => .done (some ⟨target, resolved⟩)
        | .error error => .failed (.context
            s!"inspect startup target '{String.ofList target}' at '{String.ofList resolved}'" (.io error))

def validateStartup (host : List Text) (command : Text) : CreateProgram Unit :=
  missingStartupTarget host command >>= fun
    | none => .done ()
    | some missing => .failed missing.failure

/-! ## The installer -/

def installerCommand (spec : CreateSpec) : List Text :=
  (if (Text.trim spec.installEntrypoint).isEmpty then ["/bin/sh".toList]
    else splitWhitespace spec.installEntrypoint) ++ ["/tmp/agapornis-install.sh".toList]

def installerEnvironment (spec : CreateSpec) : List Text :=
  "SERVER_DIR=/mnt/server".toList :: spec.env

/-- One attempt, and the startup target if it is missing after it. -/
def attemptInstaller (spec : CreateSpec) (host : List Text) (attempt : Nat) :
    CreateProgram (Option MissingStartupTarget) := do
  Program.required id (Program.ask (CreateCall.execInstaller attempt spec.installImage
    (installerCommand spec) (installerEnvironment spec)))
  missingStartupTarget host spec.startupCommand

def installerAttempts : Nat := 2

/-- Attempts from the given one on, as many as are left. -/
def attemptsFrom (spec : CreateSpec) (host : List Text) (attempt : Nat) : Nat -> CreateProgram Unit
  | 0 => .done ()
  | left + 1 => attemptInstaller spec host attempt >>= fun
      | none => .done ()
      | some missing =>
          if left = 0 then .failed (.bail (
            s!"Installer completed {installerAttempts} attempts, but startup target " ++
            s!"'{String.ofList missing.target}' is still missing at '{String.ofList missing.resolved}'. " ++
            "Check .agapornis-install.log in the server root for the installer error."))
          else attemptsFrom spec host (attempt + 1) left

def runInstaller (spec : CreateSpec) (host : List Text) : CreateProgram Unit := do
  Program.required id (Program.ask (CreateCall.pullImage spec.installImage))
  Program.required .io (Program.ask (CreateCall.writeScript
    (Text.replace "\r\n".toList "\n".toList spec.installScript)))
  attemptsFrom spec host 1 installerAttempts

/-- The installer of a server that has one. -/
def install (spec : CreateSpec) (host : List Text) : CreateProgram Unit :=
  if !(Text.trim spec.installImage).isEmpty && !(Text.trim spec.installScript).isEmpty then
    runInstaller spec host
  else .done ()

/-! ## The configuration -/

def applyEntry (root : Text) (entry : Text × Value) : CreateProgram Unit := do
  let names <- Program.ofExcept (Paths.relative entry.1)
  Program.required (.context ("apply configuration descriptor to " ++ String.ofList (Paths.joinText root names)))
    (Program.ask (CreateCall.applyConfigFile (pathComponents root ++ names.map .normal) entry.2))

def applyDescriptor (reading : Reading) (root json dockerInterface : Text) : CreateProgram Unit := do
  let entries <- Program.ofExcept (configEntries reading json dockerInterface)
  Program.forEach (fun _ entry => applyEntry root entry) () entries

/-! ## The creation -/

def ensurePayloadLimit (host : List Text) (limit : Int) : CreateProgram Unit :=
  if limit <= 0 then .done ()
  else do
    let usage <- Program.required id (Program.ask (CreateCall.directoryUsage host))
    Program.ofExcept (refuseIf (decide (limit < usage))
      (s!"Completed server files exceed the disk allocation ({usage} / {limit} bytes). Increase the " ++
        "server disk allocation or reduce the installed payload before retrying."))

/-- What a creation depends on besides its inputs. -/
structure CreationTools where
  limits : LimitTools
  reading : Reading
  available : Nat -> Bool
  network : Text

/-- The part of a creation that is about the storage of the server. -/
def prepareStorage (tools : CreationTools) (spec : CreateSpec) (host : List Text) : CreateProgram Int := do
  Program.required .io (Program.ask (CreateCall.createDirAll host))
  let effective <- Program.ofExcept (effectiveDiskLimit spec.resources.diskLimitBytes
    spec.resources.swapMemoryBytes spec.resources.swapMemoryStorage)
  storeDiskLimit tools.limits.environment spec.resources.serverId effective
  storeConfigFiles tools.limits.environment spec.resources.serverId spec.configFilesJson
  .done effective

/-- The part of a creation that is about the files of the server. -/
def prepareFiles (tools : CreationTools) (spec : CreateSpec) (host : List Text) (effective : Int) :
    CreateProgram Unit := do
  install spec host
  Program.required id (Program.ask (CreateCall.ensureNetwork tools.network))
  let dockerInterface <- Program.required id (Program.ask (CreateCall.inspectNetwork tools.network))
  applyDescriptor tools.reading ('/' :: Paths.display host) spec.configFilesJson dockerInterface
  validateStartup host spec.startupCommand
  ensurePayloadLimit host effective
  Program.required id (Program.ask (CreateCall.pullImage spec.image))
  Program.required (.context "assign server storage to the runtime user")
    (Program.ask (CreateCall.chown host))

/-- Everything that comes before the container is created. -/
def prepareContainer (tools : CreationTools) (spec : CreateSpec) : CreateProgram (Int × ContainerBody) := do
  Program.ofExcept (Paths.validateId spec.resources.serverId)
  Program.ofExcept (refuseIf (Text.trim spec.image).isEmpty "Docker image is required")
  let hostPort <- Program.required id (Program.ask
    (CreateCall.reserveHostPort spec.publication.exposePublicPort spec.publication.hostPort))
  let host <- Program.ofExcept (Paths.serverDir tools.limits.environment spec.resources.serverId)
  let effective <- prepareStorage tools spec host
  prepareFiles tools spec host effective
  let body <- Program.ofExcept (buildContainer tools.limits tools.available tools.network spec hostPort)
  .done (hostPort, body)

def createWithProgress (tools : CreationTools) (spec : CreateSpec) : CreateProgram Int := do
  let (hostPort, body) <- prepareContainer tools spec
  Program.required (.context s!"create Docker container {String.ofList spec.resources.serverId}")
    (Program.ask (CreateCall.createContainer spec.resources.serverId body))
  .done hostPort

/-! ## The descriptor as one step -/

section Descriptors

variable (parsers : Parsers) (course : CreationCourse)

theorem applyEntries_run (root : Text) (entries : List (Text × Value)) (state : NodeState) :
    (Program.forEach (fun _ entry => applyEntry root entry) () entries).run
        (performCreate parsers course) state =
      ((applyEntries parsers root state.files.tree entries).result,
        state.withTree (applyEntries parsers root state.files.tree entries).tree) := by
  induction entries generalizing state with
  | nil => rfl
  | cons entry entries ih =>
      rcases entry with ⟨name, config⟩
      have first := Program.run_bind (performCreate parsers course) (applyEntry root (name, config))
        (fun _ => Program.forEach (fun _ entry => applyEntry root entry) () entries) state
      refine first.trans ?_
      unfold applyEntry applyEntries
      cases accepted : Paths.relative name with
      | error failure => rfl
      | ok names =>
          dsimp only [Program.ofExcept, Program.done_bind]
          rw [Program.run_required, Program.run_ask]
          unfold performCreate
          dsimp only
          cases (applyConfigFile parsers state.files.tree
            (pathComponents root ++ names.map .normal) config).result with
          | error failure => rfl
          | ok result => exact ih _

/-- Applied call by call, a descriptor comes to what it comes to as a whole. -/
theorem applyDescriptor_run (reading : Reading) (root json dockerInterface : Text) (state : NodeState) :
    (applyDescriptor reading root json dockerInterface).run (performCreate parsers course) state =
      ((applyConfigFiles parsers reading state.files.tree root json dockerInterface).result,
        state.withTree (applyConfigFiles parsers reading state.files.tree root json dockerInterface).tree) := by
  unfold applyDescriptor applyConfigFiles
  cases configEntries reading json dockerInterface with
  | error failure => rfl
  | ok entries => exact applyEntries_run parsers course root entries state

end Descriptors

end Runtime
end Agapornis
