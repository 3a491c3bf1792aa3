import Agapornis.Foundations.Assignments
import Agapornis.Runtime.Limits
import Agapornis.Runtime.Ports

namespace Agapornis
namespace Runtime

open Foundations Agapornis.Core

/-!
# Containers and their environment

The environment of a container always ends with the runtime directory, and
the command of a managed server goes through a launcher.  A container that is
made again from the configuration of another one has both put in order.
-/

/-! ## What Docker knows of a container -/

structure ContainerConfig where
  env : Option (List Text)
  cmd : Option (List Text)
  labels : Option (Table Text Text)
  exposedPorts : Option (List Text)

inductive RestartPolicyName where
  | empty
  | no
  | always
  | unlessStopped
  | onFailure
  deriving DecidableEq, Repr

structure RestartPolicy where
  name : Option RestartPolicyName
  maximumRetryCount : Option Int
  deriving DecidableEq, Repr

structure HostConfig where
  limits : LimitBody
  tmpfs : Option (Table Text Text)
  portBindings : Option PortBindings
  restartPolicy : Option RestartPolicy

/-- A container as `docker inspect` describes it; a network that it is in is
known by its name. -/
structure Container where
  config : Option ContainerConfig
  hostConfig : Option HostConfig
  networks : Option (List Text)
  running : Bool

/-- A request to create a container. -/
structure ContainerBody where
  config : ContainerConfig
  hostConfig : HostConfig
  networks : Option (List Text)

/-- The entries of an image whose names are not yet set. -/
def imageEntries (image env : List Text) : List Text :=
  image.filter (fun entry => decide (Assignments.entryKey entry ∉ env.map Assignments.entryKey))

/-- The container that Docker makes of a request. -/
def ContainerBody.created (image : List Text) (body : ContainerBody) : Container where
  config := some { body.config with
    env := some (body.config.env.getD [] ++ imageEntries image (body.config.env.getD [])) }
  hostConfig := some body.hostConfig
  networks := body.networks
  running := false

/-! ## The runtime directory -/

def xdgRuntimeDirKey : Text :=
  "XDG_RUNTIME_DIR".toList

def managedXdgRuntimeDir : Text :=
  "/tmp/agapornis-runtime".toList

def managedXdgRuntimeTmpfsOptions : Text :=
  "rw,nosuid,nodev,noexec,size=16m,mode=0700,uid=999,gid=999".toList

/-- The runtime directory that an environment asks for, or the managed one. -/
def configuredRuntimeDir (values : List Text) : Text :=
  (((Assignments.lastValue xdgRuntimeDirKey values).map Text.trim).filter
    (fun value => !value.isEmpty)).getD managedXdgRuntimeDir

def runtimeDirEntry (dir : Text) : Text :=
  xdgRuntimeDirKey ++ '=' :: dir

def runtimeEnvironment (values : List Text) : List Text :=
  values.filter (fun entry => !Assignments.assignsOneOf [xdgRuntimeDirKey] entry) ++
    [runtimeDirEntry (configuredRuntimeDir values)]

def runtimeEnvironmentValue (values : List Text) : Option Text :=
  Assignments.lastValue xdgRuntimeDirKey values

/-- The managed runtime directory is a mount in memory. -/
def ensureRuntimeTmpfs (hostConfig : HostConfig) (environment : List Text) : HostConfig :=
  if runtimeEnvironmentValue environment = some managedXdgRuntimeDir then
    { hostConfig with
      tmpfs := some ((hostConfig.tmpfs.getD ∅).insert managedXdgRuntimeDir managedXdgRuntimeTmpfsOptions) }
  else hostConfig

/-- The entry of an optional table. -/
def optionalEntry (table : Option (Table Text Text)) (key : Text) : Option Text :=
  table.bind (fun table => table.lookup key)

def runtimeTmpfsReady (hostConfig : Option HostConfig) (environment : List Text) : Bool :=
  if runtimeEnvironmentValue environment = some managedXdgRuntimeDir then
    decide (optionalEntry (hostConfig.bind HostConfig.tmpfs) managedXdgRuntimeDir =
      some managedXdgRuntimeTmpfsOptions)
  else true

/-! ## The command -/

/-- The script which gives images that ask for it a virtual display. -/
def runtimeLauncher : Text :=
  (String.intercalate "\n" ["case \"$\x7bXVFB:-0\x7d\" in",
    "    1|true|TRUE|yes|YES)",
    "        if command -v xvfb-run >/dev/null 2>&1; then",
    "            exec xvfb-run --auto-servernum \\",
    "                --server-args=\"-screen 0 $\x7bDISPLAY_WIDTH:-1024\x7dx" ++
      "$\x7bDISPLAY_HEIGHT:-768\x7dx$\x7bDISPLAY_DEPTH:-16\x7d -nolisten tcp\" \\",
    "                /bin/sh -lc \"$1\"",
    "        fi",
    "        ;;",
    "esac",
    "exec /bin/sh -lc \"$1\""]).toList

def runtimeServerCommand (startup : Text) : Option (List Text) :=
  if (Text.trim startup).isEmpty then none
  else some ["/bin/sh".toList, "-lc".toList, runtimeLauncher, "agapornis-runtime".toList,
    "exec ".toList ++ startup]

/-- The startup command of a container from before the launcher. -/
def legacyRuntimeCommand (command : List Text) : Option Text :=
  match command with
  | [shell, option, startup] =>
      if shell = "/bin/sh".toList /\ option = "-lc".toList then
        (Text.stripPrefix "exec ".toList startup).filter (fun startup => !(Text.trim startup).isEmpty)
      else none
  | _ => none

def repairLegacyRuntimeCommand (command : Option (List Text)) : Option (List Text) :=
  match command.bind legacyRuntimeCommand with
  | some startup => runtimeServerCommand startup
  | none => command

/-! ## A container made again -/

/-- The agent alone starts containers. -/
def manualRestartPolicy : RestartPolicy where
  name := some .no
  maximumRetryCount := some 0

def normalizedEnvironment (values : Option (List Text)) : List Text :=
  (values.getD []).mergeSort (fun left right => decide (left ≤ right))

def mergedEnvironment (current : Option (List Text)) (desired : List Text) : List Text :=
  Assignments.override (current.getD []) desired

def createBody (config : ContainerConfig) (hostConfig : HostConfig) (networks : Option (List Text)) :
    ContainerBody :=
  let environment := runtimeEnvironment (config.env.getD [])
  { config := { config with env := some environment, cmd := repairLegacyRuntimeCommand config.cmd }
    hostConfig := { ensureRuntimeTmpfs hostConfig environment with
      restartPolicy := some manualRestartPolicy }
    networks := networks }

/-! ## Environments in order -/

theorem equals_not_mem_xdgRuntimeDirKey : '=' ∉ xdgRuntimeDirKey := by decide

theorem configuredRuntimeDir_trimmed (values : List Text) :
    Text.trim (configuredRuntimeDir values) = configuredRuntimeDir values /\
      Not (configuredRuntimeDir values = []) := by
  unfold configuredRuntimeDir
  cases found : ((Assignments.lastValue xdgRuntimeDirKey values).map Text.trim).filter
      (fun value => !value.isEmpty) with
  | none => exact ⟨by decide, by decide⟩
  | some dir =>
      rcases Option.filter_eq_some_iff.mp found with ⟨asked, nonempty⟩
      rcases Option.map_eq_some_iff.mp asked with ⟨value, _, same⟩
      constructor
      · rw [Option.getD_some, <- same, Text.trim_trim]
      · intro empty
        rw [Option.getD_some] at empty
        rw [empty] at nonempty
        cases nonempty

theorem valueFor_runtimeDirEntry (dir : Text) :
    Assignments.valueFor xdgRuntimeDirKey (runtimeDirEntry dir) = some dir := by
  unfold Assignments.valueFor runtimeDirEntry
  rw [Assignments.splitOnce_assignment equals_not_mem_xdgRuntimeDirKey]
  exact if_pos rfl

theorem lastValue_singleton (key entry : Text) :
    Assignments.lastValue key [entry] = Assignments.valueFor key entry := by
  unfold Assignments.lastValue
  rw [List.reverse_singleton, List.findSome?_cons, List.findSome?_nil]
  cases Assignments.valueFor key entry <;> rfl

/-- The runtime directory is the configured one. -/
theorem lastValue_runtimeDir (values : List Text) :
    Assignments.lastValue xdgRuntimeDirKey (runtimeEnvironment values) =
      some (configuredRuntimeDir values) := by
  unfold runtimeEnvironment
  rw [Assignments.lastValue_append, lastValue_singleton, valueFor_runtimeDirEntry]
  rfl

theorem configuredRuntimeDir_of_lastValue {values : List Text} {dir : Text}
    (found : Assignments.lastValue xdgRuntimeDirKey values = some dir) (trimmed : Text.trim dir = dir)
    (nonempty : Not (dir = [])) : configuredRuntimeDir values = dir := by
  unfold configuredRuntimeDir
  rw [found, Option.map_some, trimmed, Option.filter_some, if_pos, Option.getD_some]
  cases dir with
  | nil => exact absurd rfl nonempty
  | cons head rest => rfl

/-- The configured directory survives an override by an environment in order. -/
theorem configuredRuntimeDir_override (base values : List Text) :
    configuredRuntimeDir (Assignments.override base (runtimeEnvironment values)) =
      configuredRuntimeDir values := by
  rcases configuredRuntimeDir_trimmed values with ⟨trimmed, nonempty⟩
  refine configuredRuntimeDir_of_lastValue ?_ trimmed nonempty
  rw [Assignments.lastValue_override, lastValue_runtimeDir]
  rfl

/-- What an environment in order overrides is in order. -/
theorem runtimeEnvironment_override (base values : List Text) :
    runtimeEnvironment (Assignments.override base (runtimeEnvironment values)) =
      Assignments.override base (runtimeEnvironment values) := by
  have assigned : xdgRuntimeDirKey ∈ Assignments.assignedKeys (runtimeEnvironment values) := by
    rw [<- Assignments.lastValue_isSome, lastValue_runtimeDir]
    rfl
  have dropped : Assignments.assignsOneOf [xdgRuntimeDirKey]
      (runtimeDirEntry (configuredRuntimeDir values)) = true := by
    rw [Assignments.assignsOneOf_of_valueFor (by rw [valueFor_runtimeDirEntry]; rfl)]
    decide
  have kept : (base.filter (fun entry =>
        !Assignments.assignsOneOf (Assignments.assignedKeys (runtimeEnvironment values)) entry)).filter
      (fun entry => !Assignments.assignsOneOf [xdgRuntimeDirKey] entry) =
        base.filter (fun entry =>
          !Assignments.assignsOneOf (Assignments.assignedKeys (runtimeEnvironment values)) entry) := by
    apply List.filter_eq_self.mpr
    intro entry inside
    have stays := (List.mem_filter.mp inside).2
    rw [Bool.not_eq_true'] at stays ⊢
    by_contra assigns
    rw [Bool.not_eq_false] at assigns
    rw [Assignments.assignsOneOf_mono assigns (fun key inKeys => List.mem_singleton.mp inKeys ▸ assigned)] at stays
    cases stays
  have whole : Assignments.override base (runtimeEnvironment values) =
      base.filter (fun entry =>
        !Assignments.assignsOneOf (Assignments.assignedKeys (runtimeEnvironment values)) entry) ++
      (values.filter (fun entry => !Assignments.assignsOneOf [xdgRuntimeDirKey] entry) ++
        [runtimeDirEntry (configuredRuntimeDir values)]) := rfl
  have dir := configuredRuntimeDir_override base values
  rw [whole] at dir ⊢
  rw [runtimeEnvironment, dir, List.filter_append, List.filter_append, kept, List.filter_filter,
    List.filter_cons_of_neg (by rw [dropped]; decide), List.filter_nil, List.append_nil, List.append_assoc]
  simp only [Bool.and_self]

theorem repair_runtimeServerCommand (startup : Text) :
    repairLegacyRuntimeCommand (runtimeServerCommand startup) = runtimeServerCommand startup := by
  unfold runtimeServerCommand
  split <;> rfl

end Runtime
end Agapornis
