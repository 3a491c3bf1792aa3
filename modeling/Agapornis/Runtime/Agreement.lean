import Agapornis.Runtime.Reconfiguration

namespace Agapornis
namespace Runtime

open Foundations Agapornis.Core

/-!
# Creations and reconfigurations agree

A creation and a reconfiguration compute the command and the environment of a
container from the same inputs, each for itself.  They differ for databases,
whose command a creation makes of the port, and in what they make of entries
without a value and of a variable that is assigned twice.
-/

/-! ## What a creation builds -/

structure CreateSpec where
  image : Text
  publication : PublicationSpec
  resources : ResourceSpec
  startupCommand : Text
  stopCommand : Text
  startupDone : Text
  installImage : Text
  installEntrypoint : Text
  installScript : Text
  configFilesJson : Text

def CreateSpec.env (spec : CreateSpec) : List Text :=
  spec.publication.env

def serverCommand (spec : CreateSpec) : Option (List Text) :=
  match databasePort spec.env with
  | some port => some ["--port=".toList ++ Text.decimal port]
  | none => if (Text.trim spec.startupCommand).isEmpty then none else runtimeServerCommand spec.startupCommand

def serverLabels (spec : CreateSpec) : Table Text Text :=
  ((AList.singleton serverIdLabel spec.resources.serverId).insert stopCommandLabel spec.stopCommand).insert
    startupDoneLabel spec.startupDone

/-- The request for the container of a new server. -/
def buildContainer (tools : LimitTools) (available : Nat -> Bool) (network : Text) (spec : CreateSpec)
    (hostPort : Int) : Except Failure ContainerBody := do
  let ports <- serverPorts available spec.publication hostPort
  let limits <- containerLimits tools spec.resources
  let environment := runtimeEnvironment spec.env
  .ok {
    config := {
      env := some environment
      cmd := serverCommand spec
      labels := some (serverLabels spec)
      exposedPorts := if ports.exposed.isEmpty then none else some ports.exposed }
    hostConfig := ensureRuntimeTmpfs {
      limits := limits
      tmpfs := none
      portBindings := if ports.bindings.entries.isEmpty then none else some ports.bindings
      restartPolicy := some manualRestartPolicy } environment
    networks := some [network] }

/-- The inputs of a creation as those of a reconfiguration. -/
def CreateSpec.ownInputs (spec : CreateSpec) (configFilesJson : Text) : ConfigurationRequest where
  env := spec.env
  startupCommand := spec.startupCommand
  stopCommand := spec.stopCommand
  startupDone := spec.startupDone
  configFilesJson := configFilesJson

/-- A creation with the inputs of a reconfiguration. -/
def CreateSpec.withInputs (spec : CreateSpec) (request : ConfigurationRequest) : CreateSpec :=
  { spec with
    publication := { spec.publication with env := request.env }
    startupCommand := request.startupCommand
    stopCommand := request.stopCommand
    startupDone := request.startupDone }

theorem buildContainer_ok {tools : LimitTools} {available : Nat -> Bool} {network : Text}
    {spec : CreateSpec} {hostPort : Int} {body : ContainerBody}
    (built : buildContainer tools available network spec hostPort = .ok body) :
    body.config.env = some (runtimeEnvironment spec.env) /\ body.config.cmd = serverCommand spec /\
      body.config.labels = some (serverLabels spec) /\ Exists fun hostConfig =>
        body.hostConfig = ensureRuntimeTmpfs hostConfig (runtimeEnvironment spec.env) := by
  unfold buildContainer at built
  rcases bind_eq_ok.mp built with ⟨ports, _, built⟩
  rcases bind_eq_ok.mp built with ⟨limits, _, same⟩
  cases same
  exact ⟨rfl, rfl, rfl, _, rfl⟩

/-! ## Commands -/

theorem runtimeServerCommand_length {startup : Text} {command : List Text}
    (launched : runtimeServerCommand startup = some command) : command.length = 5 := by
  unfold runtimeServerCommand at launched
  split at launched
  · cases launched
  · cases launched
    rfl

/-- The command of a creation is the launched one except for a database. -/
theorem serverCommand_eq_iff {spec : CreateSpec} :
    serverCommand spec = runtimeServerCommand spec.startupCommand <-> databasePort spec.env = none := by
  unfold serverCommand
  cases port : databasePort spec.env with
  | some number =>
      constructor
      · intro same
        exact absurd (runtimeServerCommand_length same.symm) (by simp)
      · intro impossible
        cases impossible
  | none =>
      refine ⟨fun _ => rfl, fun _ => ?_⟩
      dsimp only
      split
      · next empty =>
          unfold runtimeServerCommand
          rw [if_pos empty]
      · rfl

/-! ## When no change is seen -/

section Unchanged

variable {request : ConfigurationRequest} {config : ContainerConfig} {labels : Table Text Text}
  {hostConfig : Option HostConfig}

/-- A container has what is asked for: the command, the markers, the mount of
the runtime directory, and the same assignments to the variables in question. -/
structure AsRequested (request : ConfigurationRequest) (config : ContainerConfig)
    (labels : Table Text Text) (hostConfig : Option HostConfig) : Prop where
  command : config.cmd = runtimeServerCommand request.startupCommand
  stopCommand : (labels.lookup stopCommandLabel).getD [] = request.stopCommand
  startupDone : (labels.lookup startupDoneLabel).getD [] = request.startupDone
  tmpfs : runtimeTmpfsReady hostConfig (runtimeEnvironment request.env) = true
  entries : ((config.env.getD []).filter (Assignments.assignsOneOf
    (Assignments.assignedKeys (runtimeEnvironment request.env)))).Perm (runtimeEnvironment request.env)

theorem runtimeTmpfsReady_override (base : List Text) :
    runtimeTmpfsReady hostConfig (Assignments.override base (runtimeEnvironment request.env)) =
      runtimeTmpfsReady hostConfig (runtimeEnvironment request.env) := by
  unfold runtimeTmpfsReady runtimeEnvironmentValue
  rw [Assignments.lastValue_override, lastValue_runtimeDir]
  rfl

theorem configurationChanged_eq_false :
    configurationChanged request config labels hostConfig = false <->
      AsRequested request config labels hostConfig := by
  unfold configurationChanged mergedEnvironment
  dsimp only
  rw [runtimeTmpfsReady_override]
  have sorted : normalizedEnvironment config.env = normalizedEnvironment
        (some (Assignments.override (config.env.getD []) (runtimeEnvironment request.env))) <->
      ((config.env.getD []).filter (Assignments.assignsOneOf
        (Assignments.assignedKeys (runtimeEnvironment request.env)))).Perm
          (runtimeEnvironment request.env) := by
    unfold normalizedEnvironment
    rw [Option.getD_some, Assignments.mergeSort_eq_iff, Assignments.perm_override_iff]
  simp only [Bool.or_eq_false_iff, decide_eq_false_iff_not, Classical.not_not, Bool.not_eq_false', sorted]
  constructor
  · rintro ⟨⟨⟨⟨entries, command⟩, tmpfs⟩, stopCommand⟩, startupDone⟩
    exact ⟨command, stopCommand, startupDone, tmpfs, entries⟩
  · rintro ⟨command, stopCommand, startupDone, tmpfs, entries⟩
    exact ⟨⟨⟨⟨entries, command⟩, tmpfs⟩, stopCommand⟩, startupDone⟩

end Unchanged

/-! ## The inputs of the creation -/

/-- The inputs name no database, and every entry has a value. -/
structure OwnInputsAgree (spec : CreateSpec) : Prop where
  noDatabase : databasePort spec.env = none
  valued : forall entry, entry ∈ spec.env -> Not (Assignments.Valueless entry)

theorem not_assigns_of_valueless {keys : List Text} {entry : Text} (valueless : Assignments.Valueless entry) :
    Assignments.assignsOneOf keys entry = false := by
  unfold Assignments.assignsOneOf
  rw [valueless]

/-- The entries of an environment assign to its own names, if they assign at all. -/
theorem assignsOneOf_own {entries : List Text} {entry : Text} (inside : entry ∈ entries) :
    Assignments.assignsOneOf (Assignments.assignedKeys entries) entry = true <->
      Not (Assignments.Valueless entry) := by
  constructor
  · intro assigns valueless
    rw [not_assigns_of_valueless valueless] at assigns
    cases assigns
  · intro valued
    cases split : Text.splitOnce '=' entry with
    | none => exact absurd split valued
    | some parts =>
        have assigned : (Assignments.valueFor parts.1 entry).isSome = true :=
          Assignments.valueFor_isSome.mpr ⟨parts.2, split⟩
        rw [Assignments.assignsOneOf_of_valueFor assigned]
        exact List.contains_iff_mem.mpr (Assignments.mem_assignedKeys.mpr ⟨entry, inside, assigned⟩)

/-- The entries of an image that are added to an environment assign to none of its names. -/
theorem imageEntries_not_assigns {image env : List Text} {entry : Text}
    (added : entry ∈ imageEntries image env) :
    Assignments.assignsOneOf (Assignments.assignedKeys env) entry = false := by
  have fresh := of_decide_eq_true (List.mem_filter.mp added).2
  cases split : Text.splitOnce '=' entry with
  | none => exact not_assigns_of_valueless split
  | some parts =>
      have assigned : (Assignments.valueFor parts.1 entry).isSome = true :=
        Assignments.valueFor_isSome.mpr ⟨parts.2, split⟩
      rw [Assignments.assignsOneOf_of_valueFor assigned]
      rw [Assignments.entryKey_of_assigned assigned] at fresh
      by_contra named
      rw [Bool.not_eq_false, List.contains_iff_mem] at named
      rcases Assignments.mem_assignedKeys.mp named with ⟨other, inside, gives⟩
      apply fresh
      rw [<- Assignments.entryKey_of_assigned gives]
      exact List.mem_map_of_mem inside

/-- An environment with what the image adds assigns the same exactly if none
of its own entries is without a value. -/
theorem own_entries_perm_iff (image env : List Text) :
    ((env ++ imageEntries image env).filter
        (Assignments.assignsOneOf (Assignments.assignedKeys env))).Perm env <->
      forall entry, entry ∈ env -> Not (Assignments.Valueless entry) := by
  have nothing : (imageEntries image env).filter
      (Assignments.assignsOneOf (Assignments.assignedKeys env)) = [] := by
    apply List.filter_eq_nil_iff.mpr
    intro entry added
    rw [imageEntries_not_assigns added]
    exact Bool.false_ne_true
  rw [List.filter_append, nothing, List.append_nil]
  constructor
  · intro same entry inside
    have whole := List.length_filter_eq_length_iff.mp same.length_eq
    exact (assignsOneOf_own inside).mp (whole entry inside)
  · intro valued
    have whole : env.filter (Assignments.assignsOneOf (Assignments.assignedKeys env)) = env :=
      List.filter_eq_self.mpr (fun entry inside => (assignsOneOf_own inside).mpr (valued entry inside))
    rw [whole]

theorem valueless_runtimeEnvironment {values : List Text} :
    (forall entry, entry ∈ runtimeEnvironment values -> Not (Assignments.Valueless entry)) <->
      forall entry, entry ∈ values -> Not (Assignments.Valueless entry) := by
  unfold runtimeEnvironment
  constructor
  · intro valued entry inside valueless
    refine valued entry (List.mem_append_left _ (List.mem_filter.mpr ⟨inside, ?_⟩)) valueless
    rw [not_assigns_of_valueless valueless]
    rfl
  · intro valued entry inside valueless
    rcases List.mem_append.mp inside with kept | added
    · exact valued entry (List.mem_filter.mp kept).1 valueless
    · rw [List.mem_singleton.mp added] at valueless
      unfold Assignments.Valueless runtimeDirEntry at valueless
      rw [Assignments.splitOnce_assignment equals_not_mem_xdgRuntimeDirKey] at valueless
      cases valueless

/-- An update with these inputs sees no change in a container and replaces nothing. -/
structure Undisturbed (request : ConfigurationRequest) (id : Text) (container : Container) : Prop where
  unchanged : forall config labels, container.config = some config -> config.labels = some labels ->
    configurationChanged request config labels container.hostConfig = false
  kept : forall course state, state.containers id = some container ->
    (updateConfiguration course id request state).1.containers = state.containers

theorem updateConfiguration_kept {course : ReconfigurationCourse} {id : Text} {request : ConfigurationRequest}
    {state : ServerState} {container : Container} (present : state.containers id = some container)
    (unchanged : forall config labels, container.config = some config -> config.labels = some labels ->
      configurationChanged request config labels container.hostConfig = false) :
    (updateConfiguration course id request state).1.containers = state.containers := by
  unfold updateConfiguration
  split
  · rfl
  · next found config labels prepared =>
      rcases prepareConfiguration_ok prepared with ⟨there, ofConfig, ofLabels, _⟩
      cases present.symm.trans there
      split
      · rfl
      · unfold configureContainer
        rw [unchanged config labels ofConfig ofLabels, if_neg Bool.false_ne_true]

/-- A container that was built is as requested exactly if the inputs name no
database and have no entry without a value. -/
theorem asRequested_own_iff {tools : LimitTools} {available : Nat -> Bool} {network : Text}
    {spec : CreateSpec} {hostPort : Int} {body : ContainerBody}
    (built : buildContainer tools available network spec hostPort = .ok body) (image : List Text)
    (configFilesJson : Text) :
    AsRequested (spec.ownInputs configFilesJson)
        { body.config with
          env := some (body.config.env.getD [] ++ imageEntries image (body.config.env.getD [])) }
        (serverLabels spec) (some body.hostConfig) <-> OwnInputsAgree spec := by
  rcases buildContainer_ok built with ⟨ofEnv, ofCommand, _, hostConfig, ofHost⟩
  have entries := own_entries_perm_iff image (runtimeEnvironment spec.env)
  rw [valueless_runtimeEnvironment] at entries
  constructor
  · rintro ⟨command, _, _, _, same⟩
    refine ⟨serverCommand_eq_iff.mp (ofCommand.symm.trans command), entries.mp ?_⟩
    rw [ofEnv] at same
    exact same
  · rintro ⟨noDatabase, valued⟩
    refine ⟨ofCommand.trans (serverCommand_eq_iff.mpr noDatabase), ?_, ?_, ?_, ?_⟩
    · unfold serverLabels
      rw [Table.lookup_insert_of_ne _ (by decide), AList.lookup_insert]
      rfl
    · unfold serverLabels
      rw [AList.lookup_insert]
      rfl
    · unfold runtimeTmpfsReady
      split
      · next managed =>
          rw [ofHost]
          exact decide_eq_true (ensureRuntimeTmpfs_ready managed)
      · rfl
    · rw [ofEnv]
      exact entries.mpr valued

theorem undisturbed_iff {tools : LimitTools} {available : Nat -> Bool} {network : Text}
    {spec : CreateSpec} {hostPort : Int} {body : ContainerBody}
    (built : buildContainer tools available network spec hostPort = .ok body) (image : List Text)
    (configFilesJson id : Text) (running : Bool) :
    Undisturbed (spec.ownInputs configFilesJson) id { body.created image with running := running } <->
      OwnInputsAgree spec := by
  rcases buildContainer_ok built with ⟨_, _, ofLabels, _⟩
  rw [<- asRequested_own_iff built image configFilesJson, <- configurationChanged_eq_false]
  constructor
  · intro undisturbed
    exact undisturbed.unchanged _ (serverLabels spec) rfl ofLabels
  · intro unchanged
    have seen : forall config labels,
        ({ body.created image with running := running } : Container).config = some config ->
          config.labels = some labels ->
            configurationChanged (spec.ownInputs configFilesJson) config labels
              ({ body.created image with running := running } : Container).hostConfig = false := by
      intro config labels ofConfig labelled
      cases ofConfig
      cases ofLabels.symm.trans labelled
      exact unchanged
    exact ⟨seen, fun course state present => updateConfiguration_kept present seen⟩

/-! ## Other inputs -/

/-- A container has the command and, for the variables which the inputs name,
the values that a creation with the inputs would have given it. -/
structure ProducedAs (request : ConfigurationRequest) (body : ContainerBody) (now : Container) : Prop where
  command : now.command = body.config.cmd
  environment : forall key, key ∈ request.env.map Assignments.entryKey ->
    Assignments.lastValue key now.environment = Assignments.lastValue key (body.config.env.getD [])

/-- The inputs name no database; a variable that they name without a value is
not set; and where they ask for what is there, the last assignments are the same. -/
structure OtherInputsAgree (request : ConfigurationRequest) (container : Container) : Prop where
  noDatabase : databasePort request.env = none
  unset : forall key, key ∈ request.env.map Assignments.entryKey ->
    Assignments.lastValue key (runtimeEnvironment request.env) = none ->
      Assignments.lastValue key container.environment = none
  order : forall config labels, container.config = some config -> config.labels = some labels ->
    AsRequested request config labels container.hostConfig ->
      forall key, key ∈ request.env.map Assignments.entryKey ->
        Assignments.lastValue key container.environment =
          Assignments.lastValue key (runtimeEnvironment request.env)

theorem named_in_runtimeEnvironment {key : Text} {values : List Text}
    (named : key ∈ values.map Assignments.entryKey) :
    key ∈ (runtimeEnvironment values).map Assignments.entryKey := by
  rcases List.mem_map.mp named with ⟨entry, inside, same⟩
  unfold runtimeEnvironment
  rw [List.map_append, List.mem_append]
  by_cases dropped : Assignments.assignsOneOf [xdgRuntimeDirKey] entry = true
  · right
    unfold Assignments.assignsOneOf at dropped
    split at dropped
    · next name value split =>
        have isKey : name = xdgRuntimeDirKey := by simpa using dropped
        have keyOf : Assignments.entryKey entry = name :=
          Assignments.entryKey_of_assigned (Assignments.valueFor_isSome.mpr ⟨value, split⟩)
        rw [List.map_singleton, List.mem_singleton, <- same, keyOf, isKey]
        have assigned := valueFor_runtimeDirEntry (configuredRuntimeDir values)
        exact (Assignments.entryKey_of_assigned (by rw [assigned]; rfl)).symm
    · cases dropped
  · left
    refine List.mem_map.mpr ⟨entry, List.mem_filter.mpr ⟨inside, ?_⟩, same⟩
    simpa using dropped

/-- The image decides nothing about a variable that the inputs name. -/
theorem lastValue_requestedContainer {request : ConfigurationRequest} {config : ContainerConfig}
    {labels : Table Text Text} {hostConfig : HostConfig} {networks : Option (List Text)} {image : List Text}
    {key : Text} (named : key ∈ request.env.map Assignments.entryKey) :
    Assignments.lastValue key (requestedContainer request config labels hostConfig networks image).environment =
      (Assignments.lastValue key (runtimeEnvironment request.env)).or
        (Assignments.lastValue key (config.env.getD [])) := by
  have inMerged : key ∈ (requestedEnvironment request config).map Assignments.entryKey :=
    Assignments.mem_keys_override.mpr (Or.inr (named_in_runtimeEnvironment named))
  have silent : Assignments.lastValue key (imageEntries image (requestedEnvironment request config)) = none := by
    apply Assignments.lastValue_of_no_key
    intro added
    rcases List.mem_map.mp added with ⟨entry, inside, same⟩
    have fresh := of_decide_eq_true (List.mem_filter.mp inside).2
    rw [same] at fresh
    exact fresh inMerged
  rw [requestedContainer_environment, Assignments.lastValue_append, silent, Option.none_or]
  exact Assignments.lastValue_override _ _ _

theorem replaceServer_ok {course : ReconfigurationCourse} {id : Text} {body : ContainerBody}
    {containers after : Containers} {wasRunning : Bool}
    (ran : replaceServer course id wasRunning body containers = (after, .ok ())) :
    Exists fun running => after id = some { body.created course.image with running := running } := by
  unfold replaceServer at ran
  dsimp only at ran
  split at ran
  · cases ran
  · split at ran
    · cases ran
    · next replacing =>
        rcases replaceStaleContainer_ok (Prod.ext rfl replacing) with ⟨_, created⟩
        unfold startStopped at ran
        split at ran
        · split at ran
          · refine ⟨true, ?_⟩
            exact (congrFun (Prod.mk.inj ran).1.symm id).trans (Containers.setRunning_self created true)
          · cases ran
        · exact ⟨false, (congrFun (Prod.mk.inj ran).1.symm id).trans created⟩

/-- The container after an update of the configuration that succeeds. -/
theorem updateConfiguration_ok {course : ReconfigurationCourse} {id : Text} {request : ConfigurationRequest}
    {before after : ServerState} (ran : updateConfiguration course id request before = (after, .ok ())) :
    Exists fun container => Exists fun config => Exists fun labels =>
      before.containers id = some container /\ container.config = some config /\
      config.labels = some labels /\
      ((AsRequested request config labels container.hostConfig /\ after.containers id = some container) \/
        (Not (AsRequested request config labels container.hostConfig) /\
          Exists fun hostConfig => Exists fun running => after.containers id =
            some { requestedContainer request config labels hostConfig container.networks course.image with
              running := running })) := by
  unfold updateConfiguration at ran
  split at ran
  · cases ran
  · next container config labels prepared =>
      rcases prepareConfiguration_ok prepared with ⟨present, ofConfig, ofLabels, _⟩
      refine ⟨container, config, labels, present, ofConfig, ofLabels, ?_⟩
      split at ran
      · cases ran
      · dsimp only at ran
        rcases Prod.mk.inj ran with ⟨same, succeeded⟩
        subst same
        unfold configureContainer at succeeded ⊢
        split at succeeded
        · next changed =>
            rw [if_pos changed]
            right
            refine ⟨fun asRequested => ?_, ?_⟩
            · rw [configurationChanged_eq_false.mpr asRequested] at changed
              cases changed
            · split at succeeded
              · cases succeeded
              · next hostConfig ofHost =>
                  exact ⟨hostConfig, replaceServer_ok (Prod.ext rfl succeeded)⟩
        · next notChanged =>
            rw [if_neg notChanged]
            left
            exact ⟨configurationChanged_eq_false.mp (Bool.eq_false_of_not_eq_true notChanged), present⟩

theorem or_eq_left_iff {Value : Type} {first second : Option Value} :
    first.or second = first <-> (first = none -> second = none) := by
  cases first <;> simp

theorem updateConfiguration_produces_iff {tools : LimitTools} {available : Nat -> Bool} {network : Text}
    {spec : CreateSpec} {hostPort : Int} {body : ContainerBody} {request : ConfigurationRequest}
    (rebuilt : buildContainer tools available network (spec.withInputs request) hostPort = .ok body)
    {course : ReconfigurationCourse} {id : Text} {before after : ServerState} {current : Container}
    (present : before.containers id = some current)
    (ran : updateConfiguration course id request before = (after, .ok ())) :
    (Exists fun now => after.containers id = some now /\ ProducedAs request body now) <->
      OtherInputsAgree request current := by
  rcases buildContainer_ok rebuilt with ⟨ofEnv, ofCommand, _, _⟩
  have values : body.config.env.getD [] = runtimeEnvironment request.env := by
    rw [ofEnv]
    rfl
  have database : serverCommand (spec.withInputs request) = runtimeServerCommand request.startupCommand <->
      databasePort request.env = none := serverCommand_eq_iff
  rcases updateConfiguration_ok ran with ⟨container, config, labels, there, ofConfig, ofLabels, outcome⟩
  cases present.symm.trans there
  have environment : current.environment = config.env.getD [] := by
    unfold Container.environment
    rw [ofConfig]
    rfl
  rcases outcome with ⟨asRequested, kept⟩ | ⟨notRequested, hostConfig, running, replaced⟩
  · have command : current.command = runtimeServerCommand request.startupCommand := by
      unfold Container.command
      rw [ofConfig]
      exact asRequested.command
    constructor
    · rintro ⟨now, isNow, produced⟩
      cases kept.symm.trans isNow
      have same (key : Text) (named : key ∈ request.env.map Assignments.entryKey) :=
        (produced.environment key named).trans (congrArg (Assignments.lastValue key) values)
      refine ⟨database.mp (ofCommand.symm.trans (produced.command.symm.trans command)), ?_, ?_⟩
      · intro key named nothing
        exact (same key named).trans nothing
      · intro _ _ _ _ _ key named
        exact same key named
    · intro agree
      refine ⟨current, kept, ?_, ?_⟩
      · exact command.trans ((database.mpr agree.noDatabase).symm.trans ofCommand.symm)
      · intro key named
        rw [values]
        exact agree.order config labels ofConfig ofLabels asRequested key named
  · have newCommand := requestedContainer_command request config labels hostConfig current.networks course.image
    constructor
    · rintro ⟨now, isNow, command, produced⟩
      cases replaced.symm.trans isNow
      refine ⟨database.mp (ofCommand.symm.trans (command.symm.trans newCommand)), ?_, ?_⟩
      · intro key named
        have same := produced key named
        rw [values] at same
        rw [environment]
        exact or_eq_left_iff.mp ((lastValue_requestedContainer named).symm.trans same)
      · intro otherConfig otherLabels ofOther labelled asRequested
        cases ofConfig.symm.trans ofOther
        cases ofLabels.symm.trans labelled
        exact absurd asRequested notRequested
    · intro agree
      refine ⟨_, replaced, ?_, ?_⟩
      · exact newCommand.trans ((database.mpr agree.noDatabase).symm.trans ofCommand.symm)
      · intro key named
        rw [values]
        have unset := agree.unset key named
        rw [environment] at unset
        exact (lastValue_requestedContainer named).trans (or_eq_left_iff.mpr unset)

/-- A container that was built is left alone by its own inputs exactly if they
agree; after an update with other inputs that succeeds, a container has what a
creation with these would have given it exactly if the others agree. -/
theorem create_and_update_agree_iff {tools : LimitTools} {available : Nat -> Bool} {network : Text}
    {spec : CreateSpec} {hostPort otherPort : Int} {body otherBody : ContainerBody}
    (built : buildContainer tools available network spec hostPort = .ok body) (image : List Text)
    (configFilesJson : Text) (running : Bool) {request : ConfigurationRequest}
    (rebuilt : buildContainer tools available network (spec.withInputs request) otherPort = .ok otherBody)
    {course : ReconfigurationCourse} {id : Text} {before after : ServerState} {current : Container}
    (present : before.containers id = some current)
    (ran : updateConfiguration course id request before = (after, .ok ())) :
    (Undisturbed (spec.ownInputs configFilesJson) id { body.created image with running := running } <->
        OwnInputsAgree spec) /\
      ((Exists fun now => after.containers id = some now /\ ProducedAs request otherBody now) <->
        OtherInputsAgree request current) :=
  ⟨undisturbed_iff built image configFilesJson id running,
    updateConfiguration_produces_iff rebuilt present ran⟩

/-- A server without limits or ports of its own. -/
def sampleSpec (env : List Text) : CreateSpec where
  image := "example/server:latest".toList
  publication := ⟨false, 0, [], env, []⟩
  resources := sampleResources 0 0
  startupCommand := "./server".toList
  stopCommand := "stop".toList
  startupDone := "Done".toList
  installImage := []
  installEntrypoint := []
  installScript := []
  configFilesJson := []

/-- A reconfiguration in which no call fails. -/
def quietReconfiguration : ReconfigurationCourse :=
  { refusedRename with rename := none }

/-- The environment of a server with a runtime directory of its own. -/
def runtimeDirEnv : List Text :=
  ["XDG_RUNTIME_DIR=/run/game".toList]

def runtimeDirRequest : ConfigurationRequest :=
  (sampleSpec runtimeDirEnv).ownInputs []

theorem runtimeDirSpec_built : Exists fun body =>
    buildContainer sampleLimitTools (fun _ => true) "agapornis_ntw".toList (sampleSpec runtimeDirEnv) 0 =
      .ok body :=
  ⟨_, rfl⟩

theorem runtimeDirRequest_succeeds :
    (updateConfiguration quietReconfiguration "server-1".toList runtimeDirRequest (sampleServer false)).2 =
      .ok () := by
  decide +kernel

theorem create_and_update_agree_iff_sample : Exists fun body =>
    buildContainer sampleLimitTools (fun _ => true) "agapornis_ntw".toList (sampleSpec runtimeDirEnv) 0 =
        .ok body /\
      (Undisturbed runtimeDirRequest "server-1".toList (body.created []) <->
        OwnInputsAgree (sampleSpec runtimeDirEnv)) /\
      ((Exists fun now => (updateConfiguration quietReconfiguration "server-1".toList runtimeDirRequest
            (sampleServer false)).1.containers "server-1".toList = some now /\
          ProducedAs runtimeDirRequest body now) <->
        OtherInputsAgree runtimeDirRequest (sampleContainer false)) := by
  rcases runtimeDirSpec_built with ⟨body, built⟩
  have rebuilt : buildContainer sampleLimitTools (fun _ => true) "agapornis_ntw".toList
      ((sampleSpec runtimeDirEnv).withInputs runtimeDirRequest) 0 = .ok body := built
  have present : (sampleServer false).containers "server-1".toList = some (sampleContainer false) := rfl
  exact ⟨body, built, create_and_update_agree_iff built [] [] false rebuilt present
    (Prod.ext rfl runtimeDirRequest_succeeds)⟩

/-! ## A database is replaced by its own inputs -/

/-- The environment of a database server. -/
def databaseEnv : List Text :=
  ["AGAPORNIS_DATABASE_PORT=3306".toList]

theorem databaseSpec_built : Exists fun body =>
    buildContainer sampleLimitTools (fun _ => true) "agapornis_ntw".toList (sampleSpec databaseEnv) 0 =
      .ok body :=
  ⟨_, rfl⟩

/-- The inputs with which a database server was created are seen as a change. -/
theorem database_disturbed_by_own_inputs : Exists fun body =>
    buildContainer sampleLimitTools (fun _ => true) "agapornis_ntw".toList (sampleSpec databaseEnv) 0 =
        .ok body /\
      Not (Undisturbed ((sampleSpec databaseEnv).ownInputs []) "server-1".toList (body.created [])) := by
  rcases databaseSpec_built with ⟨body, built⟩
  refine ⟨body, built, ?_⟩
  intro undisturbed
  have agree := (undisturbed_iff built [] [] "server-1".toList false).mp undisturbed
  exact absurd agree.noDatabase (by decide)

end Runtime
end Agapornis
