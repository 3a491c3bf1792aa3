import Agapornis.Core.Value
import Agapornis.Runtime.Reconfiguration

namespace Agapornis
namespace Runtime

open Foundations Agapornis.Core

/-!
# Repairs come to an end

A server that is started is first looked at, as the text of the inspection
shows it: an environment without its runtime directory, a managed directory
without its mount, or a command from before the launcher has the container
made again.  The container made again passes all three looks, so that the next
start leaves it alone.
-/

/-! ## The text of an inspection -/

/-- An entry of an object, left out where there is nothing. -/
def field (name : String) (value : Option Value) : List (Text × Value) :=
  (value.map fun value => (name.toList, value)).toList

def textsValue (texts : List Text) : Value :=
  .array (texts.map .string)

def tableValue (table : Table Text Text) : Value :=
  .object (table.entries.map fun entry => (entry.1, .string entry.2))

namespace Container

/-- A container as the text of its inspection, without what no check reads. -/
def inspected (container : Container) : Value :=
  .object (field "State" (some (.object (field "Running" (some (.bool container.running))))) ++
    field "Config" (container.config.map fun config => .object (
      field "Env" (config.env.map textsValue) ++ field "Cmd" (config.cmd.map textsValue) ++
        field "Labels" (config.labels.map tableValue))) ++
    field "HostConfig" (container.hostConfig.map fun hostConfig => .object (
      field "Tmpfs" (hostConfig.tmpfs.map tableValue))))

end Container

/-- The texts in an array. -/
def arrayTexts : Value -> Option (List Text)
  | .array elements => some (elements.filterMap Value.asStr)
  | _ => none

def runtimeConfigurationReady (inspect : Value) : Bool :=
  let environment := ((inspect.pointer ["Config".toList, "Env".toList]).bind arrayTexts).getD []
  match runtimeEnvironmentValue environment with
  | none => false
  | some value =>
      if !(Text.trim value).isEmpty && decide (Not (value = managedXdgRuntimeDir)) then true
      else if value = managedXdgRuntimeDir then
        decide (((inspect.pointer ["HostConfig".toList, "Tmpfs".toList]).bind
          (fun tmpfs => (tmpfs.get managedXdgRuntimeDir).bind Value.asStr)) =
            some managedXdgRuntimeTmpfsOptions)
      else false

def runtimeLauncherRepairNeeded (inspect : Value) : Bool :=
  match (inspect.pointer ["Config".toList, "Cmd".toList]).bind arrayTexts with
  | none => false
  | some command => (legacyRuntimeCommand command).isSome

def shownRunning (inspect : Value) : Bool :=
  decide ((inspect.pointer ["State".toList, "Running".toList]).bind Value.asBool = some true)

/-- The repairs of the runtime which `start` finds necessary. -/
def needsRuntimeRepair (inspect : Value) : Bool :=
  !shownRunning inspect && !runtimeConfigurationReady inspect

def needsLauncherRepair (inspect : Value) : Bool :=
  !shownRunning inspect && runtimeLauncherRepairNeeded inspect

/-! ## What the text shows -/

theorem arrayTexts_textsValue (texts : List Text) : arrayTexts (textsValue texts) = some texts := by
  refine congrArg some ?_
  induction texts with
  | nil => rfl
  | cons text rest induction =>
      rw [List.map_cons, List.filterMap_cons]
      exact congrArg (text :: ·) induction

theorem get_tableValue (table : Table Text Text) (key : Text) :
    ((tableValue table).get key).bind Value.asStr = table.lookup key := by
  rcases table with ⟨entries, distinct⟩
  change (((entries.map fun entry => (entry.1, Value.string entry.2)).find?
    (fun entry => entry.1 == key)).map Prod.snd).bind Value.asStr = entries.dlookup key
  clear distinct
  induction entries with
  | nil => rfl
  | cons entry rest induction =>
      rcases entry with ⟨name, value⟩
      by_cases same : name = key
      · subst same
        rw [List.dlookup_cons_eq, List.map_cons, List.find?_cons_of_pos (by simp)]
        rfl
      · rw [List.dlookup_cons_ne _ _ (Ne.symm same), <- induction, List.map_cons,
          List.find?_cons_of_neg (by simpa using same)]

theorem inspected_env (container : Container) :
    ((container.inspected.pointer ["Config".toList, "Env".toList]).bind arrayTexts).getD [] =
      container.environment := by
  rcases container with ⟨_ | ⟨env, cmd, labels, exposed⟩, hostConfig, networks, running⟩
  · cases hostConfig <;> rfl
  · cases env with
    | none => cases cmd <;> cases labels <;> rfl
    | some env =>
        have shown : (arrayTexts (textsValue env)).getD [] = env := by rw [arrayTexts_textsValue]; rfl
        exact shown

theorem inspected_cmd (container : Container) :
    (container.inspected.pointer ["Config".toList, "Cmd".toList]).bind arrayTexts = container.command := by
  rcases container with ⟨_ | ⟨env, cmd, labels, exposed⟩, hostConfig, networks, running⟩
  · cases hostConfig <;> rfl
  · cases cmd with
    | none => cases env <;> cases labels <;> rfl
    | some cmd => cases env <;> exact arrayTexts_textsValue cmd

theorem inspected_tmpfs (container : Container) (place : Text) :
    (container.inspected.pointer ["HostConfig".toList, "Tmpfs".toList]).bind
        (fun tmpfs => (tmpfs.get place).bind Value.asStr) = container.tmpfs place := by
  rcases container with ⟨config, _ | ⟨limits, tmpfs, bindings, policy⟩, networks, running⟩
  · cases config <;> rfl
  · cases tmpfs with
    | none => cases config <;> rfl
    | some tmpfs => cases config <;> exact get_tableValue tmpfs place

/-- The text shows what the container has. -/
theorem runtimeConfigurationReady_inspected {container : Container} {value : Text}
    (configured : runtimeEnvironmentValue container.environment = some value)
    (trimmed : Text.trim value = value) (nonempty : Not (value = [])) :
    runtimeConfigurationReady container.inspected =
      runtimeTmpfsReady container.hostConfig container.environment := by
  have shown : (Text.trim value).isEmpty = false := by
    rw [trimmed]
    exact List.isEmpty_eq_false_iff.mpr nonempty
  unfold runtimeConfigurationReady runtimeTmpfsReady
  dsimp only
  rw [inspected_env, inspected_tmpfs, configured]
  dsimp only
  by_cases managed : value = managedXdgRuntimeDir
  · subst managed
    simp only [not_true_eq_false, decide_false, Bool.and_false, Bool.false_eq_true, if_false, if_true]
    rfl
  · have other : Not (some value = some managedXdgRuntimeDir) := fun same => managed (Option.some.inj same)
    simp only [shown, managed, not_false_eq_true, decide_true, Bool.not_false, Bool.and_self, if_true,
      other, if_false]

/-! ## The container made again -/

/-- An entry of the form `XDG_RUNTIME_DIR=value`. -/
def isRuntimeDirEntry (entry : Text) : Bool :=
  (xdgRuntimeDirKey ++ ['=']).isPrefixOf entry

theorem isRuntimeDirEntry_eq (entry : Text) :
    isRuntimeDirEntry entry = Assignments.assignsOneOf [xdgRuntimeDirKey] entry := by
  rw [Bool.eq_iff_iff]
  unfold isRuntimeDirEntry
  rw [List.isPrefixOf_iff_prefix]
  constructor
  · rintro ⟨value, whole⟩
    rw [<- whole, List.append_assoc, List.singleton_append]
    unfold Assignments.assignsOneOf
    rw [Assignments.splitOnce_assignment equals_not_mem_xdgRuntimeDirKey]
    exact List.contains_iff_mem.mpr List.mem_cons_self
  · intro assigns
    unfold Assignments.assignsOneOf at assigns
    split at assigns
    · next name value split =>
        have same := List.mem_singleton.mp (List.contains_iff_mem.mp assigns)
        rcases Text.splitOnce_eq_some.mp split with ⟨_, whole⟩
        exact ⟨value, by rw [whole, same, List.append_assoc]; rfl⟩
    · cases assigns

theorem isRuntimeDirEntry_runtimeDirEntry (dir : Text) : isRuntimeDirEntry (runtimeDirEntry dir) = true := by
  unfold isRuntimeDirEntry runtimeDirEntry
  rw [List.isPrefixOf_iff_prefix]
  exact ⟨dir, by rw [List.append_assoc]; rfl⟩

/-- The environment in order is what was there besides the runtime directory,
and the directory behind it. -/
theorem runtimeEnvironment_eq (values : List Text) :
    runtimeEnvironment values = values.filter (fun entry => !isRuntimeDirEntry entry) ++
      [runtimeDirEntry (configuredRuntimeDir values)] := by
  simp only [runtimeEnvironment, isRuntimeDirEntry_eq]

theorem runtimeEnvironment_others (values : List Text) :
    (runtimeEnvironment values).filter (fun entry => !isRuntimeDirEntry entry) =
      values.filter (fun entry => !isRuntimeDirEntry entry) := by
  rw [runtimeEnvironment_eq, List.filter_append, List.filter_filter,
    List.filter_cons_of_neg (by rw [isRuntimeDirEntry_runtimeDirEntry]; decide), List.filter_nil,
    List.append_nil]
  simp only [Bool.and_self]

theorem runtimeEnvironment_single (values : List Text) :
    (runtimeEnvironment values).filter isRuntimeDirEntry =
      [runtimeDirEntry (configuredRuntimeDir values)] := by
  have nothing : (values.filter (fun entry => !isRuntimeDirEntry entry)).filter isRuntimeDirEntry = [] := by
    rw [List.filter_filter]
    simp only [Bool.and_not_self, List.filter_false]
  rw [runtimeEnvironment_eq, List.filter_append, nothing, List.nil_append,
    List.filter_cons_of_pos (isRuntimeDirEntry_runtimeDirEntry _), List.filter_nil]

theorem configuredRuntimeDir_again (values : List Text) :
    configuredRuntimeDir (runtimeEnvironment values) = configuredRuntimeDir values := by
  rcases configuredRuntimeDir_trimmed values with ⟨trimmed, nonempty⟩
  exact configuredRuntimeDir_of_lastValue (lastValue_runtimeDir values) trimmed nonempty

theorem runtimeEnvironment_again (values : List Text) :
    runtimeEnvironment (runtimeEnvironment values) = runtimeEnvironment values := by
  rw [runtimeEnvironment_eq (runtimeEnvironment values), runtimeEnvironment_others,
    configuredRuntimeDir_again, <- runtimeEnvironment_eq]

/-- What the image adds to an environment in order leaves its runtime directory. -/
theorem runtimeEnvironmentValue_image (image values : List Text) :
    runtimeEnvironmentValue (runtimeEnvironment values ++ imageEntries image (runtimeEnvironment values)) =
      some (configuredRuntimeDir values) := by
  have named : xdgRuntimeDirKey ∈ (runtimeEnvironment values).map Assignments.entryKey := by
    by_contra absent
    have nothing := Assignments.lastValue_of_no_key absent
    rw [lastValue_runtimeDir] at nothing
    cases nothing
  have silent : Assignments.lastValue xdgRuntimeDirKey
      (imageEntries image (runtimeEnvironment values)) = none := by
    apply Assignments.lastValue_of_no_key
    intro added
    rcases List.mem_map.mp added with ⟨entry, inside, same⟩
    have fresh := of_decide_eq_true (List.mem_filter.mp inside).2
    rw [same] at fresh
    exact fresh named
  unfold runtimeEnvironmentValue
  rw [Assignments.lastValue_append, silent, Option.none_or, lastValue_runtimeDir]

theorem ensureRuntimeTmpfs_again (hostConfig : HostConfig) (environment : List Text)
    (policy : Option RestartPolicy) :
    ensureRuntimeTmpfs { ensureRuntimeTmpfs hostConfig environment with restartPolicy := policy } environment =
      { ensureRuntimeTmpfs hostConfig environment with restartPolicy := policy } := by
  unfold ensureRuntimeTmpfs
  by_cases managed : runtimeEnvironmentValue environment = some managedXdgRuntimeDir
  · simp only [if_pos managed, Option.getD_some, AList.insert_insert]
  · simp only [if_neg managed]

theorem legacyRuntimeCommand_repaired (command : Option (List Text)) :
    (repairLegacyRuntimeCommand command).bind legacyRuntimeCommand = none := by
  unfold repairLegacyRuntimeCommand
  cases legacy : command.bind legacyRuntimeCommand with
  | none => exact legacy
  | some startup =>
      dsimp only
      unfold runtimeServerCommand
      split <;> rfl

theorem repairLegacyRuntimeCommand_again (command : Option (List Text)) :
    repairLegacyRuntimeCommand (repairLegacyRuntimeCommand command) = repairLegacyRuntimeCommand command := by
  conv => lhs; rw [repairLegacyRuntimeCommand]
  rw [legacyRuntimeCommand_repaired]

section Body

variable (config : ContainerConfig) (hostConfig : HostConfig) (networks : Option (List Text))

theorem createBody_environment (image : List Text) :
    runtimeEnvironmentValue ((createBody config hostConfig networks).created image).environment =
      some (configuredRuntimeDir (config.env.getD [])) :=
  runtimeEnvironmentValue_image image (config.env.getD [])

theorem createBody_tmpfs (image : List Text) :
    runtimeTmpfsReady ((createBody config hostConfig networks).created image).hostConfig
      ((createBody config hostConfig networks).created image).environment = true := by
  unfold runtimeTmpfsReady
  rw [createBody_environment]
  by_cases managed : some (configuredRuntimeDir (config.env.getD [])) = some managedXdgRuntimeDir
  · rw [if_pos managed, decide_eq_true_eq]
    exact ensureRuntimeTmpfs_ready ((lastValue_runtimeDir _).trans managed)
  · rw [if_neg managed]

theorem createBody_ready (image : List Text) :
    runtimeConfigurationReady ((createBody config hostConfig networks).created image).inspected = true := by
  rcases configuredRuntimeDir_trimmed (config.env.getD []) with ⟨trimmed, nonempty⟩
  rw [runtimeConfigurationReady_inspected (createBody_environment config hostConfig networks image)
    trimmed nonempty]
  exact createBody_tmpfs config hostConfig networks image

theorem createBody_launched (image : List Text) :
    runtimeLauncherRepairNeeded ((createBody config hostConfig networks).created image).inspected = false := by
  unfold runtimeLauncherRepairNeeded
  rw [inspected_cmd]
  have repaired : ((createBody config hostConfig networks).created image).command.bind
      legacyRuntimeCommand = none := legacyRuntimeCommand_repaired config.cmd
  cases command : ((createBody config hostConfig networks).created image).command with
  | none => rfl
  | some words =>
      rw [command] at repaired
      exact congrArg Option.isSome repaired

theorem createBody_again :
    createBody (createBody config hostConfig networks).config
        (createBody config hostConfig networks).hostConfig networks =
      createBody config hostConfig networks := by
  simp only [createBody, Option.getD_some, runtimeEnvironment_again, repairLegacyRuntimeCommand_again,
    ensureRuntimeTmpfs_again]

/-- Nothing is left to repair in what is made of a body, whatever the image adds
to it.  Of the environment before, all but the runtime directory is kept, and
that is set once; making the body again changes nothing. -/
structure Settled (config : ContainerConfig) (body : ContainerBody) : Prop where
  runtime : forall image, runtimeConfigurationReady (body.created image).inspected = true
  tmpfs : forall image,
    runtimeTmpfsReady (body.created image).hostConfig (body.created image).environment = true
  launcher : forall image, runtimeLauncherRepairNeeded (body.created image).inspected = false
  leftAlone : forall image, needsRuntimeRepair (body.created image).inspected = false /\
    needsLauncherRepair (body.created image).inspected = false
  others : (body.config.env.getD []).filter (fun entry => !isRuntimeDirEntry entry) =
    (config.env.getD []).filter (fun entry => !isRuntimeDirEntry entry)
  single : Exists fun dir =>
    (body.config.env.getD []).filter isRuntimeDirEntry = [runtimeDirEntry dir]
  again : createBody body.config body.hostConfig body.networks = body

/-- One repair is enough. -/
theorem createBody_settled : Settled config (createBody config hostConfig networks) where
  runtime := createBody_ready config hostConfig networks
  tmpfs := createBody_tmpfs config hostConfig networks
  launcher := createBody_launched config hostConfig networks
  leftAlone image := by
    unfold needsRuntimeRepair needsLauncherRepair
    rw [createBody_ready, createBody_launched]
    exact ⟨Bool.and_false _, Bool.and_false _⟩
  others := runtimeEnvironment_others (config.env.getD [])
  single := ⟨_, runtimeEnvironment_single (config.env.getD [])⟩
  again := createBody_again config hostConfig networks

end Body

/-- A directory of the user's own is kept, without blanks, and gets no mount. -/
example : (createBody
    { env := some ["XDG_RUNTIME_DIR=".toList, "A=1".toList, "XDG_RUNTIME_DIR= /run/own ".toList]
      cmd := none, labels := none, exposedPorts := none }
    { limits := ⟨none, none, none, none⟩, tmpfs := none, portBindings := none, restartPolicy := none }
    none).config.env = some ["A=1".toList, "XDG_RUNTIME_DIR=/run/own".toList] := by
  decide

end Runtime
end Agapornis
