import Agapornis.Foundations.TreeEntries
import Agapornis.Runtime.Provisioning

namespace Agapornis
namespace Runtime

open Foundations Agapornis.Core Storage

/-!
# Creations under an id in use

Docker refuses the container of a creation under an id that is in use, but it
is asked last.  By then the metadata of the server have been written, its
installer has run, its configuration has been edited and its files have been
given to the runtime user.
-/

/-! ## What belongs to a server -/

section Belongings

variable (environment : Environment) (id : Text)

def dataPlace : List Text :=
  Paths.baseServersDir environment ++ [id]

/-- The places in the data directory of a server, and those of its metadata. -/
inductive ServerPlace : List Text -> Prop where
  | data {place : List Text} (inside : dataPlace environment id <+: place) : ServerPlace place
  | diskLimit : ServerPlace (Paths.baseServersDir environment ++ [Paths.metadataName, Paths.diskLimitName id])
  | configFiles :
      ServerPlace (Paths.baseServersDir environment ++ [Paths.metadataName, Paths.configFilesName id])

/-- The files of a server, the owners in its data directory and its container
are as before. -/
structure Kept (before after : NodeState) : Prop where
  files : forall place, ServerPlace environment id place ->
    after.files.tree.node place = before.files.tree.node place
  owners : forall place, dataPlace environment id <+: place ->
    (before.files.tree.node place).isSome = true -> after.files.owner place = before.files.owner place
  container : after.containers id = before.containers id

/-- A server that is there: it has a container and a data directory. -/
structure InUse (state : NodeState) : Prop where
  container : Exists fun container => state.containers id = some container
  directory : state.files.tree.node (dataPlace environment id) = some .directory

end Belongings

section Keeping

variable {environment : Environment} {id : Text}

theorem Kept.refl (state : NodeState) : Kept environment id state state :=
  ⟨fun _ _ => rfl, fun _ _ _ => rfl, rfl⟩

/-- What was kept so far stays kept exactly if the next step keeps it. -/
theorem Kept.iff_step {before middle after : NodeState} (kept : Kept environment id before middle) :
    Kept environment id before after <-> Kept environment id middle after := by
  constructor
  · intro whole
    refine ⟨?_, ?_, whole.container.trans kept.container.symm⟩
    · intro place belongs
      exact (whole.files place belongs).trans (kept.files place belongs).symm
    · intro place inside present
      have before : (middle.files.tree.node place) = _ := kept.files place (.data inside)
      rw [before] at present
      exact (whole.owners place inside present).trans (kept.owners place inside present).symm
  · intro step
    refine ⟨?_, ?_, step.container.trans kept.container⟩
    · intro place belongs
      exact (step.files place belongs).trans (kept.files place belongs)
    · intro place inside present
      have before : (middle.files.tree.node place) = _ := kept.files place (.data inside)
      exact (step.owners place inside (by rw [before]; exact present)).trans (kept.owners place inside present)

theorem InUse.of_kept {before after : NodeState} (inUse : InUse environment id before)
    (kept : Kept environment id before after) : InUse environment id after := by
  rcases inUse with ⟨⟨container, present⟩, directory⟩
  exact ⟨⟨container, kept.container.trans present⟩,
    (kept.files _ (.data List.prefix_rfl)).trans directory⟩

/-- Where only the tree changes, everything is kept if the places of the server are. -/
theorem kept_withTree_iff {state : NodeState} {tree : FileTree Text Bytes} :
    Kept environment id state (state.withTree tree) <->
      forall place, ServerPlace environment id place -> tree.node place = state.files.tree.node place :=
  ⟨fun kept => kept.files, fun same => ⟨same, fun _ _ _ => rfl, rfl⟩⟩

end Keeping

/-! ## Harmless calls -/

section Calls

variable (parsers : Parsers) (course : CreationCourse) (environment : Environment) (id : Text)

/-- A configuration file that is edited, with its bytes and those it gets. -/
structure Rewrites (tree : FileTree Text Bytes) (target : List (Component Text)) (config : Value)
    (place : List Text) (bytes output : Bytes) : Prop where
  found : canonicalize tree target = .ok place
  file : tree.node place = some (.file bytes)
  small : bytes.length <= maxConfigFileSize
  edited : Exists fun find => (config.get "find".toList).bind Value.asObject = some find /\
    parsers.apply (((config.get "parser".toList).bind Value.asStr).getD []) bytes find = .ok output

/-- A call which leaves everything that belongs to the server as it is. -/
def HarmlessCall : CreateCall -> NodeState -> Prop
  | .writeMetadata file path content, state =>
      forall place written, openForWriting state.files.tree (path.map .normal)
          (((course.write file).map Prod.snd).getD content) = .ok (place, written) ->
        ServerPlace environment id place ->
          state.files.tree.node place = some (.file (((course.write file).map Prod.snd).getD content))
  | .execInstaller attempt _ _ _, state =>
      Kept environment id state { state with files := (course.installer attempt).leaves state.files }
  | .applyConfigFile target config, state =>
      forall place bytes output, Rewrites parsers state.files.tree target config place bytes output ->
        ServerPlace environment id place -> output = bytes
  | .chown path, state =>
      forall place, path <+: place -> (state.files.tree.node place).isSome = true ->
        ((course.chown.map Prod.snd).getD (fun _ => true)) place = true ->
          state.files.owner place = serverRuntimeUser
  | _, _ => True

/-- The directories which a creation makes, the one which it hands over, and
the name of its container are those of the server. -/
def OwnCall : CreateCall -> Prop
  | .createDirAll path => path = dataPlace environment id \/
      path = Paths.baseServersDir environment ++ [Paths.metadataName]
  | .chown path => path = dataPlace environment id
  | .createContainer other _ => other = id
  | _ => True

variable {parsers course environment id}

/-- The directory of the metadata files is none of the places of a server. -/
theorem metadataDir_not_serverPlace {tree : FileTree Text Bytes}
    (directory : tree.node (dataPlace environment id) = some .directory)
    (absent : tree.node (Paths.baseServersDir environment ++ [Paths.metadataName]) = none) :
    Not (ServerPlace environment id (Paths.baseServersDir environment ++ [Paths.metadataName])) := by
  intro belongs
  generalize same : Paths.baseServersDir environment ++ [Paths.metadataName] = metadata at belongs absent
  cases belongs with
  | data inside =>
      subst same
      have equal := inside.eq_of_length (by simp [dataPlace])
      rw [<- equal, directory] at absent
      cases absent
  | diskLimit => exact absurd (congrArg List.length same) (by simp)
  | configFiles => exact absurd (congrArg List.length same) (by simp)

theorem createDirAll_keeps {state : NodeState} (inUse : InUse environment id state) {path : List Text}
    (own : OwnCall environment id (.createDirAll path)) :
    forall place, ServerPlace environment id place ->
      (makeDirectories state.files.tree (path.map .normal)).tree.node place =
        state.files.tree.node place := by
  have base : state.files.tree.node (Paths.baseServersDir environment) = some .directory :=
    state.files.tree.holder_of_some inUse.directory
  intro place belongs
  rcases own with same | same
  · subst same
    rw [makeDirectories_of_found (canonicalize_place inUse.directory)]
  · subst same
    rw [List.map_append, List.map_singleton]
    rcases makeDirectories_entry (canonicalize_place base) base Paths.metadataName with kept | ⟨absent, planted⟩
    · rw [kept]
    · rw [planted, state.files.tree.plant_node .directory ⟨base, absent⟩, if_neg]
      intro equal
      subst equal
      exact metadataDir_not_serverPlace inUse.directory absent belongs

theorem editFile_tree {tree : FileTree Text Bytes} {target : List (Component Text)} {place : List Text}
    {bytes : Bytes} {parser : Text} {find : List (Text × Value)}
    (found : canonicalize tree target = .ok place) (file : tree.node place = some (.file bytes)) :
    (editFile parsers tree target place bytes parser find).tree =
      match parsers.apply parser bytes find with
      | .ok output => tree.overwrite place output
      | .error _ => tree := by
  unfold editFile
  cases parsers.apply parser bytes find with
  | error failure => rfl
  | ok output =>
      dsimp only
      cases opened : openForWriting tree target output with
      | ok result => exact (openForWriting_found found opened).2
      | error error =>
          exfalso
          rcases (canonicalize_eq_ok tree target place).mp found with ⟨left, resolved⟩
          have notDirectory : Not (tree.isDirectoryAt place = true) := by
            rw [tree.isDirectoryAt_iff, file]
            simp
          rw [openForWriting, resolved] at opened
          dsimp only at opened
          rw [if_neg notDirectory] at opened
          cases opened

/-- An entry of the descriptor replaces the content of the file that it edits,
if it edits one, and does nothing else. -/
theorem applyConfigFile_tree (parsers : Parsers) (tree : FileTree Text Bytes)
    (target : List (Component Text)) (config : Value) :
    (Exists fun place => Exists fun bytes => Exists fun output =>
        Rewrites parsers tree target config place bytes output /\
          (Runtime.applyConfigFile parsers tree target config).tree = tree.overwrite place output) \/
      ((forall place bytes output, Not (Rewrites parsers tree target config place bytes output)) /\
        (Runtime.applyConfigFile parsers tree target config).tree = tree) := by
  unfold Runtime.applyConfigFile
  cases found : canonicalize tree target with
  | error error =>
      right
      refine ⟨fun place bytes output rewrites => ?_, by cases error <;> rfl⟩
      have reached := rewrites.found
      rw [found] at reached
      cases reached
  | ok place =>
      have atPlace {other : List Text} {bytes output : Bytes}
          (rewrites : Rewrites parsers tree target config other bytes output) : other = place :=
        Except.ok.inj (rewrites.found.symm.trans found)
      dsimp only
      split
      · next bytes file =>
          split
          · next tooLarge =>
              right
              refine ⟨fun other content output rewrites => ?_, rfl⟩
              have same := atPlace rewrites
              subst same
              have small := rewrites.small
              cases rewrites.file.symm.trans file
              omega
          · next small =>
              split
              · next noFind =>
                  right
                  refine ⟨fun other content output rewrites => ?_, rfl⟩
                  rcases rewrites.edited with ⟨find, finds, _⟩
                  rw [noFind] at finds
                  cases finds
              · next find finds =>
                  rw [editFile_tree found file]
                  cases applied : parsers.apply (((config.get "parser".toList).bind Value.asStr).getD [])
                      bytes find with
                  | ok output =>
                      left
                      exact ⟨place, bytes, output,
                        ⟨found, file, Nat.le_of_not_lt small, find, finds, applied⟩, rfl⟩
                  | error failure =>
                      right
                      refine ⟨fun other content output rewrites => ?_, rfl⟩
                      have same := atPlace rewrites
                      subst same
                      cases rewrites.file.symm.trans file
                      rcases rewrites.edited with ⟨otherFind, others, gives⟩
                      cases finds.symm.trans others
                      rw [applied] at gives
                      cases gives
      · next noFind _ =>
          right
          refine ⟨fun other content output rewrites => ?_, rfl⟩
          rcases rewrites.edited with ⟨find, finds, _⟩
          rw [noFind] at finds
          cases finds
      · next _ notFile =>
          right
          refine ⟨fun other content output rewrites => ?_, rfl⟩
          have same := atPlace rewrites
          subst same
          exact absurd rewrites.file (notFile content)

theorem Rewrites.unique {tree : FileTree Text Bytes} {target : List (Component Text)} {config : Value}
    {place other : List Text} {bytes output otherBytes otherOutput : Bytes}
    (first : Rewrites parsers tree target config place bytes output)
    (second : Rewrites parsers tree target config other otherBytes otherOutput) :
    other = place /\ otherBytes = bytes /\ otherOutput = output := by
  have same : other = place := Except.ok.inj (second.found.symm.trans first.found)
  subst same
  cases second.file.symm.trans first.file
  rcases first.edited with ⟨find, finds, gives⟩
  rcases second.edited with ⟨otherFind, others, alsoGives⟩
  cases finds.symm.trans others
  exact ⟨rfl, rfl, Except.ok.inj (alsoGives.symm.trans gives)⟩

theorem applyConfigFile_keeps_iff {state : NodeState} {target : List (Component Text)} {config : Value} :
    (forall place, ServerPlace environment id place ->
        (Runtime.applyConfigFile parsers state.files.tree target config).tree.node place =
          state.files.tree.node place) <->
      HarmlessCall parsers course environment id (.applyConfigFile target config) state := by
  rcases applyConfigFile_tree parsers state.files.tree target config with
    ⟨place, bytes, output, rewrites, after⟩ | ⟨nothing, after⟩
  · have atPlace : (state.files.tree.overwrite place output).node place = some (.file output) := by
      simp only [FileTree.overwrite, if_true, rewrites.file, Option.map_some]
    rw [after]
    constructor
    · intro kept other otherBytes otherOutput again belongs
      rcases rewrites.unique again with ⟨samePlace, sameBytes, sameOutput⟩
      subst samePlace sameBytes sameOutput
      have same := kept other belongs
      rw [atPlace, rewrites.file] at same
      cases same
      rfl
    · intro harmless other belongs
      by_cases same : other = place
      · subst same
        rw [atPlace, rewrites.file, harmless other bytes output rewrites belongs]
      · exact if_neg same
  · rw [after]
    exact iff_of_true (fun _ _ => rfl) (fun place bytes output rewrites => absurd rewrites (nothing _ _ _))

theorem writeMetadata_keeps_iff {state : NodeState} {file : MetadataFile} {path : List Text} {content : Bytes} :
    Kept environment id state (performCreate parsers course (.writeMetadata file path content) state).2 <->
      HarmlessCall parsers course environment id (.writeMetadata file path content) state := by
  unfold performCreate HarmlessCall
  dsimp only
  generalize ((course.write file).map Prod.snd).getD content = bytes
  cases opened : openForWriting state.files.tree (path.map .normal) bytes with
  | error error => exact iff_of_true (Kept.refl state) (fun place written impossible => by cases impossible)
  | ok result =>
      rcases result with ⟨place, written⟩
      dsimp only
      rw [kept_withTree_iff]
      constructor
      · intro kept other after same belongs
        cases same
        rw [<- kept place belongs, openForWriting_node opened, if_pos rfl]
      · intro harmless other belongs
        rw [openForWriting_node opened]
        split
        · next same =>
            subst same
            exact (harmless other written rfl belongs).symm
        · rfl

/-- A change of owners, also one that fails, keeps a server exactly if what it
reaches belongs to the runtime user. -/
theorem chown_keeps_iff {state : NodeState} :
    Kept environment id state (performCreate parsers course (.chown (dataPlace environment id)) state).2 <->
      HarmlessCall parsers course environment id (.chown (dataPlace environment id)) state := by
  have reached : (performCreate parsers course (.chown (dataPlace environment id)) state).2 =
      ⟨state.files.chown (dataPlace environment id) ((course.chown.map Prod.snd).getD (fun _ => true)),
        state.containers⟩ := by
    unfold performCreate
    cases course.chown <;> rfl
  rw [reached]
  constructor
  · intro kept place inside present done
    have owner := kept.owners place inside present
    unfold HostFiles.chown at owner
    dsimp only at owner
    rw [if_pos ⟨inside, done⟩] at owner
    exact owner.symm
  · intro harmless
    refine ⟨fun _ _ => rfl, ?_, rfl⟩
    intro place inside present
    unfold HostFiles.chown
    dsimp only
    split
    · next both => exact (harmless place inside present both.2).symm
    · rfl

/-- Docker refuses a name that is taken. -/
theorem performCreate_taken {state : NodeState} {container : Container}
    (present : state.containers id = some container) (body : ContainerBody) :
    performCreate parsers course (.createContainer id body) state = (.error (conflict id), state) := by
  unfold performCreate
  dsimp only
  rw [present]

/-- The calls of the server itself keep what belongs to it exactly if they are harmless. -/
theorem performCreate_keeps_iff {state : NodeState} (inUse : InUse environment id state)
    {request : CreateCall} (own : OwnCall environment id request) :
    Kept environment id state (performCreate parsers course request state).2 <->
      HarmlessCall parsers course environment id request state := by
  cases request with
  | reserveHostPort exposed port => exact iff_of_true (Kept.refl state) trivial
  | pullImage image => exact iff_of_true (Kept.refl state) trivial
  | writeScript content => exact iff_of_true (Kept.refl state) trivial
  | startupMetadata path => exact iff_of_true (Kept.refl state) trivial
  | ensureNetwork name => exact iff_of_true (Kept.refl state) trivial
  | inspectNetwork name => exact iff_of_true (Kept.refl state) trivial
  | directoryUsage path => exact iff_of_true (Kept.refl state) trivial
  | execInstaller attempt image command values => exact Iff.rfl
  | applyConfigFile target config => exact kept_withTree_iff.trans applyConfigFile_keeps_iff
  | createDirAll path =>
      refine iff_of_true ?_ trivial
      unfold performCreate
      dsimp only
      cases course.createDir path with
      | some error => exact Kept.refl state
      | none => exact kept_withTree_iff.mpr (createDirAll_keeps inUse own)
  | createContainer other body =>
      refine iff_of_true ?_ trivial
      rcases inUse.container with ⟨container, present⟩
      have same : other = id := own
      subst same
      rw [performCreate_taken present]
      exact Kept.refl state
  | writeMetadata file path content => exact writeMetadata_keeps_iff
  | chown path =>
      have same : path = dataPlace environment id := own
      subst same
      exact chown_keeps_iff

/-! ## The calls of a creation -/

theorem only_asked {request : CreateCall} (own : OwnCall environment id request) :
    (Program.ask request : CreateProgram request.Reply).Only (OwnCall environment id) :=
  ⟨own, fun _ => trivial⟩

theorem storeMetadata_only {file : MetadataFile} {path : List Text} {content : Text}
    (inMetadata : path.dropLast = Paths.baseServersDir environment ++ [Paths.metadataName]) :
    (storeMetadata file path content).Only (OwnCall environment id) := by
  unfold storeMetadata
  refine Program.only_bind (Program.only_required _ (only_asked (Or.inr inMetadata))) fun _ => ?_
  exact Program.only_required _ (only_asked trivial)

theorem storeDiskLimit_only (effective : Int) :
    (storeDiskLimit environment id effective).Only (OwnCall environment id) := by
  unfold storeDiskLimit
  split
  · refine Program.only_ofExcept_bind _ fun path accepted => ?_
    rw [(Paths.diskLimitPath_eq_ok.mp accepted).2]
    exact storeMetadata_only (by simp)
  · trivial

theorem storeConfigFiles_only (json : Text) :
    (storeConfigFiles environment id json).Only (OwnCall environment id) := by
  unfold storeConfigFiles
  refine Program.only_ofExcept_bind _ fun path accepted => ?_
  rw [(Paths.configFilesPath_eq_ok.mp accepted).2]
  exact storeMetadata_only (by simp)

theorem missingStartupTarget_only (host : List Text) (command : Text) :
    (missingStartupTarget host command).Only (OwnCall environment id) := by
  unfold missingStartupTarget
  split
  · trivial
  · refine Program.only_bind (only_asked trivial) fun reply => ?_
    rcases reply with error | isFile
    · cases error <;> trivial
    · cases isFile <;> trivial

theorem attemptsFrom_only (spec : CreateSpec) (host : List Text) (attempt left : Nat) :
    (attemptsFrom spec host attempt left).Only (OwnCall environment id) := by
  induction left generalizing attempt with
  | zero => trivial
  | succ left ih =>
      unfold attemptsFrom attemptInstaller
      refine Program.only_bind ?_ fun missing => ?_
      · refine Program.only_bind (Program.only_required _ (only_asked trivial)) fun _ => ?_
        exact missingStartupTarget_only host spec.startupCommand
      · cases missing with
        | none => trivial
        | some missing =>
            dsimp only
            split
            · trivial
            · exact ih (attempt + 1)

theorem install_only (spec : CreateSpec) (host : List Text) :
    (install spec host).Only (OwnCall environment id) := by
  unfold install runInstaller
  split
  · refine Program.only_bind (Program.only_required _ (only_asked trivial)) fun _ => ?_
    refine Program.only_bind (Program.only_required _ (only_asked trivial)) fun _ => ?_
    exact attemptsFrom_only spec host 1 installerAttempts
  · trivial

theorem applyDescriptor_only (reading : Reading) (root json dockerInterface : Text) :
    (applyDescriptor reading root json dockerInterface).Only (OwnCall environment id) := by
  unfold applyDescriptor applyEntry
  refine Program.only_bind (Program.only_ofExcept _) fun entries => ?_
  refine Program.only_forEach (fun _ entry => ?_) () entries
  refine Program.only_bind (Program.only_ofExcept _) fun names => ?_
  exact Program.only_required _ (only_asked trivial)

theorem prepareStorage_only (tools : CreationTools) (spec : CreateSpec) {host : List Text}
    (own : host = dataPlace tools.limits.environment spec.resources.serverId) :
    (prepareStorage tools spec host).Only (OwnCall tools.limits.environment spec.resources.serverId) := by
  unfold prepareStorage
  refine Program.only_bind (Program.only_required _ (only_asked (Or.inl own))) fun _ => ?_
  refine Program.only_bind (Program.only_ofExcept _) fun effective => ?_
  refine Program.only_bind (storeDiskLimit_only effective) fun _ => ?_
  exact Program.only_bind (storeConfigFiles_only spec.configFilesJson) fun _ => trivial

theorem prepareFiles_only (tools : CreationTools) (spec : CreateSpec) {host : List Text} (effective : Int)
    (own : host = dataPlace environment id) :
    (prepareFiles tools spec host effective).Only (OwnCall environment id) := by
  unfold prepareFiles validateStartup ensurePayloadLimit
  refine Program.only_bind (install_only spec host) fun _ => ?_
  refine Program.only_bind (Program.only_required _ (only_asked trivial)) fun _ => ?_
  refine Program.only_bind (Program.only_required _ (only_asked trivial)) fun dockerInterface => ?_
  refine Program.only_bind (applyDescriptor_only _ _ _ dockerInterface) fun _ => ?_
  refine Program.only_bind (Program.only_bind (missingStartupTarget_only _ _) fun missing => ?_) fun _ => ?_
  · cases missing <;> trivial
  refine Program.only_bind ?_ fun _ => ?_
  · split
    · trivial
    · exact Program.only_bind (Program.only_required _ (only_asked trivial)) fun _ => Program.only_ofExcept _
  refine Program.only_bind (Program.only_required _ (only_asked trivial)) fun _ => ?_
  exact Program.only_required _ (only_asked own)

/-- What comes before the container concerns the server itself. -/
theorem prepareContainer_only (tools : CreationTools) (spec : CreateSpec) :
    (prepareContainer tools spec).Only (OwnCall tools.limits.environment spec.resources.serverId) := by
  unfold prepareContainer
  refine Program.only_bind (Program.only_ofExcept _) fun _ => ?_
  refine Program.only_bind (Program.only_ofExcept _) fun _ => ?_
  refine Program.only_bind (Program.only_required _ (only_asked trivial)) fun hostPort => ?_
  refine Program.only_ofExcept_bind _ fun host accepted => ?_
  have own := (Paths.serverDir_eq_ok.mp accepted).2
  refine Program.only_bind (prepareStorage_only tools spec own) fun effective => ?_
  refine Program.only_bind (prepareFiles_only tools spec effective own) fun _ => ?_
  exact Program.only_bind (Program.only_ofExcept _) fun _ => trivial

theorem createWithProgress_only (tools : CreationTools) (spec : CreateSpec) :
    (createWithProgress tools spec).Only (OwnCall tools.limits.environment spec.resources.serverId) := by
  unfold createWithProgress
  refine Program.only_bind (prepareContainer_only tools spec) fun prepared => ?_
  exact Program.only_bind (Program.only_required _ (only_asked rfl)) fun _ => trivial

/-! ## Creations under an id in use -/

/-- No call of a creation takes the name of its container away. -/
theorem performCreate_containers {request : CreateCall} {state : NodeState} {container : Container}
    (own : OwnCall environment id request) (present : state.containers id = some container) :
    (performCreate parsers course request state).2.containers id = some container := by
  cases request with
  | createContainer other body =>
      have same : other = id := own
      subst same
      rw [performCreate_taken present]
      exact present
  | createDirAll path =>
      unfold performCreate
      dsimp only
      cases course.createDir path <;> exact present
  | writeMetadata file path content =>
      unfold performCreate
      dsimp only
      split <;> exact present
  | chown path =>
      unfold performCreate
      dsimp only
      cases course.chown <;> exact present
  | _ => exact present

/-- A creation under the name of a container fails. -/
theorem createWithProgress_refused (tools : CreationTools) (spec : CreateSpec) {state : NodeState}
    {container : Container} (present : state.containers spec.resources.serverId = some container) :
    Exists fun failure =>
      ((createWithProgress tools spec).run (performCreate parsers course) state).1 = .error failure := by
  have stays : forall request (here : NodeState),
      OwnCall tools.limits.environment spec.resources.serverId request ->
        here.containers spec.resources.serverId = some container ->
          (performCreate parsers course request here).2.containers spec.resources.serverId = some container :=
    fun request here own taken => performCreate_containers own taken
  have later := Program.run_of_only (performCreate parsers course) stays (prepareContainer_only tools spec) present
  unfold createWithProgress
  rw [Program.run_bind]
  split
  · next prepared after ran =>
      rw [ran] at later
      rcases prepared with ⟨hostPort, body⟩
      refine ⟨.context s!"create Docker container {String.ofList spec.resources.serverId}"
        (conflict spec.resources.serverId), ?_⟩
      dsimp only
      rw [Program.run_bind, Program.run_required, Program.run_ask, performCreate_taken later body]
  · next failure after ran => exact ⟨failure, rfl⟩

/-- A creation under an id in use fails, and it keeps what belongs to the
server, after each call and in the end, exactly if each call that it makes is
harmless in the state in which it is made. -/
theorem create_under_used_id_iff (parsers : Parsers) (course : CreationCourse) (tools : CreationTools)
    (spec : CreateSpec) {state : NodeState}
    (inUse : InUse tools.limits.environment spec.resources.serverId state) :
    (Exists fun failure =>
      ((createWithProgress tools spec).run (performCreate parsers course) state).1 = .error failure) /\
    ((createWithProgress tools spec).Throughout (performCreate parsers course)
          (fun _ after => Kept tools.limits.environment spec.resources.serverId state after) state /\
        Kept tools.limits.environment spec.resources.serverId state
          ((createWithProgress tools spec).run (performCreate parsers course) state).2 <->
      (createWithProgress tools spec).Before (performCreate parsers course)
        (HarmlessCall parsers course tools.limits.environment spec.resources.serverId) state) := by
  rcases inUse.container with ⟨container, present⟩
  refine ⟨createWithProgress_refused tools spec present, ?_⟩
  have step : forall request middle, OwnCall tools.limits.environment spec.resources.serverId request ->
      Kept tools.limits.environment spec.resources.serverId state middle ->
        (Kept tools.limits.environment spec.resources.serverId state
            (performCreate parsers course request middle).2 <->
          HarmlessCall parsers course tools.limits.environment spec.resources.serverId request middle) :=
    fun request middle own kept => kept.iff_step.trans (performCreate_keeps_iff (inUse.of_kept kept) own)
  have calls := Program.throughout_iff_before (performCreate parsers course) step
    (createWithProgress_only tools spec) (Kept.refl state)
  constructor
  · rintro ⟨throughout, _⟩
    exact calls.mp throughout
  · intro harmless
    have throughout := calls.mpr harmless
    refine ⟨throughout, ?_⟩
    rcases Program.run_of_throughout (performCreate parsers course) throughout with same | ⟨_, kept⟩
    · rw [same]
      exact Kept.refl state
    · exact kept

end Calls

/-! ## A descriptor that is overwritten -/

/-- Reading for descriptors that are empty, which are never read. -/
def unusedReading : Reading :=
  { linkedConfigReading with fromStr := fun _ => .error (.bail "EOF while parsing a value") }

def usedTools : CreationTools where
  limits := { sampleLimitTools with environment := ⟨some ["srv".toList], none⟩ }
  reading := unusedReading
  available _ := true
  network := "agapornis_ntw".toList

/-- A creation in which everything works that is asked for. -/
def quietCreation : CreationCourse where
  reserve := .ok 25565
  createDir _ := none
  write _ := none
  pull _ := .ok ()
  script := .ok ()
  installer _ := ⟨.ok (), id⟩
  network := .ok ()
  interface := .ok "172.18.0.1".toList
  usage _ := .ok 0
  chown := none
  image := []
  create := .ok ()

/-- A server with a container, a data directory and a stored descriptor. -/
def usedState : NodeState where
  files := {
    tree := ((((FileTree.bare Text Bytes).plant [] "srv".toList .directory).plant
      ["srv".toList] "server-1".toList .directory).plant ["srv".toList] Paths.metadataName .directory).plant
      ["srv".toList, Paths.metadataName] (Paths.configFilesName "server-1".toList) (.file [123, 125])
    owner _ := serverRuntimeUser }
  containers := (sampleServer false).containers

/-- A request under the id of that server, without a descriptor. -/
def secondSpec : CreateSpec :=
  { sampleSpec [] with startupCommand := [] }

theorem usedState_inUse : InUse usedTools.limits.environment secondSpec.resources.serverId usedState :=
  ⟨⟨sampleContainer false, rfl⟩, by decide⟩

theorem create_under_used_id_iff_sample :
    (Exists fun failure => ((createWithProgress usedTools secondSpec).run
        (performCreate unchangedParsers quietCreation) usedState).1 = .error failure) /\
    ((createWithProgress usedTools secondSpec).Throughout (performCreate unchangedParsers quietCreation)
          (fun _ after => Kept usedTools.limits.environment secondSpec.resources.serverId usedState after)
          usedState /\
        Kept usedTools.limits.environment secondSpec.resources.serverId usedState
          ((createWithProgress usedTools secondSpec).run
            (performCreate unchangedParsers quietCreation) usedState).2 <->
      (createWithProgress usedTools secondSpec).Before (performCreate unchangedParsers quietCreation)
        (HarmlessCall unchangedParsers quietCreation usedTools.limits.environment
          secondSpec.resources.serverId) usedState) :=
  create_under_used_id_iff unchangedParsers quietCreation usedTools secondSpec usedState_inUse

/-- The refused creation has replaced the stored descriptor by its own. -/
theorem refused_creation_overwrites_descriptor :
    InUse usedTools.limits.environment secondSpec.resources.serverId usedState /\
      ((createWithProgress usedTools secondSpec).run
          (performCreate unchangedParsers quietCreation) usedState).1 =
        .error (.context "create Docker container server-1" (conflict "server-1".toList)) /\
      Not (Kept usedTools.limits.environment secondSpec.resources.serverId usedState
        ((createWithProgress usedTools secondSpec).run
          (performCreate unchangedParsers quietCreation) usedState).2) := by
  refine ⟨usedState_inUse, rfl, ?_⟩
  intro kept
  have same := kept.files _ .configFiles
  revert same
  decide +kernel

end Runtime
end Agapornis
