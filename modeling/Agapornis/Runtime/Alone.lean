import Mathlib.Logic.Function.Iterate
import Agapornis.Runtime.Held

namespace Agapornis
namespace Runtime
namespace Replacing

open Foundations Agapornis.Core

/-!
# A request that is alone with its server

Where a request is the only one for its server, it comes to the end which its
change has as one piece, whatever the requests for other servers do in
between: they touch neither the name of the server nor the stale name of its
container.
-/

/-! ## Changes as one piece -/

def recreateWithFreshBindMounts (course : ReconfigurationCourse) (id : Text) (mounted : Bool)
    (state : ServerState) : ServerState × Except Failure Unit :=
  match prepareRepair course id mounted state.containers with
  | .error failure => (state, .error failure)
  | .ok body =>
      let replaced := replaceStaleContainer course id body state.containers
      ({ state with containers := replaced.1 }, replaced.2)

def Change.whole (change : Change) (course : ReconfigurationCourse) (id : Text) (state : ServerState) :
    ServerState × Except Failure Unit :=
  match change with
  | .repair mounted => recreateWithFreshBindMounts course id mounted state
  | .configuration request => updateConfiguration course id request state
  | .ports mappings => updatePorts course id mappings state

/-- What a server is: the container under its name, and its descriptor. -/
structure View where
  container : Option Container
  descriptor : Option Text

def View.of (id : Text) (host : Host) : View :=
  ⟨host.containers id, host.descriptors id⟩

def View.ofServer (id : Text) (state : ServerState) : View :=
  ⟨state.containers id, state.descriptor⟩

/-- A host with this server only. -/
def View.alone (view : View) (id : Text) : ServerState :=
  ⟨fun name => if name = id then view.container else none, view.descriptor⟩

/-! ## To the end of a request -/

def Phase.answer : Phase -> Option (Except Failure Unit)
  | .ended result => some result
  | .strayed failure => some (.error failure)
  | .inspecting | .writing _ _ _ _ | .stopping _ | .settingAside _ | .creating _ | .rollingBack _
  | .removing _ | .starting => none

/-- A call of a request with nothing else in between. -/
def go (pair : Task × Host) : Task × Host :=
  let done := pair.1.advance pair.2
  ({ pair.1 with phase := done.2 }, done.1)

/-- A request that goes on alone leaves this of its server and answers so. -/
def Reaches (task : Task) (host : Host) (view : View) (answer : Except Failure Unit) : Prop :=
  Exists fun calls => View.of task.server (go^[calls] (task, host)).2 = view /\
    (go^[calls] (task, host)).1.phase.answer = some answer

section Reaching

variable {task : Task} {host : Host} {view : View} {answer : Except Failure Unit}

theorem go_answered (answered : task.phase.answer = some answer) : go (task, host) = (task, host) := by
  rcases task with ⟨server, change, course, phase⟩
  cases phase with
  | ended result => rfl
  | strayed failure => rfl
  | inspecting | writing | stopping | settingAside | creating | rollingBack | removing | starting => cases answered

theorem reaches_answered (answered : task.phase.answer = some answer) :
    Reaches task host (View.of task.server host) answer :=
  ⟨0, rfl, answered⟩

theorem reaches_go
    (later : Reaches { task with phase := (task.advance host).2 } (task.advance host).1 view answer) :
    Reaches task host view answer := by
  rcases later with ⟨calls, left, answered⟩
  refine ⟨calls + 1, ?_, ?_⟩
  · rw [Function.iterate_succ_apply]
    exact left
  · rw [Function.iterate_succ_apply]
    exact answered

/-- A request that has made a call comes to the same end. -/
theorem Reaches.call (reaches : Reaches task host view answer) :
    Reaches { task with phase := (task.advance host).2 } (task.advance host).1 view answer := by
  rcases reaches with ⟨calls, left, answered⟩
  cases calls with
  | zero =>
      have same : go (task, host) = (task, host) := go_answered answered
      refine ⟨0, ?_, ?_⟩
      · change View.of task.server (go (task, host)).2 = view
        rw [same]
        exact left
      · change (go (task, host)).1.phase.answer = some answer
        rw [same]
        exact answered
  | succ calls =>
      rw [Function.iterate_succ_apply] at left answered
      exact ⟨calls, left, answered⟩

theorem iterate_answered (answered : task.phase.answer = some answer) (calls : Nat) :
    go^[calls] (task, host) = (task, host) :=
  Function.iterate_fixed (go_answered answered) calls

/-- An answered request leaves what there is. -/
theorem Reaches.settled (reaches : Reaches task host view answer) {given : Except Failure Unit}
    (answered : task.phase.answer = some given) : View.of task.server host = view /\ answer = given := by
  rcases reaches with ⟨calls, left, reached⟩
  rw [iterate_answered answered] at left reached
  exact ⟨left, Option.some.inj (reached.symm.trans answered)⟩

end Reaching

/-! ## What a request sees -/

theorem Task.stale_ne (task : Task) : Not (task.stale = task.server) :=
  staleName_ne task.course task.server

/-- Two hosts look the same to a request. -/
structure Agree (task : Task) (first second : Host) : Prop where
  server : first.containers task.server = second.containers task.server
  stale : first.containers task.stale = second.containers task.stale
  descriptor : first.descriptors task.server = second.descriptors task.server

section Agreement

variable {task : Task} {first second : Host}

theorem renameFault_congr {containers others : Containers} {old new : Text} (fault : Option String)
    (sameOld : containers old = others old) (sameNew : containers new = others new) :
    renameFault fault containers old new = renameFault fault others old new := by
  unfold renameFault
  rw [sameOld, sameNew]

theorem createFault_congr {containers others : Containers} {name : Text} (fault : Option String)
    (same : containers name = others name) : createFault fault containers name = createFault fault others name := by
  unfold createFault
  rw [same]

theorem powerFault_congr {containers others : Containers} {name : Text} (fault : Option (Failure × Bool))
    (same : containers name = others name) : powerFault fault containers name = powerFault fault others name := by
  unfold powerFault
  rw [same]

theorem inspect_congr {containers others : Containers} (task : Task)
    (same : containers task.server = others task.server) : task.inspect containers = task.inspect others := by
  have repairs : forall mounted, prepareRepair task.course task.server mounted containers =
      prepareRepair task.course task.server mounted others := by
    intro mounted
    unfold prepareRepair
    rw [same]
  have inspects : inspectContainer task.course task.server containers =
      inspectContainer task.course task.server others := by
    unfold inspectContainer
    rw [same]
  unfold Task.inspect prepareConfiguration preparePorts
  simp only [repairs, inspects]

theorem Containers.rename_old {containers : Containers} {old new : Text} (differ : Not (old = new)) :
    containers.rename old new old = none := by
  unfold Containers.rename
  rw [if_neg differ, if_pos rfl]

theorem Agree.setRunning (agree : Agree task first second) (running : Bool) :
    Agree task (first.setRunning task.server running) (second.setRunning task.server running) where
  server := by
    change Containers.setRunning _ _ _ _ = Containers.setRunning _ _ _ _
    unfold Containers.setRunning
    rw [Containers.put_self, Containers.put_self, agree.server]
  stale := by
    change Containers.setRunning _ _ _ _ = Containers.setRunning _ _ _ _
    unfold Containers.setRunning
    have differ := task.stale_ne
    rw [Containers.put_other _ _ differ, Containers.put_other _ _ differ]
    exact agree.stale
  descriptor := agree.descriptor

theorem Agree.describe (agree : Agree task first second) (descriptor : Option Text) :
    Agree task (first.describe task.server descriptor) (second.describe task.server descriptor) where
  server := agree.server
  stale := agree.stale
  descriptor := (if_pos rfl).trans (if_pos rfl).symm

theorem Agree.putServer (agree : Agree task first second) (container : Option Container) :
    Agree task (first.put task.server container) (second.put task.server container) where
  server := (Containers.put_self _ _ _).trans (Containers.put_self _ _ _).symm
  stale := by
    have differ := task.stale_ne
    exact (Containers.put_other _ _ differ).trans (agree.stale.trans (Containers.put_other _ _ differ).symm)
  descriptor := agree.descriptor

theorem Agree.putStale (agree : Agree task first second) (container : Option Container) :
    Agree task (first.put task.stale container) (second.put task.stale container) where
  server := by
    have differ := Ne.symm task.stale_ne
    exact (Containers.put_other _ _ differ).trans (agree.server.trans (Containers.put_other _ _ differ).symm)
  stale := (Containers.put_self _ _ _).trans (Containers.put_self _ _ _).symm
  descriptor := agree.descriptor

theorem Agree.setAside (agree : Agree task first second) :
    Agree task (first.rename task.server task.stale) (second.rename task.server task.stale) where
  server := by
    have differ := Ne.symm task.stale_ne
    exact (Containers.rename_old differ).trans (Containers.rename_old differ).symm
  stale := (Containers.rename_new _ _ _).trans (agree.server.trans (Containers.rename_new _ _ _).symm)
  descriptor := agree.descriptor

theorem Agree.restore (agree : Agree task first second) :
    Agree task (first.rename task.stale task.server) (second.rename task.stale task.server) where
  server := (Containers.rename_new _ _ _).trans (agree.stale.trans (Containers.rename_new _ _ _).symm)
  stale := by
    have differ := task.stale_ne
    exact (Containers.rename_old differ).trans (Containers.rename_old differ).symm
  descriptor := agree.descriptor

/-- A call does the same where a request sees the same. -/
theorem Agree.advance (agree : Agree task first second) :
    (task.advance first).2 = (task.advance second).2 /\ Agree task (task.advance first).1 (task.advance second).1 := by
  rcases task with ⟨server, change, course, phase⟩
  unfold Task.advance
  cases phase with
  | inspecting => exact ⟨inspect_congr _ agree.server, agree⟩
  | writing request container config labels =>
      dsimp only
      rcases course.write with _ | ⟨failure, left⟩
      · exact ⟨rfl, agree.describe _⟩
      · exact ⟨rfl, agree.describe left⟩
  | stopping body =>
      dsimp only
      rw [powerFault_congr course.stop agree.server]
      rcases powerFault course.stop second.containers server with _ | ⟨failure, running⟩
      · exact ⟨rfl, agree.setRunning false⟩
      · exact ⟨rfl, agree.setRunning running⟩
  | settingAside plan =>
      have same : renameFault course.rename first.containers server (staleName course server) =
          renameFault course.rename second.containers server (staleName course server) :=
        renameFault_congr course.rename agree.server agree.stale
      dsimp only [Task.stale]
      rw [same]
      cases renameFault course.rename second.containers server (staleName course server) with
      | some error => exact ⟨rfl, agree⟩
      | none => exact ⟨rfl, agree.setAside⟩
  | creating plan =>
      dsimp only
      rw [createFault_congr course.create agree.server]
      cases createFault course.create second.containers server with
      | some error => exact ⟨rfl, agree⟩
      | none => exact ⟨rfl, agree.putServer _⟩
  | rollingBack error =>
      have same : renameFault course.rollback first.containers (staleName course server) server =
          renameFault course.rollback second.containers (staleName course server) server :=
        renameFault_congr course.rollback agree.stale agree.server
      dsimp only [Task.stale]
      rw [same]
      cases renameFault course.rollback second.containers (staleName course server) server with
      | none => exact ⟨rfl, agree.restore⟩
      | some rollbackError => exact ⟨rfl, agree⟩
  | removing wasRunning =>
      dsimp only
      by_cases removes : course.remove = none
      · rw [if_pos removes, if_pos removes]
        exact ⟨rfl, agree.putStale none⟩
      · rw [if_neg removes, if_neg removes]
        exact ⟨rfl, agree⟩
  | starting =>
      dsimp only
      rw [powerFault_congr course.start agree.server]
      rcases powerFault course.start second.containers server with _ | ⟨failure, running⟩
      · exact ⟨rfl, agree.setRunning true⟩
      · exact ⟨rfl, agree.setRunning running⟩
  | ended result => exact ⟨rfl, agree⟩
  | strayed failure => exact ⟨rfl, agree⟩

theorem Reaches.agree {view : View} {answer : Except Failure Unit} (reaches : Reaches task first view answer)
    (agree : Agree task first second) : Reaches task second view answer := by
  rcases reaches with ⟨calls, left, answered⟩
  induction calls generalizing task first second with
  | zero =>
      refine ⟨0, ?_, answered⟩
      rw [← left]
      exact (congrArg₂ View.mk agree.server agree.descriptor).symm
  | succ calls induction =>
      rw [Function.iterate_succ_apply] at left answered
      rcases agree.advance with ⟨samePhase, agreeAfter⟩
      refine reaches_go ?_
      rw [← samePhase]
      have goesOn : Agree { task with phase := (task.advance first).2 } (task.advance first).1
          (task.advance second).1 := ⟨agreeAfter.server, agreeAfter.stale, agreeAfter.descriptor⟩
      exact induction goesOn left answered

end Agreement

/-! ## The calls come to the whole -/

section Whole

variable {server : Text} {change : Change} {course : ReconfigurationCourse} {host : Host}

theorem powerFault_present {fault : Option (Failure × Bool)} {containers : Containers} {name : Text}
    (present : Not (containers name = none)) : powerFault fault containers name = fault :=
  if_neg present

theorem renameFault_free {fault : Option String} {containers : Containers} {old new : Text}
    (present : Not (containers old = none)) (free : containers new = none) :
    renameFault fault containers old new = fault := by
  unfold renameFault
  cases fault with
  | some error => rfl
  | none => exact (if_neg present).trans (if_pos free)

theorem createFault_free {fault : Option String} {containers : Containers} {name : Text}
    (free : containers name = none) : createFault fault containers name = fault := by
  unfold createFault
  cases fault with
  | some error => rfl
  | none => exact if_pos free

/-- What is left under the name of the server, with its descriptor. -/
def Host.leaving (host : Host) (server : Text) (containers : Containers) : View :=
  ⟨containers server, host.descriptors server⟩

theorem reaches_start {wasRunning : Bool} (present : Not (host.containers server = none)) :
    Reaches ⟨server, change, course, startNext wasRunning⟩ host
      (host.leaving server (startStopped course server wasRunning host.containers).1)
      (startStopped course server wasRunning host.containers).2 := by
  cases wasRunning with
  | false => exact reaches_answered rfl
  | true =>
      refine reaches_go ?_
      unfold Task.advance startStopped startNext
      dsimp only
      rw [if_pos rfl, if_pos rfl]
      dsimp only
      rw [powerFault_present present]
      rcases course.start with _ | ⟨failure, running⟩
      · exact reaches_answered rfl
      · exact reaches_answered rfl

theorem reaches_remove {wasRunning : Bool} (present : Not (host.containers server = none)) :
    Reaches ⟨server, change, course, .removing wasRunning⟩ host
      (host.leaving server (startStopped course server wasRunning (if course.remove = none then
        host.containers.put (staleName course server) none else host.containers)).1)
      (startStopped course server wasRunning (if course.remove = none then
        host.containers.put (staleName course server) none else host.containers)).2 := by
  refine reaches_go ?_
  unfold Task.advance
  dsimp only [Task.stale]
  by_cases removes : course.remove = none
  · rw [if_pos removes, if_pos removes]
    refine reaches_start ?_
    have differ : Not (server = staleName course server) := Ne.symm (staleName_ne course server)
    change Not (host.containers.put (staleName course server) none server = none)
    rw [Containers.put_other _ _ differ]
    exact present
  · rw [if_neg removes, if_neg removes]
    exact reaches_start present

/-- The replacement of a container, and the start of the new one. -/
def replaceAndStart (course : ReconfigurationCourse) (id : Text) (plan : Plan) (containers : Containers) :
    Containers × Except Failure Unit :=
  let replaced := replaceStaleContainer course id plan.body containers
  match replaced.2 with
  | .error failure => (replaced.1, .error failure)
  | .ok () => startStopped course id plan.wasRunning replaced.1

theorem reaches_setAside {plan : Plan} (present : Not (host.containers server = none))
    (free : host.containers (staleName course server) = none) :
    Reaches ⟨server, change, course, .settingAside plan⟩ host
      (host.leaving server (replaceAndStart course server plan host.containers).1)
      (replaceAndStart course server plan host.containers).2 := by
  have differ : Not (server = staleName course server) := Ne.symm (staleName_ne course server)
  refine reaches_go ?_
  unfold Task.advance replaceAndStart replaceStaleContainer
  dsimp only [Task.stale]
  rw [renameFault_free present free]
  cases course.rename with
  | some error => exact reaches_answered rfl
  | none =>
      refine reaches_go ?_
      unfold Task.advance
      dsimp only [Task.stale]
      have vacant : (host.rename server (staleName course server)).containers server = none :=
        Containers.rename_old differ
      rw [createFault_free vacant]
      cases course.create with
      | some error =>
          refine reaches_go ?_
          unfold Task.advance
          dsimp only [Task.stale]
          have held : Not ((host.rename server (staleName course server)).containers
              (staleName course server) = none) := by
            intro impossible
            exact present ((Containers.rename_new _ _ _).symm.trans impossible)
          rw [renameFault_free held vacant]
          cases course.rollback with
          | none => exact reaches_answered rfl
          | some rollbackError => exact reaches_answered rfl
      | none =>
          refine @reaches_remove server change course
            ((host.rename server (staleName course server)).put server (some (plan.body.created course.image)))
            plan.wasRunning ?_
          intro impossible
          cases (Containers.put_self _ _ _).symm.trans impossible

theorem replaceServer_eq {wasRunning : Bool} {body : ContainerBody} {containers : Containers} :
    replaceServer course server wasRunning body containers =
      match (stopRunning course server wasRunning containers).2 with
      | .error failure => ((stopRunning course server wasRunning containers).1, .error failure)
      | .ok () => replaceAndStart course server ⟨wasRunning, body⟩
        (stopRunning course server wasRunning containers).1 :=
  rfl

theorem reaches_replaceNext {plan : Plan} (present : Not (host.containers server = none))
    (free : host.containers (staleName course server) = none) :
    Reaches ⟨server, change, course, replaceNext plan⟩ host
      (host.leaving server (replaceServer course server plan.wasRunning plan.body host.containers).1)
      (replaceServer course server plan.wasRunning plan.body host.containers).2 := by
  rcases plan with ⟨wasRunning, body⟩
  cases wasRunning with
  | false => exact reaches_setAside present free
  | true =>
      refine reaches_go ?_
      unfold Task.advance replaceNext
      dsimp only
      rw [if_pos rfl, replaceServer_eq]
      unfold stopRunning
      dsimp only
      rw [if_pos rfl, powerFault_present present]
      rcases course.stop with _ | ⟨failure, running⟩
      · refine @reaches_setAside server change course (host.setRunning server false) ⟨true, body⟩ ?_ ?_
        · rcases Option.ne_none_iff_exists'.mp present with ⟨old, was⟩
          intro impossible
          cases (Containers.setRunning_self was false).symm.trans impossible
        · exact (Containers.put_other _ _ (staleName_ne course server)).trans free
      · exact reaches_answered rfl

theorem reaches_afterWrite {request : ConfigurationRequest} {container : Container} {config : ContainerConfig}
    {labels : Table Text Text} (present : Not (host.containers server = none))
    (free : host.containers (staleName course server) = none) :
    Reaches ⟨server, change, course, afterWrite request container config labels⟩ host
      (host.leaving server (configureContainer course server request container config labels host.containers).1)
      (configureContainer course server request container config labels host.containers).2 := by
  unfold afterWrite configureContainer
  split
  · cases container.hostConfig with
    | none => exact reaches_answered rfl
    | some hostConfig => exact reaches_replaceNext present free
  · exact reaches_answered rfl

theorem prepareRepair_present {mounted : Bool} {containers : Containers} {body : ContainerBody}
    (prepared : prepareRepair course server mounted containers = .ok body) : Not (containers server = none) := by
  intro absent
  unfold prepareRepair at prepared
  rw [absent] at prepared
  dsimp only at prepared
  split at prepared <;> first | cases prepared | contradiction

theorem replaceAndStart_stopped (body : ContainerBody) (containers : Containers) :
    replaceAndStart course server ⟨false, body⟩ containers = replaceStaleContainer course server body containers := by
  unfold replaceAndStart
  rcases replaceStaleContainer course server body containers with ⟨left, failure | ⟨⟩⟩ <;> rfl

theorem leaving_described {containers : Containers} (descriptor : Option Text) :
    (host.describe server descriptor).leaving server containers = ⟨containers server, descriptor⟩ :=
  congrArg (View.mk _) (if_pos rfl)

/-- A host with one server only, as a request sees it. -/
def View.only (view : View) (id : Text) : Host :=
  ⟨(view.alone id).containers, fun _ => view.descriptor⟩

theorem reaches_whole_alone (view : View) :
    Reaches ⟨server, change, course, .inspecting⟩ (view.only server)
      (View.ofServer server (change.whole course server (view.alone server)).1)
      (change.whole course server (view.alone server)).2 := by
  have free : (view.only server).containers (staleName course server) = none := if_neg (staleName_ne course server)
  refine reaches_go ?_
  unfold Task.advance Task.inspect Change.whole
  dsimp only
  cases change with
  | repair mounted =>
      dsimp only
      unfold recreateWithFreshBindMounts
      have same : prepareRepair course server mounted (view.only server).containers =
        prepareRepair course server mounted (view.alone server).containers := rfl
      rw [same]
      cases prepared : prepareRepair course server mounted (view.alone server).containers with
      | error failure => exact reaches_answered rfl
      | ok body =>
          have present : Not ((view.only server).containers server = none) := prepareRepair_present prepared
          have reaches := @reaches_setAside server (.repair mounted) course
            (view.only server) ⟨false, body⟩ present free
          rw [replaceAndStart_stopped] at reaches
          exact reaches
  | configuration request =>
      dsimp only
      unfold updateConfiguration
      have same : prepareConfiguration course server (view.only server).containers =
        prepareConfiguration course server (view.alone server).containers := rfl
      rw [same]
      cases prepared : prepareConfiguration course server (view.alone server).containers with
      | error failure => exact reaches_answered rfl
      | ok found =>
          rcases found with ⟨container, config, labels⟩
          have present : Not ((view.only server).containers server = none) := by
            intro absent
            cases absent.symm.trans (prepareConfiguration_ok prepared).1
          refine reaches_go ?_
          unfold Task.advance
          dsimp only
          rcases course.write with _ | ⟨failure, left⟩
          · have reaches := @reaches_afterWrite server (.configuration request) course
              ((view.only server).describe server (some request.configFilesJson)) request container config labels
              present free
            rw [leaving_described] at reaches
            exact reaches
          · have reaches := @reaches_answered ⟨server, .configuration request, course, .ended (.error failure)⟩
              ((view.only server).describe server left) (.error failure) rfl
            have described : View.of server ((view.only server).describe server left) = ⟨view.container, left⟩ :=
              congrArg₂ View.mk (if_pos rfl) (if_pos rfl)
            rw [described] at reaches
            have whole : View.ofServer server ⟨(view.alone server).containers, left⟩ = ⟨view.container, left⟩ :=
              congrArg₂ View.mk (if_pos rfl) rfl
            change Reaches _ _ (View.ofServer server ⟨(view.alone server).containers, left⟩) _
            rw [whole]
            exact reaches
  | ports mappings =>
      dsimp only
      unfold updatePorts
      have same : preparePorts course server mappings (view.only server).containers =
        preparePorts course server mappings (view.alone server).containers := rfl
      rw [same]
      cases prepared : preparePorts course server mappings (view.alone server).containers with
      | error failure => exact reaches_answered rfl
      | ok found =>
          rcases found with ⟨container, body⟩
          have present : Not ((view.only server).containers server = none) := by
            intro absent
            cases absent.symm.trans (preparePorts_ok prepared).1
          exact @reaches_replaceNext server (.ports mappings) course
            (view.only server) ⟨container.running, body⟩ present free

/-- A request that goes on alone comes to what its change does as one piece. -/
theorem reaches_whole (free : host.containers (staleName course server) = none) :
    Reaches ⟨server, change, course, .inspecting⟩ host
      (View.ofServer server (change.whole course server ((View.of server host).alone server)).1)
      (change.whole course server ((View.of server host).alone server)).2 := by
  refine (reaches_whole_alone (View.of server host)).agree ⟨if_pos rfl, ?_, rfl⟩
  exact (if_neg (staleName_ne course server)).trans free.symm

end Whole

end Replacing
end Runtime
end Agapornis
