import Agapornis.Console.Commands
import Agapornis.Foundations.Deadlines
import Agapornis.Foundations.Numerals
import Agapornis.Storage.Deletion

namespace Agapornis
namespace Runtime

open Foundations Agapornis.Core
open Storage.Deletion (DockerError)
open Console (containerFlag)

/-!
# Probes of a database

Whether a server reaches its database is found out by a container that is made
for this in the network of the server.  It has twenty seconds.  Then it is
removed, also where the time is over; a call that was under way at that moment
may still be carried out, and a client that goes away takes the removal along.
-/

structure DatabaseConnectionSpec where
  serverId : Text
  databaseType : Text
  host : Text
  port : Int
  databaseName : Text
  username : Text
  password : Text
  dockerImage : Text

structure DatabaseProbe where
  serverId : Text
  password : Text
  dockerImage : Text
  passwordKey : Text
  entrypoint : Text
  command : List Text
  deriving DecidableEq

def validateDatabaseSpec (spec : DatabaseConnectionSpec) : Except Failure Unit := do
  Paths.validateId spec.serverId
  Paths.validateId spec.host
  refuseIf (!(1 <= spec.port && spec.port <= 65535)) "database port is invalid"
  refuseIf ((Text.trim spec.databaseName).isEmpty || (Text.trim spec.username).isEmpty || spec.password.isEmpty)
    "database credentials are incomplete"
  refuseIf (Text.trim spec.dockerImage).isEmpty "database test image is required"

/-- The words for a client of MySQL, or of MariaDB, which takes the same ones. -/
def mysqlCommand (spec : DatabaseConnectionSpec) : List Text :=
  ["--protocol=TCP".toList, "--host".toList, spec.host, "--port".toList, Text.signedDecimal spec.port,
    "--user".toList, spec.username, spec.databaseName, "--execute".toList, "SELECT 1".toList]

def postgresCommand (spec : DatabaseConnectionSpec) : List Text :=
  ["--host".toList, spec.host, "--port".toList, Text.signedDecimal spec.port, "--username".toList, spec.username,
    "--dbname".toList, spec.databaseName, "--command".toList, "SELECT 1".toList]

def DatabaseProbe.fromSpec (spec : DatabaseConnectionSpec) : Except Failure DatabaseProbe :=
  let probe (passwordKey entrypoint : String) (command : List Text) : DatabaseProbe :=
    ⟨spec.serverId, spec.password, spec.dockerImage, passwordKey.toList, entrypoint.toList, command⟩
  if spec.databaseType = "mysql".toList then .ok (probe "MYSQL_PWD" "mysql" (mysqlCommand spec))
  else if spec.databaseType = "mariadb".toList then .ok (probe "MYSQL_PWD" "mariadb" (mysqlCommand spec))
  else if spec.databaseType = "postgres".toList then .ok (probe "PGPASSWORD" "psql" (postgresCommand spec))
  else .error (.bail "unsupported database type")

/-- What the container of a probe is made of. -/
structure ProbeBody where
  image : Text
  env : List Text
  entrypoint : List Text
  cmd : List Text
  tty : Bool
  networkMode : Text
  autoRemove : Bool
  deriving DecidableEq

def DatabaseProbe.body (probe : DatabaseProbe) : ProbeBody where
  image := probe.dockerImage
  env := [probe.passwordKey ++ '=' :: probe.password]
  entrypoint := [probe.entrypoint]
  cmd := probe.command
  tty := false
  networkMode := "container:".toList ++ probe.serverId
  autoRemove := false

def probeName (spec : DatabaseConnectionSpec) (uuid : Text) : Text :=
  spec.serverId ++ "-dbtest-".toList ++ uuid

/-! ## The calls -/

structure WaitResponse where
  statusCode : Int
  error : Option Text
  deriving DecidableEq

inductive ProbeCall where
  | inspectImage (image : Text)
  | pullImage (image : Text)
  | create (name : Text) (body : ProbeBody)
  | start (name : Text)
  | wait (name : Text)
  | logs (name : Text)
  | remove (name : Text)

@[reducible] def ProbeCall.Reply : ProbeCall -> Type
  | .inspectImage _ | .remove _ => Except DockerError Unit
  | .pullImage _ | .create _ _ | .start _ => Except Failure Unit
  | .wait _ => Option (Except Failure WaitResponse)
  | .logs _ => List (Except Failure Bytes)

/-- A container is a server's or some other one, or one of a probe. -/
inductive Listed (Server : Type) where
  | server (value : Server)
  | probe (body : ProbeBody)

/-- The containers, and a call that nobody waits for any more but that is still to be carried out. -/
structure ProbeDaemon (Server : Type) where
  containers : Text -> Option (Listed Server)
  pending : Option ProbeCall

/-- What Docker answers.  A creation or a removal that fails may have been carried out. -/
structure ProbeAnswers where
  inspectImage : Except DockerError Unit
  pull : Option Failure
  create : Option (Failure × Bool)
  start : Option Failure
  wait : Option (Except Failure WaitResponse)
  logs : List (Except Failure Bytes)
  remove : Option (DockerError × Bool)

def faultFree (fault : Option Failure) : Except Failure Unit :=
  match fault with
  | none => .ok ()
  | some failure => .error failure

namespace ProbeDaemon

variable {Server : Type}

def put (daemon : ProbeDaemon Server) (name : Text) (container : Option (Listed Server)) : ProbeDaemon Server :=
  { daemon with containers := fun other => if other = name then container else daemon.containers other }

end ProbeDaemon

namespace ProbeAnswers

variable {Server : Type}

/-- Whether a creation makes the container. -/
def makes (answers : ProbeAnswers) : Bool :=
  match answers.create with
  | none => true
  | some (_, made) => made

/-- Whether a removal takes a container away; it is gone where Docker does not know it. -/
def removes (answers : ProbeAnswers) : Bool :=
  match answers.remove with
  | none => true
  | some (error, gone) => gone || error.status = some 404

def perform (answers : ProbeAnswers) : (request : ProbeCall) -> ProbeDaemon Server ->
    request.Reply × ProbeDaemon Server
  | .inspectImage _, daemon => (answers.inspectImage, daemon)
  | .pullImage _, daemon => (faultFree answers.pull, daemon)
  | .create name body, daemon =>
      if (daemon.containers name).isSome then (.error (.bail "Conflict"), daemon)
      else
        (faultFree (answers.create.map Prod.fst),
          if answers.makes then daemon.put name (some (.probe body)) else daemon)
  | .start _, daemon => (faultFree answers.start, daemon)
  | .wait _, daemon => (answers.wait, daemon)
  | .logs _, daemon => (answers.logs, daemon)
  | .remove name, daemon =>
      if (daemon.containers name).isNone then (.error ⟨some 404, "No such container"⟩, daemon)
      else
        (match answers.remove with
          | none => .ok ()
          | some (error, _) => .error error,
          if answers.removes then daemon.put name none else daemon)

end ProbeAnswers

/-- What becomes of a call that is given up. -/
inductive Flight where
  | lost
  | atOnce
  | late
  deriving DecidableEq

def ProbeAnswers.giveUp {Server : Type} (answers : ProbeAnswers) (flight : Flight) (request : ProbeCall)
    (daemon : ProbeDaemon Server) : ProbeDaemon Server :=
  match flight with
  | .lost => daemon
  | .atOnce => (answers.perform request daemon).2
  | .late => { daemon with pending := some request }

/-- A call that nobody waits for is carried out in the end. -/
def ProbeAnswers.settle {Server : Type} (answers : ProbeAnswers) (daemon : ProbeDaemon Server) : ProbeDaemon Server :=
  match daemon.pending with
  | none => daemon
  | some request => (answers.perform request { daemon with pending := none }).2

abbrev ProbeProgram := Program ProbeCall ProbeCall.Reply Failure

def ensureLocalImage (image : Text) : ProbeProgram Unit := do
  let inspected : Except DockerError Unit <- Program.ask (ProbeCall.inspectImage image)
  match inspected with
  | .ok () => Program.done ()
  | .error error =>
      if error.status = some 404 then
        Program.required (fun failure => .context s!"pull Docker image {String.ofList image}" failure)
          (Program.ask (ProbeCall.pullImage image))
      else
        Program.failed (.context s!"inspect database test image {String.ofList image}" (.bail error.message))

def maxLogBytes : Nat :=
  32 * 1024

/-- Collect the logs up to the limit or to an error of the stream. -/
def collectLogs : Bytes -> List (Except Failure Bytes) -> Bytes
  | output, [] => output
  | output, .error _ :: _ => output
  | output, .ok bytes :: rest =>
      let remaining := maxLogBytes - output.length
      if remaining = 0 then output
      else collectLogs (output ++ bytes.take (min bytes.length remaining)) rest

/-- What is said of a probe that ended with another status than zero. -/
def probeDetail (wait : WaitResponse) (frames : List (Except Failure Bytes)) : Text :=
  let logs := Text.trim (fromUtf8Lossy (collectLogs [] frames))
  if !logs.isEmpty then logs
  else
    match wait.error with
    | some error => error
    | none => "database client returned no output".toList

/-- Wait for a probe that was started. -/
def awaitProbe (name : Text) : ProbeProgram Unit := do
  let waited : Option (Except Failure WaitResponse) <- Program.ask (ProbeCall.wait name)
  match waited with
  | none => Program.failed (.bail "database test wait stream ended unexpectedly")
  | some (.error failure) => Program.failed (.context "wait for database test container" failure)
  | some (.ok wait) =>
      if wait.statusCode = 0 then Program.done ()
      else do
        let frames : List (Except Failure Bytes) <- Program.ask (ProbeCall.logs name)
        Program.failed (.bail
          s!"database connection test exited with status {wait.statusCode}: {String.ofList (probeDetail wait frames)}")

/-- Start a probe that was made. -/
def startProbe (name : Text) : ProbeProgram Unit := do
  Program.required (fun failure => .context "start database connection test container" failure)
    (Program.ask (ProbeCall.start name))
  awaitProbe name

def makeProbe (name : Text) (probe : DatabaseProbe) : ProbeProgram Unit := do
  Program.required (fun failure => .context "create database connection test container" failure)
    (Program.ask (ProbeCall.create name probe.body))
  startProbe name

def runDatabaseProbe (name : Text) (probe : DatabaseProbe) : ProbeProgram Unit := do
  ensureLocalImage probe.dockerImage
  makeProbe name probe

def removeDatabaseProbe (name : Text) : ProbeProgram Unit := do
  let removed : Except DockerError Unit <- Program.ask (ProbeCall.remove name)
  match removed with
  | .ok () => Program.done ()
  | .error error =>
      if error.status = some 404 then Program.done ()
      else Program.failed (.context s!"remove database probe container {String.ofList name}" (.bail error.message))

/-! ## One test -/

/-- What one test meets: the two containers as they are inspected, how many calls of the probe are
over when the time is, and what then becomes of the next one. -/
structure TestCourse where
  source : Except Failure Value
  database : Except Failure Value
  answers : ProbeAnswers
  deadline : Option Nat
  flight : Flight
  elapsed : Nat
  uuid : Text

def ensureDatabaseContext (course : TestCourse) (serverId databaseId : Text) : Except Failure Unit := do
  let source <- withContext s!"inspect Docker container {String.ofList serverId}" course.source
  refuseIf (!containerFlag ["State", "Running"] source)
    "server container must be running to test its database connection"
  let database <- withContext s!"inspect Docker container {String.ofList databaseId}" course.database
  refuseIf (!containerFlag ["State", "Running"] database) "database container is not running"

/-- What comes before a container is made. -/
def prepareTest (course : TestCourse) (spec : DatabaseConnectionSpec) : Except Failure DatabaseProbe := do
  validateDatabaseSpec spec
  ensureDatabaseContext course spec.serverId spec.host
  DatabaseProbe.fromSpec spec

def longestLatency : Nat :=
  2 ^ 63 - 1

section Tests

variable {Server : Type} (course : TestCourse) (spec : DatabaseConnectionSpec)

/-- Run a probe until its time is over. -/
def probeInTime (probe : DatabaseProbe) (daemon : ProbeDaemon Server) :
    Option (Except Failure Unit) × ProbeDaemon Server :=
  (runDatabaseProbe (probeName spec course.uuid) probe).within course.answers.perform
    (course.answers.giveUp course.flight) course.deadline daemon

def testDatabaseConnection (daemon : ProbeDaemon Server) : Except Failure Nat × ProbeDaemon Server :=
  match prepareTest course spec with
  | .error failure => (.error failure, daemon)
  | .ok probe =>
      let ran := probeInTime course spec probe daemon
      let removed := (removeDatabaseProbe (probeName spec course.uuid)).run course.answers.perform ran.2
      (match ran.1, removed.1 with
        | none, _ => .error (.bail "database connection test timed out")
        | some (.error failure), _ => .error failure
        | some (.ok ()), .error failure => .error (.context "remove successful database test container" failure)
        | some (.ok ()), .ok () => .ok (min course.elapsed longestLatency),
        removed.2)

/-- Where a client goes away. -/
inductive Departure where
  /-- While the probe runs, after some of its calls. -/
  | probing (calls : Nat)
  /-- While the probe is removed, which may still happen. -/
  | removing (carriedOut : Bool)

/-- What a test leaves whose client goes away. -/
def abandonedTest (departure : Departure) (daemon : ProbeDaemon Server) : ProbeDaemon Server :=
  match prepareTest course spec, departure with
  | .error _, _ => daemon
  | .ok probe, .probing calls =>
      ((runDatabaseProbe (probeName spec course.uuid) probe).timed course.answers.perform
        (course.answers.giveUp course.flight) calls daemon).2
  | .ok probe, .removing carriedOut =>
      let ran := (probeInTime course spec probe daemon).2
      if carriedOut then (course.answers.perform (.remove (probeName spec course.uuid)) ran).2 else ran

end Tests

/-! ## The container of a probe -/

/-- When the creation of a probe's container is carried out. -/
inductive Creation where
  | never
  | atOnce
  | late
  deriving DecidableEq

/-- What becomes of a creation that is given up. -/
def Flight.creation : Flight -> Creation
  | .lost => .never
  | .atOnce => .atOnce
  | .late => .late

namespace ProbeAnswers

/-- The number of calls after which the image is there. -/
def imageCalls (answers : ProbeAnswers) : Option Nat :=
  match answers.inspectImage with
  | .ok () => some 1
  | .error error => if error.status = some 404 && answers.pull.isNone then some 2 else none

variable {answers : ProbeAnswers}

theorem imageCalls_found {unused : Unit} (inspected : answers.inspectImage = .ok unused) :
    answers.imageCalls = some 1 := by
  rw [imageCalls, inspected]

theorem imageCalls_missing {error : DockerError} (inspected : answers.inspectImage = .error error)
    (missing : error.status = some 404) : answers.imageCalls = if answers.pull.isNone then some 2 else none := by
  rw [imageCalls, inspected]
  dsimp only
  rw [decide_eq_true missing, Bool.true_and]

theorem imageCalls_unknown {error : DockerError} (inspected : answers.inspectImage = .error error)
    (other : Not (error.status = some 404)) : answers.imageCalls = none := by
  rw [imageCalls, inspected]
  dsimp only
  rw [decide_eq_false other, Bool.false_and, if_neg Bool.false_ne_true]

/-- When the creation is carried out of a probe that is given up after some calls. -/
def creation (answers : ProbeAnswers) (flight : Flight) (limit : Option Nat) : Creation :=
  match answers.imageCalls, limit with
  | none, _ => .never
  | some _, none => .atOnce
  | some before, some calls =>
      if before < calls then .atOnce
      else if calls < before then .never
      else flight.creation

end ProbeAnswers

/-- Calls that do not change the containers. -/
def ProbeCall.Quiet : ProbeCall -> Prop
  | .inspectImage _ | .pullImage _ | .start _ | .wait _ | .logs _ => True
  | .create _ _ | .remove _ => False

section Leaving

open ProbeAnswers (imageCalls_found imageCalls_missing imageCalls_unknown)

variable {Server : Type} {answers : ProbeAnswers} {flight : Flight} {name : Text} {probe : DatabaseProbe}

theorem perform_quiet {request : ProbeCall} (quiet : request.Quiet) (daemon : ProbeDaemon Server) :
    (answers.perform request daemon).2 = daemon := by
  cases request with
  | create name body => exact quiet.elim
  | remove name => exact quiet.elim
  | inspectImage image => rfl
  | pullImage image => rfl
  | start name => rfl
  | wait name => rfl
  | logs name => rfl

/-- The containers are as before, and nothing is still to be done that changes them. -/
def LeftAlone (containers : Text -> Option (Listed Server)) (after : ProbeDaemon Server) : Prop :=
  after.containers = containers /\ forall request, after.pending = some request -> request.Quiet

theorem giveUp_quiet {request : ProbeCall} (quiet : request.Quiet) {containers : Text -> Option (Listed Server)}
    {daemon : ProbeDaemon Server} (here : LeftAlone containers daemon) :
    LeftAlone containers (answers.giveUp flight request daemon) := by
  cases flight with
  | lost => exact here
  | atOnce =>
      show LeftAlone containers (answers.perform request daemon).2
      rwa [perform_quiet quiet]
  | late =>
      refine ⟨here.1, fun other same => ?_⟩
      cases same
      exact quiet

/-- The containers after a creation was carried out. -/
def ProbeAnswers.made (answers : ProbeAnswers) (name : Text) (body : ProbeBody) (daemon : ProbeDaemon Server) :
    Text -> Option (Listed Server) :=
  if answers.makes then (daemon.put name (some (.probe body))).containers else daemon.containers

/-- What a probe leaves; only a late creation is still going to change anything. -/
def ProbeLeaves (answers : ProbeAnswers) (name : Text) (body : ProbeBody) (daemon after : ProbeDaemon Server) :
    Creation -> Prop
  | .never => LeftAlone daemon.containers after
  | .atOnce => LeftAlone (answers.made name body daemon) after
  | .late => after.containers = daemon.containers /\ after.pending = some (.create name body)

theorem quiet_within {Result : Type} {program : ProbeProgram Result} (only : program.Only ProbeCall.Quiet)
    (limit : Option Nat) {containers : Text -> Option (Listed Server)} {daemon : ProbeDaemon Server}
    (here : LeftAlone containers daemon) :
    LeftAlone containers (program.within answers.perform (answers.giveUp flight) limit daemon).2 := by
  refine Program.within_of_only ?_ ?_ limit only here
  · intro request state quiet holds
    rwa [perform_quiet quiet]
  · intro request state quiet holds
    exact giveUp_quiet quiet holds

theorem startProbe_quiet (name : Text) : (startProbe name).Only ProbeCall.Quiet := by
  refine Program.only_bind (Program.only_required _ ⟨trivial, fun _ => trivial⟩) ?_
  intro started
  refine Program.only_bind ⟨trivial, fun _ => trivial⟩ ?_
  rintro (_ | (failure | wait))
  · trivial
  · trivial
  · show Program.Only ProbeCall.Quiet (if wait.statusCode = 0 then _ else _)
    split
    · trivial
    · exact ⟨trivial, fun _ => trivial⟩

/-- A daemon that has nothing to do, and has no container of a name. -/
structure Idle (name : Text) (daemon : ProbeDaemon Server) : Prop where
  free : daemon.containers name = none
  idle : daemon.pending = none

theorem Idle.leftAlone {daemon : ProbeDaemon Server} (idle : Idle name daemon) :
    LeftAlone daemon.containers daemon :=
  ⟨rfl, fun _ same => by rw [idle.idle] at same; cases same⟩

theorem perform_create {daemon : ProbeDaemon Server} (idle : Idle name daemon) (body : ProbeBody) :
    answers.perform (.create name body) daemon =
      (faultFree (answers.create.map Prod.fst),
        if answers.makes then daemon.put name (some (.probe body)) else daemon) := by
  show (if (daemon.containers name).isSome then _ else _) = _
  rw [idle.free]
  rfl

theorem create_leftAlone {daemon : ProbeDaemon Server} (idle : Idle name daemon) (body : ProbeBody) :
    LeftAlone (answers.made name body daemon) (answers.perform (.create name body) daemon).2 := by
  rw [perform_create idle, ProbeAnswers.made]
  cases answers.makes with
  | true => exact ⟨rfl, fun _ same => by cases idle.idle.symm.trans same⟩
  | false => exact idle.leftAlone

/-- What is done after a creation changes nothing. -/
theorem afterCreation_quiet (name : Text) (reply : Except Failure Unit) :
    ((Program.required (fun failure => .context "create database connection test container" failure)
      (Program.done reply : ProbeProgram (Except Failure Unit))) >>=
        fun _ => startProbe name).Only ProbeCall.Quiet := by
  cases reply with
  | error failure => trivial
  | ok unused => exact startProbe_quiet name

/-- The creation of a probe that may make so many calls. -/
def creationNow (flight : Flight) : Option Nat -> Creation
  | none => .atOnce
  | some 0 => flight.creation
  | some (_ + 1) => .atOnce

theorem makeProbe_within (limit : Option Nat) {daemon : ProbeDaemon Server} (idle : Idle name daemon) :
    ProbeLeaves answers name probe.body daemon
      ((makeProbe name probe).within answers.perform (answers.giveUp flight) limit daemon).2
      (creationNow flight limit) := by
  have rest : LeftAlone (answers.made name probe.body daemon) (answers.perform (.create name probe.body) daemon).2 :=
    create_leftAlone idle probe.body
  have quiet := afterCreation_quiet name (answers.perform (.create name probe.body) daemon).1
  cases limit with
  | none => exact @quiet_within Server answers flight Unit _ quiet none _ _ rest
  | some calls =>
      cases calls with
      | succ calls => exact @quiet_within Server answers flight Unit _ quiet (some calls) _ _ rest
      | zero =>
          cases flight with
          | lost => exact idle.leftAlone
          | atOnce => exact rest
          | late => exact ⟨rfl, rfl⟩

/-- A creation that comes after some calls. -/
theorem creation_some {before : Nat} (image : answers.imageCalls = some before) (limit : Option Nat) :
    answers.creation flight (limit.map fun calls => calls + before) = creationNow flight limit := by
  rw [ProbeAnswers.creation.eq_def, image]
  cases limit with
  | none => rfl
  | some calls =>
      show (if before < calls + before then _ else if calls + before < before then _ else _) = _
      cases calls with
      | zero =>
          rw [if_neg (by omega), if_neg (by omega)]
          rfl
      | succ calls =>
          rw [if_pos (by omega)]
          rfl

theorem creation_early {before calls : Nat} (image : answers.imageCalls = some before) (early : calls < before) :
    answers.creation flight (some calls) = .never := by
  rw [ProbeAnswers.creation.eq_def, image]
  show (if before < calls then _ else _) = _
  rw [if_neg (by omega), if_pos early]

theorem creation_none (image : answers.imageCalls = none) (limit : Option Nat) :
    answers.creation flight limit = .never := by
  rw [ProbeAnswers.creation.eq_def, image]

/-- What follows the pull of an image. -/
def pulledProbe (name : Text) (probe : DatabaseProbe) (pulled : Except Failure Unit) : ProbeProgram Unit :=
  Program.required (fun failure => .context s!"pull Docker image {String.ofList probe.dockerImage}" failure)
    (Program.done pulled) >>= fun _ => makeProbe name probe

/-- The pull of an image that is not there, and what follows it. -/
def pullProbe (name : Text) (probe : DatabaseProbe) : ProbeProgram Unit :=
  .call (.pullImage probe.dockerImage) (pulledProbe name probe)

theorem pullProbe_within {error : DockerError} (inspected : answers.inspectImage = .error error)
    (missing : error.status = some 404) (limit : Option Nat) {daemon : ProbeDaemon Server} (idle : Idle name daemon) :
    ProbeLeaves answers name probe.body daemon
      ((pullProbe name probe).within answers.perform (answers.giveUp flight) limit daemon).2
      (answers.creation flight (limit.map fun calls => calls + 1)) := by
  have image := imageCalls_missing inspected missing
  rcases Program.limit_cases limit with rfl | ⟨fewer, rfl⟩
  · have never : answers.creation flight (some 1) = .never := by
      cases pulled : answers.pull with
      | none => exact creation_early (image.trans (by rw [pulled]; rfl)) (by omega)
      | some failure => exact creation_none (image.trans (by rw [pulled]; rfl)) _
    show ProbeLeaves answers name probe.body daemon (answers.giveUp flight _ daemon) (answers.creation flight (some 1))
    rw [never]
    have quiet : (ProbeCall.pullImage probe.dockerImage).Quiet := trivial
    exact giveUp_quiet quiet idle.leftAlone
  · rw [pullProbe, Program.within_call]
    show ProbeLeaves answers name probe.body daemon
      ((pulledProbe name probe (faultFree answers.pull)).within _ _ _ _).2 _
    cases pulled : answers.pull with
    | none =>
        have two : ((fewer.map fun calls => calls + 1).map fun calls => calls + 1) =
            fewer.map fun calls => calls + 2 := by
          cases fewer <;> rfl
        rw [two, creation_some (image.trans (by rw [pulled]; rfl))]
        exact makeProbe_within fewer idle
    | some failure =>
        rw [creation_none (image.trans (by rw [pulled]; rfl))]
        have quiet : (pulledProbe name probe (faultFree (some failure))).Only ProbeCall.Quiet := trivial
        exact quiet_within quiet fewer idle.leftAlone

/-- What follows the inspection of the image. -/
def inspectedProbe (name : Text) (probe : DatabaseProbe) : Except DockerError Unit -> ProbeProgram Unit
  | .ok () => makeProbe name probe
  | .error error =>
      if error.status = some 404 then pullProbe name probe
      else Program.failed
        (.context s!"inspect database test image {String.ofList probe.dockerImage}" (.bail error.message))

theorem runDatabaseProbe_eq (name : Text) (probe : DatabaseProbe) :
    runDatabaseProbe name probe = .call (.inspectImage probe.dockerImage) (inspectedProbe name probe) := by
  have same (inspected : Except DockerError Unit) :
      ((match inspected with
        | .ok () => Program.done ()
        | .error error =>
            if error.status = some 404 then
              Program.required (fun failure => .context s!"pull Docker image {String.ofList probe.dockerImage}" failure)
                (Program.ask (ProbeCall.pullImage probe.dockerImage))
            else
              Program.failed (.context s!"inspect database test image {String.ofList probe.dockerImage}"
                (.bail error.message)) : ProbeProgram Unit) >>= fun _ => makeProbe name probe) =
        inspectedProbe name probe inspected := by
    cases inspected with
    | ok unused => rfl
    | error error =>
        rw [inspectedProbe]
        dsimp only
        split <;> rfl
  rw [runDatabaseProbe, ensureLocalImage, Program.ask, Program.call_bind, Program.call_bind]
  exact congrArg (Program.call _) (funext same)

/-- A probe leaves what comes of its creation. -/
theorem runDatabaseProbe_within (limit : Option Nat) {daemon : ProbeDaemon Server} (idle : Idle name daemon) :
    ProbeLeaves answers name probe.body daemon
      ((runDatabaseProbe name probe).within answers.perform (answers.giveUp flight) limit daemon).2
      (answers.creation flight limit) := by
  rw [runDatabaseProbe_eq]
  rcases Program.limit_cases limit with rfl | ⟨fewer, rfl⟩
  · have never : answers.creation flight (some 0) = .never := by
      cases image : answers.imageCalls with
      | none => exact creation_none image _
      | some before =>
          have positive : 0 < before := by
            rw [ProbeAnswers.imageCalls] at image
            split at image
            · cases image
              omega
            · split at image <;> cases image
              omega
          exact creation_early image positive
    have quiet : (ProbeCall.inspectImage probe.dockerImage).Quiet := trivial
    rw [never]
    exact giveUp_quiet quiet idle.leftAlone
  · rw [Program.within_call]
    show ProbeLeaves answers name probe.body daemon
      ((inspectedProbe name probe answers.inspectImage).within _ _ _ _).2 _
    cases inspected : answers.inspectImage with
    | ok unused =>
        rw [creation_some (imageCalls_found inspected)]
        exact makeProbe_within fewer idle
    | error error =>
        rw [inspectedProbe]
        by_cases missing : error.status = some 404
        · rw [if_pos missing]
          exact pullProbe_within inspected missing fewer idle
        · rw [if_neg missing, creation_none (imageCalls_unknown inspected missing)]
          exact @quiet_within Server answers flight Unit (.failed _) trivial fewer _ _ idle.leftAlone

/-! ## What is left -/

/-- A probe's container is left where it is made late, or made and not removed. -/
def LeftBehind (answers : ProbeAnswers) (creation : Creation) (removed : Bool) : Prop :=
  answers.makes = true /\ (creation = .late \/ (creation = .atOnce /\ removed = false))

instance (answers : ProbeAnswers) (creation : Creation) (removed : Bool) :
    Decidable (LeftBehind answers creation removed) :=
  inferInstanceAs (Decidable (_ /\ _))

/-- The containers in the end. -/
def ProbeAnswers.inTheEnd (answers : ProbeAnswers) (name : Text) (body : ProbeBody) (daemon : ProbeDaemon Server)
    (creation : Creation) (removed : Bool) : Text -> Option (Listed Server) :=
  if LeftBehind answers creation removed then (daemon.put name (some (.probe body))).containers else daemon.containers

theorem settle_leftAlone {containers : Text -> Option (Listed Server)} {daemon : ProbeDaemon Server}
    (here : LeftAlone containers daemon) : (answers.settle daemon).containers = containers := by
  rw [ProbeAnswers.settle]
  cases pending : daemon.pending with
  | none => exact here.1
  | some request =>
      dsimp only
      rw [perform_quiet (here.2 request pending)]
      exact here.1

theorem settle_create {daemon after : ProbeDaemon Server} {body : ProbeBody} (idle : Idle name daemon)
    (same : after.containers = daemon.containers) (pending : after.pending = some (.create name body)) :
    (answers.settle after).containers = answers.made name body daemon := by
  have free : Idle name { after with pending := none } := ⟨by rw [same]; exact idle.free, rfl⟩
  rw [ProbeAnswers.settle, pending]
  dsimp only
  rw [(create_leftAlone free body).1, ProbeAnswers.made, ProbeAnswers.made]
  split
  · funext other
    show (if other = name then _ else after.containers other) = if other = name then _ else daemon.containers other
    rw [same]
  · exact same

theorem settled {daemon after : ProbeDaemon Server} {body : ProbeBody} {creation : Creation} (idle : Idle name daemon)
    (leaves : ProbeLeaves answers name body daemon after creation) :
    (answers.settle after).containers = answers.inTheEnd name body daemon creation false := by
  have never (notLeft : Not (LeftBehind answers .never false)) :
      daemon.containers = answers.inTheEnd name body daemon .never false := (if_neg notLeft).symm
  cases creation with
  | never =>
      refine (settle_leftAlone leaves).trans (never ?_)
      rintro ⟨_, impossible | ⟨impossible, _⟩⟩ <;> cases impossible
  | atOnce =>
      refine (settle_leftAlone leaves).trans ?_
      rw [ProbeAnswers.made, ProbeAnswers.inTheEnd]
      refine if_congr ?_ rfl rfl
      exact ⟨fun makes => ⟨makes, Or.inr ⟨rfl, rfl⟩⟩, fun left => left.1⟩
  | late =>
      refine (settle_create idle leaves.1 leaves.2).trans ?_
      rw [ProbeAnswers.made, ProbeAnswers.inTheEnd]
      refine if_congr ?_ rfl rfl
      exact ⟨fun makes => ⟨makes, Or.inl rfl⟩, fun left => left.1⟩

theorem remove_free {daemon : ProbeDaemon Server} (free : daemon.containers name = none) :
    (answers.perform (.remove name) daemon).2 = daemon := by
  show (if (daemon.containers name).isNone then _ else _ : Except DockerError Unit × ProbeDaemon Server).2 = daemon
  rw [free]
  rfl

theorem put_put_none {daemon : ProbeDaemon Server} (free : daemon.containers name = none)
    (container : Option (Listed Server)) :
    ((daemon.put name container).put name none).containers = daemon.containers := by
  funext other
  show (if other = name then none else if other = name then container else daemon.containers other) = _
  by_cases same : other = name
  · rw [if_pos same, same, free]
  · rw [if_neg same, if_neg same]

/-- What is left once the removal was carried out. -/
theorem settled_removed {daemon after : ProbeDaemon Server} {body : ProbeBody} {creation : Creation}
    (idle : Idle name daemon) (leaves : ProbeLeaves answers name body daemon after creation) :
    (answers.settle (answers.perform (.remove name) after).2).containers =
      answers.inTheEnd name body daemon creation answers.removes := by
  have untouched (free : after.containers name = none) (same : answers.inTheEnd name body daemon creation false =
      answers.inTheEnd name body daemon creation answers.removes) :
      (answers.settle (answers.perform (.remove name) after).2).containers =
        answers.inTheEnd name body daemon creation answers.removes := by
    rw [remove_free free, settled idle leaves, same]
  cases creation with
  | never =>
      refine untouched (by rw [leaves.1]; exact idle.free) (if_congr (and_congr_right' ?_) rfl rfl)
      exact iff_of_false (by rintro (impossible | ⟨impossible, _⟩) <;> cases impossible)
        (by rintro (impossible | ⟨impossible, _⟩) <;> cases impossible)
  | late =>
      refine untouched (by rw [leaves.1]; exact idle.free) (if_congr (and_congr_right' ?_) rfl rfl)
      exact iff_of_true (Or.inl rfl) (Or.inl rfl)
  | atOnce =>
      cases makes : answers.makes with
      | false =>
          have same : answers.made name body daemon = daemon.containers := by
            rw [ProbeAnswers.made, makes, if_neg Bool.false_ne_true]
          refine untouched (by rw [leaves.1, same]; exact idle.free) (if_congr ?_ rfl rfl)
          exact iff_of_false (fun left => by cases makes.symm.trans left.1)
            (fun left => by cases makes.symm.trans left.1)
      | true =>
          have made : answers.made name body daemon = (daemon.put name (some (.probe body))).containers := by
            rw [ProbeAnswers.made, makes, if_pos rfl]
          have present : after.containers name = some (.probe body) := by
            rw [leaves.1, made]
            exact if_pos rfl
          have removal : (answers.perform (.remove name) after).2 =
              if answers.removes then after.put name none else after := by
            show (if (after.containers name).isNone then _ else _ : Except DockerError Unit × ProbeDaemon Server).2 = _
            rw [present]
            rfl
          rw [removal]
          cases removes : answers.removes with
          | false =>
              rw [if_neg Bool.false_ne_true]
              exact settled idle leaves
          | true =>
              have gone : LeftAlone daemon.containers (after.put name none) := by
                refine ⟨?_, leaves.2⟩
                rw [<- put_put_none idle.free (some (.probe body))]
                funext other
                show (if other = name then none else after.containers other) = if other = name then none else _
                rw [leaves.1, made]
              rw [if_pos rfl, settle_leftAlone gone, ProbeAnswers.inTheEnd, if_neg]
              rintro ⟨_, impossible | ⟨_, impossible⟩⟩ <;> cases impossible

/-! ## Tests as they end -/

/-- Whether the client of a database ended well. -/
def ProbeAnswers.EndsWell (answers : ProbeAnswers) : Prop :=
  Exists fun wait => answers.wait = some (.ok wait) /\ wait.statusCode = 0

/-- The image is there, and there is time to make the container, to start it and to see it end well. -/
def ProbeAnswers.Reaches (answers : ProbeAnswers) (limit : Option Nat) : Prop :=
  Exists fun before => answers.imageCalls = some before /\ (answers.create = none /\ answers.start = none /\
    answers.EndsWell) /\ Program.Allows (before + 3) limit

/-- Whether Docker says that the container is gone. -/
def ProbeAnswers.ReportsGone (answers : ProbeAnswers) : Prop :=
  forall error gone, answers.remove = some (error, gone) -> error.status = some 404

theorem awaitProbe_done (limit : Option Nat) (daemon : ProbeDaemon Server) :
    ((awaitProbe name).within answers.perform (answers.giveUp flight) limit daemon).1 = some (.ok ()) <->
      answers.EndsWell /\ Program.Allows 1 limit := by
  by_cases ends : answers.EndsWell
  · refine Program.within_call_done (fun fewer => iff_of_true ?_ ⟨ends, ?_⟩)
    · rcases ends with ⟨wait, waited, zero⟩
      show ((Program.bind (.done answers.wait) _).within _ _ fewer daemon).1 = some (.ok ())
      rw [Program.bind, waited]
      dsimp only
      rw [if_pos zero]
      cases fewer with
      | none => rfl
      | some calls => rw [Program.within, Program.timed_done]
    · cases fewer with
      | none => trivial
      | some calls => exact Nat.zero_le calls
  · refine iff_of_false ?_ (fun both => ends both.1)
    have bad : Exists fun failure => ((awaitProbe name).run answers.perform daemon).1 = .error failure := by
      rw [awaitProbe, Program.run_bind, Program.run_ask]
      dsimp only [ProbeAnswers.perform]
      cases waited : answers.wait with
      | none => exact ⟨_, rfl⟩
      | some reply =>
          cases reply with
          | error failure => exact ⟨_, rfl⟩
          | ok wait =>
              have failed : Not (wait.statusCode = 0) := fun zero => ends ⟨wait, waited, zero⟩
              dsimp only
              rw [if_neg failed]
              exact ⟨_, rfl⟩
    exact Program.within_not_ok bad ()

theorem startProbe_done (limit : Option Nat) (daemon : ProbeDaemon Server) :
    ((startProbe name).within answers.perform (answers.giveUp flight) limit daemon).1 = some (.ok ()) <->
      (answers.start = none /\ answers.EndsWell) /\ Program.Allows 2 limit := by
  refine Program.within_call_done (fun fewer => ?_)
  show ((Program.bind (Program.bind (.done (faultFree answers.start)) _) _).within _ _ fewer daemon).1 =
    some (.ok ()) <-> _
  cases started : answers.start with
  | none =>
      refine (awaitProbe_done fewer daemon).trans (and_congr_left' ?_)
      exact (and_iff_right rfl).symm
  | some failure => exact iff_of_false (Program.within_not_ok ⟨_, rfl⟩ ()) (fun both => by cases both.1.1)

theorem makeProbe_done (limit : Option Nat) {daemon : ProbeDaemon Server} (idle : Idle name daemon) :
    ((makeProbe name probe).within answers.perform (answers.giveUp flight) limit daemon).1 = some (.ok ()) <->
      (answers.create = none /\ answers.start = none /\ answers.EndsWell) /\ Program.Allows 3 limit := by
  refine Program.within_call_done (fun fewer => ?_)
  rw [perform_create idle]
  show ((Program.bind (Program.bind (.done (faultFree (answers.create.map Prod.fst))) _) _).within _ _ fewer _).1 =
    some (.ok ()) <-> _
  cases created : answers.create with
  | none =>
      refine (startProbe_done fewer _).trans (and_congr_left' ?_)
      exact (and_iff_right rfl).symm
  | some fault => exact iff_of_false (Program.within_not_ok ⟨_, rfl⟩ ()) (fun both => by cases both.1.1)

theorem allows_after {before needed : Nat} {limit : Option Nat} {rest : Prop}
    (image : answers.imageCalls = some before) (total : needed = before + 3) :
    (rest /\ Program.Allows needed limit) <->
      Exists fun before => answers.imageCalls = some before /\ rest /\ Program.Allows (before + 3) limit := by
  constructor
  · intro both
    exact ⟨before, image, total ▸ both⟩
  · rintro ⟨other, same, both⟩
    cases image.symm.trans same
    exact total ▸ both

/-- When a probe is done. -/
theorem runDatabaseProbe_done (limit : Option Nat) {daemon : ProbeDaemon Server} (idle : Idle name daemon) :
    ((runDatabaseProbe name probe).within answers.perform (answers.giveUp flight) limit daemon).1 = some (.ok ()) <->
      answers.Reaches limit := by
  have nowhere (image : answers.imageCalls = none) : Not (answers.Reaches limit) := by
    rintro ⟨before, some, _⟩
    cases image.symm.trans some
  have pull {error : DockerError} (inspected : answers.inspectImage = .error error)
    (missing : error.status = some 404) :
      inspectedProbe name probe answers.inspectImage = pullProbe name probe := by
    rw [inspected, inspectedProbe, if_pos missing]
  rw [runDatabaseProbe_eq]
  cases inspected : answers.inspectImage with
  | ok unused =>
      refine Iff.trans (Program.within_call_done (fun fewer => ?_)) (allows_after (imageCalls_found inspected) rfl)
      show ((inspectedProbe name probe answers.inspectImage).within _ _ fewer daemon).1 = some (.ok ()) <-> _
      rw [inspected]
      exact makeProbe_done fewer idle
  | error error =>
      by_cases missing : error.status = some 404
      · cases pulled : answers.pull with
        | none =>
            have image : answers.imageCalls = some 2 := by
              rw [imageCalls_missing inspected missing, pulled]
              rfl
            refine Iff.trans (Program.within_call_done (fun fewer => ?_)) (allows_after image rfl)
            show ((inspectedProbe name probe answers.inspectImage).within _ _ fewer daemon).1 = some (.ok ()) <-> _
            rw [pull inspected missing]
            refine Program.within_call_done (fun fewer => ?_)
            show ((pulledProbe name probe (faultFree answers.pull)).within _ _ fewer daemon).1 = some (.ok ()) <-> _
            rw [pulled]
            exact makeProbe_done fewer idle
        | some failure =>
            have image : answers.imageCalls = none := by
              rw [imageCalls_missing inspected missing, pulled]
              rfl
            refine iff_of_false (Program.within_not_ok ?_ ()) (nowhere image)
            show Exists fun failure =>
              ((inspectedProbe name probe answers.inspectImage).run answers.perform daemon).1 = _
            rw [pull inspected missing]
            show Exists fun failure =>
              ((pulledProbe name probe (faultFree answers.pull)).run answers.perform daemon).1 = _
            rw [pulled]
            exact ⟨_, rfl⟩
      · refine iff_of_false (Program.within_not_ok ?_ ()) (nowhere (imageCalls_unknown inspected missing))
        show Exists fun failure => ((inspectedProbe name probe answers.inspectImage).run answers.perform daemon).1 = _
        rw [inspected, inspectedProbe, if_neg missing]
        exact ⟨_, rfl⟩

theorem removeDatabaseProbe_run (daemon : ProbeDaemon Server) :
    ((removeDatabaseProbe name).run answers.perform daemon).2 = (answers.perform (.remove name) daemon).2 := by
  rw [removeDatabaseProbe, Program.run_bind, Program.run_ask]
  dsimp only
  split
  · rfl
  · split <;> rfl

/-- A container that is there is reported gone where Docker says so, and then it is gone. -/
theorem removeDatabaseProbe_done {daemon : ProbeDaemon Server} (present : (daemon.containers name).isNone = false) :
    ((removeDatabaseProbe name).run answers.perform daemon).1 = .ok () <-> answers.ReportsGone := by
  have reply : (answers.perform (.remove name) daemon).1 =
      match answers.remove with
        | none => .ok ()
        | some (error, _) => .error error := by
    show (if (daemon.containers name).isNone then _ else _ : Except DockerError Unit × ProbeDaemon Server).1 = _
    rw [present]
    rfl
  rw [removeDatabaseProbe, Program.run_bind, Program.run_ask]
  dsimp only
  rw [reply]
  cases removed : answers.remove with
  | none => exact iff_of_true rfl (fun error gone impossible => by rw [removed] at impossible; cases impossible)
  | some fault =>
      rcases fault with ⟨error, gone⟩
      dsimp only
      have said : answers.ReportsGone <-> error.status = some 404 := by
        constructor
        · intro all
          exact all error gone removed
        · intro here other whether same
          cases removed.symm.trans same
          exact here
      rw [said]
      split
      · next known => exact iff_of_true rfl known
      · next other => exact iff_of_false (fun impossible => by cases impossible) other

end Leaving

section Ends

variable {Server : Type} {course : TestCourse} {spec : DatabaseConnectionSpec} {daemon : ProbeDaemon Server}

/-- The containers once all calls of a test were carried out. -/
def leftByTest (course : TestCourse) (spec : DatabaseConnectionSpec) (probe : DatabaseProbe)
    (daemon : ProbeDaemon Server) : Creation -> Bool -> Text -> Option (Listed Server) :=
  course.answers.inTheEnd (probeName spec course.uuid) probe.body daemon

theorem leftByTest_removed (probe : DatabaseProbe) :
    leftByTest course spec probe daemon .atOnce true = daemon.containers := by
  refine if_neg ?_
  rintro ⟨_, impossible | ⟨_, impossible⟩⟩ <;> cases impossible

theorem probeInTime_leaves (probe : DatabaseProbe) (idle : Idle (probeName spec course.uuid) daemon) :
    ProbeLeaves course.answers (probeName spec course.uuid) probe.body daemon
      (probeInTime course spec probe daemon).2 (course.answers.creation course.flight course.deadline) :=
  runDatabaseProbe_within course.deadline idle

/-- A test that ran to its end. -/
theorem testDatabaseConnection_settled {probe : DatabaseProbe} (prepared : prepareTest course spec = .ok probe)
    (idle : Idle (probeName spec course.uuid) daemon) :
    (course.answers.settle (testDatabaseConnection course spec daemon).2).containers =
      leftByTest course spec probe daemon (course.answers.creation course.flight course.deadline)
        course.answers.removes := by
  rw [testDatabaseConnection, prepared]
  dsimp only
  rw [removeDatabaseProbe_run]
  exact settled_removed idle (probeInTime_leaves probe idle)

theorem creation_of_reaches {answers : ProbeAnswers} {flight : Flight} {limit : Option Nat}
    (reaches : answers.Reaches limit) : answers.creation flight limit = .atOnce := by
  rcases reaches with ⟨before, image, _, time⟩
  rw [ProbeAnswers.creation.eq_def, image]
  cases limit with
  | none => rfl
  | some calls =>
      have later : before < calls := Nat.lt_of_lt_of_le (by omega) time
      exact if_pos later

/-- When a test ends well. -/
theorem testDatabaseConnection_ok {probe : DatabaseProbe} (prepared : prepareTest course spec = .ok probe)
    (idle : Idle (probeName spec course.uuid) daemon) :
    (Exists fun latency => (testDatabaseConnection course spec daemon).1 = .ok latency) <->
      course.answers.Reaches course.deadline /\ course.answers.ReportsGone := by
  have outcome := @runDatabaseProbe_done Server course.answers course.flight _ probe course.deadline daemon idle
  have present (reaches : course.answers.Reaches course.deadline) :
      ((probeInTime course spec probe daemon).2.containers (probeName spec course.uuid)).isNone = false := by
    have leaves := probeInTime_leaves probe idle
    have makes : course.answers.makes = true := by
      rcases reaches with ⟨before, _, ⟨created, _⟩, _⟩
      rw [ProbeAnswers.makes, created]
    rw [creation_of_reaches reaches] at leaves
    rw [leaves.1, ProbeAnswers.made, if_pos makes]
    show
      (if probeName spec course.uuid = probeName spec course.uuid then _ else _ : Option (Listed Server)).isNone = false
    rw [if_pos rfl]
    rfl
  rw [testDatabaseConnection, prepared]
  dsimp only
  constructor
  · rintro ⟨latency, ok⟩
    have ended : (probeInTime course spec probe daemon).1 = some (.ok ()) := by
      cases ran : (probeInTime course spec probe daemon).1 with
      | none => rw [ran] at ok; cases ok
      | some result =>
          cases result with
          | error failure => rw [ran] at ok; cases ok
          | ok unused => rfl
    have reaches := outcome.mp ended
    refine ⟨reaches, (removeDatabaseProbe_done (present reaches)).mp ?_⟩
    rw [ended] at ok
    cases removed : ((removeDatabaseProbe (probeName spec course.uuid)).run course.answers.perform
        (probeInTime course spec probe daemon).2).1 with
    | error failure => rw [removed] at ok; cases ok
    | ok unused => rfl
  · rintro ⟨reaches, gone⟩
    have ended : (probeInTime course spec probe daemon).1 = some (.ok ()) := outcome.mpr reaches
    rw [ended, (removeDatabaseProbe_done (present reaches)).mpr gone]
    exact ⟨_, rfl⟩

theorem removes_of_reportsGone {answers : ProbeAnswers} (gone : answers.ReportsGone) : answers.removes = true := by
  rw [ProbeAnswers.removes]
  cases removed : answers.remove with
  | none => rfl
  | some fault =>
      show (fault.2 || decide (fault.1.status = some 404)) = true
      rw [decide_eq_true (gone fault.1 fault.2 removed), Bool.or_true]

/-- A test whose client goes away. -/
theorem abandonedTest_settled {probe : DatabaseProbe} (prepared : prepareTest course spec = .ok probe)
    (idle : Idle (probeName spec course.uuid) daemon) (departure : Departure) :
    (course.answers.settle (abandonedTest course spec departure daemon)).containers =
      match departure with
      | .probing calls =>
          leftByTest course spec probe daemon (course.answers.creation course.flight (some calls)) false
      | .removing carriedOut =>
          leftByTest course spec probe daemon (course.answers.creation course.flight course.deadline)
            (carriedOut && course.answers.removes) := by
  rw [abandonedTest.eq_def, prepared]
  cases departure with
  | probing calls => exact settled idle (runDatabaseProbe_within (some calls) idle)
  | removing carriedOut =>
      have leaves := probeInTime_leaves probe idle
      cases carriedOut with
      | false => exact settled idle leaves
      | true => exact settled_removed idle leaves

/-- How a test of a database ends and what it leaves, whether its client waits for it or goes away. -/
structure TestLeaves (course : TestCourse) (spec : DatabaseConnectionSpec) (daemon : ProbeDaemon Server) : Prop where
  refused : forall failure, prepareTest course spec = .error failure ->
    testDatabaseConnection course spec daemon = (.error failure, daemon)
  refusedAlone : forall failure, prepareTest course spec = .error failure ->
    forall departure, abandonedTest course spec departure daemon = daemon
  endsWell : forall probe, prepareTest course spec = .ok probe ->
    ((Exists fun latency => (testDatabaseConnection course spec daemon).1 = .ok latency) <->
      course.answers.Reaches course.deadline /\ course.answers.ReportsGone)
  left : forall probe, prepareTest course spec = .ok probe ->
    (course.answers.settle (testDatabaseConnection course spec daemon).2).containers =
      leftByTest course spec probe daemon (course.answers.creation course.flight course.deadline) course.answers.removes
  nothingLeft : (Exists fun latency => (testDatabaseConnection course spec daemon).1 = .ok latency) ->
    (course.answers.settle (testDatabaseConnection course spec daemon).2).containers = daemon.containers
  abandoned : forall probe, prepareTest course spec = .ok probe ->
    forall departure, (course.answers.settle (abandonedTest course spec departure daemon)).containers =
      match departure with
      | .probing calls =>
          leftByTest course spec probe daemon (course.answers.creation course.flight (some calls)) false
      | .removing carriedOut =>
          leftByTest course spec probe daemon (course.answers.creation course.flight course.deadline)
            (carriedOut && course.answers.removes)

/-- A test of a database leaves the container that it makes exactly where its creation is carried
out late, or where it was made and the removal is not carried out; nothing else changes.  A test ends
well exactly if the container was made, started and seen to end well in time and is gone. -/
theorem database_test_leaves (course : TestCourse) (spec : DatabaseConnectionSpec) (daemon : ProbeDaemon Server)
    (idle : Idle (probeName spec course.uuid) daemon) : TestLeaves course spec daemon where
  refused failure refused := by
    rw [testDatabaseConnection, refused]
  refusedAlone failure refused departure := by
    rw [abandonedTest.eq_def, refused]
  endsWell probe prepared := testDatabaseConnection_ok prepared idle
  left probe prepared := testDatabaseConnection_settled prepared idle
  nothingLeft ok := by
    cases prepared : prepareTest course spec with
    | error failure =>
        rcases ok with ⟨latency, ended⟩
        rw [testDatabaseConnection, prepared] at ended
        cases ended
    | ok probe =>
        rcases (testDatabaseConnection_ok prepared idle).mp ok with ⟨reaches, gone⟩
        rw [testDatabaseConnection_settled prepared idle, creation_of_reaches reaches, removes_of_reportsGone gone,
          leftByTest_removed]
  abandoned probe prepared := abandonedTest_settled prepared idle

def postgresSpec : DatabaseConnectionSpec :=
  ⟨"lobby".toList, "postgres".toList, "db".toList, 5432, "main".toList, "lobby".toList, "secret".toList,
    "postgres:16".toList⟩

/-- A course where both containers run, the image is there and every call goes well. -/
def smoothCourse : TestCourse :=
  let running : Value := .object [("State".toList, .object [("Running".toList, .bool true)])]
  ⟨.ok running, .ok running, ⟨.ok (), none, none, none, some (.ok ⟨0, none⟩), [], none⟩, some 4, .late, 12, "1f".toList⟩

/-- A client that goes away while the container is made leaves it; one that stays leaves nothing. -/
theorem database_test_leaves_postgres :
    (smoothCourse.answers.settle (testDatabaseConnection smoothCourse postgresSpec
        (⟨fun _ => none, none⟩ : ProbeDaemon Unit)).2).containers = (fun _ => none) /\
      (smoothCourse.answers.settle (abandonedTest smoothCourse postgresSpec (.probing 1)
        (⟨fun _ => none, none⟩ : ProbeDaemon Unit))).containers "lobby-dbtest-1f".toList =
          some (.probe ⟨"postgres:16".toList, ["PGPASSWORD=secret".toList], ["psql".toList],
            postgresCommand postgresSpec,
            false, "container:lobby".toList, false⟩) := by
  have prepared : prepareTest smoothCourse postgresSpec =
      .ok ⟨"lobby".toList, "secret".toList, "postgres:16".toList, "PGPASSWORD".toList, "psql".toList,
        postgresCommand postgresSpec⟩ := by
    rfl
  have test := database_test_leaves smoothCourse postgresSpec (⟨fun _ => none, none⟩ : ProbeDaemon Unit)
    ⟨rfl, rfl⟩
  constructor
  · refine test.nothingLeft ((test.endsWell _ prepared).mpr ⟨⟨1, rfl, ⟨rfl, rfl, ⟨⟨0, none⟩, rfl, rfl⟩⟩, ?_⟩, ?_⟩)
    · exact Nat.le_refl 4
    · intro error gone impossible
      cases impossible
  · refine (congrFun (test.abandoned _ prepared (.probing 1)) _).trans ?_
    rfl

end Ends

end Runtime
end Agapornis
