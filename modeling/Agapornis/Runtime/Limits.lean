import Agapornis.Core.ServerPaths
import Agapornis.Foundations.Numerals

namespace Agapornis
namespace Runtime

open Foundations Agapornis.Core

/-!
# The limits of a server

A container is created with its limits, and they are changed later by an
update.  An update of Docker leaves alone what it does not name, and neither
path names a limit that is lifted; the disk limit is a file which neither
path writes when there is no limit.  A creation starts from nothing, but an
update starts from the limits before.
-/

/-- The fields of a creation and of an update that are about limits. -/
structure ResourceSpec where
  serverId : Text
  memoryBytes : Int
  cpuLimitPercentage : Int
  diskLimitBytes : Int
  cpuPinning : Bool
  cpuPinnedThreads : Text
  swapMemoryBytes : Int
  swapMemoryStorage : Text
  deriving DecidableEq, Repr

/-- The arithmetic on doubles which the CPU limit goes through. -/
structure Doubles where
  Double : Type
  zero : Double
  /-- A percentage divided by `100.0`. -/
  ofPercent : Int -> Double
  positive : Double -> Bool
  finite : Double -> Bool
  /-- Multiplied by `1_000_000_000.0`. -/
  billionfold : Double -> Double
  aboveMaximum : Double -> Bool
  /-- Rounded to an integer of 64 bits. -/
  round : Double -> Int

/-- What the limits depend on besides a request. -/
structure LimitTools where
  environment : Environment
  doubles : Doubles
  /-- The number of CPU threads of the node. -/
  available : Nat
  /-- The CPU set that an update with an empty one leaves in place of another. -/
  blank : Text -> Text

/-- Addition in 64 bits that stops at the limits of the type. -/
def saturatingAdd (first second : Int) : Int :=
  max (-2 ^ 63) (min (first + second) (2 ^ 63 - 1))

section Requests

variable (tools : LimitTools)

def effectiveCpus (percent : Int) : tools.doubles.Double :=
  if 0 < percent then tools.doubles.ofPercent percent else tools.doubles.zero

def parseUsize (text : Text) : Except Failure Nat :=
  match Text.parseUnsigned (2 ^ 64 - 1) text with
  | some value => .ok value
  | none => .error (.bail (Text.parseError text))

/-- The first and the last thread of a segment. -/
def segmentThreads (segment : Text) : Except Failure (Nat × Nat) :=
  match Text.splitOnce '-' segment with
  | some (start, stop) => do
      let start <- parseUsize start
      let stop <- parseUsize stop
      .ok (start, stop)
  | none => do
      let thread <- parseUsize segment
      .ok (thread, thread)

def selectThreads (selected : List Nat) : List Nat -> Except Failure (List Nat)
  | [] => .ok selected
  | thread :: rest =>
      if thread ∈ selected then .error (.bail s!"pinned CPU thread {thread} is listed more than once")
      else selectThreads (thread :: selected) rest

def selectSegments : List Nat -> List Text -> Except Failure (List Nat)
  | selected, [] => .ok selected
  | selected, segment :: rest => do
      let (start, stop) <- segmentThreads segment
      refuseIf (decide (stop < start)) s!"invalid pinned CPU thread range '{String.ofList segment}'"
      refuseIf (decide (tools.available <= stop))
        s!"pinned CPU thread {stop} does not exist; this node has threads 0-{tools.available - 1}"
      let selected <- selectThreads selected (List.range' start (stop + 1 - start))
      selectSegments selected rest

/-- The CPU set that a request names, if it names one. -/
def pinnedCpuSet (value : Text) : Except Failure (Option Text) :=
  let stripped := value.filter (fun character => !Text.isWhitespace character)
  if stripped.isEmpty then .ok none
  else do
    let selected <- selectSegments tools [] (stripped.splitOn ',')
    .ok (if selected.isEmpty then none else some stripped)

def effectiveDiskLimit (disk swap : Int) (storage : Text) : Except Failure Int := do
  refuseIf (decide (swap < 0)) "swap memory cannot be negative"
  if storage = "server".toList /\ 0 < swap then do
    refuseIf (decide (disk <= swap)) "server storage must be larger than swap memory"
    .ok (disk - swap)
  else .ok disk

end Requests

/-- The limits of a container as Docker keeps them; zero and the empty set
stand for none. -/
structure HostLimits where
  memory : Int
  memorySwap : Int
  nanoCpus : Int
  cpusetCpus : Text
  deriving DecidableEq, Repr

/-- What a request to Docker says about limits. -/
structure LimitBody where
  memory : Option Int
  memorySwap : Option Int
  nanoCpus : Option Int
  cpusetCpus : Option Text
  deriving DecidableEq, Repr

/-- A container has the limits that it is created with. -/
def LimitBody.created (body : LimitBody) : HostLimits where
  memory := body.memory.getD 0
  memorySwap := body.memorySwap.getD 0
  nanoCpus := body.nanoCpus.getD 0
  cpusetCpus := body.cpusetCpus.getD []

/-- The CPU set after an update. -/
def updatedSet (blank : Text -> Text) (current : Text) : Option Text -> Text
  | none => current
  | some set => if set = [] then blank current else set

/-- An update changes the limits that it gives. -/
def LimitBody.updated (blank : Text -> Text) (body : LimitBody) (current : HostLimits) : HostLimits where
  memory := body.memory.getD current.memory
  memorySwap := body.memorySwap.getD current.memorySwap
  nanoCpus := body.nanoCpus.getD current.nanoCpus
  cpusetCpus := updatedSet blank current.cpusetCpus body.cpusetCpus

/-- The limits of a server: those of its container and its disk-limit file. -/
structure ServerLimits where
  host : HostLimits
  disk : Option Text
  deriving DecidableEq, Repr

section Operations

variable (tools : LimitTools)

def memoryLimit (spec : ResourceSpec) : Option Int :=
  if 0 < spec.memoryBytes then some spec.memoryBytes else none

/-- The limit of memory and swap together. -/
def memorySwapLimit (spec : ResourceSpec) : Option Int :=
  (memoryLimit spec).map (fun memory => saturatingAdd memory (max spec.swapMemoryBytes 0))

/-- The CPU limit of a creation. -/
def nanoCpus (cpus : tools.doubles.Double) : Option Int :=
  if tools.doubles.positive cpus then some (tools.doubles.round (tools.doubles.billionfold cpus)) else none

/-- The CPU limit of an update, which is checked. -/
def checkedNanoCpus (cpus : tools.doubles.Double) : Except Failure (Option Int) :=
  if tools.doubles.positive cpus then do
    refuseIf (!tools.doubles.finite cpus) "calculated CPU limit is not finite"
    refuseIf (tools.doubles.aboveMaximum (tools.doubles.billionfold cpus)) "calculated CPU limit is too large"
    .ok (some (tools.doubles.round (tools.doubles.billionfold cpus)))
  else .ok none

/-- The part of `build_container` that is about limits. -/
def containerLimits (spec : ResourceSpec) : Except Failure LimitBody := do
  let pinned <- pinnedCpuSet tools spec.cpuPinnedThreads
  .ok {
    memory := memoryLimit spec
    memorySwap := memorySwapLimit spec
    nanoCpus := nanoCpus tools (effectiveCpus tools spec.cpuLimitPercentage)
    cpusetCpus := pinned }

/-- The limits that a creation sets where there was nothing before. -/
def createLimits (spec : ResourceSpec) : Except Failure ServerLimits := do
  Paths.validateId spec.serverId
  let disk <- effectiveDiskLimit spec.diskLimitBytes spec.swapMemoryBytes spec.swapMemoryStorage
  let body <- containerLimits tools spec
  .ok { host := body.created, disk := if 0 < disk then some (Text.signedDecimal disk) else none }

/-- How the calls of an update end.  An update that Docker fails may have been
made or not, and a failed write leaves anything in the file. -/
structure UpdateCourse where
  update : Option (Failure × Bool)
  inspect : Option Failure
  createDir : Option Failure
  write : Option (Failure × Option Text)
  readBack : Option Failure

/-- The CPU set of an update, empty when there is to be no pinning. -/
def requestedSet (spec : ResourceSpec) : Except Failure Text :=
  if spec.cpuPinning then do
    let pinned <- pinnedCpuSet tools spec.cpuPinnedThreads
    .ok (pinned.getD [])
  else .ok []

/-- Whether Docker reports a limit that was requested. -/
def reportedAs (what : String) (expected : Option Int) (actual : Int) : Except Failure Unit :=
  match expected with
  | none => .ok ()
  | some expected => refuseIf (decide (Not (actual = expected)))
      s!"Docker reported {what} limit Some({actual}), expected {expected}"

/-- Send the limits to Docker and read them back. -/
def updateContainer (course : UpdateCourse) (id : Text) (body : LimitBody) (limits : HostLimits) :
    HostLimits × Except Failure Unit :=
  match course.update with
  | some (failure, made) =>
      (if made then body.updated tools.blank limits else limits,
        .error (.context s!"update resources for Docker container {String.ofList id}" failure))
  | none =>
      (body.updated tools.blank limits,
        match course.inspect with
        | some failure => .error failure
        | none => do
            reportedAs "memory" body.memory (body.updated tools.blank limits).memory
            reportedAs "CPU" body.nanoCpus (body.updated tools.blank limits).nanoCpus)

/-- Read the disk limit that was written. -/
def readBackDiskLimit (fault : Option Failure) (written : Text) (disk : Int) : Except Failure Unit :=
  match fault, Text.parseSigned 64 (Text.trim written) with
  | some failure, _ => .error failure
  | none, none => .error (.bail (Text.parseError (Text.trim written)))
  | none, some applied => refuseIf (decide (Not (applied = disk)))
      s!"disk limit metadata reported {applied}, expected {disk}"

/-- Write the disk limit and read it back. -/
def writeDiskLimit (course : UpdateCourse) (path : List Text) (disk : Int) (stored : Option Text) :
    Option Text × Except Failure Unit :=
  match course.createDir, course.write with
  | some failure, _ => (stored, .error failure)
  | none, some (failure, left) =>
      let place := String.ofList ('/' :: Paths.display path)
      (left, .error (.context s!"write disk limit metadata {place}" failure))
  | none, none =>
      (some (Text.signedDecimal disk), readBackDiskLimit course.readBack (Text.signedDecimal disk) disk)

/-- The disk limit of an update, which is written if there is one. -/
def updateDisk (course : UpdateCourse) (spec : ResourceSpec) (stored : Option Text) :
    Option Text × Except Failure Unit :=
  match effectiveDiskLimit spec.diskLimitBytes spec.swapMemoryBytes spec.swapMemoryStorage with
  | .error failure => (stored, .error failure)
  | .ok disk =>
      if 0 < disk then
        match Paths.diskLimitPath tools.environment spec.serverId with
        | .error failure => (stored, .error failure)
        | .ok path => writeDiskLimit course path disk stored
      else (stored, .ok ())

/-- The request to Docker that an update makes, if it makes one. -/
def updateBody (spec : ResourceSpec) : Except Failure (Option LimitBody) := do
  Paths.validateId spec.serverId
  let cpuset <- requestedSet tools spec
  let nano <- checkedNanoCpus tools (effectiveCpus tools spec.cpuLimitPercentage)
  .ok (if (memoryLimit spec).isSome || nano.isSome then
    some {
      memory := memoryLimit spec
      memorySwap := memorySwapLimit spec
      nanoCpus := nano
      cpusetCpus := some cpuset }
  else none)

/-- Change the limits of a server, and what is left when this fails. -/
def updateResources (course : UpdateCourse) (spec : ResourceSpec) (limits : ServerLimits) :
    ServerLimits × Except Failure Unit :=
  match updateBody tools spec with
  | .error failure => (limits, .error failure)
  | .ok none =>
      let disk := updateDisk tools course spec limits.disk
      ({ limits with disk := disk.1 }, disk.2)
  | .ok (some body) =>
      let host := updateContainer tools course spec.serverId body limits.host
      match host.2 with
      | .error failure => ({ limits with host := host.1 }, .error failure)
      | .ok () =>
          let disk := updateDisk tools course spec limits.disk
          ({ host := host.1, disk := disk.1 }, disk.2)

end Operations

variable {tools : LimitTools}

/-! ## What an update does -/

theorem writeDiskLimit_ok {course : UpdateCourse} {path : List Text} {disk : Int} {stored after : Option Text}
    (ran : writeDiskLimit course path disk stored = (after, .ok ())) :
    after = some (Text.signedDecimal disk) := by
  unfold writeDiskLimit at ran
  split at ran
  · cases ran
  · cases ran
  · exact (Prod.mk.inj ran).1.symm

/-- An update that succeeds leaves a file exactly of a positive limit. -/
theorem updateDisk_ok {course : UpdateCourse} {spec : ResourceSpec} {stored after : Option Text}
    (ran : updateDisk tools course spec stored = (after, .ok ())) :
    Exists fun disk =>
      effectiveDiskLimit spec.diskLimitBytes spec.swapMemoryBytes spec.swapMemoryStorage = .ok disk /\
        after = if 0 < disk then some (Text.signedDecimal disk) else stored := by
  unfold updateDisk at ran
  split at ran
  · cases ran
  · next disk allowed =>
      refine ⟨disk, allowed, ?_⟩
      split at ran
      · next positive =>
          rw [if_pos positive]
          split at ran
          · cases ran
          · exact writeDiskLimit_ok ran
      · next notPositive =>
          rw [if_neg notPositive]
          exact (Prod.mk.inj ran).1.symm

theorem updateContainer_fst (tools : LimitTools) (course : UpdateCourse) (id : Text) (body : LimitBody)
    (limits : HostLimits) :
    (updateContainer tools course id body limits).1 = limits \/
      (updateContainer tools course id body limits).1 = body.updated tools.blank limits := by
  unfold updateContainer
  split
  · next failure made _ =>
      cases made
      · exact Or.inl rfl
      · exact Or.inr rfl
  · exact Or.inr rfl

theorem updateContainer_ok {course : UpdateCourse} {id : Text} {body : LimitBody} {limits : HostLimits}
    (ran : (updateContainer tools course id body limits).2 = .ok ()) :
    (updateContainer tools course id body limits).1 = body.updated tools.blank limits := by
  unfold updateContainer at ran ⊢
  split at ran
  · cases ran
  · rfl

/-- Whether an update sends its limits to Docker. -/
def sendsLimits (tools : LimitTools) (spec : ResourceSpec) : Bool :=
  (memoryLimit spec).isSome || (nanoCpus tools (effectiveCpus tools spec.cpuLimitPercentage)).isSome

theorem checkedNanoCpus_ok {cpus : tools.doubles.Double} {nano : Option Int}
    (checked : checkedNanoCpus tools cpus = .ok nano) : nano = nanoCpus tools cpus := by
  unfold checkedNanoCpus at checked
  unfold nanoCpus
  split at checked
  · next positive =>
      rcases bind_eq_ok.mp checked with ⟨_, _, checked⟩
      rcases bind_eq_ok.mp checked with ⟨_, _, same⟩
      rw [if_pos positive]
      exact (Except.ok.inj same).symm
  · next notPositive =>
      rw [if_neg notPositive]
      exact (Except.ok.inj checked).symm

/-- The limits that an update sends are those of a creation, the CPU set aside. -/
theorem updateBody_ok {spec : ResourceSpec} {request : Option LimitBody}
    (accepted : updateBody tools spec = .ok request) :
    Paths.validateId spec.serverId = .ok () /\
      Exists fun cpuset => requestedSet tools spec = .ok cpuset /\
        request = if sendsLimits tools spec = true then
          some ⟨memoryLimit spec, memorySwapLimit spec,
            nanoCpus tools (effectiveCpus tools spec.cpuLimitPercentage), some cpuset⟩
        else none := by
  unfold updateBody at accepted
  rcases bind_eq_ok.mp accepted with ⟨_, valid, accepted⟩
  rcases bind_eq_ok.mp accepted with ⟨cpuset, requested, accepted⟩
  rcases bind_eq_ok.mp accepted with ⟨nano, checked, same⟩
  rw [checkedNanoCpus_ok checked] at same
  exact ⟨valid, cpuset, requested, (Except.ok.inj same).symm⟩

/-- The limits of a container after an update. -/
def hostAfter (tools : LimitTools) (spec : ResourceSpec) (cpuset : Text) (limits : HostLimits) : HostLimits where
  memory := (memoryLimit spec).getD limits.memory
  memorySwap := (memorySwapLimit spec).getD limits.memorySwap
  nanoCpus := (nanoCpus tools (effectiveCpus tools spec.cpuLimitPercentage)).getD limits.nanoCpus
  cpusetCpus :=
    if sendsLimits tools spec = true then updatedSet tools.blank limits.cpusetCpus (some cpuset)
    else limits.cpusetCpus

theorem hostAfter_of_not_sends {spec : ResourceSpec} {cpuset : Text} {limits : HostLimits}
    (nothing : Not (sendsLimits tools spec = true)) : hostAfter tools spec cpuset limits = limits := by
  unfold hostAfter memorySwapLimit
  rw [if_neg nothing]
  unfold sendsLimits at nothing
  rw [Bool.or_eq_true, not_or] at nothing
  have noMemory : memoryLimit spec = none := by simpa using nothing.1
  have noCpu : nanoCpus tools (effectiveCpus tools spec.cpuLimitPercentage) = none := by
    simpa using nothing.2
  rw [noMemory, noCpu]
  rfl

/-- What an update that succeeds has done. -/
theorem updateResources_ok {course : UpdateCourse} {spec : ResourceSpec} {limits after : ServerLimits}
    (ran : updateResources tools course spec limits = (after, .ok ())) :
    Paths.validateId spec.serverId = .ok () /\ Exists fun cpuset => Exists fun disk =>
      requestedSet tools spec = .ok cpuset /\
      effectiveDiskLimit spec.diskLimitBytes spec.swapMemoryBytes spec.swapMemoryStorage = .ok disk /\
      after = ⟨hostAfter tools spec cpuset limits.host,
        if 0 < disk then some (Text.signedDecimal disk) else limits.disk⟩ := by
  unfold updateResources at ran
  split at ran
  · cases ran
  · next accepted =>
      rcases updateBody_ok accepted with ⟨valid, cpuset, requested, request⟩
      have nothing : Not (sendsLimits tools spec = true) := by
        intro sends
        rw [if_pos sends] at request
        cases request
      rcases Prod.mk.inj ran with ⟨same, succeeded⟩
      rcases updateDisk_ok (Prod.ext rfl succeeded) with ⟨disk, allowed, written⟩
      refine ⟨valid, cpuset, disk, requested, allowed, ?_⟩
      rw [<- same, <- written, hostAfter_of_not_sends nothing]
  · next body accepted =>
      rcases updateBody_ok accepted with ⟨valid, cpuset, requested, request⟩
      have sends : sendsLimits tools spec = true := by
        by_contra nothing
        rw [if_neg nothing] at request
        cases request
      rw [if_pos sends] at request
      dsimp only at ran
      split at ran
      · cases ran
      · next reported =>
          rcases Prod.mk.inj ran with ⟨same, succeeded⟩
          rcases updateDisk_ok (Prod.ext rfl succeeded) with ⟨disk, allowed, written⟩
          refine ⟨valid, cpuset, disk, requested, allowed, ?_⟩
          rw [<- same, <- written, updateContainer_ok reported, Option.some.inj request]
          unfold hostAfter LimitBody.updated
          rw [if_pos sends]

/-! ## Every history -/

/-- The limits that a creation and any updates after it lead to. -/
inductive LimitsReached (tools : LimitTools) : ServerLimits -> Prop where
  | created {spec : ResourceSpec} {limits : ServerLimits}
      (accepted : createLimits tools spec = .ok limits) : LimitsReached tools limits
  | updated {limits : ServerLimits} (reached : LimitsReached tools limits) (course : UpdateCourse)
      (spec : ResourceSpec) : LimitsReached tools (updateResources tools course spec limits).1

/-- There is no swap limit without a memory limit. -/
def SwapWithMemory (limits : HostLimits) : Prop :=
  limits.memory = 0 -> limits.memorySwap = 0

theorem memoryLimit_ne_zero {spec : ResourceSpec} {memory : Int}
    (limited : memoryLimit spec = some memory) : Not (memory = 0) := by
  unfold memoryLimit at limited
  split at limited
  · next positive =>
      cases limited
      omega
  · cases limited

theorem LimitBody.updated_swapWithMemory {spec : ResourceSpec} {body : LimitBody} {limits : HostLimits}
    (blank : Text -> Text) (ofMemory : body.memory = memoryLimit spec)
    (ofSwap : body.memorySwap = memorySwapLimit spec) (holds : SwapWithMemory limits) :
    SwapWithMemory (body.updated blank limits) := by
  intro unlimited
  unfold LimitBody.updated at unlimited ⊢
  rw [ofMemory] at unlimited
  rw [ofSwap]
  unfold memorySwapLimit
  cases limited : memoryLimit spec with
  | none =>
      rw [limited] at unlimited
      exact holds unlimited
  | some memory =>
      rw [limited] at unlimited
      exact absurd unlimited (memoryLimit_ne_zero limited)

theorem createLimits_ok {spec : ResourceSpec} {limits : ServerLimits} :
    createLimits tools spec = .ok limits <-> Paths.validateId spec.serverId = .ok () /\
      Exists fun disk => Exists fun pinned =>
        effectiveDiskLimit spec.diskLimitBytes spec.swapMemoryBytes spec.swapMemoryStorage = .ok disk /\
        pinnedCpuSet tools spec.cpuPinnedThreads = .ok pinned /\
        limits = ⟨⟨(memoryLimit spec).getD 0, (memorySwapLimit spec).getD 0,
            (nanoCpus tools (effectiveCpus tools spec.cpuLimitPercentage)).getD 0, pinned.getD []⟩,
          if 0 < disk then some (Text.signedDecimal disk) else none⟩ := by
  unfold createLimits containerLimits
  simp only [bind_eq_ok]
  constructor
  · rintro ⟨_, valid, disk, allowed, body, ⟨pinned, selected, sameBody⟩, same⟩
    cases sameBody
    cases same
    exact ⟨valid, disk, pinned, allowed, selected, rfl⟩
  · rintro ⟨valid, disk, pinned, allowed, selected, same⟩
    exact ⟨(), valid, disk, allowed, _, ⟨pinned, selected, rfl⟩, by rw [same]; rfl⟩

theorem updateResources_swapWithMemory {limits : ServerLimits} (course : UpdateCourse)
    (spec : ResourceSpec) (holds : SwapWithMemory limits.host) :
    SwapWithMemory (updateResources tools course spec limits).1.host := by
  unfold updateResources
  split
  · exact holds
  · exact holds
  · next body accepted =>
      rcases updateBody_ok accepted with ⟨_, cpuset, _, request⟩
      have sent : SwapWithMemory (updateContainer tools course spec.serverId body limits.host).1 := by
        split at request
        · cases request
          rcases updateContainer_fst tools course spec.serverId _ limits.host with same | same
          · rw [same]
            exact holds
          · rw [same]
            exact LimitBody.updated_swapWithMemory tools.blank rfl rfl holds
        · cases request
      dsimp only
      split
      · exact sent
      · exact sent

theorem LimitsReached.swapWithMemory {limits : ServerLimits} (reached : LimitsReached tools limits) :
    SwapWithMemory limits.host := by
  induction reached with
  | @created spec limits accepted =>
      rcases createLimits_ok.mp accepted with ⟨_, disk, pinned, _, _, same⟩
      subst same
      intro unlimited
      unfold memorySwapLimit
      cases limited : memoryLimit spec with
      | none => rfl
      | some memory =>
          rw [limited] at unlimited
          exact absurd unlimited (memoryLimit_ne_zero limited)
  | updated reached course spec induction => exact updateResources_swapWithMemory course spec induction

/-- The CPU set which an update leaves that names none. -/
def remainingSet (tools : LimitTools) (spec : ResourceSpec) (current : Text) : Text :=
  if sendsLimits tools spec = true then tools.blank current else current

/-- Nothing that the request lifts is limited at present, and the CPU set that
a creation pins is one that the update sends or that is there. -/
structure Settable (tools : LimitTools) (spec : ResourceSpec) (limits : ServerLimits) : Prop where
  memory : memoryLimit spec = none -> limits.host.memory = 0
  cpu : nanoCpus tools (effectiveCpus tools spec.cpuLimitPercentage) = none -> limits.host.nanoCpus = 0
  pinning : Exists fun pinned => pinnedCpuSet tools spec.cpuPinnedThreads = .ok pinned /\
    ((sendsLimits tools spec = true /\ spec.cpuPinning = true /\ Not (pinned.getD [] = [])) \/
      remainingSet tools spec limits.host.cpusetCpus = pinned.getD [])
  disk : forall disk,
    effectiveDiskLimit spec.diskLimitBytes spec.swapMemoryBytes spec.swapMemoryStorage = .ok disk ->
      disk <= 0 -> limits.disk = none

/-- A default decides exactly where there is nothing else. -/
theorem getD_eq_getD {Value : Type} {option : Option Value} {first second : Value} :
    option.getD first = option.getD second <-> (option = none -> first = second) := by
  cases option <;> simp

theorem memorySwapLimit_eq_none {spec : ResourceSpec} : memorySwapLimit spec = none <-> memoryLimit spec = none := by
  unfold memorySwapLimit
  exact Option.map_eq_none_iff

theorem requestedSet_ok {spec : ResourceSpec} {cpuset : Text} {pinned : Option Text}
    (requested : requestedSet tools spec = .ok cpuset)
    (selected : pinnedCpuSet tools spec.cpuPinnedThreads = .ok pinned) :
    cpuset = if spec.cpuPinning = true then pinned.getD [] else [] := by
  unfold requestedSet at requested
  split at requested
  · next pinning =>
      rw [selected] at requested
      rw [if_pos pinning]
      exact (Except.ok.inj requested).symm
  · next notPinning =>
      rw [if_neg notPinning]
      exact (Except.ok.inj requested).symm

/-- When the CPU set after an update is the one that a creation pins. -/
theorem hostAfter_cpuset_iff {spec : ResourceSpec} {cpuset : Text} {pinned : Option Text}
    {limits : HostLimits} (requested : requestedSet tools spec = .ok cpuset)
    (selected : pinnedCpuSet tools spec.cpuPinnedThreads = .ok pinned) :
    (hostAfter tools spec cpuset limits).cpusetCpus = pinned.getD [] <->
      (sendsLimits tools spec = true /\ spec.cpuPinning = true /\ Not (pinned.getD [] = [])) \/
        remainingSet tools spec limits.cpusetCpus = pinned.getD [] := by
  have whole := requestedSet_ok requested selected
  unfold hostAfter remainingSet updatedSet
  dsimp only
  by_cases sends : sendsLimits tools spec = true
  · rw [if_pos sends, if_pos sends]
    by_cases pinning : spec.cpuPinning = true
    · rw [if_pos pinning] at whole
      by_cases empty : pinned.getD [] = []
      · rw [if_pos (whole.trans empty)]
        simp [empty]
      · rw [if_neg (whole ▸ empty), whole]
        simp [sends, pinning, empty]
    · rw [if_neg pinning] at whole
      rw [if_pos whole]
      simp [pinning]
  · rw [if_neg sends, if_neg sends]
    simp [sends]

theorem disk_eq_iff {disk : Int} {stored written : Option Text} :
    ((if 0 < disk then written else stored) = if 0 < disk then written else none) <->
      (disk <= 0 -> stored = none) := by
  by_cases positive : 0 < disk
  · rw [if_pos positive, if_pos positive]
    exact ⟨fun _ notPositive => absurd positive (Int.not_lt.mpr notPositive), fun _ => rfl⟩
  · rw [if_neg positive, if_neg positive]
    exact ⟨fun same _ => same, fun same => same (Int.not_lt.mp positive)⟩

/-- After a creation and any updates, an update that succeeds leaves the limits
of a new creation if and only if the limits before allowed it. -/
theorem updateResources_creates_iff {limits after : ServerLimits} (reached : LimitsReached tools limits)
    {course : UpdateCourse} {spec : ResourceSpec}
    (ran : updateResources tools course spec limits = (after, .ok ())) :
    createLimits tools spec = .ok after <-> Settable tools spec limits := by
  rcases updateResources_ok ran with ⟨valid, cpuset, disk, requested, allowed, same⟩
  have swap := reached.swapWithMemory
  rw [createLimits_ok, same]
  constructor
  · rintro ⟨_, sameDisk, pinned, allowedAgain, selected, whole⟩
    cases allowed.symm.trans allowedAgain
    rcases ServerLimits.mk.inj whole with ⟨host, stored⟩
    rcases HostLimits.mk.inj host with ⟨memory, _, nano, cpus⟩
    refine ⟨getD_eq_getD.mp memory, getD_eq_getD.mp nano, ⟨pinned, selected, ?_⟩, ?_⟩
    · exact (hostAfter_cpuset_iff requested selected).mp cpus
    · intro other otherAllowed
      cases allowed.symm.trans otherAllowed
      exact disk_eq_iff.mp stored
  · rintro ⟨memory, nano, ⟨pinned, selected, cpus⟩, stored⟩
    refine ⟨valid, disk, pinned, allowed, selected, ?_⟩
    refine ServerLimits.mk.injEq .. |>.mpr ⟨HostLimits.mk.injEq .. |>.mpr ⟨?_, ?_, ?_, ?_⟩, ?_⟩
    · exact getD_eq_getD.mpr memory
    · exact getD_eq_getD.mpr (fun none => swap (memory (memorySwapLimit_eq_none.mp none)))
    · exact getD_eq_getD.mpr nano
    · exact (hostAfter_cpuset_iff requested selected).mpr cpus
    · exact disk_eq_iff.mpr (stored disk allowed)

/-! ## A limit that stays -/

/-- Doubles that are multiples of a hundredth, on which nothing is rounded. -/
def hundredths : Doubles where
  Double := Int
  zero := 0
  ofPercent percent := percent
  positive value := decide (0 < value)
  finite _ := true
  billionfold value := value * 10 ^ 7
  aboveMaximum value := decide (2 ^ 63 < value)
  round value := value

/-- A node of four threads, whose Docker takes an empty CPU set for no change. -/
def sampleLimitTools : LimitTools where
  environment := ⟨none, none⟩
  doubles := hundredths
  available := 4
  blank current := current

/-- A request for memory and CPU time, without pinning or disk limit. -/
def sampleResources (memory percent : Int) : ResourceSpec where
  serverId := "server-1".toList
  memoryBytes := memory
  cpuLimitPercentage := percent
  diskLimitBytes := 0
  cpuPinning := false
  cpuPinnedThreads := []
  swapMemoryBytes := 0
  swapMemoryStorage := "general".toList

/-- An update in which no call fails. -/
def quietUpdate : UpdateCourse := ⟨none, none, none, none, none⟩

/-- The limits of one GiB of memory and one CPU. -/
def sampleLimits : ServerLimits where
  host := ⟨2 ^ 30, 2 ^ 30, 10 ^ 9, []⟩
  disk := none

theorem sampleLimits_created :
    createLimits sampleLimitTools (sampleResources (2 ^ 30) 100) = .ok sampleLimits := rfl

theorem updateResources_creates_iff_sample :
    createLimits sampleLimitTools (sampleResources (2 ^ 31) 150) = .ok ⟨⟨2 ^ 31, 2 ^ 31, 15 * 10 ^ 8, []⟩, none⟩ <->
      Settable sampleLimitTools (sampleResources (2 ^ 31) 150) sampleLimits := by
  have ran : updateResources sampleLimitTools quietUpdate (sampleResources (2 ^ 31) 150) sampleLimits =
      (⟨⟨2 ^ 31, 2 ^ 31, 15 * 10 ^ 8, []⟩, none⟩, .ok ()) := rfl
  exact updateResources_creates_iff (.created sampleLimits_created) ran

/-- The memory limit stays when an update lifts it and limits the CPU. -/
theorem lifted_memory_limit_stays :
    createLimits sampleLimitTools (sampleResources (2 ^ 30) 100) = .ok sampleLimits /\
      updateResources sampleLimitTools quietUpdate (sampleResources 0 100) sampleLimits =
        (sampleLimits, .ok ()) /\
      Not (createLimits sampleLimitTools (sampleResources 0 100) = .ok sampleLimits) := by
  refine ⟨rfl, rfl, ?_⟩
  intro created
  have lifted : createLimits sampleLimitTools (sampleResources 0 100) =
      .ok ⟨⟨0, 0, 10 ^ 9, []⟩, none⟩ := rfl
  rw [lifted] at created
  exact absurd (Except.ok.inj created) (by decide)

end Runtime
end Agapornis
