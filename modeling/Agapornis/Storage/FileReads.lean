import Agapornis.Foundations.Base64
import Agapornis.Runtime.ExecOutput
import Agapornis.Storage.ContainerStatus
import Agapornis.Storage.Imports

namespace Agapornis
namespace Storage

open Foundations Agapornis.Core
open Console (LogOutput outermost)
open Foundations.Shell (Outcomes)
open Agapornis.Runtime (ExecEngine Executed capture stdoutPart Capture execResult)

/-!
# Reading a file

A file is read on the host where its directory is mounted, and by a command in
the container elsewhere.  The command's output is text, so the container spells
the file in base64.  A read into memory is bounded; a download is not, and
brings the file in parts.
-/

/-- The largest number of an address. -/
def usizeMax : Nat := 2 ^ 64 - 1

inductive ReadSource where
  | host (path : List (Component Text))
  | container (id path : Text)
  deriving DecidableEq, Repr

/-- The path of a read; the server's directory is meant where there is none. -/
def readPath (path : Text) : Text :=
  if (cleanPath path).isEmpty then ".".toList else cleanPath path

/-- The calls of a read on the host that fail, and the length that a directory is said to have. -/
structure ReadCourse where
  metadata : Option Failure
  read : Option Failure
  directoryLength : Nat

/-- Decoded text, which may be spelled with white space in it. -/
def decodeOutput (malformed : Text -> String) (raw : Text) : Except Failure Bytes :=
  let spelled := raw.filter fun character => !Text.isWhitespace character
  match Base64.decode spelled with
  | some bytes => .ok bytes
  | none => .error (.bail (malformed spelled))

section Reading

variable (tree : FileTree Text Bytes) (root : Root)

def readSource (id path : Text) : Except Failure ReadSource :=
  if root.useHost then do
    let target <- confinedHostPath tree root.host (readPath path) true
    .ok (.host target)
  else do
    let target <- Paths.containerPath root.container (readPath path)
    .ok (.container id (Paths.slashed target))

/-- The content of a file, or nothing for a directory. -/
def contentAt (path : List (Component Text)) : Except Failure (Option Bytes) := do
  let place <- attempt (canonicalize tree path)
  match tree.node place with
  | some (.file content) => .ok (some content)
  | _ => .ok none

def unfailing (fault : Option Failure) : Except Failure Unit :=
  match fault with
  | none => .ok ()
  | some failure => .error failure

def readOnHost (course : ReadCourse) (path : List (Component Text)) (maximum : Nat) : Except Failure Bytes := do
  unfailing course.metadata
  let content <- contentAt tree path
  refuseIf (maximum < (content.map List.length).getD course.directoryLength)
    "File is too large to read into memory."
  unfailing course.read
  match content with
  | some bytes => .ok bytes
  | none => .error (.io .isADirectory)

/-- What of a file the container is asked for. -/
def byteLimit (maximum : Nat) : Nat :=
  min (maximum + 1) usizeMax

def readInContainer (engine : ExecEngine) (describe : Bytes -> String) (malformed : Text -> String) (id path : Text)
    (maximum : Nat) : Except Failure Bytes := do
  let raw <- Runtime.exec engine describe id (readText (byteLimit maximum) path)
  let decoded <- decodeOutput malformed raw
  refuseIf (maximum < decoded.length) "File is too large to read into memory."
  .ok decoded

def readLimited (course : ReadCourse) (engine : ExecEngine) (describe : Bytes -> String)
    (malformed : Text -> String) (id path : Text) (maximum : Nat) : Except Failure Bytes := do
  let source <- readSource tree root id path
  match source with
  | .host target => readOnHost tree course target maximum
  | .container id target => readInContainer engine describe malformed id target maximum

end Reading

/-! ## Requests -/

def fileReadStatus (describe : Errno -> String) (failure : Failure) : Status :=
  if "File is too large to read into memory".toList <:+: (outermost describe failure).toList then
    ⟨.other 8, outermost describe failure⟩
  else internal describe failure

def largestShownFile : Nat :=
  5 * 1024 * 1024

/-- A file that is shown is a text of at most five mebibytes. -/
def readFileContent (describe : Errno -> String) (read : Nat -> Except Failure Bytes) : Except Status Text :=
  match read largestShownFile with
  | .error failure => .error (fileReadStatus describe failure)
  | .ok data =>
      match fromUtf8 data with
      | some content => .ok content
      | none => .error ⟨.invalidArgument, "File is not valid UTF-8"⟩

/-- The parts that a download brings of what is read, one read after the other.  A read without
bytes is the end, behind which the stream may close with an error. -/
def downloadParts (describe : Errno -> String) (closing : List (Except Status Bytes)) :
    List (Except Failure Bytes) -> List (Except Status Bytes)
  | [] => []
  | .error failure :: _ => [.error (internal describe failure)]
  | .ok [] :: _ => closing
  | .ok (byte :: bytes) :: rest => .ok (byte :: bytes) :: downloadParts describe closing rest

/-- How the command of a download ended: it could not be waited for, or with an exit status that
is missing when a signal has ended it. -/
def downloadClosing (describe : Errno -> String) : Except Failure (Option Int) -> List (Except Status Bytes)
  | .error failure => [.error (internal describe failure)]
  | .ok (some 0) => []
  | .ok status => [.error ⟨.internalError, s!"Docker download stream exited with status {status.getD (-1)}"⟩]

/-! ## A bounded read -/

/-- What a read into memory is for. -/
def boundedRead (maximum : Nat) (content : Bytes) : Except Failure Bytes := do
  refuseIf (maximum < content.length) "File is too large to read into memory."
  .ok content

theorem boundedRead_long {maximum : Nat} {content : Bytes} (long : maximum < content.length) :
    boundedRead maximum content = .error (.bail "File is too large to read into memory.") := by
  rw [boundedRead, decide_eq_true long]
  rfl

theorem boundedRead_short {maximum : Nat} {content : Bytes} (short : content.length <= maximum) :
    boundedRead maximum content = .ok content := by
  rw [boundedRead, decide_eq_false (Nat.not_lt.mpr short)]
  rfl

theorem readOnHost_file {tree : FileTree Text Bytes} {course : ReadCourse} {path : List (Component Text)}
    {place : List Text} {content : Bytes} (noFault : course.metadata = none /\ course.read = none)
    (found : canonicalize tree path = .ok place) (file : tree.node place = some (.file content)) (maximum : Nat) :
    readOnHost tree course path maximum = boundedRead maximum content := by
  have here : contentAt tree path = .ok (some content) := by
    rw [contentAt, found]
    show (match tree.node place with
      | some (.file content) => Except.ok (some content)
      | _ => .ok none) = _
    rw [file]
  rw [readOnHost, here, noFault.1, noFault.2]
  rfl

/-- White space in a spelling does not matter. -/
theorem decodeOutput_spelled {malformed : Text -> String} {output : Text} {content : Bytes}
    (spelled : output.filter (fun character => !Text.isWhitespace character) = Base64.encode content) :
    decodeOutput malformed output = .ok content := by
  rw [decodeOutput, spelled, Base64.decode_encode]

/-- One byte more than is wanted tells whether there is more. -/
theorem boundedRead_take {maximum : Nat} {content : Bytes} (fits : content.length <= usizeMax) :
    boundedRead maximum (content.take (byteLimit maximum)) = boundedRead maximum content := by
  rcases Nat.lt_or_ge maximum content.length with long | short
  · have both : maximum < (content.take (byteLimit maximum)).length := by
      rw [List.length_take, byteLimit]
      omega
    rw [boundedRead_long both, boundedRead_long long]
  · have all : content.length <= byteLimit maximum := by
      rw [byteLimit]
      omega
    rw [List.take_of_length_le all]

/-- A part of what was asked for is never as good as all of it. -/
theorem boundedRead_front {maximum : Nat} {content passed : Bytes} (fits : content.length <= usizeMax)
    (front : passed <+: content.take (byteLimit maximum))
    (same : boundedRead maximum passed = boundedRead maximum content) :
    passed = content.take (byteLimit maximum) := by
  apply front.eq_of_length_le
  rw [List.length_take]
  rcases Nat.lt_or_ge maximum content.length with long | short
  · rw [boundedRead_long long] at same
    rcases Nat.lt_or_ge maximum passed.length with more | few
    · rw [byteLimit]
      omega
    · rw [boundedRead_short few] at same
      cases same
  · rw [boundedRead_short short] at same
    rcases Nat.lt_or_ge maximum passed.length with more | few
    · rw [boundedRead_long more] at same
      cases same
    · rw [boundedRead_short few] at same
      rw [Except.ok.inj same]
      exact Nat.min_le_right _ _

/-! ## A read in the container -/

/-- What becomes of the two commands that show a file: the frames that arrive,
what `head` has passed on to `base64`, and how both have ended. -/
structure ShowRun where
  frames : List LogOutput
  passed : Bytes
  outcomes : Outcomes Step

/-- What the commands do with a file: `head` passes on a beginning of the bytes
that it is asked for, all of them where it ends with status zero, and `base64`
spells what it is given where it does. -/
structure ShowRun.Of (engine : ExecEngine) (id path : Text) (maximum : Nat) (content : Bytes)
    (run : ShowRun) : Prop where
  valid : Paths.validateId id = .ok ()
  fits : content.length <= usizeMax
  executed : Executed engine id (readText (byteLimit maximum) path) run.frames
    ((readScript (byteLimit maximum) path).exitStatus run.outcomes)
  front : run.passed <+: content.take (byteLimit maximum)
  all : run.outcomes.status .limit = 0 -> run.passed = content.take (byteLimit maximum)
  spelled : run.outcomes.status .encode = 0 -> Exists fun output =>
    run.frames.flatMap stdoutPart = encodeUtf8 output /\
      output.filter (fun character => !Text.isWhitespace character) = Base64.encode run.passed

/-- What a read in the container comes to.  The failure of `head` is not seen. -/
def shownRead (maximum : Nat) (run : ShowRun) : Except Failure Bytes := do
  let detail := String.ofList (Runtime.execDetail (capture run.frames))
  refuseIf (capture run.frames).truncated
    s!"command output exceeded the {Runtime.execCaptureLimit} byte capture limit"
  refuseIf ((run.outcomes.status .encode : Int) != 0)
    s!"command exited with status {(run.outcomes.status .encode : Int)}: {detail}"
  boundedRead maximum run.passed

theorem shownRead_eq {maximum : Nat} {run : ShowRun} (kept : (capture run.frames).truncated = false)
    (ended : run.outcomes.status .encode = 0) : shownRead maximum run = boundedRead maximum run.passed := by
  rw [shownRead, kept, ended]
  rfl

theorem readInContainer_of {engine : ExecEngine} {describe : Bytes -> String} {malformed : Text -> String}
    {id path : Text} {maximum : Nat} {content : Bytes} {run : ShowRun}
    (shows : run.Of engine id path maximum content) :
    readInContainer engine describe malformed id path maximum = shownRead maximum run := by
  have executed := shows.executed
  rw [exitStatus_readScript] at executed
  rw [readInContainer, Runtime.exec_of_executed shows.valid executed]
  cases cut : (capture run.frames).truncated with
  | true =>
      rw [execResult, shownRead, cut]
      rfl
  | false =>
      cases status : run.outcomes.status .encode with
      | succ code =>
          rw [execResult, shownRead, cut, status]
          rfl
      | zero =>
          rcases shows.spelled status with ⟨output, written, spelled⟩
          have returned : execResult describe (capture run.frames) 0 = .ok output :=
            Runtime.execResult_eq_ok.mpr ⟨cut, rfl, by rw [(Runtime.capture_whole cut).1, written]⟩
          have decoded : decodeOutput malformed output = .ok run.passed := decodeOutput_spelled spelled
          rw [shownRead_eq cut status, Int.natCast_zero, returned]
          show (do
            let decoded <- decodeOutput malformed output
            refuseIf (maximum < decoded.length) "File is too large to read into memory."
            Except.ok decoded) = _
          rw [decoded]
          rfl

theorem head_append {front : String} {letter : Char} (begins : front.toList.head? = some letter) (back : String) :
    (front ++ back).toList.head? = some letter := by
  rw [String.toList_append, List.head?_append, begins, Option.some_or]

/-- No command is said to be too large. -/
theorem boundedRead_ne_command (maximum : Nat) (content : Bytes) {message : String}
    (command : message.toList.head? = some 'c') :
    Not (.error (.bail message) = boundedRead maximum content) := by
  intro same
  rcases Nat.lt_or_ge maximum content.length with long | short
  · rw [boundedRead_long long] at same
    cases same
    revert command
    decide
  · rw [boundedRead_short short] at same
    cases same

/-- A read in the container is right exactly when nothing of the output was cut
off, `base64` has ended well and `head` has passed on all it was asked for. -/
theorem shownRead_right_iff {engine : ExecEngine} {id path : Text} {maximum : Nat} {content : Bytes}
    {run : ShowRun} (shows : run.Of engine id path maximum content) :
    shownRead maximum run = boundedRead maximum content <->
      (capture run.frames).truncated = false /\ run.outcomes.status .encode = 0 /\
        run.passed = content.take (byteLimit maximum) := by
  constructor
  · intro same
    cases cut : (capture run.frames).truncated with
    | true =>
        rw [shownRead, cut] at same
        exact absurd same (boundedRead_ne_command maximum content
          (head_append (head_append (by decide) _) _))
    | false =>
        cases status : run.outcomes.status .encode with
        | succ code =>
            rw [shownRead, cut, status] at same
            exact absurd same (boundedRead_ne_command maximum content
              (head_append (head_append (head_append (by decide) _) _) _))
        | zero =>
            rw [shownRead_eq cut status] at same
            exact ⟨rfl, rfl, boundedRead_front shows.fits shows.front same⟩
  · rintro ⟨kept, ended, all⟩
    rw [shownRead_eq kept ended, all, boundedRead_take shows.fits]

/-! ## Downloads -/

/-- The reads of a file or of a pipe, up to where the client stops asking or a read fails. -/
inductive Brings : Bytes -> List (Except Failure Bytes) -> Prop where
  | pending (content : Bytes) : Brings content []
  | failing (content : Bytes) (failure : Failure) (rest : List (Except Failure Bytes)) :
      Brings content (.error failure :: rest)
  | ended (rest : List (Except Failure Bytes)) : Brings [] (.ok [] :: rest)
  | part (byte : UInt8) (bytes content : Bytes) (rest : List (Except Failure Bytes))
      (later : Brings content rest) : Brings (byte :: bytes ++ content) (.ok (byte :: bytes) :: rest)

/-- Some read fails or is the end, so that the stream is over. -/
def Over : List (Except Failure Bytes) -> Prop
  | [] => False
  | .error _ :: _ => True
  | .ok [] :: _ => True
  | .ok (_ :: _) :: rest => Over rest

/-- What a client has received. -/
def received : List (Except Status Bytes) -> Bytes
  | [] => []
  | .error _ :: rest => received rest
  | .ok bytes :: rest => bytes ++ received rest

/-- The stream has no error. -/
def Faultless (parts : List (Except Status Bytes)) : Prop :=
  forall status, .error status ∉ parts

theorem downloadParts_front {describe : Errno -> String} {closing : List (Except Status Bytes)}
    (silent : received closing = []) {content : Bytes} {reads : List (Except Failure Bytes)}
    (brings : Brings content reads) : received (downloadParts describe closing reads) <+: content := by
  induction brings with
  | pending content => exact List.nil_prefix
  | failing content failure rest => exact List.nil_prefix
  | ended rest => rw [downloadParts, silent]
  | part byte bytes content rest later induction => exact (List.prefix_append_right_inj _).mpr induction

/-- A stream that is over without an error has brought everything, and closed without an error. -/
theorem downloadParts_whole {describe : Errno -> String} {closing : List (Except Status Bytes)}
    {content : Bytes} {reads : List (Except Failure Bytes)} (brings : Brings content reads) (finished : Over reads)
    (faultless : Faultless (downloadParts describe closing reads)) :
    received (downloadParts describe closing reads) = content ++ received closing /\ Faultless closing := by
  induction brings with
  | pending content => exact finished.elim
  | failing content failure rest => exact absurd List.mem_cons_self (faultless (internal describe failure))
  | ended rest => exact ⟨rfl, faultless⟩
  | part byte bytes content rest later induction =>
      rcases induction finished (fun status member => faultless status (List.mem_cons_of_mem _ member)) with
        ⟨whole, closed⟩
      refine ⟨?_, closed⟩
      show byte :: bytes ++ received (downloadParts describe closing rest) = _
      rw [whole, List.append_assoc]

theorem received_downloadClosing (describe : Errno -> String) (ended : Except Failure (Option Int)) :
    received (downloadClosing describe ended) = [] := by
  rw [downloadClosing.eq_def]
  split <;> rfl

theorem downloadClosing_faultless {describe : Errno -> String} {ended : Except Failure (Option Int)}
    (faultless : Faultless (downloadClosing describe ended)) : ended = .ok (some 0) := by
  rw [downloadClosing.eq_def] at faultless
  split at faultless
  · exact absurd List.mem_cons_self (faultless _)
  · rfl
  · exact absurd List.mem_cons_self (faultless _)

/-! ## A file on its different ways -/

/-- There is a file of some content where a read looks for it.  On the host it can
be read; in the container the commands do with it what they can. -/
def ReadSource.Holds (tree : FileTree Text Bytes) (course : ReadCourse) (engine : ExecEngine) (content : Bytes)
    (runs : Nat -> ShowRun) : ReadSource -> Prop
  | .host path => (course.metadata = none /\ course.read = none) /\
      Exists fun place => canonicalize tree path = .ok place /\ tree.node place = some (.file content)
  | .container id path => forall maximum, (runs maximum).Of engine id path maximum content

/-- What a bounded read comes to. -/
def ReadSource.outcome (content : Bytes) (runs : Nat -> ShowRun) (maximum : Nat) :
    ReadSource -> Except Failure Bytes
  | .host _ => boundedRead maximum content
  | .container _ _ => shownRead maximum (runs maximum)

/-- Nothing goes wrong where a file is shown. -/
def ReadSource.Shown (content : Bytes) (runs : Nat -> ShowRun) (maximum : Nat) : ReadSource -> Prop
  | .host _ => True
  | .container _ _ => (capture (runs maximum).frames).truncated = false /\
      (runs maximum).outcomes.status .encode = 0 /\
        (runs maximum).passed = content.take (byteLimit maximum)

/-- The reads of a download, and what its stream closes with.  The command that shows a file in a
container has shown all of it where it ends with status zero. -/
inductive ReadSource.Downloads (describe : Errno -> String) (content : Bytes) :
    ReadSource -> List (Except Failure Bytes) -> List (Except Status Bytes) -> Prop where
  | host (path : List (Component Text)) (reads : List (Except Failure Bytes)) (brings : Brings content reads) :
      Downloads describe content (.host path) reads []
  | container (id path : Text) (shown : Bytes) (reads : List (Except Failure Bytes))
      (ended : Except Failure (Option Int)) (brings : Brings shown reads) (front : shown <+: content)
      (whole : ended = .ok (some 0) -> shown = content) :
      Downloads describe content (.container id path) reads (downloadClosing describe ended)

/-- What is shown of a file. -/
def shownContent (content : Bytes) : Except Status Text :=
  if largestShownFile < content.length then .error ⟨.other 8, "File is too large to read into memory."⟩
  else
    match fromUtf8 content with
    | some text => .ok text
    | none => .error ⟨.invalidArgument, "File is not valid UTF-8"⟩

theorem fileReadStatus_tooLarge (describe : Errno -> String) :
    fileReadStatus describe (.bail "File is too large to read into memory.") =
      ⟨.other 8, "File is too large to read into memory."⟩ := by
  have contained : "File is too large to read into memory".toList <:+:
      "File is too large to read into memory.".toList := ⟨[], ['.'], by decide⟩
  exact if_pos contained

theorem readFileContent_bounded (describe : Errno -> String) {read : Nat -> Except Failure Bytes} {content : Bytes}
    (bounded : read largestShownFile = boundedRead largestShownFile content) :
    readFileContent describe read = shownContent content := by
  rw [readFileContent, bounded, shownContent]
  by_cases long : largestShownFile < content.length
  · rw [boundedRead_long long, if_pos long]
    dsimp only
    rw [fileReadStatus_tooLarge]
  · rw [boundedRead_short (Nat.not_lt.mp long), if_neg long]

/-- What the different ways of reading a file have to do with its content. -/
structure ReadAs (describe : Errno -> String) (content : Bytes) (runs : Nat -> ShowRun) (source : ReadSource)
    (read : Nat -> Except Failure Bytes) : Prop where
  outcome : forall maximum, read maximum = source.outcome content runs maximum
  right : forall maximum, read maximum = boundedRead maximum content <-> source.Shown content runs maximum
  shown : source.Shown content runs largestShownFile -> readFileContent describe read = shownContent content
  begun : forall reads closing, source.Downloads describe content reads closing ->
    received (downloadParts describe closing reads) <+: content
  whole : forall reads closing, source.Downloads describe content reads closing -> Over reads ->
    Faultless (downloadParts describe closing reads) -> received (downloadParts describe closing reads) = content
  command : forall count path, Shell.lex (readText count path) = some (readScript count path).tokens

/-- A file is read as what it is, on the host or by a command in the container, in
parts or as a whole; the whole of it is shown in the container unless the output
is cut off, `base64` fails, which are errors, or `head` does, which is not seen. -/
theorem file_read_as (errno : Errno -> String) {tree : FileTree Text Bytes} {root : Root} {course : ReadCourse}
    {engine : ExecEngine} {describe : Bytes -> String} {malformed : Text -> String} {id path : Text}
    {source : ReadSource} {content : Bytes} {runs : Nat -> ShowRun}
    (located : readSource tree root id path = .ok source)
    (holds : source.Holds tree course engine content runs) :
    ReadAs errno content runs source (readLimited tree root course engine describe malformed id path) := by
  have outcome (maximum : Nat) : readLimited tree root course engine describe malformed id path maximum =
      source.outcome content runs maximum := by
    rw [readLimited, located]
    cases source with
    | host target =>
        rcases holds with ⟨noFault, place, found, file⟩
        exact readOnHost_file noFault found file maximum
    | container id target => exact readInContainer_of (holds maximum)
  have right (maximum : Nat) : readLimited tree root course engine describe malformed id path maximum =
      boundedRead maximum content <-> source.Shown content runs maximum := by
    rw [outcome]
    cases source with
    | host target => exact iff_of_true rfl trivial
    | container id target => exact shownRead_right_iff (holds maximum)
  refine ⟨outcome, right, fun shown => readFileContent_bounded errno ((right _).mpr shown), ?_, ?_,
    fun count path => Shell.lex_of_reads (reads_readText count path)⟩
  · intro reads closing download
    cases download with
    | host path reads brings => exact downloadParts_front rfl brings
    | container id path shown reads ended brings front whole =>
        exact (downloadParts_front (received_downloadClosing errno ended) brings).trans front
  · intro reads closing download finished faultless
    cases download with
    | host path reads brings =>
        refine (downloadParts_whole brings finished faultless).1.trans ?_
        exact List.append_nil content
    | container id path shown reads ended brings front whole =>
        rcases downloadParts_whole brings finished faultless with ⟨all, closed⟩
        rw [all, received_downloadClosing, List.append_nil]
        exact whole (downloadClosing_faultless closed)

/-! ## A container that shows a file -/

/-- The number of bytes that a command asks for. -/
def asked (command : Text) : Nat :=
  ((Text.splitOnce ' ' (command.drop 8)).bind fun pieces => Text.parseUnsigned usizeMax pieces.1).getD 0

theorem readText_number (number path : Text) :
    "head -c ".toList ++ number ++ " -- ".toList ++ path ++ (" | ".toList ++ "base64".toList) =
      "head -c ".toList ++ (number ++ ' ' :: ("-- ".toList ++ (path ++ (" | ".toList ++ "base64".toList)))) := by
  simp only [List.append_assoc]
  rfl

theorem asked_readText {count : Nat} (within : count <= usizeMax) (path : Text) :
    asked (readText count path) = count := by
  have absent : ' ' ∉ Text.decimal count := Text.not_mem_decimal rfl count
  have number := Text.parseUnsigned_decimal within
  have eight : "head -c ".toList.length = 8 := by decide
  have whole : readText count path = _ := readText_number (Text.decimal count) (shellQuote path)
  rw [asked, whole, List.drop_left' eight, Text.splitOnce_append absent, Option.bind_some, number, Option.getD_some]

/-- What a command that asks for the beginning of a file writes of it. -/
def shownOutput (content : Bytes) (count : Nat) : Text :=
  Base64.encode (content.take count) ++ ['\n']

/-- A container in which every file has the same content. -/
def uniformEngine (content : Bytes) : ExecEngine where
  createExec _ words := .ok (words.getLast?.getD [])
  startExec command := .ok (.attached [.ok (.stdOut (encodeUtf8 (shownOutput content (asked command))))])
  inspectExec _ := .ok (some 0)

/-- A file is shown without a failure. -/
def smoothRun (content : Bytes) (maximum : Nat) : ShowRun where
  frames := [.stdOut (encodeUtf8 (shownOutput content (byteLimit maximum)))]
  passed := content.take (byteLimit maximum)
  outcomes := ⟨fun _ => 0, fun _ => false⟩

theorem uniformEngine_shows {content : Bytes} {id : Text} (valid : Paths.validateId id = .ok ())
    (fits : content.length <= usizeMax) (path : Text) (maximum : Nat) :
    (smoothRun content maximum).Of (uniformEngine content) id path maximum content := by
  have within : byteLimit maximum <= usizeMax := Nat.min_le_right (maximum + 1) usizeMax
  have started : (uniformEngine content).startExec (readText (byteLimit maximum) path) =
      .ok (.attached [.ok (.stdOut (encodeUtf8 (shownOutput content (byteLimit maximum))))]) := by
    show Except.ok (Runtime.StartExecResults.attached
      [.ok (.stdOut (encodeUtf8 (shownOutput content (asked (readText (byteLimit maximum) path)))))]) = _
    rw [asked_readText within]
  refine ⟨valid, fits, ⟨_, rfl, started, rfl⟩, List.prefix_rfl, fun _ => rfl,
    fun _ => ⟨shownOutput content (byteLimit maximum), List.append_nil _, ?_⟩⟩
  rw [shownOutput, List.filter_append, Base64.filter_encode]
  exact List.append_nil _

theorem encodeUtf8_length_le (text : Text) : (encodeUtf8 text).length <= 4 * text.length := by
  induction text with
  | nil => exact Nat.le_refl 0
  | cons character rest induction =>
      have one : (String.utf8EncodeChar character).length <= 4 := by
        rw [String.length_utf8EncodeChar]
        exact Char.utf8Size_le_four character
      have split : encodeUtf8 (character :: rest) = String.utf8EncodeChar character ++ encodeUtf8 rest :=
        List.flatMap_cons
      rw [split, List.length_append, List.length_cons]
      omega

/-- A small file is shown without a cut. -/
theorem capture_shownOutput {content : Bytes} (small : content.length <= 1024) (count : Nat) :
    (capture [.stdOut (encodeUtf8 (shownOutput content count))]).truncated = false := by
  have bytes := encodeUtf8_length_le (shownOutput content count)
  have characters : (shownOutput content count).length <= 1370 := by
    rw [shownOutput, List.length_append, Base64.encode_length, List.length_take, List.length_singleton]
    omega
  have limit : 8000 <= Runtime.execCaptureLimit := by decide
  have fits : min (encodeUtf8 (shownOutput content count)).length (Runtime.execCaptureLimit - 0) =
      (encodeUtf8 (shownOutput content count)).length := by
    omega
  show (false || decide (min (encodeUtf8 (shownOutput content count)).length (Runtime.execCaptureLimit - 0) ≠
    (encodeUtf8 (shownOutput content count)).length)) = false
  rw [fits]
  exact decide_eq_false (fun different => different rfl)

/-- A small file is shown, and read as what it is. -/
theorem file_read_as_motd :
    ReadAs (fun _ => "") (encodeUtf8 "motd=hi".toList) (smoothRun (encodeUtf8 "motd=hi".toList))
      (.container "a".toList "/data/server.properties".toList)
      (readLimited (FileTree.bare Text Bytes) ⟨[], "/data".toList, false⟩ ⟨none, none, 0⟩
        (uniformEngine (encodeUtf8 "motd=hi".toList)) (fun _ => "") (fun _ => "") "a".toList
        "server.properties".toList) /\
      forall maximum, (ReadSource.container "a".toList "/data/server.properties".toList).Shown
        (encodeUtf8 "motd=hi".toList) (smoothRun (encodeUtf8 "motd=hi".toList)) maximum := by
  refine ⟨file_read_as _ ?_ ?_, ?_⟩
  · decide
  · exact fun maximum => uniformEngine_shows (by decide) (by decide) _ maximum
  · exact fun maximum => ⟨capture_shownOutput (by decide) _, rfl, rfl⟩

end Storage
end Agapornis
