import Agapornis.Console.Decoder
import Agapornis.Core.Paths
import Agapornis.Foundations.Machine
import Agapornis.Foundations.Utf8

namespace Agapornis
namespace Runtime

open Foundations Agapornis.Core
open Console (LogOutput)

/-!
# Commands executed in a container

The manager starts a shell in the container, collects what the command writes
on its two streams up to a limit, and asks for the exit status in the end.
Frames of the output, and the answers of the Docker engine around them, are
what one execution is given.
-/

def execCaptureLimit : Nat :=
  8 * 1024 * 1024

/-- The output with the bytes added that still fit, and whether some did not. -/
def appendExecOutput (output bytes : Bytes) (remaining : Nat) : Bytes × Bool :=
  let length := min bytes.length remaining
  (output ++ bytes.take length, decide (length ≠ bytes.length))

example : appendExecOutput [] (encodeUtf8 "abcdef".toList) 4 = (encodeUtf8 "abcd".toList, true) := by
  decide

structure Capture where
  stdout : Bytes := []
  stderr : Bytes := []
  truncated : Bool := false
  deriving DecidableEq, Repr

namespace Capture

/-- Collect one frame; a frame of the one stream is given what the other leaves of the limit. -/
def push (captured : Capture) : LogOutput -> Capture
  | .stdOut message | .console message =>
      let (stdout, cut) :=
        appendExecOutput captured.stdout message (execCaptureLimit - captured.stderr.length)
      { captured with stdout, truncated := captured.truncated || cut }
  | .stdErr message =>
      let (stderr, cut) :=
        appendExecOutput captured.stderr message (execCaptureLimit - captured.stdout.length)
      { captured with stderr, truncated := captured.truncated || cut }
  | .stdIn _ => captured

/-- How many bytes are retained in all. -/
def retained (captured : Capture) : Nat :=
  captured.stdout.length + captured.stderr.length

end Capture

/-! ## One execution -/

inductive StartExecResults where
  | attached (output : List (Except Failure LogOutput))
  | detached

/-- What the Docker engine answers to an execution. -/
structure ExecEngine where
  createExec : Text -> List Text -> Except Failure Text
  startExec : Text -> Except Failure StartExecResults
  inspectExec : Text -> Except Failure (Option Int)

/-- Collect the frames up to the first error of the stream. -/
def captureOutput (id : Text) : Capture -> List (Except Failure LogOutput) -> Except Failure Capture
  | captured, [] => .ok captured
  | captured, frame :: rest => do
      let output <- withContext s!"read exec output from Docker container {String.ofList id}" frame
      captureOutput id (captured.push output) rest

/-- What a failed command says of itself. -/
def execDetail (captured : Capture) : Text :=
  let stderrText := Text.trim (fromUtf8Lossy captured.stderr)
  let stdoutText := Text.trim (fromUtf8Lossy captured.stdout)
  if !stderrText.isEmpty then stderrText
  else if !stdoutText.isEmpty then stdoutText
  else "command returned no output".toList

/-- What the command returned, once it has ended with an exit status. -/
def execResult (describe : Bytes -> String) (captured : Capture) (exitCode : Int) :
    Except Failure Text := do
  refuseIf captured.truncated s!"command output exceeded the {execCaptureLimit} byte capture limit"
  refuseIf (exitCode != 0)
    s!"command exited with status {exitCode}: {String.ofList (execDetail captured)}"
  match fromUtf8 captured.stdout with
  | some text => .ok text
  | none =>
      .error (.context "container command returned non-UTF-8 output" (.bail (describe captured.stdout)))

/-- Execute a command in a container; `describe` is the error text of bytes that are not UTF-8. -/
def exec (engine : ExecEngine) (describe : Bytes -> String) (id command : Text) :
    Except Failure Text := do
  Paths.validateId id
  let created <- withContext s!"create exec command for Docker container {String.ofList id}"
    (engine.createExec id ["/bin/sh".toList, "-lc".toList, command])
  let started <- withContext s!"start exec command in Docker container {String.ofList id}"
    (engine.startExec created)
  match started with
  | .detached => .error (.bail "Docker exec unexpectedly started in detached mode")
  | .attached output =>
      let captured <- captureOutput id {} output
      let inspected <- withContext s!"inspect exec command in Docker container {String.ofList id}"
        (engine.inspectExec created)
      execResult describe captured (inspected.getD (-1))

/-! ## What is retained -/

/-- The bytes a frame adds to each of the two streams. -/
def stdoutPart : LogOutput -> Bytes
  | .stdOut message | .console message => message
  | .stdErr _ | .stdIn _ => []

def stderrPart : LogOutput -> Bytes
  | .stdErr message => message
  | .stdOut _ | .console _ | .stdIn _ => []

/-- What is collected of a sequence of frames. -/
def capture (frames : List LogOutput) : Capture :=
  Machine.reach Capture.push {} frames

theorem appendExecOutput_whole {output bytes : Bytes} {remaining : Nat}
    (whole : (appendExecOutput output bytes remaining).2 = false) :
    (appendExecOutput output bytes remaining).1 = output ++ bytes := by
  have all : min bytes.length remaining = bytes.length := by
    simpa [appendExecOutput] using whole
  show output ++ bytes.take (min bytes.length remaining) = output ++ bytes
  rw [all, List.take_length]

theorem appendExecOutput_length (output bytes : Bytes) (remaining : Nat) :
    (appendExecOutput output bytes remaining).1.length = output.length + min bytes.length remaining := by
  simp [appendExecOutput]

/-- A frame that is not reported as truncated is added whole. -/
theorem push_whole (captured : Capture) (frame : LogOutput)
    (whole : (captured.push frame).truncated = false) :
    captured.truncated = false /\
      (captured.push frame).stdout = captured.stdout ++ stdoutPart frame /\
      (captured.push frame).stderr = captured.stderr ++ stderrPart frame := by
  cases frame with
  | stdOut message | console message =>
      rcases Bool.or_eq_false_iff.mp whole with ⟨before, added⟩
      exact ⟨before, appendExecOutput_whole added, (List.append_nil captured.stderr).symm⟩
  | stdErr message =>
      rcases Bool.or_eq_false_iff.mp whole with ⟨before, added⟩
      exact ⟨before, (List.append_nil captured.stdout).symm, appendExecOutput_whole added⟩
  | stdIn message =>
      exact ⟨whole, (List.append_nil captured.stdout).symm, (List.append_nil captured.stderr).symm⟩

theorem reach_whole {frames : List LogOutput} : forall {first : Capture},
    (Machine.reach Capture.push first frames).truncated = false ->
      first.truncated = false /\
      (Machine.reach Capture.push first frames).stdout = first.stdout ++ frames.flatMap stdoutPart /\
      (Machine.reach Capture.push first frames).stderr = first.stderr ++ frames.flatMap stderrPart := by
  induction frames with
  | nil =>
      intro first whole
      exact ⟨whole, (List.append_nil first.stdout).symm, (List.append_nil first.stderr).symm⟩
  | cons frame rest induction =>
      intro first whole
      rcases induction whole with ⟨next, stdout, stderr⟩
      rcases push_whole first frame next with ⟨before, ofStdout, ofStderr⟩
      refine ⟨before, ?_, ?_⟩
      · rw [Machine.reach_cons, stdout, ofStdout, List.flatMap_cons, List.append_assoc]
      · rw [Machine.reach_cons, stderr, ofStderr, List.flatMap_cons, List.append_assoc]

/-- Without a report of truncation each stream is complete. -/
theorem capture_whole {frames : List LogOutput} (whole : (capture frames).truncated = false) :
    (capture frames).stdout = frames.flatMap stdoutPart /\
      (capture frames).stderr = frames.flatMap stderrPart :=
  (reach_whole whole).2

theorem captureOutput_frames (id : Text) (frames : List LogOutput) : forall first : Capture,
    captureOutput id first (frames.map .ok) = .ok (Machine.reach Capture.push first frames) := by
  induction frames with
  | nil => exact fun first => rfl
  | cons frame rest induction => exact fun first => induction (first.push frame)

/-- A command returns its standard output when nothing was cut off, it ended with status zero and
wrote UTF-8. -/
theorem execResult_eq_ok {describe : Bytes -> String} {captured : Capture} {status : Int} {text : Text} :
    execResult describe captured status = .ok text <->
      captured.truncated = false /\ status = 0 /\ encodeUtf8 text = captured.stdout := by
  rw [<- fromUtf8_eq_some]
  constructor
  · intro returned
    rcases bind_eq_ok.mp returned with ⟨_, whole, returned⟩
    rcases bind_eq_ok.mp returned with ⟨_, ended, returned⟩
    refine ⟨refuseIf_eq_ok.mp whole, by simpa using refuseIf_eq_ok.mp ended, ?_⟩
    cases decoded : fromUtf8 captured.stdout with
    | none =>
        simp only [decoded] at returned
        cases returned
    | some read =>
        simp only [decoded] at returned
        cases returned
        rfl
  · rintro ⟨whole, ended, decoded⟩
    refine bind_eq_ok.mpr ⟨(), refuseIf_eq_ok.mpr whole, bind_eq_ok.mpr ⟨(), refuseIf_eq_ok.mpr ?_, ?_⟩⟩
    · rw [ended]
      rfl
    · simp only [decoded]

/-- The engine has carried out a command: the frames of its output, and the status it ended with. -/
def Executed (engine : ExecEngine) (id command : Text) (frames : List LogOutput) (status : Int) : Prop :=
  Exists fun created =>
    engine.createExec id ["/bin/sh".toList, "-lc".toList, command] = .ok created /\
      engine.startExec created = .ok (.attached (frames.map .ok)) /\
      engine.inspectExec created = .ok (some status)

/-- What becomes of a command that the engine has carried out. -/
theorem exec_of_executed {engine : ExecEngine} {id command : Text} {frames : List LogOutput} {status : Int}
    (valid : Paths.validateId id = .ok ()) (executed : Executed engine id command frames status)
    (describe : Bytes -> String) :
    exec engine describe id command = execResult describe (capture frames) status := by
  rcases executed with ⟨created, create, start, inspect⟩
  simp only [exec, valid, create, start, inspect, withContext, captureOutput_frames, bind, Except.bind,
    Option.getD_some]
  rfl

theorem exec_eq_ok {engine : ExecEngine} {id command text : Text} {frames : List LogOutput} {status : Int}
    {describe : Bytes -> String} (valid : Paths.validateId id = .ok ())
    (executed : Executed engine id command frames status) :
    exec engine describe id command = .ok text <->
      (capture frames).truncated = false /\ status = 0 /\ encodeUtf8 text = frames.flatMap stdoutPart := by
  rw [exec_of_executed valid executed, execResult_eq_ok]
  apply and_congr_right
  intro whole
  rw [(capture_whole whole).1]

/-! ## The budget -/

/-- A frame fits in what the two buffers leave of the limit, or its own buffer is still empty. -/
def FrameFits (captured : Capture) : LogOutput -> Prop
  | .stdOut message | .console message =>
      captured.stdout = [] \/ captured.retained + message.length <= execCaptureLimit
  | .stdErr message =>
      captured.stderr = [] \/ captured.retained + message.length <= execCaptureLimit
  | .stdIn _ => True

/-- Within the limit, a buffer given what the other one leaves stays within it exactly when it was
empty or the bytes fit in what both leave. -/
theorem appendExecOutput_within {output other : Bytes} (bytes : Bytes)
    (within : output.length + other.length <= execCaptureLimit) :
    (appendExecOutput output bytes (execCaptureLimit - other.length)).1.length + other.length
        <= execCaptureLimit <->
      output = [] \/ output.length + other.length + bytes.length <= execCaptureLimit := by
  rw [appendExecOutput_length, <- List.length_eq_zero_iff]
  omega

theorem push_within (captured : Capture) (frame : LogOutput)
    (within : captured.retained <= execCaptureLimit) :
    (captured.push frame).retained <= execCaptureLimit <-> FrameFits captured frame := by
  cases frame with
  | stdOut message | console message => exact appendExecOutput_within message within
  | stdErr message =>
      have swapped : captured.stderr.length + captured.stdout.length <= execCaptureLimit := by
        rw [Nat.add_comm]
        exact within
      have appended := appendExecOutput_within message swapped
      rw [Nat.add_comm, Nat.add_comm captured.stderr.length] at appended
      exact appended
  | stdIn message => exact iff_of_true within trivial

/-- The retained bytes stay within the limit, and are complete where no truncation is reported,
exactly when each frame fits beside both buffers or meets its own buffer empty. -/
theorem capture_within_budget_iff (frames : List LogOutput) :
    (forall front, front <+: frames ->
      (capture front).retained <= execCaptureLimit /\
        ((capture front).truncated = false ->
          (capture front).stdout = front.flatMap stdoutPart /\
            (capture front).stderr = front.flatMap stderrPart)) <->
      Machine.Along Capture.push FrameFits {} frames := by
  have atStart : (({} : Capture)).retained <= execCaptureLimit := Nat.zero_le execCaptureLimit
  rw [<- Machine.always_iff_along push_within atStart]
  constructor
  · intro always front within
    exact (always front within).1
  · intro always front within
    exact ⟨always front within, capture_whole⟩

/-- Frames of standard output do not count what was retained of it before. -/
theorem retained_two_stdout (first second : Bytes) :
    (capture [.stdOut first, .stdOut second]).retained =
      min first.length execCaptureLimit + min second.length execCaptureLimit := by
  simp only [capture, Machine.reach_cons, Machine.reach_nil, Capture.push, Capture.retained,
    appendExecOutput_length, List.length_nil, Nat.zero_add, Nat.sub_zero, Nat.add_zero]

/-- Two frames of standard output, one of the limit's size and one byte more, are both kept. -/
theorem stdout_alone_exceeds_limit :
    Not (forall front,
      front <+: [LogOutput.stdOut (List.replicate execCaptureLimit 0), .stdOut [0]] ->
        (capture front).retained <= execCaptureLimit /\
          ((capture front).truncated = false ->
            (capture front).stdout = front.flatMap stdoutPart /\
              (capture front).stderr = front.flatMap stderrPart)) := by
  intro always
  have kept := (always _ List.prefix_rfl).1
  rw [retained_two_stdout, List.length_replicate, Nat.min_self] at kept
  have more : min [(0 : UInt8)].length execCaptureLimit = 1 := by decide
  omega

end Runtime
end Agapornis
