import Agapornis.Foundations.Utf8

namespace Agapornis
namespace Console

open Foundations

/-!
# From log frames to lines

A line ends with a line feed, with a carriage return, or with both; what exceeds
the maximum is cut off and marked.
-/

def truncationSuffix : Text :=
  [' ', '…', ' ', '[', 't', 'r', 'u', 'n', 'c', 'a', 't', 'e', 'd', ']']

structure LineBuffer where
  bytes : Bytes := []
  truncated : Bool := false
  swallowLineFeed : Bool := false
  deriving DecidableEq, Repr

namespace LineBuffer

/-- The line that is in the buffer. -/
def line (buffer : LineBuffer) : Text :=
  fromUtf8Lossy buffer.bytes ++ if buffer.truncated then truncationSuffix else []

def pushByte (buffer : LineBuffer) (byte : UInt8) (maximum : Nat) : List Text × LineBuffer :=
  if buffer.swallowLineFeed && byte = 10 then ([], { buffer with swallowLineFeed := false })
  else if byte = 13 then ([buffer.line], { swallowLineFeed := true })
  else if byte = 10 then ([buffer.line], {})
  else if buffer.bytes.length < maximum then
    ([], { buffer with bytes := buffer.bytes ++ [byte], swallowLineFeed := false })
  else ([], { buffer with truncated := true, swallowLineFeed := false })

def push (buffer : LineBuffer) : Bytes -> Nat -> List Text × LineBuffer
  | [], _ => ([], buffer)
  | byte :: chunk, maximum =>
      let pushed := buffer.pushByte byte maximum
      let rest := pushed.2.push chunk maximum
      (pushed.1 ++ rest.1, rest.2)

def finish (buffer : LineBuffer) : List Text :=
  if buffer.bytes.isEmpty && !buffer.truncated then [] else [buffer.line]

/-- How a log is cut into chunks does not matter. -/
theorem push_append (maximum : Nat) (front back : Bytes) : forall buffer : LineBuffer,
    buffer.push (front ++ back) maximum =
      ((buffer.push front maximum).1 ++ ((buffer.push front maximum).2.push back maximum).1,
        ((buffer.push front maximum).2.push back maximum).2) := by
  induction front with
  | nil => exact fun buffer => rfl
  | cons byte rest induction =>
      intro buffer
      rw [List.cons_append, push, induction, push, List.append_assoc]

end LineBuffer

inductive LogOutput where
  | stdOut (message : Bytes)
  | stdErr (message : Bytes)
  | console (message : Bytes)
  | stdIn (message : Bytes)
  deriving DecidableEq, Repr

structure ConsoleOutputDecoder where
  stdout : LineBuffer := {}
  stderr : LineBuffer := {}
  console : LineBuffer := {}
  deriving DecidableEq, Repr

namespace ConsoleOutputDecoder

def push (decoder : ConsoleOutputDecoder) (output : LogOutput) (maximum : Nat) :
    List Text × ConsoleOutputDecoder :=
  match output with
  | .stdOut message =>
      let pushed := decoder.stdout.push message maximum
      (pushed.1, { decoder with stdout := pushed.2 })
  | .stdErr message =>
      let pushed := decoder.stderr.push message maximum
      (pushed.1, { decoder with stderr := pushed.2 })
  | .console message =>
      let pushed := decoder.console.push message maximum
      (pushed.1, { decoder with console := pushed.2 })
  | .stdIn _ => ([], decoder)

def finish (decoder : ConsoleOutputDecoder) : List Text :=
  decoder.stdout.finish ++ decoder.stderr.finish ++ decoder.console.finish

end ConsoleOutputDecoder

end Console
end Agapornis
