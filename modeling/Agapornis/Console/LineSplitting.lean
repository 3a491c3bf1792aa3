import Agapornis.Console.Decoder

namespace Agapornis
namespace Console

open Foundations

/-!
# Lines do not depend on frames

The decoder sees the output of a container in frames, cut anywhere and with
frames of other streams in between.  What it emits from one stream are the
lines of all bytes of that stream together: each ends at a carriage return, a
line feed or both, and what is left at the end is the last one.
-/

/-- The lines of a byte string, each without its end; an unterminated rest is
a line unless it is empty. -/
def byteLines : Bytes -> List Bytes
  | [] => []
  | 13 :: 10 :: rest => [] :: byteLines rest
  | 13 :: rest => [] :: byteLines rest
  | 10 :: rest => [] :: byteLines rest
  | byte :: rest =>
      match byteLines rest with
      | [] => [[byte]]
      | first :: others => (byte :: first) :: others

/-- The text of a line, cut off and marked where it exceeds the maximum. -/
def shownLine (maximum : Nat) (line : Bytes) : Text :=
  fromUtf8Lossy (line.take maximum) ++ if maximum < line.length then truncationSuffix else []

/-- The lines that a stream should have. -/
def referenceLines (maximum : Nat) (stream : Bytes) : List Text :=
  (byteLines stream).map (shownLine maximum)

example : byteLines "one\r\ntwo\r\n\rthree\n\nrest".toUTF8.toList =
    ["one".toUTF8.toList, "two".toUTF8.toList, [], "three".toUTF8.toList, [], "rest".toUTF8.toList] := by
  decide +kernel

/-! ## The lines of a byte string -/

/-- Bytes which end no line. -/
def Unterminated (bytes : Bytes) : Prop :=
  forall byte, byte ∈ bytes -> Not (byte = 13) /\ Not (byte = 10)

theorem byteLines_cons {byte : UInt8} (noReturn : Not (byte = 13)) (noFeed : Not (byte = 10)) (rest : Bytes) :
    byteLines (byte :: rest) = match byteLines rest with
      | [] => [[byte]]
      | first :: others => (byte :: first) :: others := by
  rw [byteLines]
  · rintro _ same _
    exact noReturn same
  · exact noReturn
  · exact noFeed

/-- A line feed behind a carriage return belongs to it. -/
def dropLineFeed : Bytes -> Bytes
  | 10 :: rest => rest
  | bytes => bytes

theorem byteLines_return (rest : Bytes) : byteLines (13 :: rest) = [] :: byteLines (dropLineFeed rest) := by
  unfold dropLineFeed
  split
  · rw [byteLines]
  · next noFeed =>
      rw [byteLines]
      intro more same
      exact noFeed more same

theorem byteLines_feed (rest : Bytes) : byteLines (10 :: rest) = [] :: byteLines rest := by
  rw [byteLines]

theorem Unterminated.tail {byte : UInt8} {rest : Bytes} (unterminated : Unterminated (byte :: rest)) :
    Unterminated rest :=
  fun other member => unterminated other (List.mem_cons_of_mem _ member)

/-- Where nothing ends a line there is one at most. -/
theorem byteLines_unterminated {bytes : Bytes} (unterminated : Unterminated bytes) :
    byteLines bytes = if bytes.isEmpty then [] else [bytes] := by
  induction bytes with
  | nil => rfl
  | cons byte rest induction =>
      have here := unterminated byte List.mem_cons_self
      rw [byteLines_cons here.1 here.2, induction unterminated.tail]
      cases rest <;> rfl

/-- The bytes up to the end of a line are its line. -/
theorem byteLines_append {front back : Bytes} {others : List Bytes} (unterminated : Unterminated front)
    (ends : byteLines back = [] :: others) : byteLines (front ++ back) = front :: others := by
  induction front with
  | nil => exact ends
  | cons byte rest induction =>
      have here := unterminated byte List.mem_cons_self
      rw [List.cons_append, byteLines_cons here.1 here.2, induction unterminated.tail]

/-! ## One buffer -/

namespace LineBuffer

/-- The buffer after some bytes of a line that has not ended. -/
structure Holds (maximum : Nat) (buffer : LineBuffer) (begun : Bytes) : Prop where
  bytes : buffer.bytes = begun.take maximum
  truncated : buffer.truncated = decide (maximum < begun.length)
  unterminated : Unterminated begun
  fresh : buffer.swallowLineFeed = true -> begun = []

/-- A buffer in which no line has begun. -/
theorem holds_fresh (maximum : Nat) (swallow : Bool) : Holds maximum { swallowLineFeed := swallow } [] where
  bytes := List.take_nil.symm
  truncated := rfl
  unterminated := nofun
  fresh _ := rfl

theorem Holds.line {maximum : Nat} {buffer : LineBuffer} {begun : Bytes}
    (holds : Holds maximum buffer begun) : buffer.line = shownLine maximum begun := by
  rw [LineBuffer.line, holds.bytes, holds.truncated, shownLine]
  by_cases long : maximum < begun.length
  · rw [if_pos long, if_pos (decide_eq_true long)]
  · rw [if_neg long, decide_eq_false long, if_neg Bool.false_ne_true]

/-- What is still to come of a stream, of which a line has begun. -/
def awaited (buffer : LineBuffer) (begun rest : Bytes) : Bytes :=
  begun ++ if buffer.swallowLineFeed then dropLineFeed rest else rest

theorem Holds.finish {maximum : Nat} {buffer : LineBuffer} {begun : Bytes}
    (holds : Holds maximum buffer begun) :
    buffer.finish = referenceLines maximum begun := by
  rw [LineBuffer.finish, referenceLines, byteLines_unterminated holds.unterminated, holds.bytes, holds.truncated,
    holds.line]
  cases begun with
  | nil => simp
  | cons byte rest =>
      have shown : ((List.take maximum (byte :: rest)).isEmpty &&
          !decide (maximum < (byte :: rest).length)) = false := by
        cases maximum with
        | zero => simp
        | succ less => simp
      rw [shown]
      rfl

/-- A byte which ends no line is held with the others. -/
theorem Holds.hold {maximum : Nat} {buffer : LineBuffer} {begun : Bytes}
    (holds : Holds maximum buffer begun) {byte : UInt8} (noReturn : Not (byte = 13))
    (noFeed : Not (byte = 10)) :
    Holds maximum (buffer.pushByte byte maximum).2 (begun ++ [byte]) /\
      (buffer.pushByte byte maximum).1 = [] := by
  have unterminated : Unterminated (begun ++ [byte]) := by
    intro other member
    rcases List.mem_append.mp member with before | new
    · exact holds.unterminated other before
    · rw [List.mem_singleton.mp new]
      exact ⟨noReturn, noFeed⟩
  have short : buffer.bytes.length < maximum <-> begun.length < maximum := by
    rw [holds.bytes, List.length_take]
    omega
  simp only [pushByte, noReturn, noFeed, decide_false, Bool.and_false, Bool.false_eq_true, if_false, short]
  by_cases room : begun.length < maximum
  · rw [if_pos room]
    refine ⟨⟨?_, ?_, unterminated, fun impossible => (by cases impossible)⟩, rfl⟩
    · rw [holds.bytes, List.take_of_length_le (Nat.le_of_lt room), List.take_of_length_le (by simp; omega)]
    · rw [holds.truncated, List.length_append, List.length_singleton, decide_eq_decide]
      omega
  · rw [if_neg room]
    refine ⟨⟨?_, ?_, unterminated, fun impossible => (by cases impossible)⟩, rfl⟩
    · rw [holds.bytes, List.take_append_of_le_length (Nat.le_of_not_lt room)]
    · rw [List.length_append, List.length_singleton]
      exact (decide_eq_true (by omega)).symm

theorem pushByte_swallowed {buffer : LineBuffer} (maximum : Nat) (swallow : buffer.swallowLineFeed = true) :
    buffer.pushByte 10 maximum = ([], { buffer with swallowLineFeed := false }) := by
  simp [pushByte, swallow]

theorem pushByte_return (buffer : LineBuffer) (maximum : Nat) :
    buffer.pushByte 13 maximum = ([buffer.line], { swallowLineFeed := true }) := by
  simp [pushByte]

theorem pushByte_feed {buffer : LineBuffer} (maximum : Nat) (kept : buffer.swallowLineFeed = false) :
    buffer.pushByte 10 maximum = ([buffer.line], {}) := by
  simp [pushByte, kept]

theorem swallowLineFeed_pushByte (buffer : LineBuffer) (maximum : Nat) {byte : UInt8} (returns : Not (byte = 13))
    (feeds : Not (byte = 10)) : (buffer.pushByte byte maximum).2.swallowLineFeed = false := by
  simp only [pushByte, returns, feeds, decide_false, Bool.and_false, Bool.false_eq_true, if_false]
  split <;> rfl

/-- Only a line feed right behind a return is dropped. -/
theorem awaited_cons {buffer : LineBuffer} {byte : UInt8} (begun rest : Bytes)
    (kept : Not (buffer.swallowLineFeed = true /\ byte = 10)) :
    buffer.awaited begun (byte :: rest) = begun ++ byte :: rest := by
  rw [awaited]
  split
  · next swallow =>
      have other : Not (byte = 10) := fun feed => kept ⟨swallow, feed⟩
      unfold dropLineFeed
      split
      · next same => exact absurd (List.cons.inj same).1 other
      · rfl
  · rfl

/-- From any buffer the lines of the rest follow. -/
theorem push_finish {maximum : Nat} (rest : Bytes) : forall {buffer : LineBuffer} {begun : Bytes},
    Holds maximum buffer begun ->
      (buffer.push rest maximum).1 ++ (buffer.push rest maximum).2.finish =
        referenceLines maximum (buffer.awaited begun rest) := by
  induction rest with
  | nil =>
      intro buffer begun holds
      have nothing : buffer.awaited begun [] = begun := by
        rw [awaited]
        split <;> exact List.append_nil _
      rw [nothing]
      exact holds.finish
  | cons byte rest induction =>
      intro buffer begun holds
      rw [push, List.append_assoc]
      by_cases swallowed : buffer.swallowLineFeed = true /\ byte = 10
      · rcases swallowed with ⟨swallow, feed⟩
        subst feed
        have empty := holds.fresh swallow
        subst empty
        have still : Holds maximum { buffer with swallowLineFeed := false } [] :=
          ⟨holds.bytes, holds.truncated, holds.unterminated, fun impossible => (by cases impossible)⟩
        rw [pushByte_swallowed maximum swallow, List.nil_append, induction still, awaited, awaited, swallow]
        rfl
      · rw [awaited_cons begun rest swallowed]
        by_cases returns : byte = 13
        · subst returns
          rw [pushByte_return, induction (holds_fresh maximum true), holds.line, referenceLines, referenceLines,
            byteLines_append holds.unterminated (byteLines_return rest)]
          rfl
        · by_cases feeds : byte = 10
          · subst feeds
            have kept : buffer.swallowLineFeed = false :=
              Bool.eq_false_iff.mpr fun swallow => swallowed ⟨swallow, rfl⟩
            rw [pushByte_feed maximum kept, induction (holds_fresh maximum false), holds.line, referenceLines,
              referenceLines, byteLines_append holds.unterminated (byteLines_feed rest)]
            rfl
          · rcases holds.hold returns feeds with ⟨held, nothing⟩
            rw [nothing, List.nil_append, induction held, awaited,
              swallowLineFeed_pushByte buffer maximum returns feeds]
            simp

/-- What a buffer emits for a whole stream, whichever way it is cut. -/
theorem whole_stream (maximum : Nat) (stream : Bytes) :
    (({} : LineBuffer).push stream maximum).1 ++ (({} : LineBuffer).push stream maximum).2.finish =
      referenceLines maximum stream :=
  push_finish stream (holds_fresh maximum false)

end LineBuffer

/-! ## The decoder -/

/-- The streams that are decoded. -/
inductive LogStream where
  | stdout
  | stderr
  | console
  deriving DecidableEq, Repr

namespace LogOutput

/-- The stream of a frame; standard input is not decoded. -/
def stream : LogOutput -> Option LogStream
  | .stdOut _ => some .stdout
  | .stdErr _ => some .stderr
  | .console _ => some .console
  | .stdIn _ => none

def message : LogOutput -> Bytes
  | .stdOut message => message
  | .stdErr message => message
  | .console message => message
  | .stdIn message => message

end LogOutput

/-- The bytes of a stream, from all its frames. -/
def streamBytes (stream : LogStream) (outputs : List LogOutput) : Bytes :=
  outputs.flatMap fun output => if output.stream = some stream then output.message else []

theorem streamBytes_cons (stream : LogStream) (output : LogOutput) (rest : List LogOutput) :
    streamBytes stream (output :: rest) =
      (if output.stream = some stream then output.message else []) ++ streamBytes stream rest :=
  List.flatMap_cons

namespace ConsoleOutputDecoder

def buffer (decoder : ConsoleOutputDecoder) : LogStream -> LineBuffer
  | .stdout => decoder.stdout
  | .stderr => decoder.stderr
  | .console => decoder.console

/-- All lines that a decoder emits for some frames and at their end. -/
def decode (maximum : Nat) : ConsoleOutputDecoder -> List LogOutput -> List Text
  | decoder, [] => decoder.finish
  | decoder, output :: rest =>
      let pushed := decoder.push output maximum
      pushed.1 ++ decode maximum pushed.2 rest

/-- The same lines, each with the stream that it comes from. -/
def decodeTagged (maximum : Nat) : ConsoleOutputDecoder -> List LogOutput -> List (Option LogStream × Text)
  | decoder, [] => [LogStream.stdout, .stderr, .console].flatMap fun stream =>
      (decoder.buffer stream).finish.map (Prod.mk (some stream))
  | decoder, output :: rest =>
      let pushed := decoder.push output maximum
      pushed.1.map (Prod.mk output.stream) ++ decodeTagged maximum pushed.2 rest

/-- The lines from one stream. -/
def linesOf (stream : Option LogStream) (tagged : List (Option LogStream × Text)) : List Text :=
  (tagged.filter fun row => row.1 = stream).map Prod.snd

theorem linesOf_append (stream : Option LogStream) (front back : List (Option LogStream × Text)) :
    linesOf stream (front ++ back) = linesOf stream front ++ linesOf stream back := by
  rw [linesOf, List.filter_append, List.map_append]
  rfl

theorem linesOf_tagged (stream tag : Option LogStream) (lines : List Text) :
    linesOf stream (lines.map (Prod.mk tag)) = if tag = stream then lines else [] := by
  rw [linesOf, List.filter_map, List.map_map]
  by_cases same : tag = stream
  · subst same
    simp [Function.comp_def]
  · simp [Function.comp_def, same]

theorem decodeTagged_lines (maximum : Nat) (outputs : List LogOutput) : forall decoder : ConsoleOutputDecoder,
    (decodeTagged maximum decoder outputs).map Prod.snd = decode maximum decoder outputs := by
  induction outputs with
  | nil =>
      intro decoder
      simp [decodeTagged, decode, finish, buffer, Function.comp_def]
  | cons output rest induction =>
      intro decoder
      rw [decodeTagged, decode, List.map_append, List.map_map, induction]
      simp [Function.comp_def]

/-- A frame is pushed into the buffer of its stream and into no other. -/
theorem push_buffer (decoder : ConsoleOutputDecoder) (output : LogOutput) (maximum : Nat)
    (stream : LogStream) :
    ((decoder.push output maximum).2.buffer stream =
      if output.stream = some stream then ((decoder.buffer stream).push output.message maximum).2
      else decoder.buffer stream) /\
    (output.stream = some stream ->
      (decoder.push output maximum).1 = ((decoder.buffer stream).push output.message maximum).1) := by
  constructor
  · cases output <;> cases stream <;> rfl
  · intro same
    cases output <;> cases same <;> rfl

theorem linesOf_finish (decoder : ConsoleOutputDecoder) (maximum : Nat) (stream : LogStream) :
    linesOf (some stream) (decodeTagged maximum decoder []) = (decoder.buffer stream).finish := by
  simp only [decodeTagged, List.flatMap_cons, List.flatMap_nil, linesOf_append, linesOf_tagged]
  cases stream <;> simp [linesOf]

/-- From one stream comes what its buffer emits for all its bytes together. -/
theorem linesOf_decodeTagged (maximum : Nat) (stream : LogStream) (outputs : List LogOutput) :
    forall decoder : ConsoleOutputDecoder,
      linesOf (some stream) (decodeTagged maximum decoder outputs) =
        ((decoder.buffer stream).push (streamBytes stream outputs) maximum).1 ++
          ((decoder.buffer stream).push (streamBytes stream outputs) maximum).2.finish := by
  induction outputs with
  | nil =>
      intro decoder
      rw [linesOf_finish]
      rfl
  | cons output rest induction =>
      intro decoder
      rcases push_buffer decoder output maximum stream with ⟨after, emitted⟩
      rw [decodeTagged, linesOf_append, linesOf_tagged, induction, after, streamBytes_cons]
      by_cases mine : output.stream = some stream
      · rw [if_pos mine, if_pos mine, if_pos mine, emitted mine, LineBuffer.push_append, List.append_assoc]
      · rw [if_neg mine, if_neg mine, if_neg mine]
        rfl

/-- Standard input emits nothing. -/
theorem linesOf_undecoded (maximum : Nat) (outputs : List LogOutput) : forall decoder : ConsoleOutputDecoder,
    linesOf none (decodeTagged maximum decoder outputs) = [] := by
  induction outputs with
  | nil =>
      intro decoder
      simp only [decodeTagged, List.flatMap_cons, List.flatMap_nil, linesOf_append, linesOf_tagged]
      rfl
  | cons output rest induction =>
      intro decoder
      rw [decodeTagged, linesOf_append, linesOf_tagged, induction, List.append_nil]
      cases output <;> rfl

/-- However a log is cut into frames and its streams are mixed, the lines from
each stream are those of all its bytes together. -/
theorem decode_whole (maximum : Nat) (outputs : List LogOutput) :
    (decodeTagged maximum {} outputs).map Prod.snd = decode maximum {} outputs /\
      (forall stream, linesOf (some stream) (decodeTagged maximum {} outputs) =
        referenceLines maximum (streamBytes stream outputs)) /\
      linesOf none (decodeTagged maximum {} outputs) = [] := by
  refine ⟨decodeTagged_lines maximum outputs {}, ?_, linesOf_undecoded maximum outputs {}⟩
  intro stream
  have fresh : ({} : ConsoleOutputDecoder).buffer stream = {} := by cases stream <;> rfl
  rw [linesOf_decodeTagged, fresh, LineBuffer.whole_stream]

/-- A line end cut in two by frames of other streams. -/
example : decode 4 {} [.stdOut [0x61, 13], .stdErr [0x62], .stdIn [0x63, 10], .stdOut [10, 0x64]] =
    [['a'], ['d'], ['b']] := by
  decide

end ConsoleOutputDecoder

end Console
end Agapornis
