import Agapornis.Console.LogReader
import Mathlib.Data.List.Flatten
import Mathlib.Order.Bounds.Basic

namespace Agapornis
namespace Console

open Foundations

/-!
# Reading a log in several attachments

Whether a log is read once and in order, however often the reader has to attach
again, depends on what the decoder makes of its entries: what was seen has to be
known again from its timestamps and texts, and nothing else must be.
-/

variable {Instant : Type}

namespace LineBuffer

/-- A buffer that waits for the second half of a line end holds nothing. -/
def Settled (buffer : LineBuffer) : Prop :=
  buffer.swallowLineFeed = true -> buffer.bytes = [] /\ buffer.truncated = false

theorem settled_pushByte (buffer : LineBuffer) (byte : UInt8) (maximum : Nat) :
    (buffer.pushByte byte maximum).2.Settled := by
  rw [pushByte]
  split
  · exact nofun
  · split
    · exact fun _ => ⟨rfl, rfl⟩
    · split
      · exact nofun
      · split <;> exact nofun

theorem settled_push (maximum : Nat) (chunk : Bytes) : forall {buffer : LineBuffer}, buffer.Settled ->
    (buffer.push chunk maximum).2.Settled := by
  induction chunk with
  | nil => exact fun settled => settled
  | cons byte rest induction => exact fun _ => induction (settled_pushByte _ byte maximum)

/-- A line feed leaves nothing in the buffer. -/
theorem pushByte_lineFeed {buffer : LineBuffer} (settled : buffer.Settled) (maximum : Nat) :
    (buffer.pushByte 10 maximum).2 = {} := by
  rcases buffer with ⟨bytes, truncated, swallowLineFeed⟩
  cases swallowLineFeed with
  | true =>
      rcases settled rfl with ⟨empty, whole⟩
      dsimp only at empty whole
      subst empty whole
      rfl
  | false => rfl

theorem pushByte_swallows {buffer : LineBuffer} {byte : UInt8} {maximum : Nat}
    (swallows : (buffer.pushByte byte maximum).2.swallowLineFeed = true) :
    Not ((buffer.pushByte byte maximum).1 = []) := by
  rw [pushByte] at swallows ⊢
  split at swallows
  · cases swallows
  · next plain =>
      rw [if_neg plain]
      split at swallows
      · next isReturn =>
          rw [if_pos isReturn]
          exact List.cons_ne_nil _ _
      · split at swallows
        · cases swallows
        · split at swallows <;> cases swallows

theorem push_singleton (buffer : LineBuffer) (byte : UInt8) (maximum : Nat) :
    buffer.push [byte] maximum = buffer.pushByte byte maximum := by
  rw [push, push, List.append_nil]

/-- A message that ends with a line feed gives a line, and leaves nothing. -/
theorem push_message (chunk : Bytes) (maximum : Nat) :
    (({} : LineBuffer).push (chunk ++ [10]) maximum).2 = {} /\
      Not ((({} : LineBuffer).push (chunk ++ [10]) maximum).1 = []) := by
  have settled : (({} : LineBuffer).push chunk maximum).2.Settled := settled_push maximum chunk nofun
  rw [push_append, push_singleton]
  constructor
  · exact pushByte_lineFeed settled maximum
  · dsimp only
    cases swallows : (({} : LineBuffer).push chunk maximum).2.swallowLineFeed with
    | false =>
        apply List.append_ne_nil_of_right_ne_nil
        rw [pushByte, swallows]
        exact List.cons_ne_nil _ _
    | true =>
        apply List.append_ne_nil_of_left_ne_nil
        rcases List.eq_nil_or_concat chunk with empty | ⟨front, last, same⟩
        · rw [empty] at swallows
          cases swallows
        · rw [same, List.concat_eq_append, push_append, push_singleton] at swallows ⊢
          exact List.append_ne_nil_of_right_ne_nil _ (pushByte_swallows swallows)

end LineBuffer

namespace LogEntry

theorem lines_ne_nil (entry : LogEntry Instant) (maximum : Nat) : Not (entry.lines maximum = []) :=
  (LineBuffer.push_message (entry.stamp ++ 32 :: entry.text) maximum).2

/-- A decoder that holds nothing makes the entry's lines of it, and holds nothing again. -/
theorem push_output (entry : LogEntry Instant) (maximum : Nat) :
    ({} : ConsoleOutputDecoder).push entry.output maximum = (entry.lines maximum, {}) := by
  have pushed : ({} : LineBuffer).push entry.message maximum = (entry.lines maximum, {}) := by
    apply Prod.ext
    · rfl
    · exact (LineBuffer.push_message (entry.stamp ++ 32 :: entry.text) maximum).1
  rw [output]
  cases entry.source with
  | stdOut => rw [ConsoleOutputDecoder.push, pushed]
  | stdErr => rw [ConsoleOutputDecoder.push, pushed]
  | console => rw [ConsoleOutputDecoder.push, pushed]

end LogEntry

/-- The lines of some entries, each with the number of its entry. -/
def pieces (maximum : Nat) (items : List (LogEntry Instant × Nat)) : List (Nat × Text) :=
  items.flatMap fun item => (item.1.lines maximum).map (Prod.mk item.2)

theorem pieces_append (maximum : Nat) (front back : List (LogEntry Instant × Nat)) :
    pieces maximum (front ++ back) = pieces maximum front ++ pieces maximum back :=
  List.flatMap_append

theorem mem_pieces {maximum : Nat} {items : List (LogEntry Instant × Nat)} {piece : Nat × Text} :
    piece ∈ pieces maximum items <->
      Exists fun item => item ∈ items /\ piece.1 = item.2 /\ piece.2 ∈ item.1.lines maximum := by
  rw [pieces, List.mem_flatMap]
  constructor
  · rintro ⟨item, member, inside⟩
    rcases List.mem_map.mp inside with ⟨raw, line, same⟩
    subst same
    exact ⟨item, member, rfl, line⟩
  · rintro ⟨item, member, number, line⟩
    refine ⟨item, member, List.mem_map.mpr ⟨piece.2, line, ?_⟩⟩
    rw [<- number]

/-- The numbers of the entries that some lines are of. -/
def entryNumbers (lines : List NumberedLine) : List (Option Nat) :=
  lines.map NumberedLine.entry

theorem entryNumbers_append (front back : List NumberedLine) :
    entryNumbers (front ++ back) = entryNumbers front ++ entryNumbers back :=
  List.map_append

theorem length_entryNumbers (lines : List NumberedLine) : (entryNumbers lines).length = lines.length :=
  List.length_map _

/-- What becomes of a line that is published. -/
def publication (chrono : Chrono Instant) (piece : Nat × Text) : NumberedLine :=
  ⟨some piece.1, (splitDockerTimestamp chrono piece.2).2⟩

/-- A line is kept as it is. -/
def keepLine (kept : List NumberedLine) (line : NumberedLine) : List NumberedLine :=
  kept ++ [line]

/-- A reader that keeps every line. -/
abbrev Kept (Instant : Type) :=
  ReadLoop Instant (List NumberedLine)

section Reading

variable [LinearOrder Instant]

/-- What an attachment makes of the lines that it reads. -/
def processAll (chrono : Chrono Instant) (cutoff : Cursor Instant) (reader : Kept Instant)
    (lines : List (Nat × Text)) : Kept Instant :=
  lines.foldl (fun later piece => processDockerLine keepLine chrono cutoff later (some piece.1) piece.2) reader

theorem readEntries_eq (chrono : Chrono Instant) (maximum : Nat) (cutoff : Cursor Instant)
    (items : List (LogEntry Instant × Nat)) : forall reader : Kept Instant,
    items.foldl (readEntry keepLine chrono maximum cutoff) (reader, {}) =
      (processAll chrono cutoff reader (pieces maximum items), {}) := by
  induction items with
  | nil => exact fun reader => rfl
  | cons item rest induction =>
      intro reader
      rw [List.foldl_cons, readEntry, LogEntry.push_output, induction]
      have split : pieces maximum (item :: rest) =
          (item.1.lines maximum).map (Prod.mk item.2) ++ pieces maximum rest := List.flatMap_cons
      rw [split, processAll, processAll, List.foldl_append, List.foldl_map]

/-- An attachment reads line by line; nothing is left in its decoder at the end. -/
theorem attach_eq (chrono : Chrono Instant) (maximum : Nat) (log : List (LogEntry Instant))
    (reader : Kept Instant) (attachment : Attachment) :
    attach keepLine chrono maximum log reader attachment =
      processAll chrono reader.cursor reader (pieces maximum
        ((followConsoleLogs chrono log (reader.cursor.cursor.map (dockerSinceTimestamp chrono))
          attachment.written).take attachment.delivered)) := by
  rw [attach, readEntries_eq]
  rfl

theorem processAll_append (chrono : Chrono Instant) (cutoff : Cursor Instant) (reader : Kept Instant)
    (front back : List (Nat × Text)) :
    processAll chrono cutoff reader (front ++ back) =
      processAll chrono cutoff (processAll chrono cutoff reader front) back :=
  List.foldl_append

/-- What is published is what is not known from before. -/
theorem sink_processAll (chrono : Chrono Instant) (cutoff : Cursor Instant) (lines : List (Nat × Text)) :
    forall reader : Kept Instant, (processAll chrono cutoff reader lines).sink =
      reader.sink ++
        (lines.filter fun piece => !isReplayed chrono cutoff piece.2).map (publication chrono) := by
  induction lines with
  | nil => exact fun reader => (List.append_nil _).symm
  | cons piece rest induction =>
      intro reader
      rw [processAll, List.foldl_cons, <- processAll, induction, processDockerLine]
      cases known : isReplayed chrono cutoff piece.2 with
      | true =>
          rw [if_pos rfl, List.filter_cons_of_neg]
          rw [known]
          nofun
      | false =>
          rw [if_neg nofun, List.filter_cons_of_pos, List.map_cons]
          · exact List.append_assoc _ _ _
          · rw [known]
            rfl

/-- Lines that are all known change nothing. -/
theorem processAll_of_known (chrono : Chrono Instant) {cutoff : Cursor Instant} {lines : List (Nat × Text)}
    (known : forall piece, piece ∈ lines -> isReplayed chrono cutoff piece.2 = true)
    (reader : Kept Instant) : processAll chrono cutoff reader lines = reader := by
  induction lines with
  | nil => rfl
  | cons piece rest induction =>
      rw [processAll, List.foldl_cons, processDockerLine, if_pos (known piece List.mem_cons_self)]
      exact induction fun other member => known other (List.mem_cons_of_mem piece member)

/-- A timestamp of some lines, and the latest one. -/
def IsLatest (chrono : Chrono Instant) (lines : List Text) (latest : Instant) : Prop :=
  IsGreatest { timestamp | Exists fun raw => raw ∈ lines /\
    (splitDockerTimestamp chrono raw).1 = some timestamp } latest

/-- A line can be known again from the latest timestamp of the lines seen and
from the texts that they have at that timestamp. -/
def Known (chrono : Chrono Instant) (seen : List Text) (latest : Instant) (raw : Text) : Prop :=
  Exists fun timestamp => Exists fun text => splitDockerTimestamp chrono raw = (some timestamp, text) /\
    (timestamp < latest \/ timestamp = latest /\
      Exists fun other => other ∈ seen /\ splitDockerTimestamp chrono other = (some timestamp, text))

/-- The memory of a reader is that of the lines it has seen. -/
structure Tracks (chrono : Chrono Instant) (cursor : Cursor Instant) (seen : List Text) : Prop where
  nothing : cursor.cursor = none -> forall raw, raw ∈ seen -> (splitDockerTimestamp chrono raw).1 = none
  latest : forall {latest}, cursor.cursor = some latest -> IsLatest chrono seen latest
  texts : forall {latest}, cursor.cursor = some latest -> forall text, text ∈ cursor.cursorLines <->
    Exists fun raw => raw ∈ seen /\ splitDockerTimestamp chrono raw = (some latest, text)

theorem tracks_nil (chrono : Chrono Instant) : Tracks chrono ({} : Cursor Instant) [] where
  nothing _ _ := nofun
  latest := nofun
  texts := nofun

theorem exists_mem_concat {seen : List Text} {raw : Text} {holds : Text -> Prop} :
    (Exists fun other => other ∈ seen ++ [raw] /\ holds other) <->
      (Exists fun other => other ∈ seen /\ holds other) \/ holds raw := by
  simp only [List.mem_append, List.mem_singleton, or_and_right, exists_or, exists_eq_left]

theorem IsLatest.concat {chrono : Chrono Instant} {seen : List Text} {latest timestamp : Instant}
    (isLatest : IsLatest chrono seen latest) {raw text : Text}
    (split : splitDockerTimestamp chrono raw = (some timestamp, text)) (within : timestamp <= latest) :
    IsLatest chrono (seen ++ [raw]) latest := by
  refine ⟨exists_mem_concat.mpr (Or.inl isLatest.1), ?_⟩
  intro before stamped
  rcases exists_mem_concat.mp stamped with old | new
  · exact isLatest.2 old
  · rw [split] at new
    cases new
    exact within

/-- A line without a timestamp is not remembered. -/
theorem Tracks.skip {chrono : Chrono Instant} {cursor : Cursor Instant} {seen : List Text}
    (tracks : Tracks chrono cursor seen) {raw : Text} (plain : (splitDockerTimestamp chrono raw).1 = none) :
    Tracks chrono cursor (seen ++ [raw]) where
  nothing empty other member := by
    rcases List.mem_append.mp member with old | new
    · exact tracks.nothing empty other old
    · rw [List.mem_singleton.mp new]
      exact plain
  latest {latest} found := by
    have before := tracks.latest found
    constructor
    · exact exists_mem_concat.mpr (Or.inl before.1)
    · intro timestamp held
      rcases exists_mem_concat.mp held with old | new
      · exact before.2 old
      · cases plain.symm.trans new
  texts {latest} found text := by
    rw [tracks.texts found, exists_mem_concat]
    constructor
    · exact Or.inl
    · rintro (old | new)
      · exact old
      · rw [new] at plain
        cases plain

/-- A line with a timestamp that is not before those of the others. -/
theorem Tracks.advance {chrono : Chrono Instant} {seen : List Text} {raw text : Text} {timestamp : Instant}
    (split : splitDockerTimestamp chrono raw = (some timestamp, text))
    (later : forall other, other ∈ seen -> forall before,
      (splitDockerTimestamp chrono other).1 = some before -> before < timestamp) :
    Tracks chrono { cursor := some timestamp, cursorLines := [text] } (seen ++ [raw]) where
  nothing := nofun
  latest found := by
    cases found
    constructor
    · exact exists_mem_concat.mpr (Or.inr (congrArg Prod.fst split))
    · intro before held
      rcases exists_mem_concat.mp held with ⟨other, member, stamp⟩ | new
      · exact (later other member before stamp).le
      · rw [split] at new
        cases new
        exact le_rfl
  texts found line := by
    cases found
    rw [List.mem_singleton, exists_mem_concat]
    constructor
    · intro same
      rw [same]
      exact Or.inr split
    · rintro (⟨other, member, stamp⟩ | new)
      · exact absurd (later other member timestamp (congrArg Prod.fst stamp)) (lt_irrefl timestamp)
      · cases split.symm.trans new
        rfl

theorem Tracks.note {chrono : Chrono Instant} {cursor : Cursor Instant} {seen : List Text}
    (tracks : Tracks chrono cursor seen) (raw : Text) :
    Tracks chrono (cursor.note (splitDockerTimestamp chrono raw).1 (splitDockerTimestamp chrono raw).2)
      (seen ++ [raw]) := by
  rcases split : splitDockerTimestamp chrono raw with ⟨stamp, text⟩
  cases stamp with
  | none =>
      rw [Cursor.note]
      exact tracks.skip (congrArg Prod.fst split)
  | some timestamp =>
      cases found : cursor.cursor with
      | none =>
          simp only [Cursor.note, found]
          apply Tracks.advance split
          intro other member before stamp
          cases (tracks.nothing found other member).symm.trans stamp
      | some current =>
          have latest := tracks.latest found
          simp only [Cursor.note, found]
          split
          · next earlier =>
              refine ⟨fun empty => ?_, fun {time} held => ?_, fun {time} held line => ?_⟩
              · cases found.symm.trans empty
              · cases found.symm.trans held
                exact latest.concat split earlier.le
              · cases found.symm.trans held
                rw [tracks.texts found, exists_mem_concat]
                constructor
                · exact Or.inl
                · rintro (old | new)
                  · exact old
                  · cases split.symm.trans new
                    exact absurd earlier (lt_irrefl timestamp)
          · next notEarlier =>
              split
              · next same =>
                  subst same
                  refine ⟨nofun, fun {time} held => ?_, fun {time} held line => ?_⟩
                  · cases held
                    exact latest.concat split le_rfl
                  · cases held
                    rw [List.mem_insert_iff, tracks.texts found, exists_mem_concat, split]
                    constructor
                    · rintro (new | old)
                      · rw [new]
                        exact Or.inr rfl
                      · exact Or.inl old
                    · rintro (old | new)
                      · exact Or.inr old
                      · cases new
                        exact Or.inl rfl
              · next different =>
                  apply Tracks.advance split
                  intro other member before stamp
                  have within : before <= current := latest.2 ⟨other, member, stamp⟩
                  exact within.trans_lt (lt_of_le_of_ne (not_lt.mp notEarlier) (Ne.symm different))

theorem isReplayed_iff {chrono : Chrono Instant} {cursor : Cursor Instant} {seen : List Text}
    (tracks : Tracks chrono cursor seen) {latest : Instant} (found : cursor.cursor = some latest) (raw : Text) :
    isReplayed chrono cursor raw = true <-> Known chrono seen latest raw := by
  rw [isReplayed, found]
  rcases split : splitDockerTimestamp chrono raw with ⟨timestamp | timestamp, text⟩
  · constructor
    · intro impossible
      cases impossible
    · rintro ⟨_, _, same, _⟩
      cases split.symm.trans same
  · simp only [Bool.or_eq_true, Bool.and_eq_true, decide_eq_true_eq]
    constructor
    · rintro (early | ⟨same, inside⟩)
      · exact ⟨timestamp, text, split, Or.inl early⟩
      · subst same
        exact ⟨timestamp, text, split, Or.inr ⟨rfl, (tracks.texts found text).mp inside⟩⟩
    · rintro ⟨other, line, same, early | ⟨here, others⟩⟩
      · cases split.symm.trans same
        exact Or.inl early
      · cases split.symm.trans same
        subst here
        exact Or.inr ⟨rfl, (tracks.texts found text).mpr others⟩

/-- Lines of which none is known are all published and remembered. -/
theorem processAll_of_new {chrono : Chrono Instant} {cutoff : Cursor Instant} (lines : List (Nat × Text)) :
    forall {reader : Kept Instant} {seen : List Text}, Tracks chrono reader.cursor seen ->
      (forall piece, piece ∈ lines -> isReplayed chrono cutoff piece.2 = false) ->
      (processAll chrono cutoff reader lines).sink =
          reader.sink ++ lines.map (publication chrono) /\
        Tracks chrono (processAll chrono cutoff reader lines).cursor (seen ++ lines.map Prod.snd) := by
  induction lines with
  | nil =>
      intro reader seen tracks _
      rw [List.map_nil, List.map_nil, List.append_nil, List.append_nil]
      exact ⟨rfl, tracks⟩
  | cons piece rest induction =>
      intro reader seen tracks new
      have first : processDockerLine keepLine chrono cutoff reader (some piece.1) piece.2 =
          { cursor := reader.cursor.note (splitDockerTimestamp chrono piece.2).1
              (splitDockerTimestamp chrono piece.2).2
            sink := reader.sink ++ [publication chrono piece] } := by
        rw [processDockerLine, new piece List.mem_cons_self, if_neg nofun]
        rfl
      have later := @induction
        { cursor := reader.cursor.note (splitDockerTimestamp chrono piece.2).1
            (splitDockerTimestamp chrono piece.2).2
          sink := reader.sink ++ [publication chrono piece] } _
        (tracks.note piece.2) fun other member => new other (List.mem_cons_of_mem piece member)
      have split : processAll chrono cutoff reader (piece :: rest) =
          processAll chrono cutoff (processDockerLine keepLine chrono cutoff reader (some piece.1) piece.2) rest := rfl
      rw [split, first, List.map_cons, List.map_cons]
      rw [List.append_assoc, List.append_assoc] at later
      exact later

end Reading

/-- The lines of some entries. -/
def rawLines (maximum : Nat) (entries : List (LogEntry Instant)) : List Text :=
  entries.flatMap fun entry => entry.lines maximum

theorem pieces_snd (maximum : Nat) (items : List (LogEntry Instant × Nat)) :
    (pieces maximum items).map Prod.snd = rawLines maximum (items.map Prod.fst) := by
  rw [pieces, List.map_flatMap, rawLines, List.flatMap_map]
  congr
  funext item
  rw [List.map_map]
  exact List.map_id _

/-- Lines are published with the numbers of their entries. -/
theorem entry_of_publication {chrono : Chrono Instant} {maximum : Nat}
    {items : List (LogEntry Instant × Nat)} {line : NumberedLine}
    (member : line ∈ (pieces maximum items).map (publication chrono)) :
    Exists fun item => item ∈ items /\ line.entry = some item.2 := by
  rcases List.mem_map.mp member with ⟨piece, inside, same⟩
  rcases mem_pieces.mp inside with ⟨item, itemInside, number, _⟩
  refine ⟨item, itemInside, ?_⟩
  rw [<- same, publication, number]

/-- Where lines of entries before a number and others together are those of the
entries from the number on, there are none of the former. -/
theorem none_of_entries_before {chrono : Chrono Instant} {maximum number : Nat}
    {unseen : List (LogEntry Instant)} {items : List (LogEntry Instant × Nat)} {lines : List (Nat × Text)}
    {back : List (Option Nat)} (before : forall item, item ∈ items -> item.2 < number)
    (within : forall piece, piece ∈ lines -> piece ∈ pieces maximum items)
    (same : entryNumbers (lines.map (publication chrono)) ++ back =
      entryNumbers ((pieces maximum (unseen.zipIdx number)).map (publication chrono))) : lines = [] := by
  cases lines with
  | nil => rfl
  | cons piece rest =>
      have member : some piece.1 ∈
          entryNumbers ((pieces maximum (unseen.zipIdx number)).map (publication chrono)) := by
        rw [<- same]
        exact List.mem_append_left _ List.mem_cons_self
      rcases List.mem_map.mp member with ⟨line, lineInside, entry⟩
      rcases entry_of_publication lineInside with ⟨item, inside, published⟩
      rcases mem_pieces.mp (within piece List.mem_cons_self) with ⟨early, earlyInside, earlyNumber, _⟩
      have late := List.le_snd_of_mem_zipIdx inside
      have soon := before early earlyInside
      rw [entry, earlyNumber] at published
      have equal := Option.some.inj published
      omega

/-- Where what is delivered of entries before a number and behind it comes to the
lines of the entries from the number on, all lines of the former are known, and
as many of the latter are not as there are. -/
theorem pieces_once {chrono : Chrono Instant} {maximum number : Nat} {known : Text -> Bool}
    {front back : List (LogEntry Instant × Nat)} {unseen : List (LogEntry Instant)}
    (before : forall item, item ∈ front -> item.2 < number)
    (once : entryNumbers
        (((pieces maximum (front ++ back)).filter fun piece => !known piece.2).map (publication chrono)) =
      entryNumbers ((pieces maximum (unseen.zipIdx number)).map (publication chrono))) :
    (forall item, item ∈ front -> forall raw, raw ∈ item.1.lines maximum -> known raw = true) /\
      ((pieces maximum back).filter fun piece => !known piece.2).length =
        (pieces maximum (unseen.zipIdx number)).length := by
  rw [pieces_append, List.filter_append, List.map_append, entryNumbers_append] at once
  have nothing := none_of_entries_before before (fun piece member => (List.mem_filter.mp member).1) once
  constructor
  · intro item member raw line
    have kept := List.filter_eq_nil_iff.mp nothing (item.2, raw) (mem_pieces.mpr ⟨item, member, rfl, line⟩)
    rw [Bool.not_eq_true', Bool.not_eq_false] at kept
    exact kept
  · rw [nothing, List.map_nil, entryNumbers, List.map_nil, List.nil_append] at once
    have same := congrArg List.length once
    rwa [length_entryNumbers, length_entryNumbers, List.length_map, List.length_map] at same

/-- Entries of which the lines of none may be left out are all there. -/
theorem filter_of_pieces {maximum : Nat} {entries : List (LogEntry Instant)} {start : Nat}
    {keep : LogEntry Instant × Nat -> Bool}
    (same : pieces maximum ((entries.zipIdx start).filter keep) = pieces maximum (entries.zipIdx start))
    {item : LogEntry Instant × Nat} (member : item ∈ entries.zipIdx start) : keep item = true := by
  cases line : item.1.lines maximum with
  | nil => exact absurd line (item.1.lines_ne_nil maximum)
  | cons raw rest =>
      have piece : (item.2, raw) ∈ pieces maximum (entries.zipIdx start) :=
        mem_pieces.mpr ⟨item, member, rfl, by rw [line]; exact List.mem_cons_self⟩
      rw [<- same] at piece
      rcases mem_pieces.mp piece with ⟨other, kept, number, _⟩
      rcases List.mem_filter.mp kept with ⟨inside, keeps⟩
      have one := (List.mem_zipIdx_iff_le_and_getElem?_sub.mp member).2
      have two := (List.mem_zipIdx_iff_le_and_getElem?_sub.mp inside).2
      dsimp only at number
      rw [<- number, one] at two
      have equal : item = other := Prod.ext (Option.some.inj two) number
      rw [equal]
      exact keeps

/-- Where no line is missing, every entry is delivered and none of its lines is known. -/
theorem new_of_length {maximum start : Nat} {entries : List (LogEntry Instant)}
    {keep : LogEntry Instant × Nat -> Bool} {known : Text -> Bool}
    (all : ((pieces maximum ((entries.zipIdx start).filter keep)).filter fun piece => !known piece.2).length =
      (pieces maximum (entries.zipIdx start)).length) :
    forall item, item ∈ entries.zipIdx start ->
      keep item = true /\ forall raw, raw ∈ item.1.lines maximum -> known raw = false := by
  have part : List.Sublist (pieces maximum ((entries.zipIdx start).filter keep))
      (pieces maximum (entries.zipIdx start)) := List.filter_sublist.flatMap _
  have fewer := List.length_filter_le (fun piece : Nat × Text => !known piece.2)
    (pieces maximum ((entries.zipIdx start).filter keep))
  have same := part.eq_of_length_le (by omega)
  rw [same] at all
  have news := List.length_filter_eq_length_iff.mp all
  intro item member
  refine ⟨filter_of_pieces same member, ?_⟩
  intro raw line
  have new := news (item.2, raw) (mem_pieces.mpr ⟨item, member, rfl, line⟩)
  rwa [Bool.not_eq_true'] at new

theorem forall_of_zipIdx {holds : LogEntry Instant -> Prop} {entries : List (LogEntry Instant)} (start : Nat)
    (all : forall item, item ∈ entries.zipIdx start -> holds item.1) :
    forall entry, entry ∈ entries -> holds entry := by
  intro entry member
  rw [<- List.zipIdx_map_fst start entries] at member
  rcases List.mem_map.mp member with ⟨item, inside, same⟩
  rw [<- same]
  exact all item inside

section Resuming

variable [LinearOrder Instant]

/-- Where the log can be taken up again: the lines seen have a latest timestamp;
what Docker delivers of the entries before, from that second on, is known from
it; what was not seen is delivered, and not known. -/
def Resumes (chrono : Chrono Instant) (maximum : Nat) (older seen unseen : List (LogEntry Instant)) : Prop :=
  Exists fun latest => IsLatest chrono (rawLines maximum seen) latest /\
    (forall entry, entry ∈ older ++ seen ->
      dockerSinceTimestamp chrono latest <= chrono.timestamp entry.time ->
      forall raw, raw ∈ entry.lines maximum -> Known chrono (rawLines maximum seen) latest raw) /\
    forall entry, entry ∈ unseen -> dockerSinceTimestamp chrono latest <= chrono.timestamp entry.time /\
      forall raw, raw ∈ entry.lines maximum -> Not (Known chrono (rawLines maximum seen) latest raw)

/-- The log can be taken up again between any two entries, wherever the first
attachment begins: at the front, or 200 entries or more before the end. -/
def Resumable (chrono : Chrono Instant) (maximum : Nat) (log : List (LogEntry Instant)) : Prop :=
  forall older seen unseen, log = older ++ seen ++ unseen ->
    (older = [] \/ older.length + 200 <= log.length) -> Not (seen = []) ->
      Resumes chrono maximum older seen unseen

/-- A reader that has published the lines of some entries and nothing else. -/
structure HasRead (chrono : Chrono Instant) (maximum : Nat) (reader : Kept Instant)
    (items : List (LogEntry Instant × Nat)) : Prop where
  kept : reader.sink = (pieces maximum items).map (publication chrono)
  tracks : Tracks chrono reader.cursor (rawLines maximum (items.map Prod.fst))

/-- A reader that reads on. -/
theorem HasRead.more {chrono : Chrono Instant} {maximum : Nat} {reader : Kept Instant}
    {items more : List (LogEntry Instant × Nat)} (hasRead : HasRead chrono maximum reader items)
    {cutoff : Cursor Instant}
    (new : forall piece, piece ∈ pieces maximum more -> isReplayed chrono cutoff piece.2 = false) :
    HasRead chrono maximum (processAll chrono cutoff reader (pieces maximum more)) (items ++ more) := by
  rcases processAll_of_new (pieces maximum more) hasRead.tracks new with ⟨published, tracks⟩
  constructor
  · rw [published, hasRead.kept, pieces_append, List.map_append]
  · rw [pieces_snd] at tracks
    rw [List.map_append, rawLines, List.flatMap_append]
    exact tracks

theorem hasRead_nil (chrono : Chrono Instant) (maximum : Nat) :
    HasRead chrono maximum ({ sink := [] } : Kept Instant) [] :=
  ⟨rfl, tracks_nil chrono⟩

/-- The first attachment publishes what it reads. -/
theorem hasRead_first (chrono : Chrono Instant) (maximum : Nat) (log : List (LogEntry Instant))
    (attachment : Attachment) :
    HasRead chrono maximum (attach keepLine chrono maximum log { sink := [] } attachment)
      ((log.zipIdx.drop (attachment.written - 200)).take attachment.delivered) := by
  rw [attach_eq]
  apply (hasRead_nil chrono maximum).more
  intro piece _
  rw [isReplayed]
  split
  · next impossible => cases impossible
  · rfl

/-- A later attachment goes on where the log can be taken up again. -/
theorem hasRead_again {chrono : Chrono Instant} {maximum : Nat} {log : List (LogEntry Instant)}
    {reader : Kept Instant} {older seen unseen : List (LogEntry Instant × Nat)}
    (hasRead : HasRead chrono maximum reader seen) (whole : log.zipIdx = older ++ seen ++ unseen)
    (resumes : Resumes chrono maximum (older.map Prod.fst) (seen.map Prod.fst) (unseen.map Prod.fst))
    (attachment : Attachment) :
    Exists fun more => HasRead chrono maximum (attach keepLine chrono maximum log reader attachment)
        (seen ++ unseen.take more) /\
      (log.length <= attachment.delivered -> unseen.length <= more) := by
  rcases resumes with ⟨latest, isLatest, before, behind⟩
  have current : reader.cursor.cursor = some latest := by
    cases found : reader.cursor.cursor with
    | none =>
        rcases isLatest.1 with ⟨raw, member, stamp⟩
        cases (hasRead.tracks.nothing found raw member).symm.trans stamp
    | some time => rw [IsGreatest.unique (hasRead.tracks.latest found) isLatest]
  have replayed := fun raw => isReplayed_iff hasRead.tracks current raw
  have delivered : followConsoleLogs chrono log
      (reader.cursor.cursor.map (dockerSinceTimestamp chrono)) attachment.written =
        ((older ++ seen).filter fun item =>
          dockerSinceTimestamp chrono latest <= chrono.timestamp item.1.time) ++ unseen := by
    rw [current, Option.map_some, followConsoleLogs, whole, List.filter_append]
    congr 1
    rw [List.filter_eq_self]
    intro item member
    exact decide_eq_true (behind item.1 (List.mem_map_of_mem member)).1
  have old : forall piece, piece ∈ pieces maximum (((older ++ seen).filter fun item =>
      dockerSinceTimestamp chrono latest <= chrono.timestamp item.1.time).take attachment.delivered) ->
        isReplayed chrono reader.cursor piece.2 = true := by
    intro piece member
    rcases mem_pieces.mp member with ⟨item, inside, _, line⟩
    rcases List.mem_filter.mp (List.mem_of_mem_take inside) with ⟨earlier, second⟩
    rw [replayed]
    apply before item.1
    · rw [<- List.map_append]
      exact List.mem_map_of_mem earlier
    · exact of_decide_eq_true second
    · exact line
  rw [attach_eq, delivered, List.take_append, pieces_append, processAll_append,
    processAll_of_known chrono old]
  refine ⟨_, hasRead.more ?_, ?_⟩
  · intro piece member
    rcases mem_pieces.mp member with ⟨item, inside, _, line⟩
    have new := (behind item.1 (List.mem_map_of_mem (List.mem_of_mem_take inside))).2 piece.2 line
    exact Bool.eq_false_iff.mpr fun known => new ((replayed piece.2).mp known)
  · intro enough
    have counted : log.length = (older ++ seen).length + unseen.length := by
      rw [<- List.length_zipIdx, whole, List.length_append]
    have fewer := List.length_filter_le
      (fun item : LogEntry Instant × Nat =>
        decide (dockerSinceTimestamp chrono latest <= chrono.timestamp item.1.time)) (older ++ seen)
    omega

/-- Where a reader stands between two attachments. -/
def Amid (chrono : Chrono Instant) (maximum : Nat) (log : List (LogEntry Instant)) (start : Nat)
    (reader : Kept Instant) : Prop :=
  Exists fun seen => Exists fun unseen => log.zipIdx.drop start = seen ++ unseen /\
    Not (seen = []) /\ HasRead chrono maximum reader seen

/-- Another attachment goes on, and one that delivers everything ends the log. -/
theorem Amid.attach {chrono : Chrono Instant} {maximum written : Nat} {log : List (LogEntry Instant)}
    (resumable : Resumable chrono maximum log) (within : written <= log.length) {reader : Kept Instant}
    (amid : Amid chrono maximum log (written - 200) reader) (attachment : Attachment) :
    Amid chrono maximum log (written - 200) (attach keepLine chrono maximum log reader attachment) /\
      (log.length <= attachment.delivered ->
        HasRead chrono maximum (attach keepLine chrono maximum log reader attachment)
          (log.zipIdx.drop (written - 200))) := by
  rcases amid with ⟨seen, unseen, visible, nonempty, hasRead⟩
  have whole : log.zipIdx = log.zipIdx.take (written - 200) ++ seen ++ unseen := by
    rw [List.append_assoc, <- visible, List.take_append_drop]
  have entries : log = (log.zipIdx.take (written - 200)).map Prod.fst ++ seen.map Prod.fst ++
      unseen.map Prod.fst := by
    rw [<- List.map_append, <- List.map_append, <- whole, List.zipIdx_map_fst]
  have older : (log.zipIdx.take (written - 200)).map Prod.fst = [] \/
      ((log.zipIdx.take (written - 200)).map Prod.fst).length + 200 <= log.length := by
    rw [List.length_map, List.length_take, List.length_zipIdx]
    by_cases few : written - 200 = 0
    · left
      rw [few]
      rfl
    · right
      omega
  have resumes := resumable _ _ _ entries older fun empty => nonempty (List.map_eq_nil_iff.mp empty)
  rcases hasRead_again hasRead whole resumes attachment with ⟨more, later, enough⟩
  refine ⟨⟨_, unseen.drop more, ?_, List.append_ne_nil_of_left_ne_nil nonempty _, later⟩, ?_⟩
  · rw [List.append_assoc, List.take_append_drop]
    exact visible
  · intro all
    rw [List.take_of_length_le (enough all), <- visible] at later
    exact later

theorem amid_attachments {chrono : Chrono Instant} {maximum written : Nat} {log : List (LogEntry Instant)}
    (resumable : Resumable chrono maximum log) (within : written <= log.length) (middle : List Attachment) :
    forall {reader : Kept Instant}, Amid chrono maximum log (written - 200) reader ->
      Amid chrono maximum log (written - 200) (middle.foldl (attach keepLine chrono maximum log) reader) := by
  induction middle with
  | nil => exact fun amid => amid
  | cons attachment rest induction =>
      intro reader amid
      exact induction (amid.attach resumable within attachment).1

theorem readLoop_nil (chrono : Chrono Instant) (maximum : Nat) (attachments : List Attachment) :
    readLoop keepLine chrono maximum [] [] attachments = { sink := [] } := by
  have idle : forall (reader : Kept Instant) attachment,
      attach keepLine chrono maximum [] reader attachment = reader := by
    intro reader attachment
    rw [attach_eq]
    cases reader.cursor.cursor with
    | none =>
        rw [Option.map_none, followConsoleLogs, List.zipIdx_nil, List.drop_nil, List.take_nil]
        rfl
    | some latest =>
        rw [Option.map_some, followConsoleLogs, List.zipIdx_nil, List.filter_nil, List.take_nil]
        rfl
  rw [readLoop]
  induction attachments with
  | nil => rfl
  | cons attachment rest induction => rw [List.foldl_cons, idle, induction]

/-- One attachment publishes every line that it is given. -/
theorem readLoop_single (chrono : Chrono Instant) (maximum written : Nat) (log : List (LogEntry Instant)) :
    HasRead chrono maximum (readLoop keepLine chrono maximum log [] [⟨written, log.length⟩])
      (log.zipIdx.drop (written - 200)) := by
  have first := hasRead_first chrono maximum log ⟨written, log.length⟩
  rw [List.take_of_length_le] at first
  · exact first
  · rw [List.length_drop, List.length_zipIdx]
    exact Nat.sub_le _ _

/-- However often the reader attaches again after the first entry, it keeps every
line once and in order. -/
theorem kept_of_resumable {chrono : Chrono Instant} {maximum : Nat} {log : List (LogEntry Instant)}
    (resumable : Resumable chrono maximum log) {written first : Nat} (within : written <= log.length)
    (positive : 0 < first) (middle : List Attachment) {last : Attachment}
    (all : log.length <= last.delivered) :
    (readLoop keepLine chrono maximum log [] (⟨written, first⟩ :: (middle ++ [last]))).sink =
      (pieces maximum (log.zipIdx.drop (written - 200))).map (publication chrono) := by
  by_cases empty : log = []
  · rw [empty, readLoop_nil, List.zipIdx_nil, List.drop_nil]
    rfl
  · have length : 0 < log.length := List.length_pos_iff.mpr empty
    have amid : Amid chrono maximum log (written - 200)
        (attach keepLine chrono maximum log { sink := [] } ⟨written, first⟩) := by
      refine ⟨_, _, (List.take_append_drop first _).symm, ?_, hasRead_first chrono maximum log _⟩
      intro none
      rcases List.take_eq_nil_iff.mp none with zero | isOver
      · omega
      · have past := List.drop_eq_nil_iff.mp isOver
        rw [List.length_zipIdx] at past
        omega
    have ended := (amid_attachments resumable within middle amid).attach resumable within last
    have reached : readLoop keepLine chrono maximum log [] (⟨written, first⟩ :: (middle ++ [last])) =
        attach keepLine chrono maximum log (middle.foldl (attach keepLine chrono maximum log)
          (attach keepLine chrono maximum log { sink := [] } ⟨written, first⟩)) last := by
      rw [readLoop, List.foldl_cons, List.foldl_append]
      rfl
    rw [reached, (ended.2 all).kept]

theorem isReplayed_none {chrono : Chrono Instant} {cutoff : Cursor Instant} (found : cutoff.cursor = none)
    (raw : Text) : isReplayed chrono cutoff raw = false := by
  rw [isReplayed, found]
  split
  · next impossible => cases impossible
  · rfl

/-- When a second attachment repeats and drops nothing, the log can be taken up again there. -/
theorem resumes_of_entries {chrono : Chrono Instant} {maximum : Nat}
    {older seen unseen : List (LogEntry Instant)} (nonempty : Not (seen = [])) {reader : Kept Instant}
    (hasRead : HasRead chrono maximum reader (seen.zipIdx older.length))
    (once : entryNumbers (attach keepLine chrono maximum (older ++ seen ++ unseen) reader
        ⟨older.length + seen.length, (older ++ seen ++ unseen).length⟩).sink =
      entryNumbers (reader.sink ++ (pieces maximum
        (unseen.zipIdx (older.length + seen.length))).map (publication chrono))) :
    Resumes chrono maximum older seen unseen := by
  have numbered : (older ++ seen ++ unseen).zipIdx =
      (older ++ seen).zipIdx ++ unseen.zipIdx (older.length + seen.length) := by
    rw [List.zipIdx_append, List.length_append, Nat.zero_add]
  have positive : 0 < seen.length := List.length_pos_iff.mpr nonempty
  have early : forall item, item ∈ (older ++ seen).zipIdx -> item.2 < older.length + seen.length := by
    intro item member
    have below := List.snd_lt_of_mem_zipIdx member
    rwa [List.length_append] at below
  rw [attach_eq, sink_processAll, entryNumbers_append, entryNumbers_append] at once
  have again := List.append_cancel_left once
  cases found : reader.cursor.cursor with
  | none =>
      -- The last entry seen is delivered again, and no line of it is known.
      have left : Not ((older ++ seen).zipIdx.drop (older.length + seen.length - 200) = []) := by
        intro isOver
        have past := List.drop_eq_nil_iff.mp isOver
        rw [List.length_zipIdx, List.length_append] at past
        omega
      have short : older.length + seen.length - 200 <= (older ++ seen).zipIdx.length := by
        rw [List.length_zipIdx, List.length_append]
        exact Nat.sub_le _ _
      rw [found, Option.map_none, followConsoleLogs, numbered, List.drop_append_of_le_length short,
        List.take_of_length_le] at again
      · have known := (pieces_once (fun item member => early item (List.mem_of_mem_drop member)) again).1
        rcases List.exists_mem_of_ne_nil _ left with ⟨item, member⟩
        rcases List.exists_mem_of_ne_nil _ (item.1.lines_ne_nil maximum) with ⟨raw, line⟩
        cases (isReplayed_none found raw).symm.trans (known item member raw line)
      · simp only [List.length_append, List.length_drop, List.length_zipIdx]
        omega
  | some latest =>
      have isLatest := hasRead.tracks.latest found
      have replayed := fun raw => isReplayed_iff hasRead.tracks found raw
      rw [List.zipIdx_map_fst] at isLatest
      simp only [List.zipIdx_map_fst] at replayed
      rw [found, Option.map_some, followConsoleLogs, numbered, List.filter_append, List.take_of_length_le] at again
      · rcases pieces_once (fun item member => early item (List.mem_filter.mp member).1) again with ⟨known, all⟩
        refine ⟨latest, isLatest, forall_of_zipIdx 0 ?_, forall_of_zipIdx (older.length + seen.length) ?_⟩
        · intro item inside second raw line
          exact (replayed raw).mp (known item (List.mem_filter.mpr ⟨inside, decide_eq_true second⟩) raw line)
        · intro item inside
          rcases new_of_length all item inside with ⟨delivered, new⟩
          refine ⟨of_decide_eq_true delivered, ?_⟩
          intro raw line isKnown
          cases ((replayed raw).mpr isKnown).symm.trans (new raw line)
      · rw [<- List.filter_append, <- numbered]
        exact (List.length_filter_le _ _).trans_eq List.length_zipIdx

/-- A reader that keeps every line once and in order, wherever it has to attach
again, can take the log up again anywhere. -/
theorem resumable_of_entries {chrono : Chrono Instant} {maximum : Nat} {log : List (LogEntry Instant)}
    (once : forall (written first : Nat) (middle : List Attachment) (last : Attachment),
      written <= log.length -> 0 < first -> log.length <= last.delivered ->
        entryNumbers (readLoop keepLine chrono maximum log [] (⟨written, first⟩ :: (middle ++ [last]))).sink =
          entryNumbers ((pieces maximum (log.zipIdx.drop (written - 200))).map (publication chrono))) :
    Resumable chrono maximum log := by
  intro older seen unseen same begins nonempty
  subst same
  have positive : 0 < seen.length := List.length_pos_iff.mpr nonempty
  have start : Exists fun written => written <= (older ++ seen ++ unseen).length /\
      written - 200 = older.length := by
    rcases begins with none | many
    · exact ⟨0, Nat.zero_le _, by rw [none]; rfl⟩
    · exact ⟨older.length + 200, many, Nat.add_sub_cancel _ _⟩
  rcases start with ⟨written, within, cut⟩
  have visible : (older ++ seen ++ unseen).zipIdx.drop (written - 200) =
      seen.zipIdx older.length ++ unseen.zipIdx (older.length + seen.length) := by
    rw [cut, List.append_assoc, List.zipIdx_append, List.zipIdx_append, Nat.zero_add]
    exact List.drop_left' (List.length_zipIdx)
  have first := hasRead_first chrono maximum (older ++ seen ++ unseen) ⟨written, seen.length⟩
  rw [visible, List.take_left' (List.length_zipIdx)] at first
  have again := once written seen.length []
    ⟨older.length + seen.length, (older ++ seen ++ unseen).length⟩ within positive le_rfl
  apply resumes_of_entries nonempty first
  rw [visible, pieces_append, List.map_append, <- first.kept] at again
  exact again

/-- A log of which every line carries the time of its entry, with times that
increase, can be taken up again anywhere. -/
theorem resumable_of_increasing {chrono : Chrono Instant} {maximum : Nat} {log : List (LogEntry Instant)}
    (monotone : forall one other, one <= other -> chrono.timestamp one <= chrono.timestamp other)
    (positive : forall entry, entry ∈ log -> 0 <= chrono.timestamp entry.time)
    (carried : forall entry, entry ∈ log -> forall raw, raw ∈ entry.lines maximum ->
      (splitDockerTimestamp chrono raw).1 = some entry.time)
    (increasing : log.Pairwise fun earlier later => earlier.time < later.time) :
    Resumable chrono maximum log := by
  intro older seen unseen same _ nonempty
  rcases (List.eq_nil_or_concat seen).resolve_left nonempty with ⟨front, last, concat⟩
  rw [List.concat_eq_append] at concat
  subst concat same
  rw [<- List.append_assoc] at increasing
  have parts := List.pairwise_append.mp increasing
  have before := (List.pairwise_append.mp parts.1).2.2
  have inside : forall entry, entry ∈ older ++ front ++ [last] ->
      entry ∈ older ++ (front ++ [last]) ++ unseen := by
    intro entry member
    rw [<- List.append_assoc]
    exact List.mem_append_left unseen member
  have line := List.exists_mem_of_ne_nil _ (last.lines_ne_nil maximum)
  rcases line with ⟨raw, line⟩
  have ends : forall text, text ∈ last.lines maximum -> text ∈ rawLines maximum (front ++ [last]) := by
    intro text member
    exact List.mem_flatMap.mpr ⟨last, List.mem_append_right front List.mem_cons_self, member⟩
  have stamp := fun entry member => carried entry (inside entry member)
  have lastInside : last ∈ older ++ front ++ [last] := List.mem_append_right _ List.mem_cons_self
  refine ⟨last.time, ⟨⟨raw, ends raw line, stamp last lastInside raw line⟩, ?_⟩, ?_, ?_⟩
  · rintro time ⟨text, member, stamped⟩
    rcases List.mem_flatMap.mp member with ⟨entry, held, textInside⟩
    have whole : entry ∈ older ++ front ++ [last] := by
      rw [List.append_assoc]
      exact List.mem_append_right older held
    cases (stamp entry whole text textInside).symm.trans stamped
    rcases List.mem_append.mp held with early | here
    · exact (before entry (List.mem_append_right older early) last List.mem_cons_self).le
    · rw [List.mem_singleton.mp here]
  · intro entry member _ text textInside
    rw [<- List.append_assoc] at member
    have stamped := stamp entry member text textInside
    refine ⟨entry.time, (splitDockerTimestamp chrono text).2, Prod.ext stamped rfl, ?_⟩
    rcases List.mem_append.mp member with early | here
    · exact Or.inl (before entry early last List.mem_cons_self)
    · have same := List.mem_singleton.mp here
      subst same
      exact Or.inr ⟨rfl, text, ends text textInside, Prod.ext stamped rfl⟩
  · intro entry member
    have later := parts.2.2 last lastInside entry member
    have whole : entry ∈ older ++ (front ++ [last]) ++ unseen := List.mem_append_right _ member
    constructor
    · rw [dockerSinceTimestamp]
      exact (min_le_left _ _).trans (max_le (monotone _ _ later.le) (positive entry whole))
    · rintro text textInside ⟨time, output, split, known⟩
      have stamped := carried entry whole text textInside
      rw [split] at stamped
      cases stamped
      rcases known with early | ⟨here, _⟩
      · exact absurd (early.trans later) (lt_irrefl _)
      · rw [here] at later
        exact absurd later (lt_irrefl _)

/-- What is promised of a log: Docker writes the times, which never decrease, no
two entries are the same, and a line feed ends each of them. -/
structure Logged (chrono : Chrono Instant) (log : List (LogEntry Instant)) : Prop where
  stamped : forall entry, entry ∈ log ->
    chrono.parseFromRfc3339 (fromUtf8Lossy entry.stamp) = some entry.time
  ordered : log.Pairwise fun earlier later => earlier.time <= later.time
  distinct : log.Pairwise fun earlier later =>
    Not (earlier.time = later.time /\ earlier.text = later.text)
  ended : forall entry, entry ∈ log -> 10 ∉ entry.text

end Resuming

end Console
end Agapornis
