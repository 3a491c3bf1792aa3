import Agapornis.Foundations.RunRecords
import Agapornis.Storage.Imports

namespace Agapornis
namespace Storage

open Foundations Agapornis.Core Temporaries

/-!
# A server's way from one node to another

What an export has sent is brought to the other node in the frames of an
import.  The import says what it does by its calls, and what its file holds
when that is unpacked by the parts it has written before.
-/

/-! ## What an import unpacks -/

/-- The names of the calls that an import makes. -/
def importTrace (describe : Errno -> String) (outcomes : TransferOutcomes) (frames : List ImportFrame) :
    List TransferStep :=
  (importServer describe frames).record (perform outcomes) (fun request _ => [request.name]) []

/-- The bytes that a call adds to the archive. -/
def writtenBytes (frames : List ImportFrame) : TransferStep -> Bytes
  | .writeChunk number =>
      match frames[number]? with
      | some (.ok (some (.chunkData chunk))) => chunk
      | _ => []
  | _ => []

def unpacks : TransferStep -> Bool
  | .extractBackups _ => true
  | .extractServer _ => true
  | _ => false

/-- The calls that unpack the archive, each with what it then holds. -/
def unpacked (frames : List ImportFrame) : Bytes -> List TransferStep -> List (TransferStep × Bytes)
  | _, [] => []
  | content, step :: rest =>
      (if unpacks step then [(step, content)] else []) ++
        unpacked frames (content ++ writtenBytes frames step) rest

/-- The bytes of the parts, in their order. -/
def importedBytes : List ImportFrame -> Bytes
  | .ok (some (.chunkData chunk)) :: rest => chunk ++ importedBytes rest
  | _ :: rest => importedBytes rest
  | [] => []

/-- The call that unpacks what the metadata announce. -/
def extractStep (metadata : ImportMetadata) : TransferStep :=
  if metadata.payload = TransferPayload.localBackups.number then .extractBackups metadata.serverId
  else .extractServer metadata.serverId

theorem receivedBytes_eq (frames : List ImportFrame) : receivedBytes frames = (importedBytes frames).length := by
  induction frames with
  | nil => rfl
  | cons frame rest induction =>
      cases frame with
      | error status => exact induction
      | ok data =>
          cases data with
          | none => exact induction
          | some data =>
              cases data with
              | metadata value => exact induction
              | chunkData chunk => rw [receivedBytes, importedBytes, List.length_append, induction]

theorem unpacked_append (frames : List ImportFrame) (front back : List TransferStep) : forall content : Bytes,
    unpacked frames content (front ++ back) =
      unpacked frames content front ++ unpacked frames (content ++ front.flatMap (writtenBytes frames)) back := by
  induction front with
  | nil =>
      intro content
      rw [List.flatMap_nil, List.append_nil]
      rfl
  | cons step rest induction =>
      intro content
      rw [List.cons_append, unpacked, induction, unpacked, List.flatMap_cons, List.append_assoc, List.append_assoc]

/-- Calls that unpack nothing. -/
theorem unpacked_nil (frames : List ImportFrame) {steps : List TransferStep}
    (none : forall step, step ∈ steps -> unpacks step = false) : forall content : Bytes,
    unpacked frames content steps = [] := by
  induction steps with
  | nil => exact fun _ => rfl
  | cons step rest induction =>
      intro content
      rw [unpacked, none step List.mem_cons_self, if_neg Bool.false_ne_true, List.nil_append]
      exact induction (fun other member => none other (List.mem_cons_of_mem _ member)) _

/-- The writes of frames that come behind others. -/
theorem writtenBytes_writeSteps (frames : List ImportFrame) : forall front : List ImportFrame,
    (writeSteps front.length frames).flatMap (writtenBytes (front ++ frames)) = importedBytes frames := by
  induction frames with
  | nil => exact fun _ => rfl
  | cons frame rest induction =>
      intro front
      have later := induction (front ++ [frame])
      rw [List.length_append, List.length_singleton, List.append_assoc, List.singleton_append] at later
      have here : (front ++ frame :: rest)[front.length]? = some frame := by
        rw [List.getElem?_append_right (Nat.le_refl _), Nat.sub_self, List.getElem?_cons_zero]
      cases frame with
      | error status => exact later
      | ok data =>
          cases data with
          | none => exact later
          | some data =>
              cases data with
              | metadata value => exact later
              | chunkData chunk =>
                  rw [writeSteps, List.flatMap_cons, later, importedBytes, writtenBytes, here]

section Trace

variable {describe : Errno -> String} {outcomes : TransferOutcomes}

/-- The names of the calls that a part of an import makes. -/
def names {Result : Type} (outcomes : TransferOutcomes) (program : TransferProgram Result)
    (objects : List TransferObject) : List TransferStep :=
  program.record (perform outcomes) (fun request _ => [request.name]) objects

theorem names_need {Later : Type} (request : TempCall TransferStep TransferObject)
    (later : Unit -> TransferProgram Later) (objects : List TransferObject) :
    names outcomes (need (internal describe) request >>= later) objects =
      request.name :: (match outcomes.fault request.name with
        | none => names outcomes (later ()) (request.effect objects)
        | some _ => []) := by
  unfold names need
  rw [Program.record_required_bind, Program.record_ask, Program.run_ask]
  unfold perform
  cases outcomes.fault request.name <;> rfl

theorem run_need {Later : Type} (request : TempCall TransferStep TransferObject)
    (later : Unit -> TransferProgram Later) (objects : List TransferObject)
    (succeeds : outcomes.fault request.name = none) :
    (need (internal describe) request >>= later).run (perform outcomes) objects =
      (later ()).run (perform outcomes) (request.effect objects) := by
  unfold need
  rw [Program.run_required_bind, Program.run_ask]
  unfold perform
  rw [succeeds]

theorem run_need_fails {Later : Type} (request : TempCall TransferStep TransferObject)
    (later : Unit -> TransferProgram Later) (objects : List TransferObject)
    (fails : Not (outcomes.fault request.name = none)) : Exists fun status =>
    ((need (internal describe) request >>= later).run (perform outcomes) objects).1 = .error status := by
  unfold need
  rw [Program.run_required_bind, Program.run_ask]
  unfold perform
  cases failing : outcomes.fault request.name with
  | none => exact absurd failing fails
  | some failure => exact ⟨_, rfl⟩

/-- The frames behind the metadata: all parts are written, or the import fails. -/
theorem chunks_run (metadata : ImportMetadata) (objects : List TransferObject) (frames : List ImportFrame) :
    forall (total : Int) (number : Nat),
      (ChunksOnly frames /\ Passes outcomes (writeSteps number frames) ->
        (Program.forEach (importFrame describe) ⟨some metadata, total, number⟩ frames).run (perform outcomes) objects =
            (.ok ⟨some metadata, total + receivedBytes frames, number + frames.length⟩, objects) /\
          names outcomes (Program.forEach (importFrame describe) ⟨some metadata, total, number⟩ frames) objects =
            writeSteps number frames) /\
      (Not (ChunksOnly frames /\ Passes outcomes (writeSteps number frames)) -> Exists fun status =>
        ((Program.forEach (importFrame describe) ⟨some metadata, total, number⟩ frames).run (perform outcomes)
          objects).1 = .error status) := by
  induction frames with
  | nil =>
      intro total number
      refine ⟨fun _ => ⟨?_, rfl⟩, fun refused => absurd ⟨trivial, passes_nil⟩ refused⟩
      have nothing : total + (receivedBytes [] : Nat) = total := Int.add_zero total
      rw [nothing]
      rfl
  | cons frame rest induction =>
      intro total number
      have numbers : number + (frame :: rest).length = number + 1 + rest.length := by
        rw [List.length_cons]
        omega
      rw [numbers]
      cases frame with
      | error status => exact ⟨fun all => absurd all.1 id, fun _ => ⟨status, rfl⟩⟩
      | ok data =>
          cases data with
          | none => exact induction total (number + 1)
          | some data =>
              cases data with
              | metadata value => exact ⟨fun all => absurd all.1 id, fun _ => ⟨_, rfl⟩⟩
              | chunkData chunk =>
                  have later := induction (total + chunk.length) (number + 1)
                  rw [Int.add_assoc] at later
                  have received : ((receivedBytes (.ok (some (.chunkData chunk)) :: rest) : Nat) : Int) =
                      (chunk.length : Int) + receivedBytes rest := Int.natCast_add _ _
                  have first : importFrame describe ⟨some metadata, total, number⟩ (.ok (some (.chunkData chunk))) =
                      need (internal describe) (.step (.writeChunk number)) >>= fun _ =>
                        Program.done ⟨some metadata, total + chunk.length, number + 1⟩ := by
                    rw [importFrame]
                    exact if_neg Bool.false_ne_true
                  have unrolled : Program.forEach (importFrame describe) ⟨some metadata, total, number⟩
                      (.ok (some (.chunkData chunk)) :: rest) =
                        need (internal describe) (.step (.writeChunk number)) >>= fun _ =>
                          Program.forEach (importFrame describe)
                            ⟨some metadata, total + chunk.length, number + 1⟩ rest := by
                    rw [Program.forEach, first]
                    exact Program.bind_assoc _ _ _
                  rw [unrolled, writeSteps, passes_cons, received, ChunksOnly]
                  constructor
                  · rintro ⟨chunks, written, passes⟩
                    rcases later.1 ⟨chunks, passes⟩ with ⟨ran, made⟩
                    rw [run_need _ _ _ written, names_need]
                    dsimp only [TempCall.name, TempCall.effect]
                    rw [written]
                    exact ⟨ran, congrArg (List.cons _) made⟩
                  · intro refused
                    by_cases written : outcomes.fault (.writeChunk number) = none
                    · rw [run_need _ _ _ written]
                      exact later.2 fun all => refused ⟨all.1, written, all.2⟩
                    · exact run_need_fails _ _ _ written

/-- The frames of an import: what is announced is written, or it fails, or nothing was announced. -/
theorem frames_run (objects : List TransferObject) (frames : List ImportFrame) : forall number : Nat,
    (forall metadata, MetadataFirst metadata frames /\ Passes outcomes (writeSteps number frames) ->
      (Program.forEach (importFrame describe) ⟨none, 0, number⟩ frames).run (perform outcomes) objects =
          (.ok ⟨some metadata, receivedBytes frames, number + frames.length⟩, objects) /\
        names outcomes (Program.forEach (importFrame describe) ⟨none, 0, number⟩ frames) objects =
          writeSteps number frames) /\
    (Not (Exists fun metadata => MetadataFirst metadata frames /\ Passes outcomes (writeSteps number frames)) ->
      forall state, ((Program.forEach (importFrame describe) ⟨none, 0, number⟩ frames).run (perform outcomes)
        objects).1 = .ok state -> state.metadata = none) := by
  induction frames with
  | nil => exact fun number => ⟨fun _ both => absurd both.1 id, fun _ _ same => by cases same; rfl⟩
  | cons frame rest induction =>
      intro number
      have numbers : number + (frame :: rest).length = number + 1 + rest.length := by
        rw [List.length_cons]
        omega
      rw [numbers]
      cases frame with
      | error status => exact ⟨fun _ both => absurd both.1 id, fun _ _ same => by cases same⟩
      | ok data =>
          cases data with
          | none => exact induction (number + 1)
          | some data =>
              cases data with
              | chunkData chunk => exact ⟨fun _ both => absurd both.1 id, fun _ _ same => by cases same⟩
              | metadata value =>
                  have parts := @chunks_run describe outcomes value objects rest 0 (number + 1)
                  rw [Int.zero_add] at parts
                  constructor
                  · rintro metadata ⟨⟨rfl, chunks⟩, passes⟩
                    exact parts.1 ⟨chunks, passes⟩
                  · intro never state ended
                    rcases parts.2 (fun all => never ⟨value, ⟨rfl, all.1⟩, all.2⟩) with ⟨status, failed⟩
                    cases failed.symm.trans ended

/-- What an import does when its frames are there. -/
def afterFrames (describe : Errno -> String) (state : ImportState) : TransferProgram ImportServerResponse := do
  need (internal describe) (.step .flush)
  let metadata <- Program.ofExcept (checkTransfer state.metadata state.total)
  let result <- unpackTransfer metadata state.total
  attempt (.discard .archive .removeTransfer)
  Program.done (importResponse describe result)

/-- An archive is unpacked when it is not empty. -/
def unpackSteps (metadata : ImportMetadata) (received : Nat) : List TransferStep :=
  if received = 0 then [.removeTransfer] else [extractStep metadata, .removeTransfer]

theorem names_afterFrames {metadata : ImportMetadata} {received : Nat} {frames : Nat}
    {objects : List TransferObject} :
    (SizeAccepted metadata received -> names outcomes (afterFrames describe ⟨some metadata, received, frames⟩) objects =
        .flush :: (if outcomes.fault .flush = none then unpackSteps metadata received else [])) /\
      (Not (SizeAccepted metadata received) ->
        names outcomes (afterFrames describe ⟨some metadata, received, frames⟩) objects = [.flush]) := by
  unfold afterFrames
  rw [names_need]
  dsimp only [TempCall.name]
  cases flushing : outcomes.fault .flush with
  | some failure => exact ⟨fun _ => rfl, fun _ => rfl⟩
  | none =>
      dsimp only
      constructor
      · intro accepted
        rw [checkTransfer_ok accepted, if_pos rfl]
        unfold unpackSteps unpackTransfer extractStep
        have zero : ((received : Int) = 0) = (received = 0) := propext Int.ofNat_eq_zero
        simp only [Program.ofExcept, Program.done_bind, zero]
        split
        · rfl
        · split <;> rfl
      · intro refused
        rcases checkTransfer_refused refused with ⟨status, failed⟩
        rw [failed]
        rfl

theorem names_afterFrames_unnamed {total : Int} {frames : Nat} {objects : List TransferObject} :
    names outcomes (afterFrames describe ⟨none, total, frames⟩) objects = [.flush] := by
  unfold afterFrames
  rw [names_need]
  dsimp only [TempCall.name]
  cases outcomes.fault .flush <;> rfl

/-- The frames themselves only write. -/
theorem names_frames (frames : List ImportFrame) (state : ImportState) (objects : List TransferObject) :
    forall step, step ∈ names outcomes (Program.forEach (importFrame describe) state frames) objects ->
      unpacks step = false := by
  have writes : (Program.forEach (importFrame describe) state frames).Only
      (fun request => unpacks request.name = false) := by
    apply Program.only_forEach
    intro state frame
    cases frame with
    | error status => trivial
    | ok data =>
        cases data with
        | none => trivial
        | some data =>
            cases data with
            | metadata value =>
                dsimp only [importFrame]
                split <;> trivial
            | chunkData chunk =>
                dsimp only [importFrame]
                split
                · trivial
                · exact Program.only_bind (only_need rfl) (fun _ => trivial)
  refine Program.forall_mem_record ?_ writes objects
  rintro request reply step plain member
  rw [List.mem_singleton.mp member]
  exact plain

theorem names_importServer (frames : List ImportFrame) (made : outcomes.fault .createTransfer = none) :
    importTrace describe outcomes frames =
      .createTransfer :: (names outcomes (Program.forEach (importFrame describe) ⟨none, 0, 0⟩ frames) [.archive] ++
        match (Program.forEach (importFrame describe) ⟨none, 0, 0⟩ frames).run (perform outcomes) [.archive] with
        | (.ok state, after) => names outcomes (afterFrames describe state) after
        | (.error _, _) => []) := by
  have shape : importServer describe frames =
      (need (internal describe) (.make .archive .createTransfer) >>= fun _ =>
        (Program.forEach (importFrame describe) ⟨none, 0, 0⟩ frames >>= afterFrames describe)) := rfl
  have whole : importTrace describe outcomes frames = names outcomes (importServer describe frames) [] := rfl
  rw [whole, shape, names_need]
  dsimp only [TempCall.name, TempCall.effect]
  rw [made]
  dsimp only
  congr 1
  refine (Program.record_bind _ _ _).trans ?_
  unfold names
  rcases (Program.forEach (importFrame describe) ⟨none, 0, 0⟩ frames).run (perform outcomes) [.archive] with
    ⟨_ | _, _⟩ <;> rfl

theorem importTrace_unmade (frames : List ImportFrame) (unmade : Not (outcomes.fault .createTransfer = none)) :
    importTrace describe outcomes frames = [.createTransfer] := by
  have whole : importTrace describe outcomes frames =
      names outcomes (need (internal describe) (.make .archive .createTransfer) >>= fun _ =>
        (Program.forEach (importFrame describe) ⟨none, 0, 0⟩ frames >>= afterFrames describe)) [] := rfl
  rw [whole, names_need]
  dsimp only [TempCall.name]
  cases failing : outcomes.fault .createTransfer with
  | none => exact absurd failing unmade
  | some failure => rfl

end Trace

/-- The frames bring what they announce, and it is collected. -/
structure Imported (outcomes : TransferOutcomes) (frames : List ImportFrame) (metadata : ImportMetadata) : Prop where
  order : MetadataFirst metadata frames
  size : SizeAccepted metadata (receivedBytes frames)
  filled : Not (receivedBytes frames = 0)
  made : outcomes.fault .createTransfer = none
  written : Passes outcomes (writeSteps 0 frames)
  flushed : outcomes.fault .flush = none

section Unpacked

variable (describe : Errno -> String) {outcomes : TransferOutcomes} {frames : List ImportFrame}

/-- What has come as it was announced is unpacked once, as it is. -/
theorem unpacked_imported {metadata : ImportMetadata} (imported : Imported outcomes frames metadata) :
    unpacked frames [] (importTrace describe outcomes frames) = [(extractStep metadata, importedBytes frames)] := by
  rcases (@frames_run describe outcomes [.archive] frames 0).1 metadata ⟨imported.order, imported.written⟩ with
    ⟨ran, made⟩
  have written := writtenBytes_writeSteps frames []
  rw [List.length_nil, List.nil_append] at written
  have quiet : forall step, step ∈ writeSteps 0 frames -> unpacks step = false := by
    rw [← made]
    exact names_frames frames _ _
  have last : unpacks (extractStep metadata) = true := by
    unfold extractStep
    split <;> rfl
  rw [names_importServer frames imported.made, made, ran]
  dsimp only
  rw [names_afterFrames.1 imported.size, if_pos imported.flushed, unpackSteps, if_neg imported.filled]
  have start : unpacked frames [] (.createTransfer :: (writeSteps 0 frames ++
      .flush :: [extractStep metadata, .removeTransfer])) =
        unpacked frames [] (writeSteps 0 frames ++ .flush :: [extractStep metadata, .removeTransfer]) := rfl
  rw [start, unpacked_append, unpacked_nil frames quiet, List.nil_append, List.nil_append, written, unpacked]
  have flushes : writtenBytes frames .flush = [] := rfl
  rw [flushes, List.append_nil, unpacked, last, if_pos rfl]
  rfl

/-- Whatever else has come, nothing is unpacked. -/
theorem unpacked_refused
    (never : Not (Exists fun metadata => Imported outcomes frames metadata)) :
    unpacked frames [] (importTrace describe outcomes frames) = [] := by
  apply unpacked_nil
  by_cases made : outcomes.fault .createTransfer = none
  · rw [names_importServer frames made]
    have plain (steps : List TransferStep) (quiet : forall step, step ∈ steps -> unpacks step = false) :
        forall step, step ∈ .createTransfer :: (names outcomes
            (Program.forEach (importFrame describe) ⟨none, 0, 0⟩ frames) [.archive] ++ steps) ->
          unpacks step = false := by
      intro step member
      rcases List.mem_cons.mp member with rfl | member
      · rfl
      · rcases List.mem_append.mp member with early | late
        · exact names_frames frames _ _ step early
        · exact quiet step late
    have flushOnly : forall step, step ∈ [TransferStep.flush] -> unpacks step = false := by
      intro step member
      rw [List.mem_singleton.mp member]
      rfl
    by_cases taken : Exists fun metadata => MetadataFirst metadata frames /\ Passes outcomes (writeSteps 0 frames)
    · rcases taken with ⟨metadata, order, written⟩
      rw [((@frames_run describe outcomes [.archive] frames 0).1 metadata ⟨order, written⟩).1]
      apply plain
      dsimp only
      by_cases size : SizeAccepted metadata (receivedBytes frames)
      · rw [names_afterFrames.1 size]
        split
        · next flushed =>
            unfold unpackSteps
            split
            · intro step member
              rcases List.mem_cons.mp member with rfl | member
              · rfl
              · rw [List.mem_singleton.mp member]
                rfl
            · next filled => exact absurd ⟨metadata, order, size, filled, made, written, flushed⟩ never
        · exact flushOnly
      · rw [names_afterFrames.2 size]
        exact flushOnly
    · have unnamed := (@frames_run describe outcomes [.archive] frames 0).2 taken
      apply plain
      split
      · next state after ran =>
          have none := unnamed state (congrArg Prod.fst ran)
          rcases state with ⟨metadata, total, count⟩
          cases none
          rw [names_afterFrames_unnamed]
          exact flushOnly
      · exact fun _ member => absurd member List.not_mem_nil
  · rw [importTrace_unmade frames made]
    intro step member
    rw [List.mem_singleton.mp member]
    rfl

end Unpacked

/-- The frames of an import bring what an export has sent. -/
structure Carries (frames : List ImportFrame) (id : Text) (payload : TransferPayload) (call : Export) : Prop where
  announced : Exists fun size => call.size = some size /\ MetadataFirst ⟨id, payload.number, size⟩ frames
  delivered : importedBytes frames = call.delivered

/-- The metadata are those of the frames. -/
theorem metadataFirst_unique {frames : List ImportFrame} {first second : ImportMetadata}
    (one : MetadataFirst first frames) (other : MetadataFirst second frames) : first = second := by
  induction frames with
  | nil => exact False.elim one
  | cons frame rest induction =>
      cases frame with
      | error status => exact False.elim one
      | ok data =>
          cases data with
          | none => exact induction one other
          | some data =>
              cases data with
              | chunkData chunk => exact False.elim one
              | metadata value => exact one.1.symm.trans other.1

/-- Where exports are not mixed up, an import of what one of them has sent unpacks exactly the whole
archive of that export; what was cut short is not unpacked. -/
theorem transfer_whole {files : FileStore Text} {run : List ExportAction}
    (alone : Machine.Along exportStep Alone (noExports files) run) {number : Nat} {call : Export}
    (found : (Machine.reach exportStep (noExports files) run).calls number = some call) {id : Text}
    {payload : TransferPayload} {frames : List ImportFrame} (carries : Carries frames id payload call)
    (describe : Errno -> String) (outcomes : TransferOutcomes) :
    unpacked frames [] (importTrace describe outcomes frames) =
        [(extractStep ⟨id, payload.number, call.archive.length⟩, call.archive)] /\
      call.delivered = call.archive /\ Not (call.archive = []) /\
        Passes outcomes (.createTransfer :: (writeSteps 0 frames ++ [.flush])) \/
    unpacked frames [] (importTrace describe outcomes frames) = [] /\
      Not (call.delivered = call.archive /\ Not (call.archive = []) /\
        Passes outcomes (.createTransfer :: (writeSteps 0 frames ++ [.flush]))) := by
  have own : call.Own :=
    ((exports_unmixed_iff files run).mpr alone run List.prefix_rfl).own number call found
  rcases carries.announced with ⟨size, known, order⟩
  have received : receivedBytes frames = call.delivered.length := by
    rw [receivedBytes_eq, carries.delivered]
  rw [own.size size known] at order
  by_cases imported : Exists fun metadata => Imported outcomes frames metadata
  · left
    rcases imported with ⟨metadata, imported⟩
    rw [metadataFirst_unique imported.order order] at imported
    have lengths : call.delivered.length = call.archive.length := by
      rcases imported.size.announced with unknown | same
      · exact absurd unknown (Int.not_lt.mpr (Int.natCast_nonneg _))
      · rw [← received]
        exact (Int.ofNat_inj.mp same).symm
    have whole : call.delivered = call.archive := own.delivered.eq_of_length lengths
    refine ⟨?_, whole, ?_, ?_⟩
    · rw [unpacked_imported describe imported, carries.delivered, whole]
    · intro empty
      rw [empty, List.length_nil] at lengths
      exact imported.filled (received.trans lengths)
    · rw [passes_cons, passes_append, passes_cons, and_iff_left passes_nil]
      exact ⟨imported.made, imported.written, imported.flushed⟩
  · right
    refine ⟨unpacked_refused describe imported, ?_⟩
    rintro ⟨whole, filled, passes⟩
    rw [passes_cons, passes_append, passes_cons, and_iff_left passes_nil] at passes
    have count : receivedBytes frames = call.archive.length := by rw [received, whole]
    have nonempty : Not (receivedBytes frames = 0) := by
      rw [count]
      exact fun zero => filled (List.length_eq_zero_iff.mp zero)
    refine imported ⟨_, order, ⟨Or.inr ?_, fun _ => nonempty⟩, nonempty, passes.1, passes.2.1, passes.2.2⟩
    rw [count]

/-! ## A server that is sent in two parts -/

def oneExport : List ExportAction :=
  [.begin 0 "server-1".toList .serverData newYear, .event 0 .openArchive, .event 0 (.write [1, 2, 3]),
    .event 0 .finish, .event 0 .stat, .event 0 .openRead, .event 0 (.read 1), .event 0 (.read 80),
    .event 0 (.read 80), .event 0 (.remove false)]

def sentCall : Export where
  stem := "server-1".toList
  time := newYear
  phase := .completed
  archive := [1, 2, 3]
  size := some 3
  delivered := [1, 2, 3]

def sentFrames : List ImportFrame :=
  [.ok (some (.metadata ⟨"server-1".toList, 0, 3⟩)), .ok (some (.chunkData [1, 2])), .ok none,
    .ok (some (.chunkData [3]))]

theorem transfer_whole_sent :
    Machine.Along exportStep Alone (noExports noFiles) oneExport /\
      unpacked sentFrames [] (importTrace (fun _ => "") allSucceed sentFrames) =
        [(.extractServer "server-1".toList, [1, 2, 3])] := by
  have alone : Machine.Along exportStep Alone (noExports noFiles) oneExport := by
    refine ⟨?_, trivial, trivial, trivial, trivial, trivial, trivial, trivial, trivial, trivial, trivial⟩
    rintro _ _ other call impossible
    cases impossible
  have found : (Machine.reach exportStep (noExports noFiles) oneExport).calls 0 = some sentCall := by
    decide +kernel
  have carries : Carries sentFrames "server-1".toList .serverData sentCall :=
    ⟨⟨3, rfl, rfl, trivial⟩, rfl⟩
  have passes : Passes allSucceed (.createTransfer :: (writeSteps 0 sentFrames ++ [.flush])) :=
    fun _ _ => rfl
  rcases transfer_whole alone found carries (fun _ => "") allSucceed with ⟨same, _⟩ | ⟨_, refused⟩
  · exact ⟨alone, same⟩
  · exact absurd ⟨rfl, by decide, passes⟩ refused

end Storage
end Agapornis
