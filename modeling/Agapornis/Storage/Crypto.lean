import Mathlib.Data.List.Nodup
import Mathlib.Data.Set.Insert
import Agapornis.Core.Failure
import Agapornis.Foundations.ByteStream

namespace Agapornis
namespace Storage

open Foundations Agapornis.Core

/-!
# Backup encryption

An encrypted backup is a header, a random prefix of eight bytes, and one frame
for each read of the plaintext: the length of the read and its encryption
under a nonce made of the prefix and a counter.  A zero length ends the
stream.  The lengths and the end are outside of the encryption.
-/

/-! ## The format -/

/-- An authenticated cipher under one key: nonce, associated data, message. -/
structure Aead where
  encrypt : Bytes -> Bytes -> Bytes -> Option Bytes
  decrypt : Bytes -> Bytes -> Bytes -> Option Bytes

/-- The header `AGPBK01` with a zero byte. -/
def magic : Bytes := [65, 71, 80, 66, 75, 48, 49, 0]

def maxChunk : Nat := 4 * 1024 * 1024

def be32 (value : Nat) : Bytes := toBeBytes 4 value

def chunkNonce (filePrefix : Bytes) (counter : Nat) : Bytes := filePrefix ++ be32 counter

/-- The outcome of an encryption: the bytes written, up to a failure, and the
nonces of the chunks. -/
structure Encryption where
  result : Except Failure Unit
  written : Bytes
  nonces : List Bytes

/-- Encrypt the reads of the source, the next one under the given counter. -/
def encryptChunks (cipher : Aead) (filePrefix : Bytes) : Nat -> List Bytes -> Encryption
  | _, [] => ⟨.ok (), be32 0, []⟩
  | counter, chunk :: reads =>
      let nonce := chunkNonce filePrefix counter
      match cipher.encrypt nonce (be32 counter) chunk with
      | none => ⟨.error (.bail "backup encryption failed"), [], [nonce]⟩
      | some encrypted =>
          let frame := be32 chunk.length ++ encrypted
          if counter + 1 < 2 ^ 32 then
            let later := encryptChunks cipher filePrefix (counter + 1) reads
            ⟨later.result, frame ++ later.written, nonce :: later.nonces⟩
          else
            ⟨.error (.bail "backup is too large for the encrypted chunk format"), frame, [nonce]⟩

def encryptFile (cipher : Aead) (filePrefix : Bytes) (reads : List Bytes) : Encryption :=
  let chunks := encryptChunks cipher filePrefix 0 reads
  { chunks with written := magic ++ filePrefix ++ chunks.written }

/-- The failure of a read that meets the end of the stream. -/
def endOfStream : Failure := .bail "failed to fill whole buffer"

/-- Read and decrypt one chunk; there is none at a zero length. -/
def decryptChunk (cipher : Aead) (filePrefix : Bytes) (counter : Nat) (stream : Bytes) :
    Except Failure (Option (Bytes × Bytes)) :=
  match readExact 4 stream with
  | none => .error endOfStream
  | some (length, stream) =>
      let n := fromBeBytes length
      if n = 0 then .ok none
      else if maxChunk < n then .error (.bail "Encrypted backup chunk is invalid.")
      else
        match readExact (n + 16) stream with
        | none => .error endOfStream
        | some (data, rest) =>
            match cipher.decrypt (chunkNonce filePrefix counter) (be32 counter) data with
            | none => .error (.bail "encrypted backup authentication failed")
            | some plain => .ok (some (plain, rest))

/-- Decrypt the chunks of a stream while the counter can be increased, and
what has been written until then. -/
def decryptChunks (cipher : Aead) (filePrefix : Bytes) :
    (increments : Nat) -> (counter : Nat) -> Bytes -> Except Failure Unit × Bytes
  | increments, counter, stream =>
      match decryptChunk cipher filePrefix counter stream with
      | .error failure => (.error failure, [])
      | .ok none => (.ok (), [])
      | .ok (some (plain, rest)) =>
          match increments with
          | 0 => (.error (.bail "encrypted backup exceeds the supported chunk count"), plain)
          | increments + 1 =>
              let later := decryptChunks cipher filePrefix increments (counter + 1) rest
              (later.1, plain ++ later.2)

def decryptFile (cipher : Aead) (stream : Bytes) : Except Failure Unit × Bytes :=
  match readExact 8 stream with
  | none => (.error endOfStream, [])
  | some (header, stream) =>
      if header = magic then
        match readExact 8 stream with
        | none => (.error endOfStream, [])
        | some (filePrefix, stream) => decryptChunks cipher filePrefix (2 ^ 32 - 1) 0 stream
      else (.error (.bail "Encrypted backup header is invalid."), [])

/-! ## Chunks that come back -/

/-- The cipher gives a message back from its encryption, which is longer by a
tag of 16 bytes. -/
def Aead.Undone (cipher : Aead) (nonce associated message : Bytes) : Prop :=
  Exists fun data => cipher.encrypt nonce associated message = some data /\
    data.length = message.length + 16 /\ cipher.decrypt nonce associated data = some message

/-- The cipher does so for every message that fits into a chunk. -/
def Aead.Correct (cipher : Aead) : Prop :=
  forall nonce associated message, nonce.length = 12 -> message.length <= maxChunk ->
    cipher.Undone nonce associated message

/-- A read that is encrypted under a counter and comes back. -/
structure ChunkUndone (cipher : Aead) (filePrefix : Bytes) (counter : Nat) (chunk : Bytes) : Prop where
  nonempty : 0 < chunk.length
  fits : chunk.length <= maxChunk
  undone : cipher.Undone (chunkNonce filePrefix counter) (be32 counter) chunk

theorem be32_length (value : Nat) : (be32 value).length = 4 := toBeBytes_length 4 value

theorem fromBeBytes_be32 {value : Nat} (fits : value < 2 ^ 32) : fromBeBytes (be32 value) = value :=
  fromBeBytes_toBeBytes (by omega)

theorem be32_injective {first second : Nat} (firstFits : first < 2 ^ 32)
    (secondFits : second < 2 ^ 32) (same : be32 first = be32 second) : first = second :=
  toBeBytes_injective (by omega) (by omega) same

theorem be32_fromBeBytes {bytes : Bytes} (length : bytes.length = 4) :
    be32 (fromBeBytes bytes) = bytes := by
  have back := toBeBytes_fromBeBytes bytes
  rw [length] at back
  exact back

theorem decryptChunk_frame {cipher : Aead} {filePrefix : Bytes} {counter : Nat}
    {chunk encrypted : Bytes} (nonempty : 0 < chunk.length) (fits : chunk.length <= maxChunk)
    (longer : encrypted.length = chunk.length + 16)
    (decrypted : cipher.decrypt (chunkNonce filePrefix counter) (be32 counter) encrypted = some chunk)
    (rest : Bytes) :
    decryptChunk cipher filePrefix counter (be32 chunk.length ++ encrypted ++ rest) =
      .ok (some (chunk, rest)) := by
  have small : chunk.length < 2 ^ 32 := by
    rw [maxChunk] at fits
    omega
  rw [decryptChunk]
  rw [List.append_assoc, readExact_append (be32_length _)]
  simp only [fromBeBytes_be32 small, if_neg (Nat.ne_of_gt nonempty), if_neg (Nat.not_lt.mpr fits),
    readExact_append longer, decrypted]

theorem decryptChunk_end (cipher : Aead) (filePrefix : Bytes) (counter : Nat) (rest : Bytes) :
    decryptChunk cipher filePrefix counter (be32 0 ++ rest) = .ok none := by
  rw [decryptChunk]
  rw [readExact_append (be32_length 0)]
  simp only [fromBeBytes_be32 (by omega : 0 < 2 ^ 32), if_true]

/-- Reads whose chunks come back are encrypted and decrypted in step. -/
theorem decryptChunks_encryptChunks {cipher : Aead} {filePrefix : Bytes} {reads : List Bytes}
    {counter increments : Nat} (counts : counter + increments = 2 ^ 32 - 1)
    (enough : reads.length <= increments)
    (undone : forall index chunk, reads[index]? = some chunk ->
      ChunkUndone cipher filePrefix (counter + index) chunk) :
    (encryptChunks cipher filePrefix counter reads).result = .ok () /\
      (encryptChunks cipher filePrefix counter reads).nonces =
        (List.range' counter reads.length).map (chunkNonce filePrefix) /\
      forall tail, decryptChunks cipher filePrefix increments counter
        ((encryptChunks cipher filePrefix counter reads).written ++ tail) = (.ok (), reads.flatten) := by
  induction reads generalizing counter increments with
  | nil =>
      refine ⟨rfl, rfl, fun tail => ?_⟩
      unfold encryptChunks decryptChunks
      simp only [decryptChunk_end, List.flatten_nil]
  | cons chunk reads ih =>
      cases increments with
      | zero => cases enough
      | succ increments =>
          have first := undone 0 chunk rfl
          rcases first.undone with ⟨encrypted, encryption, longer, decrypted⟩
          rw [Nat.add_zero] at encryption decrypted
          have counting : counter + 1 < 2 ^ 32 := by omega
          have countsOn : (counter + 1) + increments = 2 ^ 32 - 1 := by omega
          have undoneOn : forall index later, reads[index]? = some later ->
              ChunkUndone cipher filePrefix (counter + 1 + index) later := by
            intro index later present
            have here := undone (index + 1) later present
            rw [Nat.add_assoc, Nat.add_comm 1 index]
            exact here
          rcases ih countsOn (Nat.le_of_succ_le_succ enough) undoneOn with ⟨result, nonces, decrypts⟩
          simp only [encryptChunks, encryption, if_pos counting]
          refine ⟨result, ?_, fun tail => ?_⟩
          · rw [nonces, List.length_cons, List.range'_succ, List.map_cons]
          · unfold decryptChunks
            rw [List.append_assoc, decryptChunk_frame first.nonempty first.fits longer decrypted]
            simp only [decrypts tail, List.flatten_cons]

/-! ## The round trip -/

/-- The counter gives out when there are too many reads. -/
theorem encryptChunks_too_many {cipher : Aead} {filePrefix : Bytes} {reads : List Bytes}
    {counter : Nat} (counting : counter < 2 ^ 32) (many : 2 ^ 32 <= counter + reads.length)
    (undone : forall index chunk, reads[index]? = some chunk ->
      ChunkUndone cipher filePrefix (counter + index) chunk) :
    (encryptChunks cipher filePrefix counter reads).result =
      .error (.bail "backup is too large for the encrypted chunk format") := by
  induction reads generalizing counter with
  | nil =>
      rw [List.length_nil, Nat.add_zero] at many
      omega
  | cons chunk reads ih =>
      rcases (undone 0 chunk rfl).undone with ⟨encrypted, encryption, _, _⟩
      rw [Nat.add_zero] at encryption
      rw [encryptChunks]
      simp only [encryption]
      split
      · next countingOn =>
          apply ih countingOn
          · rw [List.length_cons] at many
            omega
          · intro index later present
            have here := undone (index + 1) later present
            rw [Nat.add_assoc, Nat.add_comm 1 index]
            exact here
      · rfl

theorem chunkNonce_injective {first second : Bytes} {left right : Nat}
    (leftFits : left < 2 ^ 32) (rightFits : right < 2 ^ 32)
    (same : chunkNonce first left = chunkNonce second right) : first = second /\ left = right := by
  have parts := List.append_inj' same (by rw [be32_length, be32_length])
  exact ⟨parts.1, be32_injective leftFits rightFits parts.2⟩

theorem nonces_nodup (filePrefix : Bytes) {count : Nat} (fits : count <= 2 ^ 32) :
    ((List.range' 0 count).map (chunkNonce filePrefix)).Nodup := by
  apply List.Nodup.map_on
  · intro left leftIn right rightIn same
    rw [List.mem_range'_1] at leftIn rightIn
    exact (chunkNonce_injective (by omega) (by omega) same).2
  · exact List.nodup_range'

theorem decryptFile_header (cipher : Aead) {filePrefix : Bytes} (length : filePrefix.length = 8)
    (chunks : Bytes) : decryptFile cipher (magic ++ filePrefix ++ chunks) =
      decryptChunks cipher filePrefix (2 ^ 32 - 1) 0 chunks := by
  have header : magic.length = 8 := rfl
  rw [decryptFile]
  rw [List.append_assoc, readExact_append header]
  simp only [if_true, readExact_append length]

/-- The encryption of a source that is read in pieces of at most 4 MiB fails
because of their number or uses its nonces once and is decrypted again. -/
theorem decryptFile_encryptFile (cipher : Aead) (correct : cipher.Correct) (filePrefix : Bytes)
    (length : filePrefix.length = 8) (reads : List Bytes)
    (sizes : forall chunk, chunk ∈ reads -> 0 < chunk.length /\ chunk.length <= maxChunk) :
    (2 ^ 32 <= reads.length /\ (encryptFile cipher filePrefix reads).result =
        .error (.bail "backup is too large for the encrypted chunk format")) \/
      ((encryptFile cipher filePrefix reads).result = .ok () /\
        (encryptFile cipher filePrefix reads).nonces.length = reads.length /\
        (encryptFile cipher filePrefix reads).nonces.Nodup /\
        decryptFile cipher (encryptFile cipher filePrefix reads).written = (.ok (), reads.flatten)) := by
  have undone : forall index chunk, reads[index]? = some chunk ->
      ChunkUndone cipher filePrefix (0 + index) chunk := by
    intro index chunk present
    have size := sizes chunk (List.mem_of_getElem? present)
    refine ⟨size.1, size.2, correct _ _ chunk ?_ size.2⟩
    rw [chunkNonce, List.length_append, be32_length, length]
  by_cases many : 2 ^ 32 <= reads.length
  · left
    exact ⟨many, encryptChunks_too_many (by omega) (by omega) undone⟩
  · right
    rcases decryptChunks_encryptChunks (by omega : 0 + (2 ^ 32 - 1) = 2 ^ 32 - 1) (by omega) undone with
      ⟨result, nonces, decrypts⟩
    refine ⟨result, ?_, ?_, ?_⟩
    · unfold encryptFile
      rw [nonces, List.length_map, List.length_range']
    · unfold encryptFile
      rw [nonces]
      exact nonces_nodup filePrefix (by omega)
    · unfold encryptFile
      rw [decryptFile_header cipher length]
      have whole := decrypts []
      rw [List.append_nil] at whole
      exact whole

/-- The AES-256-GCM encryption of the byte 1 under the zero key, as the first
chunk of a file with the zero prefix. -/
def sampleData : Bytes :=
  [207, 31, 111, 120, 117, 49, 53, 143, 51, 166, 151, 139, 252, 65, 43, 146, 150]

def isSample (nonce associated : Bytes) : Bool :=
  nonce == chunkNonce (List.replicate 8 0) 0 && associated == be32 0

/-- AES-256-GCM at that chunk, and a stand-in for it elsewhere. -/
def sampleCipher : Aead where
  encrypt nonce associated message :=
    if (isSample nonce associated && message == [1]) = true then some sampleData
    else some (message ++ List.replicate 16 0)
  decrypt nonce associated data :=
    if (isSample nonce associated && data == sampleData) = true then some [1]
    else some (data.take (data.length - 16))

theorem sampleCipher_correct : sampleCipher.Correct := by
  intro nonce associated message _ _
  by_cases sample : (isSample nonce associated && message == [1]) = true
  · have parts := Bool.and_eq_true_iff.mp sample
    have one : message = [1] := beq_iff_eq.mp parts.2
    refine ⟨sampleData, if_pos sample, ?_, ?_⟩
    · rw [one]
      rfl
    · rw [one]
      exact if_pos (by rw [parts.1, beq_self_eq_true, Bool.and_self])
  · refine ⟨message ++ List.replicate 16 0, if_neg sample, by simp, ?_⟩
    have back : (message ++ List.replicate 16 0).take
        ((message ++ List.replicate 16 (0 : UInt8)).length - 16) = message := by
      simp
    have other : Not ((isSample nonce associated &&
        message ++ List.replicate 16 0 == sampleData) = true) := by
      intro same
      have lastBytes := congrArg List.getLast? (beq_iff_eq.mp (Bool.and_eq_true_iff.mp same).2)
      simp [sampleData] at lastBytes
    exact (if_neg other).trans (congrArg some back)

theorem decryptFile_encryptFile_sample :
    (encryptFile sampleCipher (List.replicate 8 0) [[1]]).result = .ok () /\
      decryptFile sampleCipher (encryptFile sampleCipher (List.replicate 8 0) [[1]]).written =
        (.ok (), [1]) := by
  rcases decryptFile_encryptFile sampleCipher sampleCipher_correct (List.replicate 8 0) rfl [[1]]
      (by decide) with tooMany | roundTrip
  · exact absurd tooMany.1 (by decide)
  · exact ⟨roundTrip.1, roundTrip.2.2.2⟩

/-! ## What an ideal cipher lets through -/

/-- A file that was encrypted to the end, with the prefix drawn for it. -/
structure BackupFile where
  filePrefix : Bytes
  reads : List Bytes
  eight : filePrefix.length = 8
  sizes : forall chunk, chunk ∈ reads -> 0 < chunk.length /\ chunk.length <= maxChunk
  count : reads.length < 2 ^ 32

def BackupFile.plaintext (file : BackupFile) : Bytes := file.reads.flatten

/-- Nothing decrypts under the key but what was encrypted for one of the
files, and that comes back. -/
structure Aead.Ideal (cipher : Aead) (files : Set BackupFile) : Prop where
  undone : forall file, file ∈ files -> forall index chunk, file.reads[index]? = some chunk ->
    cipher.Undone (chunkNonce file.filePrefix index) (be32 index) chunk
  opened : forall nonce associated data plain, cipher.decrypt nonce associated data = some plain ->
    Exists fun file => file ∈ files /\ Exists fun index => Exists fun chunk =>
      file.reads[index]? = some chunk /\ nonce = chunkNonce file.filePrefix index /\
        associated = be32 index /\ cipher.encrypt nonce associated chunk = some data

/-- Each chunk, counted from the given one, stands in its place in a file with
the prefix. -/
def InPlace (files : Set BackupFile) (filePrefix : Bytes) (counter : Nat) (reads : List Bytes) : Prop :=
  forall index chunk, reads[index]? = some chunk -> Exists fun file =>
    file ∈ files /\ file.filePrefix = filePrefix /\ file.reads[counter + index]? = some chunk

/-- The stream begins with chunks in their places under a common prefix and a
zero length after them, but these chunks are not a whole file. -/
def CutShort (cipher : Aead) (files : Set BackupFile) (stream : Bytes) : Prop :=
  Exists fun filePrefix => Exists fun reads => Exists fun tail =>
    filePrefix.length = 8 /\ stream = (encryptFile cipher filePrefix reads).written ++ tail /\
      InPlace files filePrefix 0 reads /\ forall file, file ∈ files -> reads.flatten ≠ file.plaintext

theorem decryptChunk_eq_none {cipher : Aead} {filePrefix stream : Bytes} {counter : Nat}
    (ended : decryptChunk cipher filePrefix counter stream = .ok none) :
    Exists fun rest => stream = be32 0 ++ rest := by
  rw [decryptChunk] at ended
  split at ended
  · cases ended
  · next length rest read =>
      rcases readExact_eq_some read with ⟨split, four⟩
      simp only at ended
      split at ended
      · next zero =>
          refine ⟨rest, ?_⟩
          rw [split, <- zero, be32_fromBeBytes four]
      · split at ended
        · cases ended
        · split at ended
          · cases ended
          · split at ended
            · cases ended
            · cases ended

theorem decryptChunk_eq_some {cipher : Aead} {filePrefix stream plain rest : Bytes} {counter : Nat}
    (accepted : decryptChunk cipher filePrefix counter stream = .ok (some (plain, rest))) :
    Exists fun n => Exists fun data => stream = be32 n ++ data ++ rest /\ data.length = n + 16 /\
      cipher.decrypt (chunkNonce filePrefix counter) (be32 counter) data = some plain := by
  rw [decryptChunk] at accepted
  split at accepted
  · cases accepted
  · next length afterLength read =>
      rcases readExact_eq_some read with ⟨split, four⟩
      simp only at accepted
      split at accepted
      · cases accepted
      · split at accepted
        · cases accepted
        · split at accepted
          · cases accepted
          · next data afterData readData =>
              rcases readExact_eq_some readData with ⟨splitData, longer⟩
              split at accepted
              · cases accepted
              · next decrypted =>
                  cases accepted
                  refine ⟨fromBeBytes length, data, ?_, longer, decrypted⟩
                  rw [split, splitData, be32_fromBeBytes four, List.append_assoc]

/-- A chunk that is accepted is a chunk of a file, in its place and framed as
the encryption framed it. -/
theorem Aead.Ideal.accepted_chunk {cipher : Aead} {files : Set BackupFile} (ideal : cipher.Ideal files)
    {filePrefix stream plain rest : Bytes} {counter : Nat} (counting : counter < 2 ^ 32)
    (accepted : decryptChunk cipher filePrefix counter stream = .ok (some (plain, rest))) :
    Exists fun encrypted =>
      cipher.encrypt (chunkNonce filePrefix counter) (be32 counter) plain = some encrypted /\
        stream = be32 plain.length ++ encrypted ++ rest /\
        Exists fun file => file ∈ files /\ file.filePrefix = filePrefix /\
          file.reads[counter]? = some plain := by
  rcases decryptChunk_eq_some accepted with ⟨n, data, split, longer, decrypted⟩
  rcases ideal.opened _ _ _ _ decrypted with
    ⟨file, member, index, chunk, present, sameNonce, _, encryption⟩
  have indexFits : index < 2 ^ 32 :=
    Nat.lt_trans (List.getElem?_eq_some_iff.mp present).1 file.count
  rcases chunkNonce_injective counting indexFits sameNonce with ⟨samePrefix, sameCounter⟩
  subst sameCounter
  subst samePrefix
  rcases ideal.undone file member counter chunk present with ⟨again, encrypted, tagged, decryptedAgain⟩
  rw [encryption] at encrypted
  cases encrypted
  rw [decrypted] at decryptedAgain
  cases decryptedAgain
  have sameLength : n = plain.length := by omega
  refine ⟨data, encryption, ?_, file, member, rfl, present⟩
  rw [split, sameLength]

/-- An accepted run of chunks is the beginning of the encryption of chunks in
their places. -/
theorem Aead.Ideal.accepted_chunks {cipher : Aead} {files : Set BackupFile} (ideal : cipher.Ideal files)
    {filePrefix stream plain : Bytes} {increments counter : Nat}
    (counts : counter + increments = 2 ^ 32 - 1)
    (accepted : decryptChunks cipher filePrefix increments counter stream = (.ok (), plain)) :
    Exists fun reads => Exists fun tail =>
      stream = (encryptChunks cipher filePrefix counter reads).written ++ tail /\
        InPlace files filePrefix counter reads /\ reads.flatten = plain := by
  induction increments generalizing counter stream plain with
  | zero =>
      rw [decryptChunks] at accepted
      split at accepted
      · cases accepted
      · next ended =>
          cases accepted
          rcases decryptChunk_eq_none ended with ⟨rest, split⟩
          exact ⟨[], rest, split, fun index chunk impossible => (by cases impossible), rfl⟩
      · cases accepted
  | succ increments ih =>
      rw [decryptChunks] at accepted
      split at accepted
      · cases accepted
      · next ended =>
          cases accepted
          rcases decryptChunk_eq_none ended with ⟨rest, split⟩
          exact ⟨[], rest, split, fun index chunk impossible => (by cases impossible), rfl⟩
      · next first rest chunkAccepted =>
          rcases ideal.accepted_chunk (by omega) chunkAccepted with
            ⟨encrypted, encryption, framed, file, member, samePrefix, place⟩
          have later : decryptChunks cipher filePrefix increments (counter + 1) rest =
              (.ok (), (decryptChunks cipher filePrefix increments (counter + 1) rest).2) :=
            Prod.ext (Prod.mk.inj accepted).1 rfl
          rcases ih (by omega) later with ⟨reads, tail, laterSplit, laterPlaces, laterPlain⟩
          refine ⟨first :: reads, tail, ?_, ?_, ?_⟩
          · have counting : counter + 1 < 2 ^ 32 := by omega
            simp only [encryptChunks, encryption, if_pos counting]
            rw [framed, laterSplit]
            simp only [List.append_assoc]
          · intro index chunk present
            cases index with
            | zero =>
                cases present
                exact ⟨file, member, samePrefix, place⟩
            | succ index =>
                rcases laterPlaces index chunk present with ⟨other, otherIn, otherPrefix, otherPlace⟩
                refine ⟨other, otherIn, otherPrefix, ?_⟩
                rw [Nat.add_comm index 1, <- Nat.add_assoc]
                exact otherPlace
          · rw [List.flatten_cons, laterPlain]
            exact (Prod.mk.inj accepted).2

theorem decryptFile_eq_ok {cipher : Aead} {stream plain : Bytes}
    (accepted : decryptFile cipher stream = (.ok (), plain)) :
    Exists fun filePrefix => Exists fun chunks => filePrefix.length = 8 /\
      stream = magic ++ filePrefix ++ chunks /\
      decryptChunks cipher filePrefix (2 ^ 32 - 1) 0 chunks = (.ok (), plain) := by
  rw [decryptFile] at accepted
  split at accepted
  · cases accepted
  · next header afterHeader readHeader =>
      split at accepted
      · next isMagic =>
          split at accepted
          · cases accepted
          · next filePrefix chunks readPrefix =>
              rcases readExact_eq_some readHeader with ⟨split, _⟩
              rcases readExact_eq_some readPrefix with ⟨splitPrefix, eight⟩
              refine ⟨filePrefix, chunks, eight, ?_, accepted⟩
              rw [split, splitPrefix, isMagic, List.append_assoc]
      · cases accepted

/-- A stream cut short is accepted all the same. -/
theorem CutShort.accepted {cipher : Aead} {files : Set BackupFile} (ideal : cipher.Ideal files)
    {stream : Bytes} (cut : CutShort cipher files stream) :
    Exists fun plain => decryptFile cipher stream = (.ok (), plain) /\
      forall file, file ∈ files -> plain ≠ file.plaintext := by
  rcases cut with ⟨filePrefix, reads, tail, eight, split, places, notWhole⟩
  have undone : forall index chunk, reads[index]? = some chunk ->
      ChunkUndone cipher filePrefix (0 + index) chunk := by
    intro index chunk present
    rcases places index chunk present with ⟨file, member, samePrefix, place⟩
    have size := file.sizes chunk (List.mem_of_getElem? place)
    exact ⟨size.1, size.2, samePrefix ▸ ideal.undone file member (0 + index) chunk place⟩
  have few : reads.length <= 2 ^ 32 - 1 := by
    by_contra many
    have present : reads[2 ^ 32 - 1]? = some (reads.get ⟨2 ^ 32 - 1, by omega⟩) :=
      List.getElem?_eq_getElem _
    rcases places _ _ present with ⟨file, _, _, place⟩
    have below := (List.getElem?_eq_some_iff.mp place).1
    have count := file.count
    omega
  have decrypts := (decryptChunks_encryptChunks (by omega : 0 + (2 ^ 32 - 1) = 2 ^ 32 - 1) few
    undone).2.2 tail
  refine ⟨reads.flatten, ?_, notWhole⟩
  have regroup : (encryptFile cipher filePrefix reads).written ++ tail =
      magic ++ filePrefix ++ ((encryptChunks cipher filePrefix 0 reads).written ++ tail) := by
    rw [encryptFile]
    rw [List.append_assoc]
  rw [split, regroup, decryptFile_header cipher eight]
  exact decrypts

/-- Under an ideal cipher an accepted stream yields a whole file exactly when
it is not made of leading chunks closed before the file ends. -/
theorem decryptFile_whole_iff (cipher : Aead) (files : Set BackupFile) (ideal : cipher.Ideal files)
    (stream : Bytes) :
    (forall plain, decryptFile cipher stream = (.ok (), plain) ->
        Exists fun file => file ∈ files /\ plain = file.plaintext) <->
      Not (CutShort cipher files stream) := by
  constructor
  · intro whole cut
    rcases cut.accepted ideal with ⟨plain, accepted, notWhole⟩
    rcases whole plain accepted with ⟨file, member, same⟩
    exact notWhole file member same
  · intro notCut plain accepted
    rcases decryptFile_eq_ok accepted with ⟨filePrefix, chunks, eight, split, chunksAccepted⟩
    rcases ideal.accepted_chunks (by omega) chunksAccepted with ⟨reads, tail, splitChunks, places, same⟩
    by_contra notWhole
    refine notCut ⟨filePrefix, reads, tail, eight, ?_, places, ?_⟩
    · unfold encryptFile
      rw [split, splitChunks]
      simp only [List.append_assoc]
    · intro file member equal
      exact notWhole ⟨file, member, same.symm.trans equal⟩

/-- AES-256-GCM under the zero key as an ideal cipher for one file: only the
two chunks of the file are encrypted and decrypted. -/
def fileCipher : Aead where
  encrypt nonce associated message :=
    if (isSample nonce associated && message == [1]) = true then some sampleData
    else if (nonce == chunkNonce (List.replicate 8 0) 1 && associated == be32 1 && message == [2]) = true
      then some [43, 39, 74, 10, 66, 118, 64, 7, 250, 197, 100, 137, 165, 48, 31, 111, 20]
    else none
  decrypt nonce associated data :=
    if (isSample nonce associated && data == sampleData) = true then some [1]
    else if (nonce == chunkNonce (List.replicate 8 0) 1 && associated == be32 1 &&
        data == [43, 39, 74, 10, 66, 118, 64, 7, 250, 197, 100, 137, 165, 48, 31, 111, 20]) = true
      then some [2]
    else none

def twoChunks : BackupFile where
  filePrefix := List.replicate 8 0
  reads := [[1], [2]]
  eight := rfl
  sizes := by decide
  count := by decide

theorem fileCipher_ideal : fileCipher.Ideal {twoChunks} := by
  constructor
  · intro file member index chunk present
    cases Set.mem_singleton_iff.mp member
    match index, present with
    | 0, present =>
        cases present
        exact ⟨_, rfl, rfl, rfl⟩
    | 1, present =>
        cases present
        exact ⟨_, rfl, rfl, rfl⟩
    | index + 2, present => cases present
  · intro nonce associated data plain decrypted
    refine ⟨twoChunks, rfl, ?_⟩
    rw [fileCipher] at decrypted
    simp only at decrypted
    split at decrypted
    · next first =>
        cases decrypted
        simp only [isSample, Bool.and_eq_true, beq_iff_eq] at first
        refine ⟨0, [1], rfl, first.1.1, first.1.2, ?_⟩
        rw [first.1.1, first.1.2, first.2]
        rfl
    · split at decrypted
      · next second =>
          cases decrypted
          simp only [Bool.and_eq_true, beq_iff_eq] at second
          refine ⟨1, [2], rfl, second.1.1, second.1.2, ?_⟩
          rw [second.1.1, second.1.2, second.2]
          rfl
      · cases decrypted

/-- The first chunk of the file and a zero length. -/
theorem firstChunk_cutShort :
    CutShort fileCipher {twoChunks} (encryptFile fileCipher (List.replicate 8 0) [[1]]).written := by
  refine ⟨List.replicate 8 0, [[1]], [], rfl, (List.append_nil _).symm, ?_, ?_⟩
  · intro index chunk present
    refine ⟨twoChunks, rfl, rfl, ?_⟩
    match index, present with
    | 0, present => exact present
    | index + 1, present => cases present
  · intro file member
    cases Set.mem_singleton_iff.mp member
    decide

theorem decryptFile_whole_iff_twoChunks :
    CutShort fileCipher {twoChunks} (encryptFile fileCipher (List.replicate 8 0) [[1]]).written /\
      Not (forall plain,
        decryptFile fileCipher (encryptFile fileCipher (List.replicate 8 0) [[1]]).written =
            (.ok (), plain) ->
          Exists fun file => file ∈ ({twoChunks} : Set BackupFile) /\ plain = file.plaintext) :=
  ⟨firstChunk_cutShort, fun whole =>
    (decryptFile_whole_iff fileCipher {twoChunks} fileCipher_ideal _).mp whole firstChunk_cutShort⟩

theorem cut_short_accepted :
    Not (forall (cipher : Aead) (files : Set BackupFile), cipher.Ideal files ->
      forall stream plain, decryptFile cipher stream = (.ok (), plain) ->
        Exists fun file => file ∈ files /\ plain = file.plaintext) := by
  intro authentic
  rcases firstChunk_cutShort.accepted fileCipher_ideal with ⟨plain, accepted, notWhole⟩
  rcases authentic fileCipher {twoChunks} fileCipher_ideal _ plain accepted with ⟨file, member, same⟩
  exact notWhole file member same

end Storage
end Agapornis
