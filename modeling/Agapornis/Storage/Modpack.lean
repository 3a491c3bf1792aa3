import Agapornis.Core.Value
import Agapornis.Foundations.Program
import Agapornis.Foundations.Renames
import Agapornis.Foundations.Table
import Agapornis.Storage.Files

namespace Agapornis
namespace Storage

open Foundations Agapornis.Core

/-!
# Installation of a modpack

A pack brings a manifest of files to download and an archive whose overrides
are unpacked.  Both kinds of file come to their place in the same way: the
directories above are made, the bytes are written under a temporary name
beside the target, and the temporary file is renamed.  The path of a file is
checked as a text only.
-/

/-! ## The calls -/

inductive PackCall where
  | createDirAll (path : List (Component Text))
  /-- Create a file, with all that is written to it before it is closed. -/
  | create (path : List (Component Text)) (bytes : Bytes)
  | tryExists (path : List (Component Text))
  | removeFile (path : List (Component Text))
  | rename (source target : List (Component Text))

@[reducible] def PackCall.Reply : PackCall -> Type
  | .tryExists _ => Except Failure Bool
  | .createDirAll _ => Except Errno Unit
  | .create _ _ => Except Errno Unit
  | .removeFile _ => Except Errno Unit
  | .rename _ _ => Except Errno Unit

/-- The tree, and the places at which the last call created, removed or
renamed something. -/
structure PackState where
  tree : FileTree Text Bytes
  touched : List (List Text)

/-- Remove an entry that is not a directory. -/
def unlinkEntry (tree : FileTree Text Bytes) (path : List (Component Text)) :
    Except Errno (List Text × FileTree Text Bytes) :=
  match resolve tree .stopAtLink path with
  | .ok (.found place, _) => (tree.unlink place).map (fun after => (place, after))
  | .ok (.absent _ _, _) => .error .notFound
  | .error error => .error error

/-- A call that acts at one place, if it succeeds. -/
def PackState.acted (state : PackState) :
    Except Errno (List Text × FileTree Text Bytes) -> Except Errno Unit × PackState
  | .ok (place, after) => (.ok (), ⟨after, [place]⟩)
  | .error error => (.error error, ⟨state.tree, []⟩)

def performPack (listing : Listing Text Bytes) :
    (request : PackCall) -> PackState -> request.Reply × PackState
  | .createDirAll path, state =>
      let making := makeDirectories state.tree path
      (making.result, ⟨making.tree, making.created⟩)
  | .create path bytes, state => state.acted (openForWriting state.tree path bytes)
  | .tryExists path, state => (Storage.tryExists state.tree path, ⟨state.tree, []⟩)
  | .removeFile path, state => state.acted (unlinkEntry state.tree path)
  | .rename source target, state =>
      match renameEntry listing state.tree source target with
      | .ok renamed => (.ok (), ⟨renamed,
          (entryPlace state.tree source).toList ++ (entryPlace state.tree target).toList⟩)
      | .error error => (.error error, ⟨state.tree, []⟩)

abbrev PackProgram := Program PackCall PackCall.Reply Failure

/-! ## Paths in a pack -/

/-- The name of a component that is one. -/
def normalName : Paths.PathPart -> Option Text
  | .normal value => some value
  | _ => none

/-- The names of a path that consists of nothing else. -/
def safePackPath (value : Text) : Except Failure (List Text) := do
  refuseIf
    (value.isEmpty || value.contains '\\' || decide (value.head? = some '/') ||
      (Paths.components value).any (fun part => (normalName part).isNone))
    "Modrinth pack contains an unsafe path."
  .ok ((Paths.components value).filterMap normalName)

/-- The part of a file name before its extension. -/
def fileStem (name : Text) : Text :=
  match Text.rsplitOnce '.' name with
  | some (before, _) => if before.isEmpty then name else before
  | none => name

def fileExtension (name : Text) : Option Text :=
  match Text.rsplitOnce '.' name with
  | some (before, after) => if before.isEmpty then none else some after
  | none => none

/-- The name of the temporary file beside a target. -/
def temporaryName (name : Text) : Text :=
  fileStem name ++ '.' :: ((fileExtension name).getD [] ++ ".agapornis-part".toList)

example : temporaryName "example.jar".toList = "example.jar.agapornis-part".toList := by decide

/-- Where a file of the pack goes: the directory above it, and its name. -/
structure PackTarget where
  parent : List (Component Text)
  name : Text

def PackTarget.path (target : PackTarget) : List (Component Text) :=
  target.parent ++ [.normal target.name]

def PackTarget.temporary (target : PackTarget) : List (Component Text) :=
  target.parent ++ [.normal (temporaryName target.name)]

/-- The target with the given names below the root. -/
def packTarget (root names : List Text) : PackTarget where
  parent := (root ++ names.dropLast).map .normal
  name := names.getLastD []

/-! ## Putting a file into its place -/

/-- What comes after the bytes of a file: they broke off, they are thrown away
again, or they are what was asked for. -/
inductive Ending where
  | interrupted (failure : Failure)
  | discarded (failure : Failure)
  | complete

/-- Whether something is there.  The tolerant check takes every failure for
absence. -/
def looked (tolerant : Bool) (found : Except Failure Bool) : Except Failure Bool :=
  match found with
  | .ok found => .ok found
  | .error failure => if tolerant then .ok false else .error failure

/-- The end of a file that was written under its temporary name. -/
def finishFile (target : PackTarget) (tolerant : Bool) : Ending -> PackProgram Unit
  | .interrupted failure => .failed failure
  | .discarded failure => do
      let _ <- Program.ask (PackCall.removeFile target.temporary)
      .failed failure
  | .complete => do
      let found <- Program.ask (PackCall.tryExists target.path)
      match looked tolerant found with
      | .error failure => .failed failure
      | .ok true => do
          Program.required .io (Program.ask (PackCall.removeFile target.path))
          Program.required .io (Program.ask (PackCall.rename target.temporary target.path))
      | .ok false => Program.required .io (Program.ask (PackCall.rename target.temporary target.path))

def placeFile (target : PackTarget) (tolerant : Bool) (bytes : Bytes) (ending : Ending) :
    PackProgram Unit := do
  Program.required .io (Program.ask (PackCall.createDirAll target.parent))
  Program.required .io (Program.ask (PackCall.create target.temporary bytes))
  finishFile target tolerant ending

/-! ## Downloads -/

def maxFileBytes : Nat := 512 * 1024 * 1024

def maxTotalBytes : Nat := 2 * 1024 * 1024 * 1024

structure MrpackFile where
  path : Text
  hashes : Table Text Text
  downloads : List Text
  env : Option (Table Text Text)

def MrpackFile.isUnsupportedOnServer (file : MrpackFile) : Bool :=
  decide (file.env.bind (fun environment => environment.lookup "server".toList) =
    some "unsupported".toList)

structure Url where
  scheme : Text
  host : Option Text

/-- A response of the download host: its announced length, and its chunks up
to one that cannot be received or written. -/
structure Response where
  contentLength : Option Nat
  chunks : List (Except Failure Bytes)

structure DownloadTools where
  parseUrl : Text -> Except Failure Url
  /-- The digest as lower-case hexadecimal digits. -/
  sha512 : Bytes -> Text

structure Download where
  names : List Text
  expected : Text
  response : Response

/-- The value of an optional field that must be there. -/
def mandatory {Value : Type} (message : String) : Option Value -> Except Failure Value
  | some value => .ok value
  | none => .error (.bail message)

/-- The part of a download before anything is stored. -/
def prepareDownload (tools : DownloadTools) (file : MrpackFile) (reply : Except Failure Response) :
    Except Failure Download := do
  let path := String.ofList file.path
  let _ <- safePackPath file.path
  let names <- Paths.relative file.path
  let expected <- mandatory s!"Pack file {path} has no SHA-512 hash" (file.hashes.lookup "sha512".toList)
  let url <- mandatory s!"Pack file {path} has no download URL" file.downloads.head?
  let parsed <- tools.parseUrl url
  refuseIf (decide (Not (parsed.scheme = "https".toList)) ||
      decide (Not (parsed.host = some "cdn.modrinth.com".toList)))
    s!"Pack file {path} uses an untrusted download host."
  let response <- reply
  refuseIf (response.contentLength.any (fun length => decide (maxFileBytes < length)))
    s!"Pack file {path} exceeds the size limit."
  .ok ⟨names, expected.map Char.toLower, response⟩

theorem mandatory_eq_ok {Value : Type} {message : String} {field : Option Value} {value : Value} :
    mandatory message field = .ok value <-> field = some value := by
  unfold mandatory
  cases field <;> simp

/-- What lets a file of the pack be downloaded. -/
structure MayDownload (tools : DownloadTools) (file : MrpackFile) (download : Download) : Prop where
  safe : Exists fun path => safePackPath file.path = .ok path
  names : Paths.relative file.path = .ok download.names
  hash : Exists fun expected => file.hashes.lookup "sha512".toList = some expected /\
    download.expected = expected.map Char.toLower
  trusted : Exists fun url => file.downloads.head? = some url /\ Exists fun parsed =>
    tools.parseUrl url = .ok parsed /\ parsed.scheme = "https".toList /\
      parsed.host = some "cdn.modrinth.com".toList
  size : download.response.contentLength.any (fun length => decide (maxFileBytes < length)) = false

theorem prepareDownload_eq_ok {tools : DownloadTools} {file : MrpackFile} {reply : Except Failure Response}
    {download : Download} :
    prepareDownload tools file reply = .ok download <->
      MayDownload tools file download /\ reply = .ok download.response := by
  rw [prepareDownload]
  simp only [bind_eq_ok, exists_const, mandatory_eq_ok, refuseIf_eq_ok, Bool.or_eq_false_iff, decide_eq_false_iff_not,
    Classical.not_not, Except.ok.injEq]
  constructor
  · rintro ⟨path, safe, names, named, expected, hash, url, first, parsed, read, trusted, response, replied, size, rfl⟩
    exact ⟨⟨⟨path, safe⟩, named, ⟨expected, hash, rfl⟩, ⟨url, first, parsed, read, trusted⟩, size⟩, replied⟩
  · rintro ⟨may, replied⟩
    rcases may.safe with ⟨path, safe⟩
    rcases may.hash with ⟨expected, hash, lower⟩
    rcases may.trusted with ⟨url, first, parsed, read, trusted⟩
    refine ⟨path, safe, download.names, may.names, expected, hash, url, first, parsed, read, trusted,
      download.response, replied, may.size, ?_⟩
    rw [<- lower]

/-- Why a download was not received as a whole. -/
inductive Breakdown where
  | broken (failure : Failure)
  | tooLarge

structure Received where
  bytes : Bytes
  total : Nat
  breakdown : Option Breakdown

/-- Receive chunks, given what was received of the file and of all files. -/
def receive : Bytes -> Nat -> List (Except Failure Bytes) -> Received
  | bytes, total, [] => ⟨bytes, total, none⟩
  | bytes, total, .error failure :: _ => ⟨bytes, total, some (.broken failure)⟩
  | bytes, total, .ok chunk :: rest =>
      if maxFileBytes < bytes.length + chunk.length || maxTotalBytes < total + chunk.length then
        ⟨bytes, total + chunk.length, some .tooLarge⟩
      else receive (bytes ++ chunk) (total + chunk.length) rest

def downloadEnding (tools : DownloadTools) (file : MrpackFile) (download : Download)
    (received : Received) : Ending :=
  match received.breakdown with
  | some (.broken failure) => .interrupted failure
  | some .tooLarge => .discarded (.bail "Modrinth pack exceeds the extraction size limit.")
  | none =>
      if tools.sha512 received.bytes = download.expected then .complete
      else .discarded (.bail s!"SHA-512 verification failed for {String.ofList file.path}.")

/-- A file of the manifest, with the reply to its download. -/
abbrev PackFile := MrpackFile × Except Failure Response

/-- Download one file and return what has been received of all files. -/
def downloadFile (tools : DownloadTools) (root : List Text) (total : Nat) (file : PackFile) :
    PackProgram Nat :=
  match prepareDownload tools file.1 file.2 with
  | .error failure => .failed failure
  | .ok download => do
      let received := receive [] total download.response.chunks
      placeFile (packTarget root download.names) false received.bytes
        (downloadEnding tools file.1 download received)
      .done received.total

/-- Download a file that is meant for servers. -/
def downloadSupported (tools : DownloadTools) (root : List Text) (total : Nat) (file : PackFile) :
    PackProgram Nat :=
  if file.1.isUnsupportedOnServer then .done total else downloadFile tools root total file

def downloadFiles (tools : DownloadTools) (root : List Text) (files : List PackFile) : PackProgram Nat :=
  Program.forEach (downloadSupported tools root) 0 files

/-! ## Overrides -/

/-- An entry of the archive, its content up to where it cannot be read. -/
structure ZipEntry where
  name : Text
  unixMode : Option Nat
  content : Bytes
  fault : Option Failure

def ZipEntry.isDir (entry : ZipEntry) : Bool :=
  decide (entry.name.getLast? = some '/') || decide (entry.name.getLast? = some '\\')

def ZipEntry.isSymlink (entry : ZipEntry) : Bool :=
  entry.unixMode.any (fun mode => mode &&& 0o170000 == 0o120000)

/-- The names below the root which an override has, if it is to be unpacked. -/
def overrideNames (entry : ZipEntry) (relativeName : Text) : Except Failure (List Text) := do
  refuseIf entry.isSymlink "Modrinth pack symbolic links are not allowed."
  safePackPath relativeName

/-- A target whose text ends in a dot is neither removed nor renamed to. -/
def overrideEnding (entry : ZipEntry) : Ending :=
  match entry.fault with
  | some failure => .interrupted failure
  | none =>
      if (entry.name.splitOn '/').getLast? = some ['.'] then .interrupted (.io .other) else .complete

def extractEntry (root : List Text) (entry : ZipEntry) (relativeName : Text) : PackProgram Unit :=
  match overrideNames entry relativeName with
  | .error failure => .failed failure
  | .ok names =>
      if entry.isDir then
        Program.required .io (Program.ask (PackCall.createDirAll ((root ++ names).map .normal)))
      else placeFile (packTarget root names) true entry.content (overrideEnding entry)

/-- An index of the archive under one of the prefixes. -/
structure Override where
  front : Text
  entry : Except Failure ZipEntry

def extractOverride (root : List Text) (item : Override) : PackProgram Unit :=
  match item.entry with
  | .error failure => .failed failure
  | .ok entry =>
      match Text.stripPrefix item.front entry.name with
      | none => .done ()
      | some relativeName =>
          if relativeName.isEmpty then .done () else extractEntry root entry relativeName

def overridesOf (entries : List (Except Failure ZipEntry)) : List Override :=
  ["overrides/".toList, "server-overrides/".toList].flatMap (fun front =>
    entries.map (fun entry => ⟨front, entry⟩))

def extractOverrides (root : List Text) (archive : Except Failure (List (Except Failure ZipEntry))) :
    PackProgram Unit :=
  match archive with
  | .error failure => .failed failure
  | .ok entries => Program.forEach (fun _ item => extractOverride root item) () (overridesOf entries)

/-- The downloads of a pack, and then its overrides. -/
def installFiles (tools : DownloadTools) (root : List Text) (files : List PackFile)
    (archive : Except Failure (List (Except Failure ZipEntry))) : PackProgram Unit := do
  let _ <- downloadFiles tools root files
  extractOverrides root archive

end Storage
end Agapornis
