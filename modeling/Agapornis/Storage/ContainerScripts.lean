import Agapornis.Foundations.Numerals
import Agapornis.Foundations.ShellRuns
import Agapornis.Storage.Moving

namespace Agapornis
namespace Storage

open Foundations Agapornis.Core
open Foundations.Shell (Symbol Token Script bare quoted reads)

/-!
# The scripts that are run in a container

Where the files of a server are reached through its container, an operation
is a text handed to the shell there.  Each text stands beside the script that
it is read as.
-/

/-! ## Complaints -/

/-- A message that a script leaves with, and its status. -/
structure Complaint where
  message : Text
  code : Text
  unquoted : Shell.singleQuote ∉ message := by decide
  word : reads code = some [.word (bare code)] := by decide
  nonzero : Nat.ofDigitChars 10 code 0 ≠ 0 := by decide

namespace Complaint

def text (complaint : Complaint) : Text :=
  "echo '".toList ++ complaint.message ++ "' >&2; exit ".toList ++ complaint.code

def moveNoDirectory : Complaint where
  message := "Move destination must be a directory.".toList
  code := "44".toList

def moveUnavailable : Complaint where
  message := "Move source is unavailable.".toList
  code := "45".toList

def moveAlreadyThere : Complaint where
  message := "An item is already in the selected destination.".toList
  code := "46".toList

def moveNameTaken : Complaint where
  message := "An item with that name already exists.".toList
  code := "47".toList

def moveInsideItself : Complaint where
  message := "A directory cannot be moved inside itself.".toList
  code := "48".toList

def archiveNoDirectory : Complaint where
  message := "Archive destination directory does not exist.".toList
  code := "44".toList

def archiveNameTaken : Complaint where
  message := "An item with the archive name already exists.".toList
  code := "45".toList

def archiveUnavailable : Complaint where
  message := "Archive source is unavailable.".toList
  code := "46".toList

def archiveInsideSource : Complaint where
  message := "An archive cannot be created inside a selected directory.".toList
  code := "47".toList

end Complaint

/-- A test, and what is said and done where it fails. -/
def demanded (test : Text) (complaint : Complaint) : Text :=
  test ++ (" || ".toList ++ ("\x7b ".toList ++ complaint.text ++ "; \x7d".toList))

/-- What is said and done where one path lies below another. -/
def forbidden (inner outer : Text) (complaint : Complaint) : Text :=
  "case ".toList ++ shellQuote inner ++ "/ in ".toList ++ shellQuote outer ++ "/*) ".toList ++
    complaint.text ++ ";; esac".toList

def isDirectoryTest (path : Text) : Text :=
  "[ -d ".toList ++ shellQuote path ++ " ]".toList

def absentTest (path : Text) : Text :=
  "[ ! -e ".toList ++ shellQuote path ++ " ]".toList

def availableTest (path : Text) : Text :=
  "[ -e ".toList ++ shellQuote path ++ " ] && [ ! -L ".toList ++ shellQuote path ++ " ]".toList

def differentTest (first second : Text) : Text :=
  "[ ".toList ++ shellQuote first ++ " != ".toList ++ shellQuote second ++ " ]".toList

/-! ## The operations -/

/-- What is written through a container: the file, and the directory that is made before. -/
structure WriteJob where
  parent : Text
  target : Text
  deriving DecidableEq, Repr

def WriteJob.text (job : WriteJob) : Text :=
  "mkdir -p -- ".toList ++ shellQuote job.parent ++ (" && ".toList ++
    ("cat".toList ++ (" > ".toList ++ shellQuote job.target)))

/-- The directory part of a path, or the container directory where there is none. -/
def parentOr (container path : Text) : Text :=
  ((Text.rsplitOnce '/' path).map Prod.fst).getD container

def writeInContainer (root : Root) (path : Text) : Except Failure WriteJob := do
  refuseIf (cleanPath path).isEmpty "A file path is required."
  let target <- Paths.containerPath root.container (cleanPath path)
  .ok ⟨parentOr root.container (Paths.slashed target), Paths.slashed target⟩

def createDirectoryText (target : Text) : Text :=
  "mkdir -- ".toList ++ shellQuote target

def createDirectoryInContainer (root : Root) (path : Text) : Except Failure Text := do
  let relative <- requiredRelativePath path "A directory path is required."
  let target <- Paths.containerPath root.container (Paths.display relative)
  .ok (createDirectoryText (Paths.slashed target))

/-- One entry that is moved, and the path it is moved to. -/
structure MoveItem where
  source : Text
  target : Text
  deriving DecidableEq, Repr

structure MoveJob where
  destination : Text
  items : List MoveItem
  deriving DecidableEq, Repr

namespace MoveJob

def check (destination : Text) (item : MoveItem) : Text :=
  "; ".toList.intercalate
    [demanded (availableTest item.source) .moveUnavailable,
      demanded (differentTest item.source item.target) .moveAlreadyThere,
      demanded (absentTest item.target) .moveNameTaken,
      forbidden destination item.source .moveInsideItself]

def move (item : MoveItem) : Text :=
  "mv -- ".toList ++ shellQuote item.source ++ ' ' :: shellQuote item.target

def text (job : MoveJob) : Text :=
  "; ".toList.intercalate
    (demanded (isDirectoryTest job.destination) .moveNoDirectory ::
      (job.items.map (check job.destination) ++ job.items.map move))

end MoveJob

def trimSlashes (path : Text) : Text :=
  (path.reverse.dropWhile (· = '/')).reverse

/-- The loop of `moveFilesInContainer` over the sources. -/
def moveItems (root : Root) (destination : Text) : List (List Text) -> Except Failure (List MoveItem)
  | [] => .ok []
  | relative :: rest => do
      let source <- Paths.containerPath root.container (Paths.display relative)
      let name <- fileName (relative.map .normal)
      let items <- moveItems root destination rest
      .ok (⟨Paths.slashed source, trimSlashes destination ++ '/' :: name⟩ :: items)

def moveFilesInContainer (root : Root) (sourcePaths : List Text) (destinationPath : Text) :
    Except Failure MoveJob := do
  let sources <- validatedSources sourcePaths
  let destinationRelative <- Paths.relative destinationPath
  let destination <- Paths.containerPath root.container (Paths.display destinationRelative)
  let items <- moveItems root (Paths.slashed destination) sources
  .ok ⟨Paths.slashed destination, items⟩

/-- The script by which at most so many bytes of a file are read. -/
def readText (byteLimit : Nat) (path : Text) : Text :=
  "head -c ".toList ++ Text.decimal byteLimit ++ " -- ".toList ++ shellQuote path ++
    (" | ".toList ++ "base64".toList)

structure ArchiveItem where
  source : Text
  relative : Text
  deriving DecidableEq, Repr

structure ArchiveJob where
  root : Text
  parent : Text
  destination : Text
  temporary : Text
  items : List ArchiveItem
  deriving DecidableEq, Repr

namespace ArchiveJob

def check (destination : Text) (item : ArchiveItem) : Text :=
  "; ".toList.intercalate
    [demanded (availableTest item.source) .archiveUnavailable,
      forbidden destination item.source .archiveInsideSource]

/-- The quoted sources with blanks between them. -/
def sourceWords (items : List ArchiveItem) : Text :=
  " ".toList.intercalate (items.map (fun item => shellQuote item.relative))

/-- The command that has the temporary file removed when the shell ends. -/
def trapText (job : ArchiveJob) : Text :=
  "trap 'rm -f -- ".toList ++ (shellQuote job.temporary ++ "' EXIT".toList)

def enterText (job : ArchiveJob) : Text :=
  "cd ".toList ++ shellQuote job.root

def packText (job : ArchiveJob) : Text :=
  "tar -czf ".toList ++ shellQuote job.temporary ++ " -- ".toList ++ sourceWords job.items

def putText (job : ArchiveJob) : Text :=
  "mv -- ".toList ++ shellQuote job.temporary ++ ' ' :: shellQuote job.destination

def text (job : ArchiveJob) : Text :=
  "; ".toList.intercalate
    (demanded (isDirectoryTest job.parent) .archiveNoDirectory ::
      (demanded (absentTest job.destination) .archiveNameTaken ::
        job.items.map (check job.destination) ++
        [job.trapText, job.enterText, job.packText, job.putText, "trap - EXIT".toList]))

end ArchiveJob

/-- The loop of `createArchiveInContainer` over the sources. -/
def archiveItems (root : Root) : List (List Text) -> Except Failure (List ArchiveItem)
  | [] => .ok []
  | relative :: rest => do
      let source <- Paths.containerPath root.container (Paths.display relative)
      let items <- archiveItems root rest
      .ok (⟨Paths.slashed source, Paths.display relative⟩ :: items)

/-- A random identifier: groups of hexadecimal digits with dashes between them. -/
structure Uuid where
  groups : List Text
  last : Text
  last_ne : last ≠ []
  hexadecimal : (groups ++ [last]).all (fun group => group.all Char.isAlphanum) = true

def Uuid.text (uuid : Uuid) : Text :=
  uuid.groups.flatMap (fun group => group ++ ['-']) ++ uuid.last

def createArchiveInContainer (root : Root) (sourcePaths : List Text) (destinationPath : Text)
    (uuid : Uuid) : Except Failure ArchiveJob := do
  let sources <- validatedSources sourcePaths
  let destinationRelative <-
    requiredRelativePath destinationPath "An archive destination path is required."
  refuseIf (!(".tar.gz".toList.isSuffixOf ((Paths.display destinationRelative).map Char.toLower)))
    "Archive name must end with .tar.gz."
  let destination <- Paths.containerPath root.container (Paths.display destinationRelative)
  let items <- archiveItems root sources
  .ok
    { root := root.container
      parent := parentOr root.container (Paths.slashed destination)
      destination := Paths.slashed destination
      temporary := Paths.slashed destination ++ ".agapornis-".toList ++ uuid.text
      items }

/-! ## What the texts are read as -/

/-- The commands and choices in the scripts; those about one of several entries carry its number. -/
inductive Step where
  | makeParent
  | fill
  | makeDirectory
  | remove
  | rename
  | isDirectory
  | absent
  | available (index : Nat)
  | notLink (index : Nat)
  | different (index : Nat)
  | free (index : Nat)
  | inside (index : Nat)
  | move (index : Nat)
  | enter
  | pack
  | put
  | limit
  | encode
  | report
  deriving DecidableEq, Repr

/-- A word that stands in a text as it is. -/
def plain (word : String) : List Symbol :=
  bare word.toList

def Complaint.script (complaint : Complaint) : Script Step :=
  .sequence (.report .report [bare "echo".toList, quoted complaint.message]) (.exit complaint.code)

def demand (test : Script Step) (complaint : Complaint) : Script Step :=
  Script.demand test .report complaint.message complaint.code

def forbid (choice : Step) (inner outer : Text) (complaint : Complaint) : Script Step :=
  Script.forbid choice (quoted inner ++ plain "/") (quoted outer ++ plain "/*") .report
    complaint.message complaint.code

def isDirectoryScript (path : Text) : Script Step :=
  .simple .isDirectory [plain "[", plain "-d", quoted path, plain "]"]

def absentScript (step : Step) (path : Text) : Script Step :=
  .simple step [plain "[", plain "!", plain "-e", quoted path, plain "]"]

def availableScript (index : Nat) (path : Text) : Script Step :=
  .both (.simple (.available index) [plain "[", plain "-e", quoted path, plain "]"])
    (.simple (.notLink index) [plain "[", plain "!", plain "-L", quoted path, plain "]"])

def differentScript (index : Nat) (first second : Text) : Script Step :=
  .simple (.different index) [plain "[", quoted first, plain "!=", quoted second, plain "]"]

/-! The scripts of the operations -/

def WriteJob.script (job : WriteJob) : Script Step :=
  .both (.simple .makeParent [plain "mkdir", plain "-p", plain "--", quoted job.parent])
    (.store .fill [plain "cat"] (quoted job.target))

def createDirectoryScript (target : Text) : Script Step :=
  .simple .makeDirectory [plain "mkdir", plain "--", quoted target]

def ContainerCommand.script : ContainerCommand -> Script Step
  | .remove target => .simple .remove [plain "rm", plain "-rf", plain "--", quoted target]
  | .move source destination =>
      .sequence (.either (absentScript .absent destination) (.exit "45".toList))
        (.simple .rename [plain "mv", plain "--", quoted source, quoted destination])

namespace MoveJob

def checkScript (destination : Text) (item : MoveItem × Nat) : Script Step :=
  .inOrder (demand (availableScript item.2 item.1.source) .moveUnavailable)
    [demand (differentScript item.2 item.1.source item.1.target) .moveAlreadyThere,
      demand (absentScript (.free item.2) item.1.target) .moveNameTaken,
      forbid (.inside item.2) destination item.1.source .moveInsideItself]

def moveScript (item : MoveItem × Nat) : Script Step :=
  .simple (.move item.2) [plain "mv", plain "--", quoted item.1.source, quoted item.1.target]

def script (job : MoveJob) : Script Step :=
  .inOrder (demand (isDirectoryScript job.destination) .moveNoDirectory)
    (job.items.zipIdx.map (checkScript job.destination) ++ job.items.zipIdx.map moveScript)

end MoveJob

/-- The script of a read; the output of the first command goes into the second. -/
def readScript (byteLimit : Nat) (path : Text) : Script Step :=
  .pipe (.simple .limit [plain "head", plain "-c", bare (Text.decimal byteLimit), plain "--", quoted path])
    (.simple .encode [plain "base64"])

namespace ArchiveJob

def checkScripts (destination : Text) (item : ArchiveItem × Nat) : Script Step :=
  .sequence (demand (availableScript item.2 item.1.source) .archiveUnavailable)
    (forbid (.inside item.2) destination item.1.source .archiveInsideSource)

def checkScript (job : ArchiveJob) : Script Step :=
  .inOrder (demand (isDirectoryScript job.parent) .archiveNoDirectory)
    (demand (absentScript .absent job.destination) .archiveNameTaken ::
      job.items.zipIdx.map (checkScripts job.destination))

/-- What is done once the trap is set. -/
def restScript (job : ArchiveJob) : Script Step :=
  .inOrder (.simple .enter [plain "cd", quoted job.root])
    [.simple .pack ([plain "tar", plain "-czf", quoted job.temporary, plain "--"] ++
        job.items.map (fun item => quoted item.relative)),
      .simple .put [plain "mv", plain "--", quoted job.temporary, quoted job.destination],
      .untrap]

/-- The script with the word that the argument of the trap comes to. -/
def script (job : ArchiveJob) (action : List Symbol) : Script Step :=
  .sequence job.checkScript (.sequence (.trap action) job.restScript)

end ArchiveJob

/-! ## The words of the tests -/

theorem reads_shellQuote (text : Text) : reads (shellQuote text) = some [.word (quoted text)] :=
  Shell.reads_quote text

theorem quote_of_plain {text : Text} (plain : Shell.singleQuote ∉ text) :
    Shell.quote text = "'".toList ++ text ++ "'".toList := by
  rw [Shell.quote, Shell.enclosed_of_not_mem plain]
  rfl

theorem echo_text (message code : Text) :
    "echo '".toList ++ message ++ "' >&2; exit ".toList ++ code =
      "echo".toList ++ ' ' :: ("'".toList ++ message ++ "'".toList ++ ' ' :: ">&2".toList) ++
        ("; ".toList ++ ("exit".toList ++ ' ' :: code)) := by
  simp

theorem Complaint.reads_text (complaint : Complaint) :
    reads complaint.text = some complaint.script.tokens := by
  have echo : reads "echo".toList = some [.word (plain "echo")] := by decide
  have toStderr : reads ">&2".toList = some [.operator ">&".toList, .word (plain "2")] := by decide
  have exit : reads "exit".toList = some [.word (plain "exit")] := by decide
  have message := Shell.reads_quote complaint.message
  rw [quote_of_plain complaint.unquoted] at message
  have both := Shell.reads_semicolon (Shell.reads_blank echo (Shell.reads_blank message toStderr))
    (Shell.reads_blank exit complaint.word)
  rw [← echo_text] at both
  exact both

theorem demanded_text (test complaint : Text) :
    test ++ (" || ".toList ++ ("\x7b ".toList ++ complaint ++ "; \x7d".toList)) =
      test ++ (" || ".toList ++ ("\x7b".toList ++ ' ' :: (complaint ++ ("; ".toList ++ "\x7d".toList)))) := by
  simp

/-- A demanded test is read as the demand of what the test is read as. -/
theorem reads_demanded {test : Text} {script : Script Step} (found : reads test = some script.tokens)
    (complaint : Complaint) : reads (demanded test complaint) = some (demand script complaint).tokens := by
  have opening : reads "\x7b".toList = some [.word (plain "\x7b")] := by decide
  have closing : reads "\x7d".toList = some [.word (plain "\x7d")] := by decide
  have whole := Shell.reads_or found
    (Shell.reads_blank opening (Shell.reads_semicolon complaint.reads_text closing))
  rw [← demanded_text] at whole
  exact whole

theorem forbidden_text (inner outer complaint : Text) :
    "case ".toList ++ inner ++ "/ in ".toList ++ outer ++ "/*) ".toList ++ complaint ++ ";; esac".toList =
      "case".toList ++ ' ' :: (inner ++ "/".toList ++ ' ' :: ("in".toList ++ ' ' :: (outer ++ "/*".toList ++
        (')' :: [] ++ ' ' :: (complaint ++ (';' :: [';'] ++ ' ' :: "esac".toList)))))) := by
  simp only [List.append_assoc, List.cons_append, List.nil_append]
  rfl

theorem reads_forbidden (choice : Step) (inner outer : Text) (complaint : Complaint) :
    reads (forbidden inner outer complaint) = some (forbid choice inner outer complaint).tokens := by
  have opening : reads "case".toList = some [.word (plain "case")] := by decide
  have between : reads "in".toList = some [.word (plain "in")] := by decide
  have closing : reads "esac".toList = some [.word (plain "esac")] := by decide
  have subject : reads (shellQuote inner ++ "/".toList) = some [.word (quoted inner ++ plain "/")] :=
    Shell.reads_quote_bare inner (List.all_eq_true.mp (by decide))
  have pattern : reads (shellQuote outer ++ "/*".toList) = some [.word (quoted outer ++ plain "/*")] :=
    Shell.reads_quote_bare outer (List.all_eq_true.mp (by decide))
  have body := @Shell.reads_operator ';' [';'] (fun _ => rfl) rfl (by decide) _ _ _ _ complaint.reads_text
    closing
  have arm := @Shell.reads_operator ')' [] (fun _ => rfl) rfl (by decide) _ _ _ _ pattern body
  have whole := Shell.reads_blank opening (Shell.reads_blank subject (Shell.reads_blank between arm))
  have same : forbidden inner outer complaint = _ :=
    forbidden_text (shellQuote inner) (shellQuote outer) complaint.text
  rw [same, whole]
  simp only [forbid, Script.forbid, Script.tokens, Complaint.script, List.append_assoc]
  rfl

theorem reads_closing : reads "]".toList = some [.word (plain "]")] := by
  decide

theorem isDirectoryTest_text (path : Text) :
    "[ -d ".toList ++ path ++ " ]".toList = "[ -d".toList ++ ' ' :: (path ++ ' ' :: "]".toList) := by
  simp only [List.append_assoc]
  rfl

theorem reads_isDirectoryTest (path : Text) :
    reads (isDirectoryTest path) = some (isDirectoryScript path).tokens := by
  have opening : reads "[ -d".toList = some [.word (plain "["), .word (plain "-d")] := by decide
  have same : isDirectoryTest path = _ := isDirectoryTest_text (shellQuote path)
  rw [same]
  exact Shell.reads_blank opening (Shell.reads_blank (reads_shellQuote path) reads_closing)

theorem absentTest_text (path : Text) :
    "[ ! -e ".toList ++ path ++ " ]".toList = "[ ! -e".toList ++ ' ' :: (path ++ ' ' :: "]".toList) := by
  simp only [List.append_assoc]
  rfl

theorem reads_absentTest (step : Step) (path : Text) :
    reads (absentTest path) = some (absentScript step path).tokens := by
  have opening : reads "[ ! -e".toList = some [.word (plain "["), .word (plain "!"), .word (plain "-e")] := by
    decide
  have same : absentTest path = _ := absentTest_text (shellQuote path)
  rw [same]
  exact Shell.reads_blank opening (Shell.reads_blank (reads_shellQuote path) reads_closing)

theorem availableTest_text (path : Text) :
    "[ -e ".toList ++ path ++ " ] && [ ! -L ".toList ++ path ++ " ]".toList =
      "[ -e".toList ++ ' ' :: (path ++ ' ' :: "]".toList) ++ (" && ".toList ++
        ("[ ! -L".toList ++ ' ' :: (path ++ ' ' :: "]".toList))) := by
  simp only [List.append_assoc, List.cons_append]
  rfl

theorem reads_availableTest (index : Nat) (path : Text) :
    reads (availableTest path) = some (availableScript index path).tokens := by
  have existing : reads "[ -e".toList = some [.word (plain "["), .word (plain "-e")] := by decide
  have link : reads "[ ! -L".toList = some [.word (plain "["), .word (plain "!"), .word (plain "-L")] := by
    decide
  have quotedPath := Shell.reads_blank (reads_shellQuote path) reads_closing
  have same : availableTest path = _ := availableTest_text (shellQuote path)
  rw [same]
  exact Shell.reads_and (Shell.reads_blank existing quotedPath) (Shell.reads_blank link quotedPath)

theorem differentTest_text (first second : Text) :
    "[ ".toList ++ first ++ " != ".toList ++ second ++ " ]".toList =
      "[".toList ++ ' ' :: (first ++ ' ' :: ("!=".toList ++ ' ' :: (second ++ ' ' :: "]".toList))) := by
  simp only [List.append_assoc]
  rfl

theorem reads_differentTest (index : Nat) (first second : Text) :
    reads (differentTest first second) = some (differentScript index first second).tokens := by
  have opening : reads "[".toList = some [.word (plain "[")] := by decide
  have between : reads "!=".toList = some [.word (plain "!=")] := by decide
  have same : differentTest first second = _ := differentTest_text (shellQuote first) (shellQuote second)
  rw [same]
  exact Shell.reads_blank opening (Shell.reads_blank (reads_shellQuote first)
    (Shell.reads_blank between (Shell.reads_blank (reads_shellQuote second) reads_closing)))

end Storage
end Agapornis
