import Mathlib.Data.List.Basic
import Mathlib.Logic.Function.Basic
import Agapornis.Core.Failure
import Agapornis.Foundations.Machine
import Agapornis.Foundations.Program
import Agapornis.Foundations.Text

namespace Agapornis
namespace Security

open Foundations Agapornis.Core

/-!
# Certificate bundles

The agent keeps a certificate, its key and the authority that signed it in three
files, and the bundle before in three more.  An installation replaces the files
one after the other, and a rollback swaps each of them with the one before.
Both are programs of file-system calls, of which each may fail and between which
the calls of other requests may fall.
-/

inductive BundlePart where
  | certificate
  | key
  | authority
  deriving DecidableEq, Repr

def bundleParts : List BundlePart :=
  [.certificate, .key, .authority]

inductive FileKind where
  | active
  | previous
  | new
  deriving DecidableEq, Repr

structure CertificateFile where
  part : BundlePart
  kind : FileKind
  deriving DecidableEq, Repr

variable {Content : Type}

abbrev CertificateStore (Content : Type) := CertificateFile -> Option Content

structure Bundle (Content : Type) where
  certificate : Content
  key : Content
  authority : Content
  deriving DecidableEq, Repr

def Bundle.part (bundle : Bundle Content) : BundlePart -> Content
  | .certificate => bundle.certificate
  | .key => bundle.key
  | .authority => bundle.authority

/-- What is used of contents and of the libraries that read them.  Validation is
that of the agent at an instant, with the fingerprint as its result. -/
structure CertificateLibrary (Content : Type) where
  empty : Content
  isText : Content -> Bool
  validate : Int -> Content -> Content -> Except Failure Text
  identity : Bundle Content -> Except Failure Unit

/-! ## Calls -/

inductive CertificateCall (Content : Type) where
  | createDirAll (part : BundlePart)
  | probe (file : CertificateFile)
  | read (file : CertificateFile)
  | readToString (file : CertificateFile)
  | create (file : CertificateFile)
  | fill (file : CertificateFile) (content : Content)
  | rename (source target : CertificateFile)
  deriving DecidableEq, Repr

@[reducible] def CertificateCall.Reply : CertificateCall Content -> Type
  | .createDirAll _ => Except Errno Unit
  | .probe _ => Bool
  | .read _ => Except Errno Content
  | .readToString _ => Except Errno Content
  | .create _ => Except Errno Unit
  | .fill _ _ => Except Errno Unit
  | .rename _ _ => Except Errno Unit

/-- A call that goes wrong, and what it has left in the file if it was writing. -/
structure Fault (Content : Type) where
  error : Errno
  left : Content

/-- What a call does without a fault. -/
def perform (library : CertificateLibrary Content) :
    (request : CertificateCall Content) -> CertificateStore Content ->
      request.Reply × CertificateStore Content
  | .createDirAll _, store => (.ok (), store)
  | .probe file, store => ((store file).isSome, store)
  | .read file, store =>
      (match store file with
        | some content => .ok content
        | none => .error .notFound, store)
  | .readToString file, store =>
      (match store file with
        | some content => if library.isText content then .ok content else .error .other
        | none => .error .notFound, store)
  | .create file, store => (.ok (), Function.update store file (some library.empty))
  | .fill file content, store =>
      (.ok (), if (store file).isSome then Function.update store file (some content) else store)
  | .rename source target, store =>
      match store source with
      | some content =>
          (.ok (), Function.update (Function.update store target (some content)) source none)
      | none => (.error .notFound, store)

/-- The reply to a call that goes wrong. -/
def refusal (error : Errno) : (request : CertificateCall Content) -> request.Reply
  | .createDirAll _ => .error error
  | .probe _ => false
  | .read _ => .error error
  | .readToString _ => .error error
  | .create _ => .error error
  | .fill _ _ => .error error
  | .rename _ _ => .error error

/-- The files after a call that goes wrong: only writing may have left something. -/
def leftBehind (left : Content) : CertificateCall Content -> CertificateStore Content ->
    CertificateStore Content
  | .fill file _, store =>
      if (store file).isSome then Function.update store file (some left) else store
  | _, store => store

def performWithFault (library : CertificateLibrary Content) : Option (Fault Content) ->
    (request : CertificateCall Content) -> CertificateStore Content ->
      request.Reply × CertificateStore Content
  | none, request, store => perform library request store
  | some fault, request, store => (refusal fault.error request, leftBehind fault.left request store)

/-! ## Operations -/

abbrev CertificateProgram (Content : Type) :=
  Program (CertificateCall Content) CertificateCall.Reply Failure

def require {Result : Type} (program : CertificateProgram Content (Except Errno Result)) :
    CertificateProgram Content Result :=
  program >>= fun
    | .ok value => .done value
    | .error error => .failed (.io error)

def requireFor {Result : Type} (message : String)
    (program : CertificateProgram Content (Except Errno Result)) : CertificateProgram Content Result :=
  program >>= fun
    | .ok value => .done value
    | .error error => .failed (.context message (.io error))

namespace Fs

open Program (ask)

@[simp] def createDirAll (part : BundlePart) : CertificateProgram Content (Except Errno Unit) :=
  ask (CertificateCall.createDirAll part)
@[simp] def probe (file : CertificateFile) : CertificateProgram Content Bool :=
  ask (CertificateCall.probe file)
@[simp] def read (file : CertificateFile) : CertificateProgram Content (Except Errno Content) :=
  ask (CertificateCall.read file)
@[simp] def readToString (file : CertificateFile) : CertificateProgram Content (Except Errno Content) :=
  ask (CertificateCall.readToString file)
@[simp] def create (file : CertificateFile) : CertificateProgram Content (Except Errno Unit) :=
  ask (CertificateCall.create file)
@[simp] def fill (file : CertificateFile) (content : Content) :
    CertificateProgram Content (Except Errno Unit) :=
  ask (CertificateCall.fill file content)
@[simp] def rename (source target : CertificateFile) : CertificateProgram Content (Except Errno Unit) :=
  ask (CertificateCall.rename source target)

/-- Write a file anew. -/
def write (file : CertificateFile) (content : Content) :
    CertificateProgram Content (Except Errno Unit) := do
  match ← create file with
  | .error error => return .error error
  | .ok () => fill file content

/-- Copy a file over another one. -/
def copy (source target : CertificateFile) : CertificateProgram Content (Except Errno Unit) := do
  match ← read source with
  | .error error => return .error error
  | .ok content => write target content

end Fs

/-- Replace a file, keeping the one before. -/
def replaceWithPrevious (part : BundlePart) (content : Content) : CertificateProgram Content Unit := do
  require (Fs.createDirAll part)
  if ← Fs.probe ⟨part, .active⟩ then
    requireFor "preserve previous certificate" (Fs.copy ⟨part, .active⟩ ⟨part, .previous⟩)
  require (Fs.write ⟨part, .new⟩ content)
  require (Fs.rename ⟨part, .new⟩ ⟨part, .active⟩)

/-- Fingerprints are compared without colons, white space and case. -/
def cleanFingerprint (value : Text) : Text :=
  (Text.trim (value.filter (· ≠ ':'))).map Char.toLower

def constantFingerprint (one other : Text) : Bool :=
  cleanFingerprint one = cleanFingerprint other

def install (library : CertificateLibrary Content) (now : Int) (bundle : Bundle Content) (expected : Text) :
    CertificateProgram Content Text :=
  match library.validate now bundle.certificate bundle.authority with
  | .error failure => .failed failure
  | .ok fingerprint =>
      if constantFingerprint fingerprint expected then
        match library.identity bundle with
        | .error failure => .failed
            (.context "certificate and private key did not form a valid TLS identity" failure)
        | .ok _ => do
            replaceWithPrevious .certificate bundle.certificate
            replaceWithPrevious .key bundle.key
            replaceWithPrevious .authority bundle.authority
            return fingerprint
      else .failed (.bail "certificate fingerprint did not match expected fingerprint")

/-- The bundle before has to be there. -/
def requirePrevious : List BundlePart -> CertificateProgram Content Unit
  | [] => .done ()
  | part :: rest => do
      if ← Fs.probe ⟨part, .previous⟩ then requirePrevious rest
      else .failed (.bail "previous certificate bundle is not available")

/-- Swap each file with the one before. -/
def swapWithPrevious : List BundlePart -> CertificateProgram Content Unit
  | [] => .done ()
  | part :: rest => do
      let current ← require (Fs.read ⟨part, .active⟩)
      let old ← require (Fs.read ⟨part, .previous⟩)
      require (Fs.write ⟨part, .active⟩ old)
      require (Fs.write ⟨part, .previous⟩ current)
      swapWithPrevious rest

def rollback (library : CertificateLibrary Content) (now : Int) : CertificateProgram Content Text := do
  requirePrevious bundleParts
  swapWithPrevious bundleParts
  let certificate ← require (Fs.readToString ⟨.certificate, .active⟩)
  let authority ← require (Fs.readToString ⟨.authority, .active⟩)
  match library.validate now certificate authority with
  | .error failure => .failed failure
  | .ok fingerprint => return fingerprint

/-! ## Requests -/

/-- A request under way, with the bundle it installs, if any, and the files as
they were when it began. -/
structure Request (Content : Type) where
  program : CertificateProgram Content Text
  bundle : Option (Bundle Content)
  before : CertificateStore Content
  /-- It has changed, or tried to change, a file of one of the two bundles. -/
  touched : Bool := false

/-- The files and the requests under way.  The bundles of which the installation
has succeeded, and the request that has just returned, are kept for the
statements only. -/
structure CertificateManager (Content : Type) where
  store : CertificateStore Content
  requests : List (Request Content) := []
  installed : List (Bundle Content) := []
  /-- Whether the request that has just returned failed, and the files before it. -/
  returned : Option (Bool × CertificateStore Content) := none

inductive CertificateAction (Content : Type) where
  | install (now : Int) (bundle : Bundle Content) (expected : Text)
  | rollback (now : Int)
  /-- A request makes its next call, or returns. -/
  | proceed (request : Nat) (fault : Option (Fault Content))

/-- A call changes a file of one of the two bundles. -/
def CertificateCall.touches : CertificateCall Content -> Bool
  | .create file => file.kind ≠ .new
  | .fill file _ => file.kind ≠ .new
  | .rename source target => source.kind ≠ .new || target.kind ≠ .new
  | _ => false

namespace CertificateManager

def begin (manager : CertificateManager Content) (program : CertificateProgram Content Text)
    (bundle : Option (Bundle Content)) : CertificateManager Content :=
  { manager with
    requests := manager.requests ++ [{ program := program, bundle := bundle, before := manager.store }]
    returned := none }

def step (library : CertificateLibrary Content) (manager : CertificateManager Content) :
    CertificateAction Content -> CertificateManager Content
  | .install now bundle expected =>
      manager.begin (Security.install library now bundle expected) (some bundle)
  | .rollback now => manager.begin (Security.rollback library now) none
  | .proceed index fault =>
      match manager.requests[index]? with
      | none => { manager with returned := none }
      | some request =>
          match request.program with
          | .done _ =>
              { manager with
                requests := manager.requests.eraseIdx index
                installed := request.bundle.toList ++ manager.installed
                returned := some (false, request.before) }
          | .failed _ =>
              { manager with
                requests := manager.requests.eraseIdx index
                returned := some (true, request.before) }
          | .call call next =>
              let performed := performWithFault library fault call manager.store
              { manager with
                store := performed.2
                requests := manager.requests.set index
                  { request with
                    program := next performed.1
                    touched := request.touched || call.touches }
                returned := none }

end CertificateManager

/-- The files of an agent with an active bundle and one before it, if there are any. -/
def provisioned (active previous : Option (Bundle Content)) : CertificateStore Content :=
  fun file =>
    match file.kind with
    | .active => active.map fun bundle => bundle.part file.part
    | .previous => previous.map fun bundle => bundle.part file.part
    | .new => none

namespace CertificateManager

def start (active previous : Option (Bundle Content)) : CertificateManager Content where
  store := provisioned active previous
  installed := active.toList ++ previous.toList

abbrev after (library : CertificateLibrary Content) (active previous : Option (Bundle Content))
    (run : List (CertificateAction Content)) : CertificateManager Content :=
  Machine.reach (step library) (start active previous) run

end CertificateManager

end Security
end Agapornis
