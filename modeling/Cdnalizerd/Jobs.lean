/-
The work of a job: one attempt, and the retry loop around it.

Every file operation and every network operation of an attempt may throw, and
an exception is known by the handlers that catch it.  An attempt is logged: the
requests sent, the statuses answered, and why nothing had to be sent.
-/

import Cdnalizerd.Config
import Cdnalizerd.Library.Traced

namespace Cdnalizerd

open Library

/-! ### Exceptions -/

/-- An exception, by the types among its bases. -/
structure Thrown where
  systemError : Bool
  boost : Bool
  std : Bool
  stdOfSystemError : systemError = true → std = true
deriving DecidableEq

/-- None of the handlers of `upload` catches it. -/
def Thrown.uncaught (thrown : Thrown) : Bool :=
  !thrown.systemError && !thrown.boost && !thrown.std

/-- `enable_error_info` of a `std::exception`. -/
def Thrown.enabled : Thrown :=
  ⟨false, true, true, fun _ => rfl⟩

/-- `enable_error_info` of a `boost::system::system_error`. -/
def Thrown.enabledSystemError : Thrown :=
  ⟨true, true, true, fun _ => rfl⟩

inductive FileFault where
  | gone
  | empty
  | other
deriving DecidableEq

/-! ### What an attempt does and finds -/

inductive Verb where
  | head
  | put
  | delete
deriving DecidableEq

structure HttpRequest where
  verb : Verb
  target : Bytes
  host : Bytes
  token : Bytes
  etag : Option Bytes := none
  contentLength : Option Nat := none
  /-- The file that is sent along. -/
  body : Option Bytes := none
deriving DecidableEq

inductive Observation where
  | fileGone
  | fileEmpty
  | sameDigest
  | sent (request : HttpRequest)
  | answered (verb : Verb) (status : Nat)
  | networkError
deriving DecidableEq

/-- What the file, the connection and the server will do. -/
structure AttemptSurroundings where
  isRegularFile : Except Thrown Bool
  /-- Mapping the file and taking its MD5. -/
  digest : Except (FileFault × Thrown) (Vector UInt8 16)
  fileSize : Except (FileFault × Thrown) Nat
  /-- Opening the file for the request, which reports its size. -/
  openFile : Except FileFault Nat
  headWrite : Except Thrown Unit
  /-- The status, and the entity tag or nothing. -/
  headResponse : Except Thrown (Nat × Bytes)
  putWrite : Except Thrown Unit
  putResponse : Except Thrown Nat
  deleteWrite : Except Thrown Unit
  deleteResponse : Except Thrown Nat

abbrev Attempt := Traced Thrown Observation

def fileOperation {α : Type} (answer : Except (FileFault × Thrown) α) : Attempt α :=
  match answer with
  | .ok value => pure value
  | .error (.gone, thrown) => Traced.emit .fileGone >>= fun _ => Traced.fail thrown
  | .error (.empty, thrown) => Traced.emit .fileEmpty >>= fun _ => Traced.fail thrown
  | .error (.other, thrown) => Traced.fail thrown

def network {α : Type} (answer : Except Thrown α) : Attempt α :=
  match answer with
  | .ok value => pure value
  | .error thrown => Traced.emit .networkError >>= fun _ => Traced.fail thrown

/-! ### The jobs -/

def hexDigitOf (nibble : UInt8) : UInt8 :=
  if nibble ≤ 9 then 48 + nibble else 97 + nibble - 10

/-- Two lower-case digits for each byte. -/
def hexString (digest : Vector UInt8 16) : Bytes :=
  digest.toList.flatMap fun (byte : UInt8) => [hexDigitOf (byte >>> 4), hexDigitOf (byte &&& 15)]

section Work

variable (around : AttemptSurroundings) (source : Bytes) (dest : URL) (token : Bytes)

/-- Both handlers throw an exception of their own. -/
def md5FromFile : Attempt Bytes :=
  Traced.catchWith
    (do
      let regular ← Traced.ask around.isRegularFile
      if regular then do
        let digest ← fileOperation around.digest
        pure (hexString digest)
      else do
        Traced.emit .fileGone
        pure [])
    fun _thrown => Traced.fail Thrown.enabled

/-- The `switch` over the status of the answer. -/
def uploadAnswered (status : Nat) : Attempt Unit :=
  if status = 202 then pure ()
  else if status = 201 then pure ()
  else if status = 401 ∨ status = 411 ∨ status = 422 then pure ()
  else Traced.fail Thrown.enabled

/-- From opening the file to the answer. -/
def sendFile (md5 : Bytes) : Attempt Unit := do
  let size ← fileOperation
    (around.openFile.mapError fun fault => (fault, Thrown.enabledSystemError))
  Traced.emit (.sent {
    verb := .put
    target := dest.pathAndSearch
    host := dest.host
    token := token
    etag := some md5
    contentLength := some size
    body := some source })
  network around.putWrite
  let status ← network around.putResponse
  Traced.emit (.answered .put status)
  uploadAnswered status

/-- The digest handed over, or else the file's own. -/
def digestToSend (md5 : Bytes) : Attempt Bytes :=
  if md5 = [] ∧ source ≠ [] then md5FromFile around else pure md5

/-- The `try` block of `upload`. -/
def uploadBody (md5 : Bytes) : Attempt Unit := do
  let size ← fileOperation around.fileSize
  if size = 0 then Traced.emit .fileEmpty
  else do
    let md5 ← digestToSend around source md5
    sendFile around source dest token md5

/-- The three handlers log and return. -/
def upload (md5 : Bytes) : Attempt Unit :=
  Traced.catchWith (uploadBody around source dest token md5) fun thrown =>
    if thrown.uncaught then Traced.fail thrown else pure ()

def headAnswered (md5 : Bytes) (status : Nat) (serverMD5 : Bytes) : Attempt Unit :=
  if status = 404 then upload around source dest token md5
  else if status ≠ 200 then Traced.fail Thrown.enabled
  else if md5 ≠ serverMD5 then upload around source dest token md5
  else Traced.emit .sameDigest

def conditionalHead (md5 : Bytes) : Attempt Unit := do
  Traced.emit (.sent {
    verb := .head
    target := dest.path
    host := dest.host
    token := token })
  network around.headWrite
  let response ← network around.headResponse
  Traced.emit (.answered .head response.1)
  headAnswered around source dest token md5 response.1 response.2

/-- The `try` block of the conditional upload. -/
def conditionalBody : Attempt Unit := do
  let md5 ← md5FromFile around
  if md5 = [] then pure ()
  else conditionalHead around source dest token md5

/-- The handlers, the last of which catches everything, log and return. -/
def conditionalUpload : Attempt Unit :=
  Traced.catchWith (conditionalBody around source dest token) fun _thrown => pure ()

def deleteRemoteFile : Attempt Unit := do
  Traced.emit (.sent {
    verb := .delete
    target := dest.path
    host := dest.host
    token := token })
  network around.deleteWrite
  let status ← network around.deleteResponse
  Traced.emit (.answered .delete status)
  if status = 404 then pure ()
  else if status = 204 then pure ()
  else Traced.fail Thrown.enabled

end Work

/-- `Job::go`, which passes every exception on. -/
def Job.go (job : Job) (token : Bytes) (around : AttemptSurroundings) : Attempt Unit :=
  match job with
  | .upload source dest => Cdnalizerd.upload around source dest token []
  | .conditionalUpload source dest => Cdnalizerd.conditionalUpload around source dest token
  | .remoteDelete dest => deleteRemoteFile around dest token

/-! ### The digest of a file -/

theorem hexString_ne_nil (digest : Vector UInt8 16) : hexString digest ≠ [] := by
  intro empty
  have lengths := congrArg List.length empty
  simp [hexString, List.length_flatMap] at lengths

def faultLog : FileFault → List Observation
  | .gone => [.fileGone]
  | .empty => [.fileEmpty]
  | .other => []

section Digest

variable {around : AttemptSurroundings}

theorem md5FromFile_of_regular (regular : around.isRegularFile = .ok true) :
    md5FromFile around =
      match around.digest with
      | .error (fault, _thrown) => ⟨faultLog fault, .error Thrown.enabled⟩
      | .ok digest => ⟨[], .ok (hexString digest)⟩ := by
  unfold md5FromFile
  rw [regular]
  cases around.digest with
  | error reason =>
      obtain ⟨fault, thrown⟩ := reason
      cases fault <;> rfl
  | ok digest => rfl

theorem md5FromFile_of_irregular (irregular : around.isRegularFile = .ok false) :
    md5FromFile around = ⟨[.fileGone], .ok []⟩ := by
  unfold md5FromFile
  rw [irregular]
  rfl

theorem md5FromFile_of_error {thrown : Thrown} (failed : around.isRegularFile = .error thrown) :
    md5FromFile around = ⟨faultLog .other, .error Thrown.enabled⟩ := by
  unfold md5FromFile
  rw [failed]
  rfl

end Digest

/-! ### The retry loop of `doWork` -/

def maxRetries : Nat := 3

inductive WorkEvent where
  | finished (attempt : Nat)
  | reconnecting (attempt : Nat)
deriving DecidableEq

/-- The inner `while` loop. Its handlers between them catch every exception of
the job, and none that `reconnect` throws. -/
@[semireducible] def retryLoop (attempt : Nat → Attempt Unit) (reconnect : Nat → Except Thrown Unit)
    (retries : Nat) : Traced Thrown WorkEvent Nat :=
  if retries ≤ maxRetries then
    match (attempt retries).result with
    | .ok _ => do
        Traced.emit (.finished retries)
        pure retries
    | .error _ => do
        Traced.emit (.reconnecting retries)
        Traced.ask (reconnect retries)
        retryLoop attempt reconnect (retries + 1)
  else pure retries
termination_by maxRetries + 1 - retries

end Cdnalizerd
