/-
The connection a worker's jobs share.

What the server has sent and no job has read is in the connection's read buffer
and behind it in the stream.  A job writes a request, which the server answers,
and then reads in its own way: the header of an answer, or the whole of it.
The parser is a parameter; it sees the bytes at hand and says how many it
takes.
-/

import Cdnalizerd.Jobs
import Cdnalizerd.Library.Stateful

namespace Cdnalizerd

open Library

structure Response where
  status : Nat
  etag : Bytes
  header : Bytes
  body : Bytes
deriving DecidableEq

/-- How many bytes the parser takes, and what it makes of them. -/
structure Beast where
  /-- `async_read_header` on a parser that skips the body. -/
  readHeader : Bytes → Except Thrown (Nat × Bytes) × Nat
  /-- `async_read` of a response with a string body. -/
  readMessage : Bytes → Except Thrown Nat × Nat

def Beast.readStatus (beast : Beast) (bytes : Bytes) : Except Thrown Nat × Nat :=
  ((beast.readHeader bytes).1.map Prod.fst, (beast.readHeader bytes).2)

/-- The parser reads an answer as documented: of a header exactly the header,
of a message exactly one message. -/
structure Beast.Reads (beast : Beast) (reply : Response) : Prop where
  header : ∀ rest, beast.readHeader (reply.header ++ rest) =
    (.ok (reply.status, reply.etag), reply.header.length)
  message : ∀ rest, beast.readMessage (reply.header ++ reply.body ++ rest) =
    (.ok reply.status, (reply.header ++ reply.body).length)

/-- The answers to the requests of an attempt.  Of what a read leaves, a part is
in the read buffer already. -/
structure Replies where
  head : Response
  put : Response
  delete : Response
  buffered : Nat

structure Wire where
  readBuffer : Bytes := []
  stream : Bytes := []
  log : List Observation := []
  /-- What was unread when the last request was written. -/
  ahead : Bytes := []
  /-- The same, of every answer that a job has started to read. -/
  starts : List Bytes := []
deriving DecidableEq

namespace Wire

def unread (wire : Wire) : Bytes :=
  wire.readBuffer ++ wire.stream

def observe (wire : Wire) (events : List Observation) : Wire :=
  { wire with log := wire.log ++ events }

def answeredWith (wire : Wire) (reply : Bytes) : Wire :=
  { wire with
    stream := wire.stream ++ reply
    ahead := wire.unread }

def taken (wire : Wire) (count buffered : Nat) : Wire :=
  { wire with
    readBuffer := (wire.unread.drop count).take buffered
    stream := (wire.unread.drop count).drop buffered
    starts := wire.starts ++ [wire.ahead] }

/-- `reconnect`: an emptied read buffer and a new stream. -/
def reconnected (wire : Wire) : Wire :=
  { wire with
    readBuffer := []
    stream := [] }

end Wire

abbrev Exchange := Stateful Wire Thrown

def offWire {α : Type} (attempt : Attempt α) : Exchange α :=
  fun wire => (attempt.result, wire.observe attempt.trace)

/-- `async_write` of a request.  What the server receives, it answers. -/
def writeRequest (request : HttpRequest) (written : Except Thrown Unit) (reply : Bytes) :
    Exchange Unit := do
  offWire (Traced.emit (.sent request))
  match written with
  | .ok _ => Stateful.change fun wire => wire.answeredWith reply
  | .error thrown => offWire (network (.error thrown))

def readWith {α : Type} (parse : Bytes → Except Thrown α × Nat) (buffered : Nat) : Exchange α :=
  fun wire =>
    let outcome := parse wire.unread
    let later := wire.taken outcome.2 buffered
    offWire (network outcome.1) later

/-! ### The jobs on the connection -/

section Work

variable (beast : Beast) (around : AttemptSurroundings) (replies : Replies)
  (source : Bytes) (dest : URL) (token : Bytes)

/-- The rest of the `try` block of `upload`, as in `sendFile`. -/
def sendFileOn (md5 : Bytes) : Exchange Unit := do
  let size ← offWire (fileOperation
    (around.openFile.mapError fun fault => (fault, Thrown.enabledSystemError)))
  writeRequest {
    verb := .put
    target := dest.pathAndSearch
    host := dest.host
    token := token
    etag := some md5
    contentLength := some size
    body := some source } around.putWrite (replies.put.header ++ replies.put.body)
  let status ← readWith beast.readMessage replies.buffered
  offWire (Traced.emit (.answered .put status))
  offWire (uploadAnswered status)

def uploadBodyOn (md5 : Bytes) : Exchange Unit := do
  let size ← offWire (fileOperation around.fileSize)
  if size = 0 then offWire (Traced.emit .fileEmpty)
  else do
    let md5 ← offWire (digestToSend around source md5)
    sendFileOn beast around replies source dest token md5

def uploadOn (md5 : Bytes) : Exchange Unit :=
  Stateful.catchWith (uploadBodyOn beast around replies source dest token md5) fun thrown =>
    if thrown.uncaught then Stateful.fail thrown else pure ()

def headAnsweredOn (md5 : Bytes) (status : Nat) (serverMD5 : Bytes) : Exchange Unit :=
  if status = 404 then uploadOn beast around replies source dest token md5
  else if status ≠ 200 then Stateful.fail Thrown.enabled
  else if md5 ≠ serverMD5 then uploadOn beast around replies source dest token md5
  else offWire (Traced.emit .sameDigest)

/-- The answer to a `HEAD` has no body. -/
def conditionalHeadOn (md5 : Bytes) : Exchange Unit := do
  writeRequest {
    verb := .head
    target := dest.path
    host := dest.host
    token := token } around.headWrite replies.head.header
  let response ← readWith beast.readHeader replies.buffered
  offWire (Traced.emit (.answered .head response.1))
  headAnsweredOn beast around replies source dest token md5 response.1 response.2

def conditionalBodyOn : Exchange Unit := do
  let md5 ← offWire (md5FromFile around)
  if md5 = [] then pure ()
  else conditionalHeadOn beast around replies source dest token md5

def conditionalUploadOn : Exchange Unit :=
  Stateful.catchWith (conditionalBodyOn beast around replies source dest token)
    fun _thrown => pure ()

def deleteRemoteFileOn : Exchange Unit := do
  writeRequest {
    verb := .delete
    target := dest.path
    host := dest.host
    token := token } around.deleteWrite (replies.delete.header ++ replies.delete.body)
  let status ← readWith beast.readStatus replies.buffered
  offWire (Traced.emit (.answered .delete status))
  if status = 404 then pure ()
  else if status = 204 then pure ()
  else Stateful.fail Thrown.enabled

end Work

def Job.goOn (beast : Beast) (job : Job) (token : Bytes) (around : AttemptSurroundings)
    (replies : Replies) : Exchange Unit :=
  match job with
  | .upload source dest => uploadOn beast around replies source dest token []
  | .conditionalUpload source dest => conditionalUploadOn beast around replies source dest token
  | .remoteDelete dest => deleteRemoteFileOn beast around replies dest token

/-! ### A worker's jobs, one after the other -/

structure Turn where
  job : Job
  token : Bytes
  around : AttemptSurroundings
  replies : Replies

def Turn.attempt (beast : Beast) (turn : Turn) : Exchange Unit :=
  turn.job.goOn beast turn.token turn.around turn.replies

/-- An attempt that throws is followed by a reconnect. -/
def Turn.serve (beast : Beast) (wire : Wire) (turn : Turn) : Wire :=
  match turn.attempt beast wire with
  | (.ok _, later) => later
  | (.error _, later) => later.reconnected

/-- The connection after the attempts of a worker, retries included. -/
def runTurns (beast : Beast) (turns : List Turn) : Wire :=
  turns.foldl (Turn.serve beast) {}

end Cdnalizerd
