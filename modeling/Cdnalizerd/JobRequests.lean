/-
The requests that a job sends.

An upload sends nothing but the file, a conditional one first asks for the object
that is there, and a deletion is one request.
-/

import Cdnalizerd.Jobs

namespace Cdnalizerd

open Library

/-! ### What is sent -/

def putRequest (source : Bytes) (dest : URL) (token md5 : Bytes) (size : Nat) : HttpRequest where
  verb := .put
  target := dest.pathAndSearch
  host := dest.host
  token := token
  etag := some md5
  contentLength := some size
  body := some source

def headRequest (dest : URL) (token : Bytes) : HttpRequest where
  verb := .head
  target := dest.path
  host := dest.host
  token := token

def deleteRequest (dest : URL) (token : Bytes) : HttpRequest where
  verb := .delete
  target := dest.path
  host := dest.host
  token := token

def IsDigestText (etag : Bytes) : Prop :=
  etag = [] ∨ ∃ digest, etag = hexString digest

def SentAsPut (source : Bytes) (dest : URL) (token : Bytes) (request : HttpRequest) : Prop :=
  ∃ etag size, IsDigestText etag ∧ request = putRequest source dest token etag size

inductive SentFor (source : Bytes) (dest : URL) (token : Bytes) : HttpRequest → Prop where
  | put {etag : Bytes} (size : Nat) (digested : IsDigestText etag) :
      SentFor source dest token (putRequest source dest token etag size)
  | head : SentFor source dest token (headRequest dest token)
  | delete : SentFor source dest token (deleteRequest dest token)

def AttemptSurroundings.Filled (around : AttemptSurroundings) : Prop :=
  ∃ size, around.fileSize = .ok size ∧ size ≠ 0

section Requests

variable {around : AttemptSurroundings} {source : Bytes} {dest : URL} {token md5 : Bytes}
variable {request : HttpRequest}

/-! ### What sends nothing -/

theorem sent_not_mem_fileOperation {α : Type} (answer : Except (FileFault × Thrown) α) :
    Observation.sent request ∉ (fileOperation answer).trace := by
  rcases answer with ⟨fault, thrown⟩ | value
  · cases fault <;> simp [fileOperation, Traced.emit_bind, Traced.fail]
  · simp [fileOperation]

theorem sent_not_mem_network {α : Type} (answer : Except Thrown α) :
    Observation.sent request ∉ (network answer).trace := by
  cases answer <;> simp [network, Traced.emit_bind, Traced.fail]

theorem sent_not_mem_md5FromFile : Observation.sent request ∉ (md5FromFile around).trace := by
  intro member
  rcases Traced.mem_catchWith_iff.mp member with inBody | ⟨_thrown, _failed, wrong⟩
  · obtain ⟨regular, _looked, later⟩ := Traced.mem_ask_bind_iff.mp inBody
    cases regular with
    | true =>
        rcases Traced.mem_bind_iff.mp later with mapped | ⟨_digest, _mapped, wrong⟩
        · exact sent_not_mem_fileOperation _ mapped
        · cases wrong
    | false =>
        rcases Traced.mem_emit_bind_iff.mp later with wrong | wrong
        · cases wrong
        · cases wrong
  · cases wrong

theorem sent_not_mem_uploadAnswered (status : Nat) :
    Observation.sent request ∉ (uploadAnswered status).trace := by
  unfold uploadAnswered
  split
  · simp
  · split
    · simp
    · split
      · simp
      · simp [Traced.fail]

/-- Between a request and what its answer leads to, nothing else is sent. -/
theorem sent_of_answered {α β : Type} {written : Except Thrown Unit} {answer : Except Thrown α}
    {verb : Verb} {status : α → Nat} {next : α → Attempt β}
    (member : Observation.sent request ∈ (do
      network written
      let value ← network answer
      Traced.emit (.answered verb (status value))
      next value : Attempt β).trace) :
    ∃ value, Observation.sent request ∈ (next value).trace := by
  rcases Traced.mem_bind_iff.mp member with wrong | ⟨_unit, _written, later⟩
  · exact (sent_not_mem_network _ wrong).elim
  rcases Traced.mem_bind_iff.mp later with wrong | ⟨value, _answered, later⟩
  · exact (sent_not_mem_network _ wrong).elim
  rcases Traced.mem_emit_bind_iff.mp later with wrong | later
  · cases wrong
  · exact ⟨value, later⟩

/-! ### What the jobs send -/

theorem isDigestText_of_file (taken : (md5FromFile around).result = .ok md5) :
    IsDigestText md5 := by
  cases looked : around.isRegularFile with
  | error thrown =>
      rw [md5FromFile_of_error looked] at taken
      cases taken
  | ok regular =>
      cases regular with
      | false =>
          rw [md5FromFile_of_irregular looked] at taken
          exact Or.inl (Except.ok.inj taken).symm
      | true =>
          rw [md5FromFile_of_regular looked] at taken
          cases read : around.digest with
          | error reason =>
              rw [read] at taken
              cases taken
          | ok digest =>
              rw [read] at taken
              exact Or.inr ⟨digest, (Except.ok.inj taken).symm⟩

theorem put_of_sendFile (digested : IsDigestText md5)
    (member : Observation.sent request ∈ (sendFile around source dest token md5).trace) :
    SentAsPut source dest token request := by
  unfold sendFile at member
  rcases Traced.mem_bind_iff.mp member with wrong | ⟨size, _opened, later⟩
  · exact (sent_not_mem_fileOperation _ wrong).elim
  rcases Traced.mem_emit_bind_iff.mp later with same | later
  · exact ⟨md5, size, digested, Observation.sent.inj same⟩
  obtain ⟨status, wrong⟩ := sent_of_answered later
  exact (sent_not_mem_uploadAnswered status wrong).elim

theorem fileOperation_returned {α : Type} {answer : Except (FileFault × Thrown) α} {value : α}
    (returned : (fileOperation answer).result = .ok value) : answer = .ok value := by
  cases answer with
  | error reason =>
      obtain ⟨fault, thrown⟩ := reason
      cases fault with
      | gone => cases returned
      | empty => cases returned
      | other => cases returned
  | ok size => exact congrArg Except.ok (Except.ok.inj returned)

theorem put_of_upload (digested : IsDigestText md5)
    (member : Observation.sent request ∈ (upload around source dest token md5).trace) :
    around.Filled ∧ SentAsPut source dest token request := by
  rcases Traced.mem_catchWith_iff.mp member with inBody | ⟨thrown, _failed, wrong⟩
  · unfold uploadBody at inBody
    rcases Traced.mem_bind_iff.mp inBody with wrong | ⟨size, measured, later⟩
    · exact (sent_not_mem_fileOperation _ wrong).elim
    split at later
    · cases List.mem_singleton.mp later
    · rename_i filled
      refine ⟨⟨size, fileOperation_returned measured, filled⟩, ?_⟩
      rcases Traced.mem_bind_iff.mp later with wrong | ⟨taken, digestTaken, sent⟩
      · unfold digestToSend at wrong
        split at wrong
        · exact (sent_not_mem_md5FromFile wrong).elim
        · cases wrong
      · refine put_of_sendFile ?_ sent
        unfold digestToSend at digestTaken
        split at digestTaken
        · exact isDigestText_of_file digestTaken
        · exact Except.ok.inj digestTaken ▸ digested
  · split at wrong
    · cases wrong
    · cases wrong

theorem sent_of_conditionalUpload
    (member : Observation.sent request ∈ (conditionalUpload around source dest token).trace) :
    request = headRequest dest token ∨
      around.Filled ∧ SentAsPut source dest token request := by
  rcases Traced.mem_catchWith_iff.mp member with inBody | ⟨_thrown, _failed, wrong⟩
  · unfold conditionalBody at inBody
    rcases Traced.mem_bind_iff.mp inBody with wrong | ⟨md5, taken, later⟩
    · exact (sent_not_mem_md5FromFile wrong).elim
    have digested := isDigestText_of_file taken
    split at later
    · cases later
    unfold conditionalHead at later
    rcases Traced.mem_emit_bind_iff.mp later with same | later
    · exact Or.inl (Observation.sent.inj same)
    obtain ⟨response, later⟩ := sent_of_answered later
    unfold headAnswered at later
    split at later
    · exact Or.inr (put_of_upload digested later)
    split at later
    · cases later
    split at later
    · exact Or.inr (put_of_upload digested later)
    · cases List.mem_singleton.mp later
  · cases wrong

theorem sent_of_delete
    (member : Observation.sent request ∈ (deleteRemoteFile around dest token).trace) :
    request = deleteRequest dest token := by
  unfold deleteRemoteFile at member
  rcases Traced.mem_emit_bind_iff.mp member with same | later
  · exact Observation.sent.inj same
  obtain ⟨status, later⟩ := sent_of_answered later
  split at later
  · cases later
  · split at later
    · cases later
    · cases later

theorem SentAsPut.sentFor (sent : SentAsPut source dest token request) :
    SentFor source dest token request := by
  obtain ⟨etag, size, digested, rfl⟩ := sent
  exact .put size digested

theorem sentFor_of_job {job : Job}
    (member : Observation.sent request ∈ (job.go token around).trace) :
    SentFor job.source job.destination token request := by
  cases job with
  | upload source dest => exact (put_of_upload (Or.inl rfl) member).2.sentFor
  | conditionalUpload source dest =>
      rcases sent_of_conditionalUpload member with rfl | put
      · exact .head
      · exact put.2.sentFor
  | remoteDelete dest =>
      rw [sent_of_delete member]
      exact .delete

end Requests

end Cdnalizerd
