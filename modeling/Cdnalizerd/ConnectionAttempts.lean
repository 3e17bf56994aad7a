/-
An attempt on a connection is an attempt.

With the answers it reads put into its surroundings, a job on the connection
returns or throws as the job does, and logs the same.
-/

import Cdnalizerd.Connection

namespace Cdnalizerd

open Library

/-- The exchange does what the attempt does, from this connection on. -/
structure Matches {α : Type} (program : Exchange α) (attempt : Attempt α) (wire : Wire) :
    Prop where
  result : (program wire).1 = attempt.result
  log : (program wire).2.log = wire.log ++ attempt.trace

section Rules

variable {α β : Type} {wire : Wire}

theorem matches_offWire (attempt : Attempt α) : Matches (offWire attempt) attempt wire :=
  ⟨rfl, rfl⟩

theorem matches_fail (thrown : Thrown) :
    Matches (Stateful.fail thrown : Exchange α) (Traced.fail thrown) wire :=
  ⟨rfl, (List.append_nil _).symm⟩

theorem matches_pure (value : α) : Matches (pure value) (pure value) wire :=
  ⟨rfl, (List.append_nil _).symm⟩

theorem matches_bind {program : Exchange α} {attempt : Attempt α} {next : α → Exchange β}
    {continued : α → Attempt β} (first : Matches program attempt wire)
    (second : ∀ value later, program wire = (.ok value, later) →
      Matches (next value) (continued value) later) :
    Matches (program >>= next) (attempt >>= continued) wire := by
  rcases ran : program wire with ⟨thrown | value, later⟩
  · have failed : attempt.result = .error thrown := by rw [← first.result, ran]
    constructor
    · rw [Stateful.bind_of_error ran, Traced.bind_of_error failed]
    · rw [Stateful.bind_of_error ran, Traced.bind_of_error failed, ← first.log, ran]
  · have returned : attempt.result = .ok value := by rw [← first.result, ran]
    have rest := second value later ran
    have logged : later.log = wire.log ++ attempt.trace := by rw [← first.log, ran]
    constructor
    · rw [Stateful.bind_of_ok ran, Traced.bind_of_ok returned, rest.result]
    · rw [Stateful.bind_of_ok ran, Traced.bind_of_ok returned, rest.log, logged,
        List.append_assoc]

theorem matches_catch {program : Exchange α} {attempt : Attempt α}
    {handler : Thrown → Exchange α} {handled : Thrown → Attempt α}
    (body : Matches program attempt wire)
    (caught : ∀ thrown later, program wire = (.error thrown, later) →
      Matches (handler thrown) (handled thrown) later) :
    Matches (Stateful.catchWith program handler) (Traced.catchWith attempt handled) wire := by
  unfold Stateful.catchWith Traced.catchWith
  rcases ran : program wire with ⟨thrown | value, later⟩
  · have failed : attempt.result = .error thrown := by rw [← body.result, ran]
    have rest := caught thrown later ran
    have logged : later.log = wire.log ++ attempt.trace := by rw [← body.log, ran]
    rw [failed]
    constructor
    · simp only [ran, rest.result]
    · simp only [ran, rest.log, logged, List.append_assoc]
  · have returned : attempt.result = .ok value := by rw [← body.result, ran]
    rw [returned]
    constructor
    · simp only [ran]
    · simp only [ran, ← body.log]

theorem matches_ite {condition : Prop} [Decidable condition] {yes no : Exchange α}
    {onYes onNo : Attempt α} (first : condition → Matches yes onYes wire)
    (second : ¬ condition → Matches no onNo wire) :
    Matches (if condition then yes else no) (if condition then onYes else onNo) wire := by
  by_cases holds : condition
  · rw [if_pos holds, if_pos holds]
    exact first holds
  · rw [if_neg holds, if_neg holds]
    exact second holds

theorem matches_writeRequest (request : HttpRequest) (written : Except Thrown Unit)
    (reply : Bytes) :
    Matches (writeRequest request written reply)
      (Traced.emit (.sent request) >>= fun _ => network written) wire := by
  apply matches_bind (matches_offWire _)
  intro _unit later _ran
  cases written with
  | error thrown => exact matches_offWire _
  | ok value => exact ⟨rfl, (List.append_nil _).symm⟩

theorem matches_readWith {parse : Bytes → Except Thrown α × Nat} {answer : Except Thrown α}
    (read : answer = (parse wire.unread).1) (buffered : Nat) :
    Matches (readWith parse buffered) (network answer) wire := by
  rw [read]
  exact ⟨rfl, rfl⟩

theorem unread_of_offWire {attempt : Attempt α} {outcome : Except Thrown α} {later : Wire}
    (ran : offWire attempt wire = (outcome, later)) : later.unread = wire.unread := by
  have same : later = wire.observe attempt.trace := (congrArg Prod.snd ran).symm
  rw [same]
  rfl

theorem unread_of_writeRequest {request : HttpRequest} {written : Except Thrown Unit}
    {reply : Bytes} {value : Unit} {later : Wire}
    (ran : writeRequest request written reply wire = (.ok value, later)) :
    later.unread = wire.unread ++ reply := by
  cases written with
  | error thrown => cases congrArg Prod.fst ran
  | ok _value =>
      have same : later = (wire.observe [.sent request]).answeredWith reply :=
        (congrArg Prod.snd ran).symm
      rw [same]
      exact (List.append_assoc _ _ _).symm

theorem unread_of_readWith {parse : Bytes → Except Thrown α × Nat} {buffered : Nat} {value : α}
    {later : Wire} (ran : readWith parse buffered wire = (.ok value, later)) :
    later.unread = wire.unread.drop (parse wire.unread).2 := by
  have same : later = ((wire.taken (parse wire.unread).2 buffered).observe _) :=
    (congrArg Prod.snd ran).symm
  rw [same]
  exact List.take_append_drop buffered _

end Rules

/-! ### The jobs -/

section Jobs

variable {beast : Beast} {around answered : AttemptSurroundings} {replies : Replies}
  {source token : Bytes} {dest : URL} {wire : Wire}

structure SameBesidesAnswers (around answered : AttemptSurroundings) : Prop where
  isRegularFile : answered.isRegularFile = around.isRegularFile
  digest : answered.digest = around.digest
  fileSize : answered.fileSize = around.fileSize
  openFile : answered.openFile = around.openFile
  headWrite : answered.headWrite = around.headWrite
  putWrite : answered.putWrite = around.putWrite
  deleteWrite : answered.deleteWrite = around.deleteWrite

theorem md5FromFile_congr (same : SameBesidesAnswers around answered) :
    md5FromFile answered = md5FromFile around := by
  unfold md5FromFile
  rw [same.isRegularFile, same.digest]

theorem matches_sendFileOn (same : SameBesidesAnswers around answered)
    (read : answered.putResponse =
      (beast.readMessage (wire.unread ++ (replies.put.header ++ replies.put.body))).1)
    (md5 : Bytes) :
    Matches (sendFileOn beast around replies source dest token md5)
      (sendFile answered source dest token md5) wire := by
  unfold sendFileOn sendFile
  rw [same.openFile, same.putWrite]
  apply matches_bind (matches_offWire _)
  intro size opened ran
  have unreadOpened := unread_of_offWire ran
  rw [← Traced.bind_assoc]
  apply matches_bind (matches_writeRequest _ _ _)
  intro _unit written ran
  have unreadWritten := unread_of_writeRequest ran
  rw [unreadOpened] at unreadWritten
  apply matches_bind (matches_readWith (by rw [read, unreadWritten]) _)
  intro status later _ran
  apply matches_bind (matches_offWire _)
  exact fun _ _ _ => matches_offWire _

theorem matches_uploadOn (same : SameBesidesAnswers around answered)
    (read : answered.putResponse =
      (beast.readMessage (wire.unread ++ (replies.put.header ++ replies.put.body))).1)
    (md5 : Bytes) :
    Matches (uploadOn beast around replies source dest token md5)
      (upload answered source dest token md5) wire := by
  have digests : digestToSend answered source md5 = digestToSend around source md5 := by
    unfold digestToSend
    rw [md5FromFile_congr same]
  apply matches_catch
  · unfold uploadBodyOn uploadBody
    rw [same.fileSize, digests]
    apply matches_bind (matches_offWire _)
    intro size measured ran
    have unreadMeasured := unread_of_offWire ran
    apply matches_ite
    · exact fun _ => matches_offWire _
    · intro _filled
      apply matches_bind (matches_offWire _)
      intro digest digested ran
      exact matches_sendFileOn same
        (by rw [read, unread_of_offWire ran, unreadMeasured]) digest
  · intro thrown later _ran
    apply matches_ite
    · exact fun _ => matches_fail thrown
    · exact fun _ => matches_pure ()

theorem matches_headAnsweredOn (same : SameBesidesAnswers around answered)
    (read : answered.putResponse =
      (beast.readMessage (wire.unread ++ (replies.put.header ++ replies.put.body))).1)
    (md5 : Bytes) (status : Nat) (serverMD5 : Bytes) :
    Matches (headAnsweredOn beast around replies source dest token md5 status serverMD5)
      (headAnswered answered source dest token md5 status serverMD5) wire := by
  apply matches_ite
  · exact fun _ => matches_uploadOn same read md5
  intro _found
  apply matches_ite
  · exact fun _ => matches_fail _
  intro _ok
  apply matches_ite
  · exact fun _ => matches_uploadOn same read md5
  · exact fun _ => matches_offWire _

/-- What a conditional upload finds unread when the answer to its `HEAD` has
arrived. -/
def Wire.headUnread (wire : Wire) (replies : Replies) : Bytes :=
  wire.unread ++ replies.head.header

theorem matches_conditionalUploadOn (same : SameBesidesAnswers around answered)
    (readHead : answered.headResponse = (beast.readHeader (wire.headUnread replies)).1)
    (readPut : answered.putResponse = (beast.readMessage
      ((wire.headUnread replies).drop (beast.readHeader (wire.headUnread replies)).2 ++
        (replies.put.header ++ replies.put.body))).1) :
    Matches (conditionalUploadOn beast around replies source dest token)
      (conditionalUpload answered source dest token) wire := by
  apply matches_catch
  · unfold conditionalBodyOn conditionalBody
    rw [md5FromFile_congr same]
    apply matches_bind (matches_offWire _)
    intro md5 digested ran
    have unreadDigested := unread_of_offWire ran
    apply matches_ite
    · exact fun _ => matches_pure ()
    intro _digest
    unfold conditionalHeadOn conditionalHead
    rw [same.headWrite, ← Traced.bind_assoc]
    apply matches_bind (matches_writeRequest _ _ _)
    intro _unit written ran
    have unreadWritten : written.unread = wire.headUnread replies := by
      rw [unread_of_writeRequest ran, unreadDigested]
      rfl
    apply matches_bind (matches_readWith (by rw [readHead, unreadWritten]) _)
    intro response headRead ran
    have unreadLeft := unread_of_readWith ran
    rw [unreadWritten] at unreadLeft
    apply matches_bind (matches_offWire _)
    intro _unit logged ran
    exact matches_headAnsweredOn same
      (by rw [readPut, unread_of_offWire ran, unreadLeft]) md5 _ _
  · exact fun _ _ _ => matches_pure ()

theorem matches_deleteRemoteFileOn (same : SameBesidesAnswers around answered)
    (read : answered.deleteResponse = (beast.readStatus
      (wire.unread ++ (replies.delete.header ++ replies.delete.body))).1) :
    Matches (deleteRemoteFileOn beast around replies dest token)
      (deleteRemoteFile answered dest token) wire := by
  unfold deleteRemoteFileOn deleteRemoteFile
  rw [same.deleteWrite, ← Traced.bind_assoc]
  apply matches_bind (matches_writeRequest _ _ _)
  intro _unit written ran
  apply matches_bind (matches_readWith (by rw [read, unread_of_writeRequest ran]) _)
  intro status later _ran
  apply matches_bind (matches_offWire _)
  intro _unit logged _ran
  apply matches_ite
  · exact fun _ => matches_pure ()
  intro _found
  apply matches_ite
  · exact fun _ => matches_pure ()
  · exact fun _ => matches_fail _

end Jobs

/-- The answers that a job reads: what was left unread before it comes first, and then
what the server replies to its own requests. -/
def Job.answeredOn (job : Job) (beast : Beast) (around : AttemptSurroundings) (replies : Replies)
    (wire : Wire) : AttemptSurroundings :=
  match job with
  | .upload _source _dest =>
      { around with putResponse :=
          (beast.readMessage (wire.unread ++ (replies.put.header ++ replies.put.body))).1 }
  | .conditionalUpload _source _dest =>
      let head := beast.readHeader (wire.headUnread replies)
      { around with
        headResponse := head.1
        putResponse := (beast.readMessage
          ((wire.headUnread replies).drop head.2 ++
            (replies.put.header ++ replies.put.body))).1 }
  | .remoteDelete _dest =>
      { around with deleteResponse :=
          (beast.readStatus
            (wire.unread ++ (replies.delete.header ++ replies.delete.body))).1 }

theorem sameBesidesAnswers_answeredOn (beast : Beast) (job : Job) (around : AttemptSurroundings)
    (replies : Replies) (wire : Wire) :
    SameBesidesAnswers around (job.answeredOn beast around replies wire) := by
  cases job with
  | upload source dest => exact ⟨rfl, rfl, rfl, rfl, rfl, rfl, rfl⟩
  | conditionalUpload source dest => exact ⟨rfl, rfl, rfl, rfl, rfl, rfl, rfl⟩
  | remoteDelete dest => exact ⟨rfl, rfl, rfl, rfl, rfl, rfl, rfl⟩

/-- A job on a connection is the job, with the answers that it reads there. -/
theorem goOn_matches (beast : Beast) (job : Job) (token : Bytes) (around : AttemptSurroundings)
    (replies : Replies) (wire : Wire) :
    Matches (job.goOn beast token around replies)
      (job.go token (job.answeredOn beast around replies wire)) wire := by
  have same := sameBesidesAnswers_answeredOn beast job around replies wire
  cases job with
  | upload source dest => exact matches_uploadOn same rfl []
  | conditionalUpload source dest => exact matches_conditionalUploadOn same rfl rfl
  | remoteDelete dest => exact matches_deleteRemoteFileOn same rfl

end Cdnalizerd
