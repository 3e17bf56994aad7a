/-
Which answer a job reads.

An upload reads a whole message and the answer to a `HEAD` has no body, so both
leave the connection as they found it.  A deletion reads the header only, and
where it takes the status for success the body stays unread: the next job finds
it ahead of its own answer.
-/

import Cdnalizerd.Connection
import Cdnalizerd.JobAttempts

namespace Cdnalizerd

open Library Stateful

/-! ### States of the connection between requests -/

def OwnStarts (wire : Wire) : Prop :=
  ∀ ahead ∈ wire.starts, ahead = []

def Tidy (wire : Wire) : Prop :=
  wire.unread = [] ∧ OwnStarts wire

def Owing (reply : Bytes) (wire : Wire) : Prop :=
  wire.unread = reply ∧ wire.ahead = [] ∧ OwnStarts wire

def Left (rest : Bytes) (wire : Wire) : Prop :=
  wire.unread = rest ∧ OwnStarts wire

theorem Tidy.reconnected {wire : Wire} (own : OwnStarts wire) : Tidy wire.reconnected :=
  ⟨rfl, own⟩

theorem Wire.unread_taken (wire : Wire) (count buffered : Nat) :
    (wire.taken count buffered).unread = wire.unread.drop count :=
  List.take_append_drop buffered _

theorem Wire.unread_answeredWith (wire : Wire) (reply : Bytes) :
    (wire.answeredWith reply).unread = wire.unread ++ reply :=
  (List.append_assoc _ _ _).symm

/-! ### Single operations -/

section Operations

variable {α : Type} {before : Wire → Prop}

/-- What the log does not matter to survives every operation off the wire. -/
theorem triple_offWire (blind : ∀ wire events, before wire → before (wire.observe events))
    (attempt : Attempt α) :
    Triple before (offWire attempt) (fun _ => before) (fun _ => before) := by
  intro wire holds
  unfold offWire
  cases attempt.result with
  | ok value => exact blind wire attempt.trace holds
  | error thrown => exact blind wire attempt.trace holds

theorem tidy_observe (wire : Wire) (events : List Observation) (holds : Tidy wire) :
    Tidy (wire.observe events) :=
  holds

theorem triple_writeRequest (request : HttpRequest) (written : Except Thrown Unit)
    (reply : Bytes) :
    Triple Tidy (writeRequest request written reply) (fun _ => Owing reply) (fun _ => Tidy) := by
  apply triple_bind (triple_offWire tidy_observe _)
  intro _unit
  cases written with
  | ok value =>
      rintro wire ⟨nothing, own⟩
      refine ⟨?_, nothing, own⟩
      rw [Wire.unread_answeredWith, nothing, List.nil_append]
  | error thrown =>
      intro wire holds
      exact holds

/-- A read of an answer that the parser knows starts at its first byte. -/
theorem triple_readWith {parse : Bytes → Except Thrown α × Nat} {read rest : Bytes} {value : α}
    (parsed : parse (read ++ rest) = (.ok value, read.length)) (buffered : Nat) :
    Triple (Owing (read ++ rest)) (readWith parse buffered)
      (fun answer wire => answer = value ∧ Left rest wire) (fun _ _ => False) := by
  rintro wire ⟨unread, nothing, own⟩
  unfold readWith
  rw [unread, parsed]
  refine ⟨rfl, ?_, ?_⟩
  · change (wire.taken _ _).unread = rest
    rw [Wire.unread_taken, unread, List.drop_left]
  · intro ahead member
    rcases List.mem_append.mp member with early | last
    · exact own ahead early
    · rw [List.mem_singleton.mp last, nothing]

end Operations

/-! ### The jobs -/

section Jobs

variable {beast : Beast} {around : AttemptSurroundings} {replies : Replies}
  {source token : Bytes} {dest : URL}

theorem triple_readMessage {reply : Response} (known : beast.Reads reply) (buffered : Nat) :
    Triple (Owing (reply.header ++ reply.body)) (readWith beast.readMessage buffered)
      (fun _ => Tidy) (fun _ => Tidy) := by
  have parsed := known.message []
  have read := triple_readWith parsed buffered
  rw [List.append_nil] at read
  exact triple_consequence read (fun _ => id) (fun _ _ holds => holds.2) fun _ _ => False.elim

theorem triple_readHeader {reply : Response} (known : beast.Reads reply) (rest : Bytes)
    (fails : Thrown → Wire → Prop) (buffered : Nat) :
    Triple (Owing (reply.header ++ rest)) (readWith beast.readHeader buffered)
      (fun answer wire => answer = (reply.status, reply.etag) ∧ Left rest wire) fails :=
  triple_consequence (triple_readWith (known.header rest) buffered) (fun _ => id)
    (fun _ _ => id) fun _ _ => False.elim

theorem triple_sendFileOn (known : beast.Reads replies.put) (md5 : Bytes) :
    Triple Tidy (sendFileOn beast around replies source dest token md5)
      (fun _ => Tidy) (fun _ => Tidy) := by
  apply triple_bind (triple_offWire tidy_observe _)
  intro size
  apply triple_bind (triple_writeRequest _ _ _)
  intro _unit
  apply triple_bind (triple_readMessage known _)
  intro status
  apply triple_bind (triple_offWire tidy_observe _)
  intro _unit
  exact triple_offWire tidy_observe _

theorem triple_uploadOn (known : beast.Reads replies.put) (md5 : Bytes) :
    Triple Tidy (uploadOn beast around replies source dest token md5)
      (fun _ => Tidy) (fun _ => Tidy) := by
  have body : Triple Tidy (uploadBodyOn beast around replies source dest token md5)
      (fun _ => Tidy) (fun _ => Tidy) := by
    apply triple_bind (triple_offWire tidy_observe _)
    intro size
    apply triple_ite
    · exact fun _ => triple_offWire tidy_observe _
    · intro _filled
      apply triple_bind (triple_offWire tidy_observe _)
      exact triple_sendFileOn known
  apply triple_catch body
  intro thrown
  apply triple_ite
  · exact fun _ => triple_fail fun _ => id
  · exact fun _ => triple_pure fun _ => id

theorem triple_headAnsweredOn (known : beast.Reads replies.put) (md5 : Bytes) (status : Nat)
    (serverMD5 : Bytes) :
    Triple Tidy (headAnsweredOn beast around replies source dest token md5 status serverMD5)
      (fun _ => Tidy) (fun _ => Tidy) := by
  apply triple_ite
  · exact fun _ => triple_uploadOn known md5
  intro _found
  apply triple_ite
  · exact fun _ => triple_fail fun _ => id
  intro _ok
  apply triple_ite
  · exact fun _ => triple_uploadOn known md5
  · exact fun _ => triple_offWire tidy_observe _

theorem triple_conditionalUploadOn (knownHead : beast.Reads replies.head)
    (knownPut : beast.Reads replies.put) :
    Triple Tidy (conditionalUploadOn beast around replies source dest token)
      (fun _ => Tidy) (fun _ => Tidy) := by
  have asked (md5 : Bytes) :
      Triple Tidy (conditionalHeadOn beast around replies source dest token md5)
        (fun _ => Tidy) (fun _ => Tidy) := by
    apply triple_bind (triple_writeRequest _ _ _)
    intro _unit
    have noBody : replies.head.header ++ [] = replies.head.header := List.append_nil _
    rw [← noBody]
    apply triple_bind (triple_readHeader knownHead [] _ _)
    intro answer
    have logged := triple_consequence (triple_offWire tidy_observe
        (Traced.emit (.answered .head answer.1)))
      (fun _ (holds : answer = (replies.head.status, replies.head.etag) ∧ Left [] _) => holds.2)
      (fun _ _ => id) fun _ _ => id
    exact triple_bind logged fun _ => triple_headAnsweredOn knownPut md5 _ _
  have body : Triple Tidy (conditionalBodyOn beast around replies source dest token)
      (fun _ => Tidy) (fun _ => Tidy) := by
    apply triple_bind (triple_offWire tidy_observe _)
    intro md5
    apply triple_ite
    · exact fun _ => triple_pure fun _ => id
    · exact fun _ => asked md5
  exact triple_catch body fun _ => triple_pure fun _ => id

def deletionTaken (around : AttemptSurroundings) (replies : Replies) : Prop :=
  around.deleteWrite = .ok () ∧ (replies.delete.status = 404 ∨ replies.delete.status = 204)

/-- A deletion as far as its `switch`, once the request is written. -/
theorem triple_deletion (known : beast.Reads replies.delete)
    (written : around.deleteWrite = .ok ()) {returns : Wire → Prop}
    {fails : Thrown → Wire → Prop}
    (switched : Triple (Left replies.delete.body)
      (if replies.delete.status = 404 then pure ()
        else if replies.delete.status = 204 then pure () else Stateful.fail Thrown.enabled)
      (fun _ => returns) fails) :
    Triple Tidy (deleteRemoteFileOn beast around replies dest token)
      (fun _ => returns) fails := by
  have wrote : Triple Tidy (writeRequest {
        verb := .delete
        target := dest.path
        host := dest.host
        token := token } around.deleteWrite (replies.delete.header ++ replies.delete.body))
      (fun _ => Owing (replies.delete.header ++ replies.delete.body)) fails := by
    rw [written]
    rintro wire ⟨nothing, own⟩
    exact ⟨by rw [Wire.unread_answeredWith]; exact congrArg (· ++ _) nothing, nothing, own⟩
  apply triple_bind wrote
  intro _unit
  have parsed : beast.readStatus (replies.delete.header ++ replies.delete.body) =
      (.ok replies.delete.status, replies.delete.header.length) := by
    unfold Beast.readStatus
    rw [known.header]
    rfl
  have read := triple_consequence (triple_readWith parsed replies.buffered) (fun _ => id)
    (fun _ _ => id) (fun _ _ => False.elim : ∀ thrown wire, False → fails thrown wire)
  apply triple_bind read
  rintro status wire ⟨rfl, left⟩
  exact switched _ left

theorem triple_deletion_taken (known : beast.Reads replies.delete)
    (taken : deletionTaken around replies) :
    Triple Tidy (deleteRemoteFileOn beast around replies dest token)
      (fun _ => Left replies.delete.body) (fun _ _ => False) := by
  apply triple_deletion known taken.1
  apply triple_ite
  · exact fun _ => triple_pure fun _ => id
  intro notMissing
  rw [if_pos (taken.2.resolve_left notMissing)]
  exact triple_pure fun _ => id

theorem triple_deletion_refused (known : beast.Reads replies.delete)
    (refused : ¬ deletionTaken around replies) :
    Triple Tidy (deleteRemoteFileOn beast around replies dest token)
      (fun _ _ => False) (fun _ => OwnStarts) := by
  cases written : around.deleteWrite with
  | error thrown =>
      have failed : Triple Tidy (writeRequest {
            verb := .delete
            target := dest.path
            host := dest.host
            token := token } around.deleteWrite (replies.delete.header ++ replies.delete.body))
          (fun _ _ => False) (fun _ => OwnStarts) := by
        rw [written]
        exact fun _ holds => holds.2
      apply triple_bind failed
      exact fun _ _ => False.elim
  | ok value =>
      have neither : replies.delete.status ≠ 404 ∧ replies.delete.status ≠ 204 :=
        ⟨fun missing => refused ⟨written, Or.inl missing⟩,
          fun deleted => refused ⟨written, Or.inr deleted⟩⟩
      apply triple_deletion known written
      rw [if_neg neither.1, if_neg neither.2]
      exact triple_fail fun _ holds => holds.2

end Jobs

/-! ### The attempts of a worker -/

/-- The parser reads every answer the attempt can meet. -/
structure Turn.WellFormed (beast : Beast) (turn : Turn) : Prop where
  head : beast.Reads turn.replies.head
  put : beast.Reads turn.replies.put
  delete : beast.Reads turn.replies.delete

def Turn.LeavesBody (turn : Turn) : Prop :=
  ∃ dest, turn.job = .remoteDelete dest ∧ deletionTaken turn.around turn.replies ∧
    turn.replies.delete.body ≠ []

theorem triple_attempt {beast : Beast} {turn : Turn} (known : turn.WellFormed beast)
    (clears : ¬ turn.LeavesBody) :
    Triple Tidy (turn.attempt beast) (fun _ => Tidy) (fun _ => OwnStarts) := by
  unfold Turn.attempt Job.goOn
  cases jobIs : turn.job with
  | upload source dest =>
      exact triple_consequence (triple_uploadOn known.put []) (fun _ => id) (fun _ _ => id)
        fun _ _ holds => holds.2
  | conditionalUpload source dest =>
      exact triple_consequence (triple_conditionalUploadOn known.head known.put) (fun _ => id)
        (fun _ _ => id) fun _ _ holds => holds.2
  | remoteDelete dest =>
      by_cases taken : deletionTaken turn.around turn.replies
      · have noBody : turn.replies.delete.body = [] := by
          by_contra body
          exact clears ⟨dest, jobIs, taken, body⟩
        apply triple_consequence (triple_deletion_taken known.delete taken) (fun _ => id)
        · intro _unit wire left
          rw [noBody] at left
          exact left
        · exact fun _ _ => False.elim
      · exact triple_consequence (triple_deletion_refused known.delete taken) (fun _ => id)
          (fun _ _ => False.elim) fun _ _ => id

theorem tidy_serve {beast : Beast} {turn : Turn} (known : turn.WellFormed beast)
    (clears : ¬ turn.LeavesBody) {wire : Wire} (tidy : Tidy wire) :
    Tidy (turn.serve beast wire) := by
  have triple := triple_attempt known clears
  unfold Turn.serve
  rcases ran : turn.attempt beast wire with ⟨_ | _, later⟩
  · exact Tidy.reconnected (triple.of_error tidy ran)
  · exact triple.of_ok tidy ran

theorem tidy_runTurns {beast : Beast} {turns : List Turn}
    (known : ∀ turn ∈ turns, turn.WellFormed beast) (clear : ∀ turn ∈ turns, ¬ turn.LeavesBody) :
    Tidy (runTurns beast turns) := by
  have start : Tidy {} := ⟨rfl, fun _ member => nomatch member⟩
  unfold runTurns
  generalize ({} : Wire) = wire at start ⊢
  induction turns generalizing wire with
  | nil => exact start
  | cons turn rest ih =>
      apply ih
      · exact fun later member => known later (List.mem_cons_of_mem turn member)
      · exact fun later member => clear later (List.mem_cons_of_mem turn member)
      · exact tidy_serve (known turn List.mem_cons_self) (clear turn List.mem_cons_self) start

/-- Every job reads its own answer from its first byte on, and one that returns
leaves nothing of it. -/
structure KeepsToOwn (beast : Beast) (turns : List Turn) : Prop where
  starts : ∀ ahead ∈ (runTurns beast turns).starts, ahead = []
  finishes : ∀ before turn after, turns = before ++ turn :: after →
    (turn.attempt beast (runTurns beast before)).1 = .ok () →
      (turn.attempt beast (runTurns beast before)).2.readBuffer = [] ∧
        (turn.attempt beast (runTurns beast before)).2.stream = []

theorem first_leavesBody {turns : List Turn} (present : ∃ turn ∈ turns, turn.LeavesBody) :
    ∃ before turn after, turns = before ++ turn :: after ∧ turn.LeavesBody ∧
      ∀ earlier ∈ before, ¬ earlier.LeavesBody := by
  classical
  obtain ⟨turn, member, leaves⟩ := present
  have found : (turns.find? fun turn => decide turn.LeavesBody).isSome = true :=
    List.find?_isSome.mpr ⟨turn, member, decide_eq_true leaves⟩
  obtain ⟨first, isFirst⟩ := Option.isSome_iff_exists.mp found
  obtain ⟨firstLeaves, before, after, split, clear⟩ := List.find?_eq_some_iff_append.mp isFirst
  refine ⟨before, first, after, split, of_decide_eq_true firstLeaves, ?_⟩
  intro earlier inBefore earlierLeaves
  have refused := clear earlier inBefore
  rw [decide_eq_true earlierLeaves] at refused
  cases refused

theorem attempt_of_leavesBody {beast : Beast} {turn : Turn} (known : turn.WellFormed beast)
    (leaves : turn.LeavesBody) {wire : Wire} (tidy : Tidy wire) :
    (turn.attempt beast wire).1 = .ok () ∧ (turn.attempt beast wire).2.unread ≠ [] := by
  obtain ⟨dest, jobIs, taken, body⟩ := leaves
  have triple := @triple_deletion_taken _ _ _ turn.token dest known.delete taken
  have same : turn.attempt beast wire =
      deleteRemoteFileOn beast turn.around turn.replies dest turn.token wire := by
    unfold Turn.attempt Job.goOn
    rw [jobIs]
  rw [same]
  rcases ran : deleteRemoteFileOn beast turn.around turn.replies dest turn.token wire with
    ⟨_ | value, later⟩
  · exact (triple.of_error tidy ran).elim
  · refine ⟨rfl, ?_⟩
    rw [(triple.of_ok tidy ran).1]
    exact body

/-- The jobs of a connection keep to their own answers exactly if no deletion is
answered with a status it takes for success and a body. -/
theorem keepsToOwn_iff (beast : Beast) (turns : List Turn)
    (known : ∀ turn ∈ turns, turn.WellFormed beast) :
    KeepsToOwn beast turns ↔ ∀ turn ∈ turns, ¬ turn.LeavesBody := by
  constructor
  · intro keeps turn member leaves
    obtain ⟨before, first, after, split, firstLeaves, clear⟩ :=
      first_leavesBody ⟨turn, member, leaves⟩
    have inTurns : ∀ earlier ∈ before, earlier ∈ turns := by
      intro earlier inBefore
      rw [split]
      exact List.mem_append_left _ inBefore
    have tidy := tidy_runTurns (fun earlier inBefore => known earlier (inTurns earlier inBefore))
      clear
    have firstKnown := known first (by rw [split]; simp)
    obtain ⟨returned, left⟩ := attempt_of_leavesBody firstKnown firstLeaves tidy
    obtain ⟨bufferNil, streamNil⟩ := keeps.finishes before first after split returned
    apply left
    unfold Wire.unread
    rw [bufferNil, streamNil]
    rfl
  · intro clear
    constructor
    · exact (tidy_runTurns known clear).2
    · intro before turn after split returned
      have inTurns : ∀ earlier ∈ before, earlier ∈ turns := by
        intro earlier inBefore
        rw [split]
        exact List.mem_append_left _ inBefore
      have here : turn ∈ turns := by
        rw [split]
        simp
      have tidy := tidy_runTurns (fun earlier inBefore => known earlier (inTurns earlier inBefore))
        (fun earlier inBefore => clear earlier (inTurns earlier inBefore))
      have outcome := (triple_attempt (known turn here) (clear turn here)).of_ok tidy
        (Prod.ext returned rfl)
      exact List.append_eq_nil_iff.mp outcome.1

/-! ### A deletion of what is not there -/

def sampleReply : Response where
  status := 404
  etag := []
  header := text "HTTP/1.1 404 Not Found\r\nContent-Length: 9\r\n\r\n"
  body := text "Not Found"

def sampleBeast : Beast where
  readHeader bytes :=
    if sampleReply.header.isPrefixOf bytes then
      (.ok (sampleReply.status, sampleReply.etag), sampleReply.header.length)
    else (.error Thrown.enabledSystemError, 0)
  readMessage bytes :=
    if (sampleReply.header ++ sampleReply.body).isPrefixOf bytes then
      (.ok sampleReply.status, (sampleReply.header ++ sampleReply.body).length)
    else (.error Thrown.enabledSystemError, 0)

theorem sampleBeast_reads : sampleBeast.Reads sampleReply := by
  constructor
  · intro rest
    have opens : sampleReply.header.isPrefixOf (sampleReply.header ++ rest) = true :=
      List.isPrefixOf_iff_prefix.mpr (List.prefix_append _ rest)
    simp only [sampleBeast, opens, if_true]
  · intro rest
    have opens : (sampleReply.header ++ sampleReply.body).isPrefixOf
        (sampleReply.header ++ sampleReply.body ++ rest) = true :=
      List.isPrefixOf_iff_prefix.mpr (List.prefix_append _ rest)
    simp only [sampleBeast, opens, if_true]

def sampleTurn : Turn where
  job := .remoteDelete sampleBase
  token := text "t"
  around := calmSurroundings
  replies := ⟨sampleReply, sampleReply, sampleReply, 0⟩

theorem sampleTurn_wellFormed : sampleTurn.WellFormed sampleBeast :=
  ⟨sampleBeast_reads, sampleBeast_reads, sampleBeast_reads⟩

theorem keepsToOwn_sample :
    KeepsToOwn sampleBeast [sampleTurn] ↔ ∀ turn ∈ [sampleTurn], ¬ turn.LeavesBody :=
  keepsToOwn_iff sampleBeast [sampleTurn] fun _turn member =>
    List.mem_singleton.mp member ▸ sampleTurn_wellFormed

/-- Two deletions of an object that is not there: the second one finds the body
of the first answer ahead of its own answer. -/
theorem missing_object_misaligns :
    (∀ turn ∈ [sampleTurn, sampleTurn], turn.WellFormed sampleBeast) ∧
      (runTurns sampleBeast [sampleTurn, sampleTurn]).starts = [[], sampleReply.body] ∧
      ¬ KeepsToOwn sampleBeast [sampleTurn, sampleTurn] := by
  have misaligned :
      (runTurns sampleBeast [sampleTurn, sampleTurn]).starts = [[], sampleReply.body] := by
    decide
  refine ⟨?_, misaligned, ?_⟩
  · intro turn member
    have same : turn = sampleTurn := by simpa using member
    rw [same]
    exact sampleTurn_wellFormed
  · intro keeps
    have starts := keeps.starts
    rw [misaligned] at starts
    exact absurd (starts sampleReply.body (by simp)) (by decide)

end Cdnalizerd
