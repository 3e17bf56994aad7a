/-
When an attempt of a job may count as finished.

An attempt is honest if it returns only after the server took the file, or when
there was nothing to send.  Behind handlers that catch nearly everything, that
is so under conditions on what the operations of the attempt answer.
-/

import Cdnalizerd.Jobs

namespace Cdnalizerd

open Library

/-! ### When an attempt may count as finished -/

def accepted : Observation → Bool
  | .answered .put status => status = 201 || status = 202
  | _ => false

def nothingToSend : Observation → Bool
  | .fileGone | .fileEmpty | .sameDigest => true
  | _ => false

/-- A network error, or an answer that is neither success nor, to a `HEAD`, the
absence of the object. -/
def troubled : Observation → Bool
  | .networkError => true
  | .answered .put status => !(status = 201 || status = 202)
  | .answered .head status => !(status = 200 || status = 404)
  | _ => false

/-- A log of an attempt that may be treated as finished. -/
def Settled (log : List Observation) : Prop :=
  (log.any accepted = true ∨ log.any nothingToSend = true) ∧ log.any troubled = false

/-- An attempt that returns has had the file accepted or had nothing to send,
and one that meets trouble does not return. -/
def Honest (attempt : Attempt Unit) : Prop :=
  (attempt.result = .ok () →
    attempt.trace.any accepted = true ∨ attempt.trace.any nothingToSend = true) ∧
  (attempt.trace.any troubled = true → attempt.result ≠ .ok ())

theorem honest_of_error {attempt : Attempt Unit} {thrown : Thrown}
    (failed : attempt.result = .error thrown) : Honest attempt := by
  unfold Honest
  rw [failed]
  constructor
  · intro returned
    cases returned
  · intro _troubled returned
    cases returned

theorem honest_of_ok_iff {attempt : Attempt Unit} (returned : attempt.result = .ok ()) :
    Honest attempt ↔ Settled attempt.trace := by
  unfold Honest Settled
  rw [returned]
  simp only [ne_eq, not_true_eq_false, imp_false, forall_const, Bool.not_eq_true]

/-- What is left of a body's honesty behind handlers that catch all but the
exceptions that escape. -/
def HonestBehind (escapes : Thrown → Bool) (before : List Observation) (body : Attempt Unit) :
    Prop :=
  (∃ thrown, body.result = .error thrown ∧ escapes thrown = true) ∨
    Settled (before ++ body.trace)

theorem honest_catch_iff {escapes : Thrown → Bool} {body : Attempt Unit} :
    Honest (Traced.catchWith body fun thrown =>
        if escapes thrown then Traced.fail thrown else pure ()) ↔
      HonestBehind escapes [] body := by
  unfold HonestBehind
  rw [List.nil_append]
  cases outcome : body.result with
  | ok value =>
      have returned : (Traced.catchWith body fun thrown =>
          if escapes thrown then Traced.fail thrown else pure ()) =
          ⟨body.trace, .ok ()⟩ := by
        unfold Traced.catchWith
        rw [outcome]
      rw [returned, honest_of_ok_iff rfl]
      simp
  | error thrown =>
      cases escaping : escapes thrown with
      | true =>
          have passedOn : (Traced.catchWith body fun thrown =>
              if escapes thrown then Traced.fail thrown else pure ()).result =
              .error thrown := by
            unfold Traced.catchWith
            rw [outcome]
            simp only [escaping, if_true]
            rfl
          constructor
          · intro _honest
            exact Or.inl ⟨thrown, rfl, escaping⟩
          · intro _behind
            exact honest_of_error passedOn
      | false =>
          have caught : (Traced.catchWith body fun thrown =>
              if escapes thrown then Traced.fail thrown else pure ()) =
              ⟨body.trace, .ok ()⟩ := by
            unfold Traced.catchWith
            rw [outcome]
            simp only [escaping, Bool.false_eq_true, if_false, Traced.pure_trace,
              List.append_nil, Traced.pure_result]
          rw [caught, honest_of_ok_iff rfl]
          constructor
          · intro settled
            exact Or.inr settled
          · intro behind
            rcases behind with ⟨other, same, escaped⟩ | settled
            · rw [← Except.error.inj same, escaping] at escaped
              cases escaped
            · exact settled

/-! ### The condition, phase by phase -/

/-- Sending the file meets nothing that a handler hides, unless the file is
gone or was found gone before. -/
def SendsHonestly (around : AttemptSurroundings) (escapes : Thrown → Bool) (excused : Bool) :
    Prop :=
  match around.openFile with
  | .error fault => fault ≠ .other ∨ excused = true
  | .ok _size =>
      match around.putWrite with
      | .error thrown => escapes thrown = true
      | .ok _unit =>
          match around.putResponse with
          | .error thrown => escapes thrown = true
          | .ok status => status = 201 ∨ status = 202

/-- The same from the size of the file on. -/
def UploadsHonestly (around : AttemptSurroundings) (escapes : Thrown → Bool)
    (digestKnown : Prop) [Decidable digestKnown] : Prop :=
  match around.fileSize with
  | .error (fault, thrown) => fault ≠ .other ∨ escapes thrown = true
  | .ok size =>
      size = 0 ∨
        if digestKnown then SendsHonestly around escapes false
        else
          match around.isRegularFile with
          | .error _thrown => False
          | .ok false => SendsHonestly around escapes true
          | .ok true =>
              match around.digest with
              | .error (fault, _thrown) => fault ≠ .other
              | .ok _digest => SendsHonestly around escapes false

/-- The same from the digest and the `HEAD` on, behind a handler that catches
everything. -/
def ComparesHonestly (around : AttemptSurroundings) : Prop :=
  match around.isRegularFile with
  | .error _thrown => False
  | .ok false => True
  | .ok true =>
      match around.digest with
      | .error (fault, _thrown) => fault ≠ .other
      | .ok digest =>
          match around.headWrite with
          | .error _thrown => False
          | .ok _unit =>
              match around.headResponse with
              | .error _thrown => False
              | .ok (status, serverMD5) =>
                  status = 404 ∧ UploadsHonestly around (fun _ => false) True ∨
                    status = 200 ∧ (hexString digest = serverMD5 ∨
                      UploadsHonestly around (fun _ => false) True)

section Phases

variable {around : AttemptSurroundings} {source token : Bytes} {dest : URL}
  {escapes : Thrown → Bool}

/-- A log so far that has met no trouble and no acceptance, and the absence of
the file only if that excuses what follows. -/
structure Calm (before : List Observation) (excused : Bool) : Prop where
  accepted : before.any accepted = false
  troubled : before.any troubled = false
  nothingToSend : before.any nothingToSend = excused

theorem Calm.settled_iff {before : List Observation} {excused : Bool}
    (calm : Calm before excused) (log : List Observation) :
    Settled (before ++ log) ↔
      (log.any Cdnalizerd.accepted = true ∨ excused = true ∨
        log.any Cdnalizerd.nothingToSend = true) ∧
      log.any Cdnalizerd.troubled = false := by
  unfold Settled
  rw [List.any_append, List.any_append, List.any_append, calm.accepted, calm.troubled,
    calm.nothingToSend, Bool.false_or, Bool.false_or, Bool.or_eq_true]

theorem Calm.append {before log : List Observation} {excused found : Bool}
    (calm : Calm before excused) (quiet : Calm log found) :
    Calm (before ++ log) (excused || found) := by
  constructor
  · rw [List.any_append, calm.accepted, quiet.accepted, Bool.or_false]
  · rw [List.any_append, calm.troubled, quiet.troubled, Bool.or_false]
  · rw [List.any_append, calm.nothingToSend, quiet.nothingToSend]

theorem honestBehind_fault_iff {before : List Observation} {excused : Bool}
    (calm : Calm before excused) (fault : FileFault) (thrown : Thrown) :
    HonestBehind escapes before ⟨faultLog fault, .error thrown⟩ ↔
      (fault ≠ .other ∨ excused = true) ∨ escapes thrown = true := by
  have stopped : (∃ other, (⟨faultLog fault, .error thrown⟩ : Attempt Unit).result =
      .error other ∧ escapes other = true) ↔ escapes thrown = true := by
    simp only [Except.error.injEq, exists_eq_left']
  unfold HonestBehind
  rw [stopped, calm.settled_iff, or_comm]
  cases fault <;> simp [faultLog, accepted, troubled, nothingToSend]

theorem honestBehind_network_iff {before : List Observation} {excused : Bool}
    (calm : Calm before excused) (request : HttpRequest) (thrown : Thrown) :
    HonestBehind escapes before ⟨[.sent request, .networkError], .error thrown⟩ ↔
      escapes thrown = true := by
  unfold HonestBehind
  rw [calm.settled_iff]
  simp [troubled]

theorem uploadAnswered_cases (status : Nat) :
    uploadAnswered status = pure () ∨ uploadAnswered status = Traced.fail Thrown.enabled := by
  unfold uploadAnswered
  split
  · exact Or.inl rfl
  split
  · exact Or.inl rfl
  split
  · exact Or.inl rfl
  · exact Or.inr rfl

theorem honestBehind_answered_iff (enabled : escapes Thrown.enabled = false)
    {before : List Observation} {excused : Bool} (calm : Calm before excused)
    (request : HttpRequest) (status : Nat) :
    HonestBehind escapes before
        ⟨[.sent request, .answered .put status] ++ (uploadAnswered status).trace,
          (uploadAnswered status).result⟩ ↔ status = 201 ∨ status = 202 := by
  have settled : Settled (before ++ [.sent request, .answered .put status]) ↔
      status = 201 ∨ status = 202 := by
    rw [calm.settled_iff]
    simp [accepted, troubled, nothingToSend]
    omega
  unfold HonestBehind
  rcases uploadAnswered_cases status with returned | failed
  · rw [returned, Traced.pure_trace, Traced.pure_result, List.append_nil, settled]
    simp
  · have noEscape : ¬ ∃ thrown, (.error Thrown.enabled : Except Thrown Unit) =
        .error thrown ∧ escapes thrown = true := by
      intro ⟨thrown, same, escaped⟩
      rw [← Except.error.inj same, enabled] at escaped
      cases escaped
    rw [failed]
    change (∃ thrown, (.error Thrown.enabled : Except Thrown Unit) = .error thrown ∧
      escapes thrown = true) ∨ Settled (before ++ ([_, _] ++ [])) ↔ _
    rw [List.append_nil, settled]
    exact or_iff_right noEscape

theorem sendFile_honest_iff (enabled : escapes Thrown.enabled = false)
    (enabledSystemError : escapes Thrown.enabledSystemError = false)
    {before : List Observation} {excused : Bool} (calm : Calm before excused) (md5 : Bytes) :
    HonestBehind escapes before (sendFile around source dest token md5) ↔
      SendsHonestly around escapes excused := by
  unfold SendsHonestly
  cases opened : around.openFile with
  | error fault =>
      have outcome : sendFile around source dest token md5 =
          ⟨faultLog fault, .error Thrown.enabledSystemError⟩ := by
        unfold sendFile
        rw [opened]
        cases fault <;> rfl
      rw [outcome, honestBehind_fault_iff calm, enabledSystemError]
      simp only [Bool.false_eq_true, or_false]
  | ok size =>
      cases written : around.putWrite with
      | error thrown =>
          have outcome : ∃ request, sendFile around source dest token md5 =
              ⟨[.sent request, .networkError], .error thrown⟩ := by
            unfold sendFile
            rw [opened, written]
            exact ⟨_, rfl⟩
          obtain ⟨request, outcome⟩ := outcome
          rw [outcome]
          exact honestBehind_network_iff calm request thrown
      | ok _unit =>
          cases response : around.putResponse with
          | error thrown =>
              have outcome : ∃ request, sendFile around source dest token md5 =
                  ⟨[.sent request, .networkError], .error thrown⟩ := by
                unfold sendFile
                rw [opened, written, response]
                exact ⟨_, rfl⟩
              obtain ⟨request, outcome⟩ := outcome
              rw [outcome]
              exact honestBehind_network_iff calm request thrown
          | ok status =>
              have outcome : ∃ request, sendFile around source dest token md5 =
                  ⟨[.sent request, .answered .put status] ++ (uploadAnswered status).trace,
                    (uploadAnswered status).result⟩ := by
                unfold sendFile
                rw [opened, written, response]
                exact ⟨_, rfl⟩
              obtain ⟨request, outcome⟩ := outcome
              rw [outcome]
              exact honestBehind_answered_iff enabled calm request status

theorem honestBehind_bind_iff {α : Type} {before log : List Observation} {value : α}
    (next : α → Attempt Unit) :
    HonestBehind escapes before ((⟨log, .ok value⟩ : Attempt α) >>= next) ↔
      HonestBehind escapes (before ++ log) (next value) := by
  rw [Traced.bind_of_ok rfl]
  unfold HonestBehind
  rw [List.append_assoc]

theorem honestBehind_nothing_iff {before : List Observation} (calm : Calm before false)
    (log : List Observation) (quiet : Calm log true) :
    HonestBehind escapes before ⟨log, .ok ()⟩ := by
  right
  rw [calm.settled_iff]
  exact ⟨Or.inr (Or.inr quiet.nothingToSend), quiet.troubled⟩

theorem calm_nil : Calm [] false :=
  ⟨rfl, rfl, rfl⟩

theorem honestBehind_unread_iff (enabled : escapes Thrown.enabled = false)
    {before : List Observation} (calm : Calm before false) (fault : FileFault)
    (next : Bytes → Attempt Unit) :
    HonestBehind escapes before
        ((⟨faultLog fault, .error Thrown.enabled⟩ : Attempt Bytes) >>= next) ↔
      fault ≠ .other := by
  rw [Traced.bind_of_error rfl]
  change HonestBehind escapes before ⟨faultLog fault, .error Thrown.enabled⟩ ↔ _
  rw [honestBehind_fault_iff calm, enabled]
  simp only [Bool.false_eq_true, or_false]

theorem uploadBody_honest_iff (enabled : escapes Thrown.enabled = false)
    (enabledSystemError : escapes Thrown.enabledSystemError = false)
    {before : List Observation} (calm : Calm before false) (md5 : Bytes) :
    HonestBehind escapes before (uploadBody around source dest token md5) ↔
      UploadsHonestly around escapes (¬ (md5 = [] ∧ source ≠ [])) := by
  unfold UploadsHonestly
  cases measured : around.fileSize with
  | error reason =>
      obtain ⟨fault, thrown⟩ := reason
      have outcome : uploadBody around source dest token md5 =
          ⟨faultLog fault, .error thrown⟩ := by
        unfold uploadBody
        rw [measured]
        cases fault <;> rfl
      rw [outcome, honestBehind_fault_iff calm]
      simp only [Bool.false_eq_true, or_false]
  | ok size =>
      cases size with
      | zero =>
          have outcome : uploadBody around source dest token md5 =
              ⟨[.fileEmpty], .ok ()⟩ := by
            unfold uploadBody
            rw [measured]
            rfl
          rw [outcome]
          exact iff_of_true (honestBehind_nothing_iff calm _ ⟨rfl, rfl, rfl⟩) (Or.inl rfl)
      | succ size =>
          have outcome : uploadBody around source dest token md5 =
              digestToSend around source md5 >>= sendFile around source dest token := by
            unfold uploadBody
            rw [measured]
            rfl
          have filled : ¬ size + 1 = 0 := by omega
          rw [outcome]
          simp only [filled, false_or]
          unfold digestToSend
          by_cases unknown : md5 = [] ∧ source ≠ []
          · rw [if_pos unknown, if_neg (not_not_intro unknown)]
            cases looked : around.isRegularFile with
            | error thrown =>
                rw [md5FromFile_of_error looked, honestBehind_unread_iff enabled calm]
                simp only [ne_eq, not_true_eq_false]
            | ok regular =>
                cases regular with
                | false =>
                    rw [md5FromFile_of_irregular looked, honestBehind_bind_iff]
                    exact sendFile_honest_iff enabled enabledSystemError
                      (calm.append ⟨rfl, rfl, rfl⟩) []
                | true =>
                    rw [md5FromFile_of_regular looked]
                    cases around.digest with
                    | error reason =>
                        obtain ⟨fault, thrown⟩ := reason
                        exact honestBehind_unread_iff enabled calm fault _
                    | ok digest =>
                        dsimp only
                        rw [honestBehind_bind_iff]
                        exact sendFile_honest_iff enabled enabledSystemError
                          (calm.append calm_nil) _
          · rw [if_neg unknown, if_pos unknown, Traced.pure_bind]
            exact sendFile_honest_iff enabled enabledSystemError calm md5

/-- Behind a handler that catches everything, handlers in between make no
difference. -/
theorem honestBehind_upload_iff {before : List Observation} (md5 : Bytes) :
    HonestBehind (fun _ => false) before (upload around source dest token md5) ↔
      HonestBehind (fun _ => false) before (uploadBody around source dest token md5) := by
  have sameTrace : (upload around source dest token md5).trace =
      (uploadBody around source dest token md5).trace := by
    unfold upload Traced.catchWith
    cases (uploadBody around source dest token md5).result with
    | ok value => rfl
    | error thrown =>
        dsimp only
        split
        · exact List.append_nil _
        · exact List.append_nil _
  unfold HonestBehind
  rw [sameTrace]
  simp only [Bool.false_eq_true, and_false, exists_false, false_or]

theorem nested_upload_honest_iff {before : List Observation} (calm : Calm before false)
    {md5 : Bytes} (known : md5 ≠ []) :
    HonestBehind (fun _ => false) before (upload around source dest token md5) ↔
      UploadsHonestly around (fun _ => false) True := by
  rw [honestBehind_upload_iff, uploadBody_honest_iff rfl rfl calm]
  have digestKnown : ¬ (md5 = [] ∧ source ≠ []) := fun both => known both.1
  simp only [UploadsHonestly, digestKnown, not_false_eq_true, if_true]

theorem headAnswered_honest_iff {before : List Observation} (calm : Calm before false)
    {md5 : Bytes} (known : md5 ≠ []) (status : Nat) (serverMD5 : Bytes) :
    HonestBehind (fun _ => false) (before ++ [.answered .head status])
        (headAnswered around source dest token md5 status serverMD5) ↔
      status = 404 ∧ UploadsHonestly around (fun _ => false) True ∨
        status = 200 ∧ (md5 = serverMD5 ∨ UploadsHonestly around (fun _ => false) True) := by
  unfold headAnswered
  by_cases missing : status = 404
  · subst missing
    rw [if_pos rfl, nested_upload_honest_iff (calm.append ⟨rfl, rfl, rfl⟩) known]
    simp only [true_and, Nat.reduceEqDiff, false_and, or_false]
  · rw [if_neg missing]
    by_cases found : status = 200
    · subst found
      rw [if_neg (not_not_intro rfl)]
      have calmFound : Calm (before ++ [.answered .head 200]) false :=
        calm.append ⟨rfl, rfl, rfl⟩
      by_cases same : md5 = serverMD5
      · rw [if_neg (not_not_intro same)]
        exact iff_of_true (honestBehind_nothing_iff calmFound [.sameDigest] ⟨rfl, rfl, rfl⟩)
          (Or.inr ⟨rfl, Or.inl same⟩)
      · rw [if_pos same, nested_upload_honest_iff calmFound known]
        simp only [Nat.reduceEqDiff, false_and, true_and, same, false_or]
    · rw [if_pos found]
      have unsettled : ¬ Settled (before ++ [.answered .head status]) := by
        rw [calm.settled_iff]
        simp [troubled, missing, found]
      constructor
      · intro behind
        rcases behind with ⟨_thrown, _failed, escaped⟩ | settled
        · cases escaped
        · change Settled (before ++ [.answered .head status] ++ []) at settled
          rw [List.append_nil] at settled
          exact absurd settled unsettled
      · intro condition
        rcases condition with ⟨wrong, _uploads⟩ | ⟨wrong, _same⟩
        · exact absurd wrong missing
        · exact absurd wrong found

theorem conditionalHead_honest_iff {before : List Observation} (calm : Calm before false)
    {md5 : Bytes} (known : md5 ≠ []) :
    HonestBehind (fun _ => false) before (conditionalHead around source dest token md5) ↔
      match around.headWrite with
      | .error _thrown => False
      | .ok _unit =>
          match around.headResponse with
          | .error _thrown => False
          | .ok (status, serverMD5) =>
              status = 404 ∧ UploadsHonestly around (fun _ => false) True ∨
                status = 200 ∧ (md5 = serverMD5 ∨
                  UploadsHonestly around (fun _ => false) True) := by
  unfold conditionalHead
  cases around.headWrite with
  | error thrown =>
      apply (honestBehind_network_iff calm _ thrown).trans
      simp only [Bool.false_eq_true]
  | ok _unit =>
      cases around.headResponse with
      | error thrown =>
          apply (honestBehind_network_iff calm _ thrown).trans
          simp only [Bool.false_eq_true]
      | ok response =>
          obtain ⟨status, serverMD5⟩ := response
          dsimp only
          rw [← headAnswered_honest_iff
            (calm.append ⟨rfl, rfl, rfl⟩ : Calm (before ++ [.sent _]) false) known]
          rw [List.append_assoc]
          exact @honestBehind_bind_iff _ _ _ [_, _] (status, serverMD5) fun response =>
            headAnswered around source dest token md5 response.1 response.2

theorem conditionalBody_honest_iff :
    HonestBehind (fun _ => false) [] (conditionalBody around source dest token) ↔
      ComparesHonestly around := by
  unfold ComparesHonestly conditionalBody
  cases looked : around.isRegularFile with
  | error thrown =>
      rw [md5FromFile_of_error looked, honestBehind_unread_iff rfl calm_nil]
      simp only [ne_eq, not_true_eq_false]
  | ok regular =>
      cases regular with
      | false =>
          rw [md5FromFile_of_irregular looked]
          exact iff_of_true (honestBehind_nothing_iff calm_nil [.fileGone] ⟨rfl, rfl, rfl⟩) trivial
      | true =>
          rw [md5FromFile_of_regular looked]
          cases around.digest with
          | error reason =>
              obtain ⟨fault, thrown⟩ := reason
              exact honestBehind_unread_iff rfl calm_nil fault _
          | ok digest =>
              dsimp only
              rw [honestBehind_bind_iff, if_neg (hexString_ne_nil digest)]
              exact conditionalHead_honest_iff calm_nil (hexString_ne_nil digest)

theorem conditionalUpload_honest_iff :
    Honest (conditionalUpload around source dest token) ↔ ComparesHonestly around := by
  rw [← conditionalBody_honest_iff, ← honest_catch_iff]
  rfl

theorem upload_honest_iff :
    Honest (upload around source dest token []) ↔
      UploadsHonestly around Thrown.uncaught (source = []) := by
  unfold upload
  rw [honest_catch_iff, uploadBody_honest_iff rfl rfl calm_nil]
  simp only [UploadsHonestly, ne_eq, true_and, not_not]

end Phases

/-! ### The retry loop -/

/-- Which attempts may be treated as finished, by what they will meet. -/
def Job.MeetsHonestly (job : Job) (around : AttemptSurroundings) : Prop :=
  match job with
  | .upload source _dest => UploadsHonestly around Thrown.uncaught (source = [])
  | .conditionalUpload _source _dest => ComparesHonestly around
  | .remoteDelete _dest => True

def Job.sendsFile : Job → Bool
  | .upload _source _dest => true
  | .conditionalUpload _source _dest => true
  | .remoteDelete _dest => false

theorem go_honest_iff {job : Job} (sends : job.sendsFile = true) (token : Bytes)
    (around : AttemptSurroundings) :
    Honest (job.go token around) ↔ job.MeetsHonestly around := by
  cases job with
  | upload source dest => exact upload_honest_iff
  | conditionalUpload source dest => exact conditionalUpload_honest_iff
  | remoteDelete dest => cases sends

section Retries

variable {attempt : Nat → Attempt Unit} {reconnect : Nat → Except Thrown Unit} {retries : Nat}

theorem retryLoop_of_ok (budget : retries ≤ maxRetries)
    (returned : (attempt retries).result = .ok ()) :
    retryLoop attempt reconnect retries =
      Traced.emit (.finished retries) >>= fun _ => pure retries := by
  unfold retryLoop
  rw [if_pos budget, returned]

theorem retryLoop_of_error (budget : retries ≤ maxRetries) {thrown : Thrown}
    (failed : (attempt retries).result = .error thrown) :
    retryLoop attempt reconnect retries =
      Traced.emit (.reconnecting retries) >>= fun _ =>
        Traced.ask (reconnect retries) >>= fun _ =>
          retryLoop attempt reconnect (retries + 1) := by
  conv => lhs; unfold retryLoop
  rw [if_pos budget, failed]

theorem reconnecting_iff (budget : retries ≤ maxRetries) :
    .reconnecting retries ∈ (retryLoop attempt reconnect retries).trace ↔
      (attempt retries).result ≠ .ok () := by
  cases outcome : (attempt retries).result with
  | ok _unit =>
      rw [retryLoop_of_ok budget outcome, Traced.emit_bind]
      simp
  | error thrown =>
      rw [retryLoop_of_error budget outcome, Traced.emit_bind]
      simp

/-- Every attempt of a job is treated as finished, that is the loop is left
without a new connection, only when the file was accepted or there was nothing
to send, and is retried when it meets trouble: exactly if what it meets passes
no handler by. -/
theorem attempt_treated_honestly_iff {job : Job} (sends : job.sendsFile = true)
    (budget : retries ≤ maxRetries) (token : Bytes) (around : Nat → AttemptSurroundings) :
    ((.reconnecting retries ∉
          (retryLoop (fun index => job.go token (around index)) reconnect retries).trace →
        (job.go token (around retries)).trace.any accepted = true ∨
          (job.go token (around retries)).trace.any nothingToSend = true) ∧
      ((job.go token (around retries)).trace.any troubled = true →
        .reconnecting retries ∈
          (retryLoop (fun index => job.go token (around index)) reconnect retries).trace)) ↔
      job.MeetsHonestly (around retries) := by
  rw [reconnecting_iff budget, not_not]
  exact go_honest_iff sends token (around retries)

end Retries

def calmSurroundings : AttemptSurroundings where
  isRegularFile := .ok true
  digest := .ok (Vector.replicate 16 0)
  fileSize := .ok 3
  openFile := .ok 3
  headWrite := .ok ()
  headResponse := .ok (404, [])
  putWrite := .ok ()
  putResponse := .ok 201
  deleteWrite := .ok ()
  deleteResponse := .ok 204

theorem attempt_treated_honestly_iff_sample :
    (.reconnecting 0 ∉ (retryLoop (fun _index => Job.go
        (.upload (text "/d/a") sampleBase) [] calmSurroundings) (fun _ => .ok ()) 0).trace →
      (Job.go (.upload (text "/d/a") sampleBase) [] calmSurroundings).trace.any accepted =
          true ∨
        (Job.go (.upload (text "/d/a") sampleBase) [] calmSurroundings).trace.any
          nothingToSend = true) ∧
    ((Job.go (.upload (text "/d/a") sampleBase) [] calmSurroundings).trace.any troubled =
        true →
      .reconnecting 0 ∈ (retryLoop (fun _index => Job.go
        (.upload (text "/d/a") sampleBase) [] calmSurroundings) (fun _ => .ok ()) 0).trace) :=
  (attempt_treated_honestly_iff rfl (Nat.zero_le maxRetries) []
    (fun _index => calmSurroundings)).mpr (Or.inr (Or.inl rfl))

/-- The server refuses the token, and the upload counts as done. -/
theorem unauthorized_upload_finished :
    (retryLoop (fun _index => Job.go (.upload (text "/d/a") sampleBase) []
        { calmSurroundings with putResponse := .ok 401 }) (fun _ => .ok ()) 0).trace =
      [.finished 0] ∧
    (Job.go (.upload (text "/d/a") sampleBase) []
        { calmSurroundings with putResponse := .ok 401 }).trace.any accepted = false ∧
    (Job.go (.upload (text "/d/a") sampleBase) []
        { calmSurroundings with putResponse := .ok 401 }).trace.any nothingToSend = false ∧
    (Job.go (.upload (text "/d/a") sampleBase) []
        { calmSurroundings with putResponse := .ok 401 }).trace.any troubled = true := by
  decide

end Cdnalizerd
