/-
What a job does to the objects when every request succeeds.
-/

import Cdnalizerd.FileWorld
import Cdnalizerd.JobRequests
import Cdnalizerd.Library.WriteBehind

namespace Cdnalizerd

open Library

variable {setting : FileSetting} {world : FileWorld} {source : Bytes} {dest : URL} {token : Bytes}

theorem sendFile_of_content {content : Bytes} (found : world.files source = some content)
    (md5 : Bytes) :
    sendFile (setting.attemptSurroundings world source dest) source dest token md5 =
      ⟨[.sent (putRequest source dest token md5 content.length), .answered .put 201], .ok ()⟩ := by
  have opened : (setting.attemptSurroundings world source dest).openFile = .ok content.length := by
    simp only [FileSetting.attemptSurroundings, found]
  unfold sendFile
  rw [opened]
  rfl

/-- A file with contents is sent, with whatever digest there is. -/
theorem upload_of_digest {content : Bytes} (found : world.files source = some content)
    (nonempty : content ≠ []) {given md5 : Bytes}
    (digested : digestToSend (setting.attemptSurroundings world source dest) source given =
      ⟨[], .ok md5⟩) :
    upload (setting.attemptSurroundings world source dest) source dest token given =
      ⟨[.sent (putRequest source dest token md5 content.length), .answered .put 201], .ok ()⟩ := by
  have size : (setting.attemptSurroundings world source dest).fileSize = .ok content.length := by
    simp only [FileSetting.attemptSurroundings, found]
  have long : content.length ≠ 0 := fun short => nonempty (List.length_eq_zero_iff.mp short)
  have body : uploadBody (setting.attemptSurroundings world source dest) source dest token given =
      ⟨[.sent (putRequest source dest token md5 content.length), .answered .put 201], .ok ()⟩ := by
    unfold uploadBody
    rw [size]
    change (if content.length = 0 then _ else _) = _
    rw [if_neg long, digested]
    exact sendFile_of_content found md5
  unfold upload
  rw [body]
  rfl

theorem upload_of_content {content : Bytes} (found : world.files source = some content)
    (nonempty : content ≠ []) {md5 : Bytes} (given : md5 ≠ []) :
    upload (setting.attemptSurroundings world source dest) source dest token md5 =
      ⟨[.sent (putRequest source dest token md5 content.length), .answered .put 201], .ok ()⟩ :=
  upload_of_digest found nonempty (if_neg fun both => given both.1)

theorem md5FromFile_of_content {content : Bytes} (found : world.files source = some content)
    (nonempty : content ≠ []) :
    md5FromFile (setting.attemptSurroundings world source dest) =
      ⟨[], .ok (hexString (setting.md5 content))⟩ := by
  have digest : (setting.attemptSurroundings world source dest).digest =
      .ok (setting.md5 content) := by
    cases content with
    | nil => exact absurd rfl nonempty
    | cons first rest => simp only [FileSetting.attemptSurroundings, found]
  rw [md5FromFile_of_regular, digest]
  simp only [FileSetting.attemptSurroundings, found, Option.isSome_some]

/-- The digest is taken from the file where none is handed over. -/
theorem upload_unprepared {content : Bytes} (found : world.files source = some content)
    (nonempty : content ≠ []) (named : source ≠ []) :
    upload (setting.attemptSurroundings world source dest) source dest token [] =
      ⟨[.sent (putRequest source dest token (hexString (setting.md5 content)) content.length),
        .answered .put 201], .ok ()⟩ := by
  apply upload_of_digest found nonempty
  unfold digestToSend
  rw [if_pos ⟨rfl, named⟩]
  exact md5FromFile_of_content found nonempty

theorem upload_spares
    (trifling : ∀ content, world.files source = some content → ¬ content ≠ []) :
    upload (setting.attemptSurroundings world source dest) source dest token [] =
        ⟨[.fileGone], .ok ()⟩ ∨
      upload (setting.attemptSurroundings world source dest) source dest token [] =
        ⟨[.fileEmpty], .ok ()⟩ := by
  cases found : world.files source with
  | none =>
      left
      have gone : (setting.attemptSurroundings world source dest).fileSize =
          .error (.gone, Thrown.enabledSystemError) := by
        simp only [FileSetting.attemptSurroundings, found]
      unfold upload uploadBody
      rw [gone]
      rfl
  | some content =>
      right
      obtain rfl := not_not.mp (trifling content found)
      have empty : (setting.attemptSurroundings world source dest).fileSize = .ok 0 := by
        simp only [FileSetting.attemptSurroundings, found, List.length_nil]
      unfold upload uploadBody
      rw [empty]
      rfl

/-- No attempt throws that finds the files as they are and a server that takes
everything. -/
theorem go_returns (setting : FileSetting) (world : FileWorld) (job : Job) (token : Bytes) :
    (job.go token (setting.attemptSurroundings world job.source job.destination)).result =
      .ok () := by
  cases job with
  | upload source dest =>
      change (upload (setting.attemptSurroundings world source dest) source dest
        token []).result = _
      by_cases trifling : ∀ content, world.files source = some content → ¬ content ≠ []
      · rcases @upload_spares setting world source dest token trifling with gone | empty
        · rw [gone]
        · rw [empty]
      · obtain ⟨content, counted⟩ := not_forall.mp trifling
        obtain ⟨found, nonempty⟩ := Classical.not_imp.mp counted
        replace nonempty : content ≠ [] := not_not.mp nonempty
        by_cases named : source = []
        · rw [upload_of_digest found nonempty (if_neg fun both => both.2 named)]
        · rw [upload_unprepared found nonempty named]
  | conditionalUpload source dest =>
      change (conditionalUpload _ source dest token).result = _
      unfold conditionalUpload Traced.catchWith
      split
      · rfl
      · rfl
  | remoteDelete dest =>
      change (deleteRemoteFile _ dest token).result = _
      unfold deleteRemoteFile
      simp only [FileSetting.attemptSurroundings]
      cases world.store (Job.remoteDelete dest).destination.path with
      | none => rfl
      | some object => rfl

theorem conditionalHead_of_answer {around : AttemptSurroundings} {md5 serverMD5 : Bytes}
    {status : Nat} (written : around.headWrite = .ok ())
    (answer : around.headResponse = .ok (status, serverMD5)) :
    conditionalHead around source dest token md5 =
      ⟨.sent (headRequest dest token) :: .answered .head status ::
          (headAnswered around source dest token md5 status serverMD5).trace,
        (headAnswered around source dest token md5 status serverMD5).result⟩ := by
  unfold conditionalHead
  rw [written, answer]
  rfl

/-- The handlers of a conditional upload that returns leave its log as it is. -/
theorem conditionalUpload_of_md5 {around : AttemptSurroundings} {md5 : Bytes}
    (taken : md5FromFile around = ⟨[], .ok md5⟩) (nonempty : md5 ≠ [])
    (returned : (conditionalHead around source dest token md5).result = .ok ()) :
    (conditionalUpload around source dest token).trace =
      (conditionalHead around source dest token md5).trace := by
  have body : conditionalBody around source dest token =
      conditionalHead around source dest token md5 := by
    unfold conditionalBody
    rw [taken]
    change ((if md5 = [] then pure () else conditionalHead around source dest token md5 :
      Attempt Unit)) = _
    exact if_neg nonempty
  unfold conditionalUpload Traced.catchWith
  rw [body, returned]

/-! ### Objects -/

theorem upload_spares_objects
    (trifling : ∀ content, world.files source = some content → ¬ content ≠ []) :
    (upload (setting.attemptSurroundings world source dest) source dest token []).trace.foldl
      (receive world.files) world.store = world.store := by
  rcases @upload_spares setting world source dest token trifling with gone | empty
  · rw [gone]
    rfl
  · rw [empty]
    rfl

theorem receive_put {files store : Bytes → Option Bytes} {content md5 : Bytes} {size : Nat}
    (found : files source = some content) (search : dest.pathAndSearch = dest.path) :
    receive files store (.sent (putRequest source dest token md5 size)) =
      Function.update store dest.path (some content) := by
  unfold receive putRequest
  simp only [Option.bind_some, found, search]

/-- The object of a file with content is a copy of it after a conditional
upload, unless another content has the digest. -/
theorem conditionalUpload_copies {content : Bytes} (found : world.files source = some content)
    (nonempty : content ≠ []) (search : dest.pathAndSearch = dest.path)
    (apart : ∀ stored, world.store dest.path = some stored →
      hexString (setting.md5 content) = hexString (setting.md5 stored) → content = stored) :
    (conditionalUpload (setting.attemptSurroundings world source dest) source dest
        token).trace.foldl (receive world.files) world.store =
      Function.update world.store dest.path (some content) := by
  have given := hexString_ne_nil (setting.md5 content)
  have taken := @md5FromFile_of_content setting world source dest content found nonempty
  have sends := @upload_of_content setting world source dest token content found nonempty _ given
  cases object : world.store dest.path with
  | none =>
      have answer : (setting.attemptSurroundings world source dest).headResponse =
          .ok (404, []) := by
        simp only [FileSetting.attemptSurroundings, object]
      have asked := @conditionalHead_of_answer source dest token _
        (hexString (setting.md5 content)) _ _ rfl answer
      have uploads : headAnswered (setting.attemptSurroundings world source dest) source dest
          token (hexString (setting.md5 content)) 404 [] =
          upload (setting.attemptSurroundings world source dest) source dest token
            (hexString (setting.md5 content)) := if_pos rfl
      rw [uploads, sends] at asked
      rw [conditionalUpload_of_md5 taken given (by rw [asked]), asked]
      exact receive_put found search
  | some stored =>
      have answer : (setting.attemptSurroundings world source dest).headResponse =
          .ok (200, hexString (setting.md5 stored)) := by
        simp only [FileSetting.attemptSurroundings, object]
      have asked := @conditionalHead_of_answer source dest token _
        (hexString (setting.md5 content)) _ _ rfl answer
      by_cases same : hexString (setting.md5 content) = hexString (setting.md5 stored)
      · have spares : headAnswered (setting.attemptSurroundings world source dest) source dest
            token (hexString (setting.md5 content)) 200 (hexString (setting.md5 stored)) =
            Traced.emit .sameDigest := by
          unfold headAnswered
          rw [if_neg (by decide), if_neg (fun other => other rfl), if_neg (fun other => other same)]
        rw [spares] at asked
        rw [conditionalUpload_of_md5 taken given (by rw [asked]; rfl), asked]
        rw [apart stored object same, ← object, Function.update_eq_self]
        rfl
      · have uploads : headAnswered (setting.attemptSurroundings world source dest) source dest
            token (hexString (setting.md5 content)) 200 (hexString (setting.md5 stored)) =
            upload (setting.attemptSurroundings world source dest) source dest token
              (hexString (setting.md5 content)) := by
          unfold headAnswered
          rw [if_neg (by decide), if_neg (fun other => other rfl), if_pos same]
        rw [uploads, sends] at asked
        rw [conditionalUpload_of_md5 taken given (by rw [asked]), asked]
        exact receive_put found search

theorem conditionalUpload_spares
    (trifling : ∀ content, world.files source = some content → ¬ content ≠ []) :
    (conditionalUpload (setting.attemptSurroundings world source dest) source dest
        token).trace.foldl (receive world.files) world.store = world.store := by
  cases found : world.files source with
  | none =>
      have irregular : (setting.attemptSurroundings world source dest).isRegularFile =
          .ok false := by
        simp only [FileSetting.attemptSurroundings, found, Option.isSome_none]
      unfold conditionalUpload conditionalBody
      rw [md5FromFile_of_irregular irregular]
      rfl
  | some content =>
      obtain rfl := not_not.mp (trifling content found)
      have regular : (setting.attemptSurroundings world source dest).isRegularFile =
          .ok true := by
        simp only [FileSetting.attemptSurroundings, found, Option.isSome_some]
      have digest : (setting.attemptSurroundings world source dest).digest =
          .error (.empty, Thrown.enabled) := by
        simp only [FileSetting.attemptSurroundings, found]
      unfold conditionalUpload conditionalBody
      rw [md5FromFile_of_regular regular, digest]
      rfl

/-- What a queued job does to the objects is what its work does to the copy. -/
theorem apply_conditionalUpload (search : dest.pathAndSearch = dest.path)
    (apart : ∀ content stored, world.files source = some content →
      world.store dest.path = some stored →
        hexString (setting.md5 content) = hexString (setting.md5 stored) → content = stored) :
    ((Job.conditionalUpload source dest).go token
        (setting.attemptSurroundings world source dest)).trace.foldl
          (receive world.files) world.store =
      Function.update world.store dest.path
        (WriteBehind.perform (· ≠ []) (world.files source) (world.store dest.path) .copyOver) := by
  change (conditionalUpload (setting.attemptSurroundings world source dest) source dest
    token).trace.foldl (receive world.files) world.store = _
  by_cases trifling : ∀ content, world.files source = some content → ¬ content ≠ []
  · rw [conditionalUpload_spares trifling, WriteBehind.perform_of_trifling trifling,
      Function.update_eq_self]
  · obtain ⟨content, counted⟩ := not_forall.mp trifling
    obtain ⟨found, nonempty⟩ := Classical.not_imp.mp counted
    replace nonempty : content ≠ [] := not_not.mp nonempty
    rw [conditionalUpload_copies found nonempty search (apart content · found), found]
    unfold WriteBehind.perform
    dsimp only
    rw [if_pos nonempty]

theorem apply_remoteDelete (around : AttemptSurroundings) (written : around.deleteWrite = .ok ())
    {status : Nat} (answer : around.deleteResponse = .ok status)
    (expected : status = 404 ∨ status = 204) {files store : Bytes → Option Bytes} :
    ((Job.remoteDelete dest).go token around).trace.foldl (receive files) store =
      Function.update store dest.path none := by
  change (deleteRemoteFile around dest token).trace.foldl (receive files) store = _
  unfold deleteRemoteFile
  rw [written, answer]
  rcases expected with rfl | rfl
  · rfl
  · rfl

end Cdnalizerd
