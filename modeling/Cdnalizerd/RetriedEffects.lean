/-
What is left of the attempts at a job that failed, and of the one that did not.

A failed attempt may have reached the server all the same, so a job that is
tried again may be done more than once.
-/

import Cdnalizerd.RequestLines
import Cdnalizerd.SyncedMirror

namespace Cdnalizerd

open Library

/-! ### Attempts -/

structure ReadsAs (around other : AttemptSurroundings) : Prop where
  isRegularFile : around.isRegularFile = other.isRegularFile
  digest : around.digest = other.digest
  fileSize : around.fileSize = other.fileSize
  openFile : around.openFile = other.openFile

/-- An attempt at a job: any connection and any answers, and whichever of its
requests the server has received. -/
structure Attempted (setting : FileSetting) (world : FileWorld) (job : Job) where
  around : AttemptSurroundings
  token : Bytes
  reads : ReadsAs around (setting.attemptSurroundings world job.source job.destination)
  received : List Observation
  sent : received.Sublist (job.go token around).trace

def FileWorld.attempted {setting : FileSetting} {job : Job} (world : FileWorld)
    (attempts : List (Attempted setting world job)) : FileWorld :=
  { world with
    store := (attempts.flatMap Attempted.received).foldl (receive world.files) world.store }

def Job.work : Job → WriteBehind.Work
  | .upload _source _dest => .copyOver
  | .conditionalUpload _source _dest => .copyOver
  | .remoteDelete _dest => .remove

namespace FileSetting

/-- A job for a file that the program keeps a copy of. -/
def JobFor (path : Bytes) (dest : URL) (job : Job) : Prop :=
  job = .upload path dest ∨ job = .conditionalUpload path dest ∨ job = .remoteDelete dest

/-- No other content that the job could find has the digest of the file. -/
def Distinguished (setting : FileSetting) (world : FileWorld) (path : Bytes) (dest : URL) : Prop :=
  ∀ content stored, world.files path = some content → world.store dest.path = some stored →
    hexString (setting.md5 content) = hexString (setting.md5 stored) → content = stored

variable {setting : FileSetting} {world : FileWorld} {path : Bytes} {dest : URL} {job : Job}

def effect (world : FileWorld) (path : Bytes) (dest : URL) (job : Job) : Option Bytes :=
  WriteBehind.perform (· ≠ []) (world.files path) (world.store dest.path) job.work

theorem storeAfter_eq (kept : setting.Kept path dest) (jobFor : JobFor path dest job)
    (distinguished : setting.Distinguished world path dest) :
    setting.storeAfter world job =
      Function.update world.store dest.path (effect world path dest job) := by
  rcases jobFor with rfl | rfl | rfl
  · exact apply_upload (fun _content _found _nonempty => kept.ready)
  · exact apply_conditionalUpload kept.ready.1 distinguished
  · apply apply_remoteDelete _ rfl rfl
    change (if (world.store dest.path).isSome then 204 else 404) = 404 ∨
      (if (world.store dest.path).isSome then 204 else 404) = 204
    cases world.store dest.path with
    | none => exact Or.inl rfl
    | some object => exact Or.inr rfl

/-! ### What the server receives -/

def IdleOrDone (world : FileWorld) (path : Bytes) (dest : URL) (job : Job)
    (performed : Observation) : Prop :=
  (∀ store, receive world.files store performed = store) ∨
    ∀ store, receive world.files store performed =
      Function.update store dest.path (effect world path dest job)

theorem idle_of_head {token : Bytes} :
    IdleOrDone world path dest job (.sent (headRequest dest token)) := by
  left
  intro store
  rfl

/-- A file is sent only if it has contents. -/
theorem done_of_put {around : AttemptSurroundings} (kept : setting.Kept path dest)
    (reads : ReadsAs around (setting.attemptSurroundings world path dest))
    (filled : around.Filled) {token : Bytes} {request : HttpRequest}
    (sent : SentAsPut path dest token request) (copies : job.work = .copyOver) :
    IdleOrDone world path dest job (.sent request) := by
  obtain ⟨etag, size, _digested, rfl⟩ := sent
  obtain ⟨measured, sized, positive⟩ := filled
  rw [reads.fileSize] at sized
  cases found : world.files path with
  | none =>
      simp only [FileSetting.attemptSurroundings, found] at sized
      cases sized
  | some content =>
      simp only [FileSetting.attemptSurroundings, found] at sized
      have nonempty : content ≠ [] := by
        rintro rfl
        exact positive (Except.ok.inj sized).symm
      have value : effect world path dest job = some content := by
        unfold effect
        rw [copies, found]
        exact if_pos nonempty
      right
      intro store
      rw [value]
      exact receive_put found kept.ready.1

theorem idleOrDone_of_mem {around : AttemptSurroundings} (kept : setting.Kept path dest)
    (jobFor : JobFor path dest job)
    (reads : ReadsAs around (setting.attemptSurroundings world job.source job.destination))
    {token : Bytes} {performed : Observation} (member : performed ∈ (job.go token around).trace) :
    IdleOrDone world path dest job performed := by
  cases performed with
  | fileGone => exact Or.inl (fun _store => rfl)
  | fileEmpty => exact Or.inl (fun _store => rfl)
  | sameDigest => exact Or.inl (fun _store => rfl)
  | answered verb status => exact Or.inl (fun _store => rfl)
  | networkError => exact Or.inl (fun _store => rfl)
  | sent request =>
      rcases jobFor with rfl | rfl | rfl
      · obtain ⟨filled, put⟩ := put_of_upload (Or.inl rfl) member
        exact done_of_put kept reads filled put rfl
      · rcases sent_of_conditionalUpload member with rfl | ⟨filled, put⟩
        · exact idle_of_head
        · exact done_of_put kept reads filled put rfl
      · rw [sent_of_delete member]
        exact Or.inr (fun _store => rfl)

/-! ### Trying again -/

theorem attempted_idle_or_done (kept : setting.Kept path dest) (jobFor : JobFor path dest job)
    (attempts : List (Attempted setting world job)) :
    (world.attempted attempts).store = world.store ∨
      (world.attempted attempts).store =
        Function.update world.store dest.path (effect world path dest job) := by
  apply Assignments.foldl_idle_or_done
  intro performed member
  obtain ⟨attempt, _tried, received⟩ := List.mem_flatMap.mp member
  rcases idleOrDone_of_mem kept jobFor attempt.reads (attempt.sent.subset received) with
    idle | done
  · exact ⟨Or.inl (idle _), idle _⟩
  · exact ⟨Or.inr (done _), by rw [done, Function.update_idem]⟩

/-- The effect of a job is a copy of the file, or what was there before. -/
theorem content_of_effect (distinguished : setting.Distinguished world path dest)
    {content stored : Bytes} (found : world.files path = some content)
    (object : effect world path dest job = some stored)
    (equal : hexString (setting.md5 content) = hexString (setting.md5 stored)) :
    content = stored := by
  unfold effect at object
  cases work : job.work with
  | remove =>
      rw [work] at object
      cases object
  | copyOver =>
      rw [work, found] at object
      unfold WriteBehind.perform at object
      dsimp only at object
      split at object
      · exact Option.some.inj object
      · exact distinguished content stored found object equal

/-- Whatever became of the earlier attempts, the job has had its effect or none,
and an attempt that goes well has the effect that it would have had alone. -/
theorem retries_leave_one_effect (setting : FileSetting) (world : FileWorld) {path : Bytes}
    {dest : URL} {job : Job} (kept : setting.Kept path dest) (jobFor : JobFor path dest job)
    (distinguished : setting.Distinguished world path dest)
    (attempts : List (Attempted setting world job)) :
    ((world.attempted attempts).store = world.store ∨
        (world.attempted attempts).store = setting.storeAfter world job) ∧
      setting.storeAfter (world.attempted attempts) job = setting.storeAfter world job := by
  have alone := storeAfter_eq kept jobFor distinguished
  rcases attempted_idle_or_done kept jobFor attempts with idle | done
  · have same : world.attempted attempts = world := by
      unfold FileWorld.attempted at idle ⊢
      dsimp only at idle
      rw [idle]
    rw [same]
    exact ⟨Or.inl rfl, rfl⟩
  · have reached : (world.attempted attempts).store dest.path = effect world path dest job := by
      rw [done, Function.update_self]
    have still : setting.Distinguished (world.attempted attempts) path dest := by
      intro content stored found object equal
      rw [reached] at object
      exact content_of_effect distinguished found object equal
    have again := storeAfter_eq kept jobFor still
    refine ⟨Or.inr (done.trans alone.symm), ?_⟩
    rw [again, alone, done, Function.update_idem]
    congr 1
    unfold effect at reached ⊢
    rw [reached]
    exact WriteBehind.perform_perform _ _ _

end FileSetting

/-- The server has received everything, but its answer is lost. -/
def lostAnswer (dest : URL) :
    Attempted sampleSetting newFileWorld (.conditionalUpload (text "/d/f") dest) where
  around :=
    { sampleSetting.attemptSurroundings newFileWorld (text "/d/f") dest with
      putResponse := .error Thrown.enabledSystemError }
  token := text "t"
  reads := ⟨rfl, rfl, rfl, rfl⟩
  received := _
  sent := List.Sublist.refl _

theorem retries_leave_one_effect_sample :
    ∃ dest, sampleSetting.destinationOf (text "/d/f") = .ok dest ∧
      sampleSetting.storeAfter (newFileWorld.attempted [lostAnswer dest, lostAnswer dest])
          (.conditionalUpload (text "/d/f") dest) =
        sampleSetting.storeAfter newFileWorld (.conditionalUpload (text "/d/f") dest) := by
  obtain ⟨dest, named, _path⟩ := sampleSetting_destination
  have kept : sampleSetting.Kept (text "/d/f") dest :=
    ⟨⟨1, text "f", by decide⟩, rfl, named⟩
  refine ⟨dest, named, ?_⟩
  exact (FileSetting.retries_leave_one_effect sampleSetting newFileWorld kept (Or.inr (Or.inl rfl))
    (fun _content _stored _found object => by cases object) _).2

end Cdnalizerd
