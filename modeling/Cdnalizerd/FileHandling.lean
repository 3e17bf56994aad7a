/-
What the daemon's side does to the files and their copies.

Handling an event hands its work on to a job, and a job does its work on one
object.
-/

import Mathlib.Data.Set.Function
import Cdnalizerd.EventLoop
import Cdnalizerd.FileCopies
import Cdnalizerd.JobEffects

namespace Cdnalizerd

open Library

namespace FileSetting

variable {setting : FileSetting} {contents : Set Bytes} {world : FileWorld} {path : Bytes}
  {dest : URL}

/-! ### Handling an event -/

theorem handled_of_located {event : Event}
    (located : setting.pathOf event.wd event.name = some path) :
    handleEvent setting.accounts world.surroundings setting.daemon event =
      Traced.emit (.request (.getWorker setting.url.raw)) >>= fun _ =>
        dispatch world.surroundings setting.daemon event
          ⟨setting.entry, setting.url, path, relativeTo path setting.entry.localDir⟩ := by
  obtain ⟨directory, watched, _proper, rfl⟩ := pathOf_eq_some_iff.mp located
  exact handleEvent_of_recorded watched (setting.configured _ _ watched) setting.login
    setting.endpoint rfl

inductive Queues (setting : FileSetting) (world : FileWorld) (path : Bytes) :
    UInt32 → List Job → Prop where
  | nothing (mask : UInt32)
      (needless : kindWork mask = none ∨ setting.entry.shouldIgnoreFile path = true ∨
        mask = inCloseWrite ∧ world.files path = some []) :
      Queues setting world path mask []
  | upload (dest : URL) (kept : setting.Kept path dest) :
      Queues setting world path inCloseWrite [.conditionalUpload path dest]
  | delete (dest : URL) (kept : setting.Kept path dest) :
      Queues setting world path inDelete [.remoteDelete dest]

def HandledWell (setting : FileSetting) (world : FileWorld) (path : Bytes) (mask : UInt32)
    (handled : Watching Daemon) : Prop :=
  handled.result = .ok setting.daemon ∧
    setting.Queues world path mask (queuedJobs handled.trace)

theorem dispatched_closed {event : Event} (kind : event.mask = inCloseWrite)
    (isFile : setting.IsFile path) {content : Bytes} (found : world.files path = some content)
    (fitting : setting.Fitting contents path content) :
    setting.HandledWell world path event.mask
      (dispatch world.surroundings setting.daemon event
        ⟨setting.entry, setting.url, path, relativeTo path setting.entry.localDir⟩) := by
  have size : world.surroundings.fileSize path = .ok content.length := by
    simp only [FileWorld.surroundings, found]
  rw [dispatch_of_closed kind, kind]
  unfold handleClosed
  dsimp only
  rw [size, Traced.ask_ok_bind]
  by_cases empty : content = []
  · subst empty
    exact ⟨rfl, .nothing _ (Or.inr (Or.inr ⟨rfl, found⟩))⟩
  rw [if_pos (List.length_pos_iff.mpr empty)]
  cases wanted : setting.entry.shouldIgnoreFile path with
  | true => exact ⟨rfl, .nothing _ (Or.inr (Or.inl wanted))⟩
  | false =>
      rcases fitting.2 with (ignored | ⟨dest, named⟩) | trifling
      · rw [wanted] at ignored
        cases ignored
      · have built : Located.destination ⟨setting.entry, setting.url, path,
            relativeTo path setting.entry.localDir⟩ = .ok dest := named
        rw [built]
        exact ⟨rfl, .upload dest ⟨isFile, wanted, named⟩⟩
      · exact absurd trifling empty

theorem dispatched_deleted {event : Event} (kind : event.mask = inDelete)
    (isFile : setting.IsFile path) (nameable : setting.Nameable path) :
    setting.HandledWell world path event.mask
      (dispatch world.surroundings setting.daemon event
        ⟨setting.entry, setting.url, path, relativeTo path setting.entry.localDir⟩) := by
  have notDirectory : event.isDir = false := (Event.has_of_mask kind _).trans (by decide)
  rw [dispatch_of_deleted_file kind, kind]
  unfold handleDeleted
  rw [notDirectory]
  dsimp only
  cases wanted : setting.entry.shouldIgnoreFile path with
  | true => exact ⟨rfl, .nothing _ (Or.inr (Or.inl wanted))⟩
  | false =>
      rcases nameable with ignored | ⟨dest, named⟩
      · rw [wanted] at ignored
        cases ignored
      · have built : Located.destination ⟨setting.entry, setting.url, path,
            relativeTo path setting.entry.localDir⟩ = .ok dest := named
        rw [built]
        exact ⟨rfl, .delete dest ⟨isFile, wanted, named⟩⟩

/-- No event about a file ends the loop, if the closed file is still there. -/
theorem handled_well (running : setting.Running contents world) {event : Event}
    (queued : event ∈ world.queue) (located : setting.pathOf event.wd event.name = some path)
    (there : event.mask = inCloseWrite → (world.files path).isSome = true) :
    setting.HandledWell world path event.mask
      (handleEvent setting.accounts world.surroundings setting.daemon event) := by
  have isFile := isFile_of_pathOf located
  obtain ⟨same, locatedAgain, reportable⟩ := running.queued event queued
  obtain rfl := Option.some.inj (located.symm.trans locatedAgain)
  rw [handled_of_located located, Traced.emit_bind]
  rcases reportable with created | movedFrom | movedTo | closed | ⟨deleted, nameable⟩
  · rw [dispatch_of_created_file created, created]
    exact ⟨rfl, .nothing _ (Or.inl rfl)⟩
  · rw [dispatch_of_moved (Or.inl movedFrom), movedFrom]
    exact ⟨rfl, .nothing _ (Or.inl rfl)⟩
  · rw [dispatch_of_moved (Or.inr (Or.inl movedTo)), movedTo]
    exact ⟨rfl, .nothing _ (Or.inl rfl)⟩
  · obtain ⟨content, found⟩ := Option.isSome_iff_exists.mp (there closed)
    exact dispatched_closed closed isFile found (running.filed path content found).2
  · exact dispatched_deleted deleted isFile nameable

theorem jobWork_remoteDelete (kept : setting.Kept path dest) {other : Bytes} {otherDest : URL}
    (otherKept : setting.Kept other otherDest) :
    jobWork other otherDest (.remoteDelete dest) = if path = other then some .remove else none := by
  unfold jobWork
  dsimp only
  by_cases same : path = other
  · subst same
    obtain rfl := Except.ok.inj (kept.named.symm.trans otherKept.named)
    rw [if_pos rfl, if_pos rfl]
  · rw [if_neg same, if_neg]
    intro equal
    exact same (otherKept.unique kept (congrArg URL.path equal))

/-- The work of an event is that of its job, unless the closed file is empty. -/
theorem eventWork_of_queues {event : Event} {jobs : List Job}
    (located : setting.pathOf event.wd event.name = some path)
    (queues : setting.Queues world path event.mask jobs) {other : Bytes} {otherDest : URL}
    (kept : setting.Kept other otherDest) :
    (setting.eventWork other event).toList = jobs.filterMap (jobWork other otherDest) ∨
      setting.eventWork other event = some .copyOver ∧ jobs = [] ∧
        world.files other = some [] := by
  rw [eventWork_of_located located other]
  generalize event.mask = mask at queues
  cases queues with
  | nothing _mask needless =>
      by_cases same : path = other
      · subst same
        rw [if_pos rfl]
        rcases needless with workless | ignored | ⟨rfl, empty⟩
        · rw [workless]
          exact Or.inl rfl
        · rw [kept.wanted] at ignored
          cases ignored
        · exact Or.inr ⟨rfl, rfl, empty⟩
      · rw [if_neg same]
        exact Or.inl rfl
  | upload dest fileKept =>
      left
      rw [List.filterMap_cons, List.filterMap_nil]
      unfold jobWork
      by_cases same : path = other
      · rw [if_pos same]
        simp only [if_pos same]
        rfl
      · rw [if_neg same]
        simp only [if_neg same]
        rfl
  | delete dest fileKept =>
      left
      rw [List.filterMap_cons, List.filterMap_nil, jobWork_remoteDelete fileKept kept]
      by_cases same : path = other
      · rw [if_pos same, if_pos same]
        rfl
      · rw [if_neg same, if_neg same]
        rfl

def handled (setting : FileSetting) (world : FileWorld) (rest : List Event) (jobs : List Job) :
    FileWorld :=
  { world with
    queue := rest
    daemon := some setting.daemon
    jobs := world.jobs ++ jobs }

theorem waiting_of_queues {mask : UInt32} {jobs : List Job}
    (queues : setting.Queues world path mask jobs) {job : Job} (member : job ∈ jobs) :
    ∃ dest, setting.Kept path dest ∧
      (job = .conditionalUpload path dest ∨ job = .remoteDelete dest) := by
  cases queues with
  | nothing _mask _needless => cases member
  | upload dest kept => exact ⟨dest, kept, Or.inl (List.mem_singleton.mp member)⟩
  | delete dest kept => exact ⟨dest, kept, Or.inr (List.mem_singleton.mp member)⟩

theorem Running.handled (running : setting.Running contents world) {event : Event}
    {rest : List Event} (front : world.queue = event :: rest) {mask : UInt32} {jobs : List Job}
    (queues : setting.Queues world path mask jobs) :
    setting.Running contents (setting.handled world rest jobs) where
  alive := rfl
  filed := running.filed
  stored := running.stored
  queued other member := running.queued other (front ▸ List.mem_cons_of_mem event member)
  waiting job member := by
    rcases List.mem_append.mp member with old | new
    · exact running.waiting job old
    · exact ⟨path, waiting_of_queues queues new⟩

theorem carried_handleEvent (running : setting.Running contents world) {event : Event}
    {rest : List Event} (front : world.queue = event :: rest) {jobs : List Job}
    (located : setting.pathOf event.wd event.name = some path)
    (queues : setting.Queues world path event.mask jobs) :
    setting.Carried contents world (setting.handled world rest jobs) := by
  refine ⟨running.handled front queues, ?_⟩
  intro other otherDest kept
  rcases eventWork_of_queues located queues kept with handedOn | ⟨work, rfl, empty⟩
  · have same : setting.view (setting.handled world rest jobs) other otherDest =
        setting.view world other otherDest := by
      unfold view FileSetting.handled
      dsimp only
      rw [front, List.filterMap_append, ← handedOn, List.append_assoc]
      congr 1
      cases worked : setting.eventWork other event with
      | none => simp [worked]
      | some work => simp [worked]
    rw [same]
  · have split : (setting.view world other otherDest).pending =
        world.jobs.filterMap (jobWork other otherDest) ++
          .copyOver :: rest.filterMap (setting.eventWork other) := by
      unfold view
      dsimp only
      rw [front, List.filterMap_cons, work]
    have trifling : ∀ content, (setting.view world other otherDest).source = some content →
        ¬ content ≠ [] := by
      intro content found
      exact not_not.mpr (Option.some.inj (found.symm.trans empty))
    unfold FileSetting.handled
    rw [List.append_nil]
    exact Relation.ReflTransGen.single (WriteBehind.Step.skipped _ _ _ split trifling)

/-! ### Applying a job -/

def storeAfter (setting : FileSetting) (world : FileWorld) (job : Job) : Bytes → Option Bytes :=
  (job.go setting.rs.token
    (setting.attemptSurroundings world job.source job.destination)).trace.foldl
      (receive world.files) world.store

theorem storeBehind_goodService (world : FileWorld) (job : Job) :
    (setting.goodService world job).storeBehind setting.rs.token world.files world.store job =
      setting.storeAfter world job := by
  unfold Service.storeBehind storeAfter
  rw [List.filter_eq_self.mpr]
  · rfl
  · intro performed _member
    cases performed <;> rfl

theorem applied_of_waiting (running : setting.Running contents world)
    (apart : Set.InjOn (fun content => hexString (setting.md5 content)) contents) {job : Job}
    (waiting : job ∈ world.jobs) :
    ∃ path dest work, setting.Kept path dest ∧ jobWork path dest job = some work ∧
      (∀ other otherDest, setting.Kept other otherDest → path ≠ other →
        jobWork other otherDest job = none) ∧
      setting.storeAfter world job = Function.update world.store dest.path
        (WriteBehind.perform (· ≠ []) (world.files path) (world.store dest.path) work) := by
  obtain ⟨path, dest, kept, rfl | rfl⟩ := running.waiting job waiting
  · refine ⟨path, dest, .copyOver, kept, if_pos rfl, ?_, ?_⟩
    · intro other otherDest _otherKept different
      exact if_neg different
    · apply apply_conditionalUpload (addresses_of_destination kept.isFile kept.named).pathAndSearch
      intro content stored found object same
      exact apart (running.filed path content found).2.1
        (running.stored _ stored kept.underRemoteDir object).1 same
  · refine ⟨path, dest, .remove, kept, if_pos rfl, ?_, ?_⟩
    · intro other otherDest otherKept different
      rw [jobWork_remoteDelete kept otherKept, if_neg different]
    · apply apply_remoteDelete _ rfl rfl
      change (if (world.store dest.path).isSome then 204 else 404) = 404 ∨
        (if (world.store dest.path).isSome then 204 else 404) = 204
      cases world.store dest.path with
      | none => exact Or.inl rfl
      | some object => exact Or.inr rfl

theorem performed_mem {file object : Option Bytes} {work : WriteBehind.Work}
    (filed : ∀ content, file = some content → content ∈ contents)
    (stored : ∀ content, object = some content → content ∈ contents) {content : Bytes}
    (performed : WriteBehind.perform (· ≠ []) file object work = some content) :
    content ∈ contents := by
  cases work with
  | remove => cases performed
  | copyOver =>
      cases file with
      | none => exact stored content performed
      | some found =>
          unfold WriteBehind.perform at performed
          dsimp only at performed
          split at performed
          · exact filed content performed
          · exact stored content performed

def applied (world : FileWorld) (rest : List Job) (store : Bytes → Option Bytes) : FileWorld :=
  { world with
    jobs := rest
    store := store }

theorem Running.applied (running : setting.Running contents world) {job : Job} {rest : List Job}
    (front : world.jobs = job :: rest) (kept : setting.Kept path dest)
    (work : WriteBehind.Work) :
    setting.Running contents (FileSetting.applied world rest
      (Function.update world.store dest.path
        (WriteBehind.perform (· ≠ []) (world.files path) (world.store dest.path) work))) where
  alive := running.alive
  filed := running.filed
  stored name content under object := by
    unfold FileSetting.applied at object
    dsimp only at object
    by_cases same : name = dest.path
    · subst same
      rw [Function.update_self] at object
      refine ⟨?_, path, dest, kept, rfl⟩
      exact performed_mem (fun found filed => (running.filed path found filed).2.1)
        (fun found stored => (running.stored _ found under stored).1) object
    · rw [Function.update_of_ne same] at object
      exact running.stored name content under object
  queued := running.queued
  waiting other member := running.waiting other (front ▸ List.mem_cons_of_mem job member)

theorem carried_applyJob (running : setting.Running contents world)
    (apart : Set.InjOn (fun content => hexString (setting.md5 content)) contents) {job : Job}
    {rest : List Job} (front : world.jobs = job :: rest) :
    setting.Carried contents world
      (FileSetting.applied world rest (setting.storeAfter world job)) := by
  obtain ⟨path, dest, work, kept, own, others, stored⟩ :=
    applied_of_waiting running apart (front ▸ List.mem_cons_self)
  rw [stored]
  refine ⟨running.applied front kept work, ?_⟩
  intro other otherDest otherKept
  by_cases same : path = other
  · subst same
    obtain rfl := Except.ok.inj (kept.named.symm.trans otherKept.named)
    have split : (setting.view world path dest).pending =
        work :: (rest.filterMap (jobWork path dest) ++
          world.queue.filterMap (setting.eventWork path)) := by
      unfold view
      dsimp only
      rw [front, List.filterMap_cons, own]
      rfl
    have performed : WriteBehind.Step (· ≠ []) (setting.view world path dest) _ :=
      WriteBehind.Step.performed _ _ _ split
    unfold FileSetting.applied
    unfold view at performed ⊢
    dsimp only at performed ⊢
    rw [Function.update_self]
    exact Relation.ReflTransGen.single performed
  · have elsewhere : otherDest.path ≠ dest.path := by
      intro equal
      exact same (otherKept.unique kept equal.symm)
    have unchanged (value : Option Bytes) :
        setting.view (FileSetting.applied world rest (Function.update world.store dest.path value))
          other otherDest = setting.view world other otherDest := by
      unfold view FileSetting.applied
      dsimp only
      rw [front, List.filterMap_cons, others other otherDest otherKept same,
        Function.update_of_ne elsewhere]
    rw [unchanged]

end FileSetting

end Cdnalizerd
