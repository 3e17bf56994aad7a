/-
The daemon from the creation of its watches on.

The watches are created before the first synchronisation, so files may change
and be reported while the accounts are logged in.  The plain uploads of the
synchronisation then wait together with the jobs of the events.
-/

import Cdnalizerd.FileWorkers
import Cdnalizerd.SyncedMirror

namespace Cdnalizerd

open Library

/-! ### Plain uploads as conditional ones -/

namespace FileSetting

open Classical in
/-- The job that looks at the object first, if there can be a file at all. -/
noncomputable def lookAhead (setting : FileSetting) : Job → Option Job
  | .upload source dest =>
      if setting.IsFile source then some (.conditionalUpload source dest) else none
  | job => some job

/-- The world in which every upload looks at its object. -/
noncomputable def lookedAhead (setting : FileSetting) (world : FileWorld) : FileWorld :=
  { world with jobs := world.jobs.filterMap setting.lookAhead }

variable {setting : FileSetting} {contents : Set Bytes} {world next : FileWorld}

theorem lookAhead_upload {source : Bytes} {dest : URL} {job : Job}
    (ahead : setting.lookAhead (.upload source dest) = some job) :
    setting.IsFile source ∧ job = .conditionalUpload source dest := by
  obtain ⟨isFile, same⟩ := Option.ite_none_right_eq_some.mp ahead
  exact ⟨isFile, (Option.some.inj same).symm⟩

/-- A source that can be no file is never found. -/
theorem storeAfter_of_none (filed : setting.Filed contents world.files) {job : Job}
    (ghost : setting.lookAhead job = none) : setting.storeAfter world job = world.store := by
  cases job with
  | upload source dest =>
      apply upload_spares_objects
      intro content found
      have isFile := (filed source content found).1
      unfold lookAhead at ghost
      dsimp only at ghost
      rw [if_pos isFile] at ghost
      cases ghost
  | conditionalUpload source dest => cases ghost
  | remoteDelete dest => cases ghost

/-- Where equal digests mean equal contents, an upload leaves the same objects
whether it looks at its object or not. -/
theorem storeAfter_of_some (running : setting.Running contents (setting.lookedAhead world))
    (apart : Set.InjOn (fun content => hexString (setting.md5 content)) contents)
    {job ahead : Job} (waiting : job ∈ world.jobs) (same : setting.lookAhead job = some ahead) :
    setting.storeAfter (setting.lookedAhead world) ahead = setting.storeAfter world job := by
  have waits : ahead ∈ (setting.lookedAhead world).jobs :=
    List.mem_filterMap.mpr ⟨job, waiting, same⟩
  cases job with
  | upload source dest =>
      obtain ⟨_isFile, rfl⟩ := lookAhead_upload same
      obtain ⟨path, other, kept, isUpload | isDelete⟩ := running.waiting _ waits
      · obtain ⟨rfl, rfl⟩ := Job.conditionalUpload.inj isUpload
        have looked := @apply_conditionalUpload setting world source dest setting.rs.token
          kept.ready.1 (by
            intro content stored found object equal
            exact apart (running.filed source content found).2.1
              (running.stored _ stored kept.underRemoteDir object).1 equal)
        have plain := @apply_upload setting world source dest setting.rs.token
          (fun _content _found _nonempty => kept.ready)
        exact looked.trans plain.symm
      · cases isDelete
  | conditionalUpload source dest =>
      obtain rfl := Option.some.inj same
      rfl
  | remoteDelete dest =>
      obtain rfl := Option.some.inj same
      rfl

/-! ### Steps -/

/-- No operation on the files looks at the jobs. -/
theorem carried_of_operation (running : setting.Running contents (setting.lookedAhead world))
    {operation : FileOperation} {merges : List Bool}
    (harmless : setting.Harmless contents world (.operate operation merges))
    (stepped : world.step setting (.operate operation merges) = some next) :
    setting.Carried contents (setting.lookedAhead world) (setting.lookedAhead next) := by
  have ahead : setting.Harmless contents (setting.lookedAhead world)
      (.operate operation merges) := harmless
  obtain ⟨operated, changed, rfl⟩ := Option.map_eq_some_iff.mp stepped
  exact carried_of_operate running ahead (Option.map_eq_some_iff.mpr ⟨operated, changed, rfl⟩)

theorem there_of_harmless {event : Event} {rest : List Event} {path : Bytes}
    (harmless : setting.Harmless contents world .handleEvent) (front : world.queue = event :: rest)
    (located : setting.pathOf event.wd event.name = some path)
    (closed : event.mask = inCloseWrite) : (world.files path).isSome = true := by
  unfold Harmless closedFileThere at harmless
  dsimp only at harmless
  rw [front] at harmless
  simpa [closed, located] using harmless

/-- The jobs of an event look at their objects already. -/
theorem lookAhead_of_queues {path : Bytes} {mask : UInt32} {jobs : List Job}
    (queues : setting.Queues world path mask jobs) :
    jobs.filterMap setting.lookAhead = jobs := by
  cases queues with
  | nothing _mask _needless => rfl
  | upload dest kept => rfl
  | delete dest kept => rfl

theorem carried_of_handled (running : setting.Running contents (setting.lookedAhead world))
    (harmless : setting.Harmless contents world .handleEvent)
    (stepped : world.step setting .handleEvent = some next) :
    setting.Carried contents (setting.lookedAhead world) (setting.lookedAhead next) := by
  have ahead : setting.Harmless contents (setting.lookedAhead world) .handleEvent := harmless
  apply carried_of_handleEvent running ahead
  have alive : world.daemon = some setting.daemon := running.alive
  cases front : world.queue with
  | nil =>
      unfold FileWorld.step at stepped
      dsimp only at stepped
      rw [front] at stepped
      cases stepped
  | cons event rest =>
      obtain rfl := Option.some.inj ((step_handleEvent front alive).symm.trans stepped)
      have queued : event ∈ (setting.lookedAhead world).queue := by
        change event ∈ world.queue
        rw [front]
        exact List.mem_cons_self
      obtain ⟨path, located, _reportable⟩ := running.queued event queued
      have handled := handled_well running queued located
        (@there_of_harmless setting contents world event rest path harmless front located)
      have sameJobs := lookAhead_of_queues handled.2
      have looked := @step_handleEvent setting (setting.lookedAhead world) event rest _ front alive
      rw [looked]
      unfold lookedAhead at sameJobs ⊢
      rw [List.filterMap_append]
      exact congrArg (fun jobs => some (FileWorld.mk world.files rest _
        (world.jobs.filterMap setting.lookAhead ++ jobs) world.store)) sameJobs.symm

/-- A job that is dropped changes nothing when it is applied. -/
theorem carried_of_applied (running : setting.Running contents (setting.lookedAhead world))
    (apart : Set.InjOn (fun content => hexString (setting.md5 content)) contents)
    {service : Service} (well : setting.ServedWell world service)
    (stepped : world.step setting (.applyJob service) = some next) :
    setting.Carried contents (setting.lookedAhead world) (setting.lookedAhead next) := by
  obtain ⟨job, rest, front, rfl⟩ := applied_of_step well stepped
  cases ahead : setting.lookAhead job with
  | none =>
      have spared := @storeAfter_of_none setting contents world running.filed job ahead
      have same : setting.lookedAhead (applied world rest (setting.storeAfter world job)) =
          setting.lookedAhead world := by
        unfold lookedAhead applied
        dsimp only
        rw [spared, front, List.filterMap_cons_none ahead]
      rw [same]
      exact ⟨running, fun _path _dest _kept => Relation.ReflTransGen.refl⟩
  | some looked =>
      have waiting : job ∈ world.jobs := by
        rw [front]
        exact List.mem_cons_self
      have split : (setting.lookedAhead world).jobs =
          looked :: rest.filterMap setting.lookAhead := by
        unfold lookedAhead
        dsimp only
        rw [front, List.filterMap_cons_some ahead]
      have carried := carried_applyJob running apart split
      rw [storeAfter_of_some running apart waiting ahead] at carried
      exact carried

theorem carried_of_ahead (running : setting.Running contents (setting.lookedAhead world))
    (apart : Set.InjOn (fun content => hexString (setting.md5 content)) contents)
    {label : FileLabel} (harmless : setting.Harmless contents world label)
    (stepped : world.step setting label = some next) :
    setting.Carried contents (setting.lookedAhead world) (setting.lookedAhead next) := by
  cases label with
  | operate operation merges => exact carried_of_operation running harmless stepped
  | handleEvent => exact carried_of_handled running harmless stepped
  | applyJob service => exact carried_of_applied running apart harmless stepped

/-! ### From the watches on -/

/-- The watches have been created.  Files may be without their objects, but under
the remote directory no object is without its file. -/
structure Begun (setting : FileSetting) (contents : Set Bytes) (world : FileWorld) : Prop where
  queue : world.queue = []
  jobs : world.jobs = []
  daemon : world.daemon = some setting.daemon
  filed : setting.Filed contents world.files
  stored : ∀ name content, setting.UnderRemoteDir name → world.store name = some content →
    content ∈ contents
  noStrays : setting.NoStrays world.files world.store

def LoggingIn (setting : FileSetting) (contents : Set Bytes) (world : FileWorld) :
    FileLabel → Prop
  | .operate operation merges => setting.Harmless contents world (.operate operation merges)
  | _ => False

variable {around : SyncSurroundings} {listed : List Bytes} {path : Bytes} {dest : URL}

theorem Begun.running (begun : setting.Begun contents world) :
    setting.Running contents world where
  alive := begun.daemon
  filed := begun.filed
  stored name content under object := by
    refine ⟨begun.stored name content under object, ?_⟩
    obtain ⟨path, dest, present, wanted, named, same⟩ :=
      begun.noStrays name content under object
    obtain ⟨found, filed⟩ := Option.isSome_iff_exists.mp present
    exact ⟨path, dest, ⟨(begun.filed path found filed).1, wanted, named⟩, same⟩
  queued := by
    rw [begun.queue]
    exact fun _event member => absurd member List.not_mem_nil
  waiting := by
    rw [begun.jobs]
    exact fun _job member => absurd member List.not_mem_nil

theorem Begun.pledged (begun : setting.Begun contents world) (kept : setting.Kept path dest) :
    WriteBehind.Pledged (· ≠ []) (setting.view world path dest) := by
  have pending := @pending_of_settled setting world begun.queue begun.jobs path dest
  constructor
  · intro absent
    unfold WriteBehind.Copy.eventual
    rw [pending, List.foldl_nil, ← Option.not_isSome_iff_eq_none]
    intro present
    obtain ⟨content, object⟩ := Option.isSome_iff_exists.mp present
    obtain ⟨other, otherDest, filed, wanted, named, same⟩ :=
      begun.noStrays dest.path content kept.underRemoteDir object
    obtain ⟨found, isFound⟩ := Option.isSome_iff_exists.mp filed
    obtain rfl := kept.unique ⟨(begun.filed other found isFound).1, wanted, named⟩ same
    cases absent.symm.trans isFound
  · intro content _same _counted
    rw [pending]
    intro impossible
    cases impossible

/-- While the accounts are logged in, no job is queued. -/
structure Prepared (setting : FileSetting) (contents : Set Bytes) (start world : FileWorld) :
    Prop where
  idle : world.jobs = []
  carried : setting.Carried contents start world

theorem Prepared.step {start : FileWorld} (prepared : setting.Prepared contents start world)
    {label : FileLabel} (loggingIn : setting.LoggingIn contents world label)
    (stepped : world.step setting label = some next) : setting.Prepared contents start next := by
  cases label with
  | operate operation merges =>
      have carried := carried_of_operate prepared.carried.running loggingIn stepped
      obtain ⟨_operated, _changed, rfl⟩ := Option.map_eq_some_iff.mp stepped
      exact ⟨prepared.idle, prepared.carried.trans carried⟩
  | handleEvent => exact absurd loggingIn id
  | applyJob service => exact absurd loggingIn id

end FileSetting

end Cdnalizerd
