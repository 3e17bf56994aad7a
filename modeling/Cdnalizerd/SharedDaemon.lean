/-
One daemon for several entries.

It has one queue of events and one queue of jobs for all of them.  Seen from the
part of the world that belongs to one entry, its runs are runs of a daemon that the
entry has to itself.
-/

import Mathlib.Data.List.Pairwise
import Cdnalizerd.EntryParts
import Cdnalizerd.WatchedSync

namespace Cdnalizerd

open Library

structure SharedDaemon where
  daemon : Daemon
  settings : List FileSetting
  accounts : AccountCache
  maxQueuedEvents : Nat
  md5 : Bytes → Vector UInt8 16
  alike : ∀ setting ∈ settings, setting.accounts = accounts ∧
    setting.maxQueuedEvents = maxQueuedEvents ∧ setting.md5 = md5
  /-- The watches of an entry are among those of the daemon. -/
  watched : ∀ setting ∈ settings, ∀ handle directory,
    setting.daemon.inotify.watches handle = some directory →
      daemon.inotify.watches handle = some directory ∧
        daemon.watchToConfig handle = some setting.entry
  apart : settings.Pairwise FileSetting.Apart

namespace SharedDaemon

/-- A step of the world, with the entry whose files an operation changes and whose
account a job is applied with. -/
def step (world : FileWorld) (label : FileSetting × FileLabel) : Option FileWorld :=
  world.step label.1 label.2

def Harmless (shared : SharedDaemon) (contents : Set Bytes) (world : FileWorld)
    (label : FileSetting × FileLabel) : Prop :=
  label.1 ∈ shared.settings ∧ label.1.Harmless contents world label.2

/-- The step is one of an entry, and not seen by the others. -/
structure StepOf (shared : SharedDaemon) (contents : Set Bytes) (setting : FileSetting)
    (world next : FileWorld) : Prop where
  own : Runs.Next (FileWorld.step setting) (setting.Harmless contents) (setting.part world)
    (setting.part next)
  unseen : ∀ other ∈ shared.settings, other ≠ setting → other.part next = other.part world

variable {shared : SharedDaemon} {contents : Set Bytes} {setting : FileSetting}
  {world next : FileWorld}

theorem apart_of_ne {other : FileSetting} (member : setting ∈ shared.settings)
    (otherMember : other ∈ shared.settings) (different : other ≠ setting) :
    setting.Apart other :=
  shared.apart.forall member otherMember (Ne.symm different)

/-! ### Operations -/

theorem unharmed_part {operation : FileOperation}
    (unharmed : setting.Unharmed contents world operation) :
    setting.Unharmed contents (setting.part world) operation := by
  have gone {path : Bytes} (unnoticed : setting.GoesUnnoticed world path) :
      setting.GoesUnnoticed (setting.part world) path := by
    refine unnoticed.imp_right fun absent dest named => ?_
    change (if Below setting.root dest.path then world.store dest.path else none) = none
    rw [absent dest named, ite_self]
  cases operation with
  | write handle name content => exact unharmed
  | delete handle name => exact unharmed
  | rename handle name toHandle toName =>
      intro path toPath content located toLocated found
      have there := (FileSetting.ownFiles_eq_some_iff.mp found).2
      exact (unharmed path toPath content located toLocated there).imp_left gone
  | moveOut handle name => exact fun path located => gone (unharmed path located)
  | moveIn handle name content => exact unharmed

theorem stepOf_operation {operation : FileOperation} {merges : List Bool}
    (member : setting ∈ shared.settings)
    (harmless : setting.Harmless contents world (.operate operation merges))
    (stepped : world.step setting (.operate operation merges) = some next) :
    shared.StepOf contents setting world next := by
  constructor
  · obtain ⟨ownMerges, ownStep⟩ := FileSetting.part_of_operation harmless.1 stepped
    obtain ⟨_files, _queue, _events, operated, _gains, _next⟩ :=
      FileSetting.gained_of_operate harmless.1 stepped
    exact ⟨.operate operation ownMerges,
      ⟨FileSetting.hasRoom_part harmless.1 operated, unharmed_part harmless.2⟩, ownStep⟩
  · intro other otherMember different
    exact FileSetting.part_of_operation_elsewhere (apart_of_ne member otherMember different)
      (FileSetting.operated_of_step harmless.1 stepped)

/-! ### Events -/

/-- Apart from the size of a closed file, an event about a file is handled by its
location alone. -/
theorem dispatch_alike {event : Event} {located : Located}
    (kind : event.mask = inCreate ∨ event.mask = inMovedFrom ∨ event.mask = inMovedTo ∨
      event.mask = inCloseWrite ∨ event.mask = inDelete)
    {around other : EventSurroundings}
    (size : around.fileSize located.localFile = other.fileSize located.localFile) :
    ∃ run : Watching Unit, ∀ daemon : Daemon,
      dispatch around daemon event located = (run >>= fun _done => pure daemon) ∧
        dispatch other daemon event located = (run >>= fun _done => pure daemon) := by
  rcases kind with created | movedFrom | movedTo | closed | deleted
  · exact ⟨pure (), fun daemon =>
      ⟨dispatch_of_created_file created, dispatch_of_created_file created⟩⟩
  · exact ⟨pure (), fun daemon =>
      ⟨dispatch_of_moved (Or.inl movedFrom), dispatch_of_moved (Or.inl movedFrom)⟩⟩
  · exact ⟨pure (), fun daemon =>
      ⟨dispatch_of_moved (Or.inr (Or.inl movedTo)), dispatch_of_moved (Or.inr (Or.inl movedTo))⟩⟩
  · have same : handleClosed around located = handleClosed other located := by
      unfold handleClosed
      rw [size]
    refine ⟨handleClosed around located, fun daemon => ⟨dispatch_of_closed closed, ?_⟩⟩
    rw [same]
    exact dispatch_of_closed closed
  · exact ⟨handleDeleted event located, fun daemon =>
      ⟨dispatch_of_deleted_file deleted, dispatch_of_deleted_file deleted⟩⟩

theorem fileSize_part {path : Bytes} (isFile : setting.IsFile path) (world : FileWorld) :
    (setting.part world).surroundings.fileSize path = world.surroundings.fileSize path := by
  have same : (setting.part world).files path = world.files path :=
    FileSetting.ownFiles_of_isFile isFile world.files
  simp only [FileWorld.surroundings, same]

/-- The daemon handles an event about a file of an entry as the entry's own would. -/
theorem handled_alike (member : setting ∈ shared.settings) {event : Event} {path : Bytes}
    (located : setting.pathOf event.wd event.name = some path)
    (reportable : setting.Reportable event.mask path) :
    ∃ run : Watching Unit,
      handleEvent setting.accounts (setting.part world).surroundings setting.daemon event =
          (run >>= fun _done => pure setting.daemon) ∧
        handleEvent shared.accounts world.surroundings shared.daemon event =
          (run >>= fun _done => pure shared.daemon) := by
  have kind := reportable.imp_right (Or.imp_right (Or.imp_right (Or.imp_right And.left)))
  have isFile := FileSetting.isFile_of_pathOf located
  obtain ⟨run, alike⟩ := @dispatch_alike event
    ⟨setting.entry, setting.url, path, relativeTo path setting.entry.localDir⟩ kind _ _
    (fileSize_part isFile world)
  refine ⟨Traced.emit (.request (.getWorker setting.url.raw)) >>= fun _done => run, ?_, ?_⟩
  · rw [FileSetting.handled_of_located located, Traced.bind_assoc, (alike setting.daemon).1]
  · obtain ⟨directory, recorded, _proper, rfl⟩ := FileSetting.pathOf_eq_some_iff.mp located
    obtain ⟨watched, configured⟩ := shared.watched setting member _ _ recorded
    have login := setting.login
    rw [(shared.alike setting member).1] at login
    rw [handleEvent_of_recorded watched configured login setting.endpoint rfl,
      Traced.bind_assoc, ← (alike shared.daemon).2]

/-- A job for an object of the entry, that reads no file of another. -/
structure JobOf (shared : SharedDaemon) (owner : FileSetting) (job : Job) : Prop where
  below : Below owner.root job.destination.path
  source : ∀ other ∈ shared.settings, other ≠ owner → ¬ other.IsFile job.source

theorem jobOf_of_queues (member : setting ∈ shared.settings) {path : Bytes} {mask : UInt32}
    {jobs : List Job} (queues : setting.Queues world path mask jobs) {job : Job}
    (listed : job ∈ jobs) : shared.JobOf setting job := by
  obtain ⟨dest, kept, rfl | rfl⟩ := FileSetting.waiting_of_queues queues listed
  · refine ⟨FileSetting.below_of_kept kept, ?_⟩
    intro other otherMember different
    exact (apart_of_ne member otherMember different).files path kept.isFile
  · refine ⟨FileSetting.below_of_kept kept, ?_⟩
    intro other _otherMember _different isFile
    exact isFile.ne_nil rfl

theorem ownJobs_append {jobs more : List Job}
    (below : ∀ job ∈ more, Below setting.root job.destination.path) :
    setting.ownJobs (jobs ++ more) = setting.ownJobs jobs ++ more := by
  unfold FileSetting.ownJobs
  rw [List.filter_append]
  congr 1
  exact List.filter_eq_self.mpr fun job member => decide_eq_true (below job member)

theorem ownJobs_append_elsewhere {jobs more : List Job}
    (elsewhere : ∀ job ∈ more, ¬ Below setting.root job.destination.path) :
    setting.ownJobs (jobs ++ more) = setting.ownJobs jobs := by
  unfold FileSetting.ownJobs
  rw [List.filter_append, List.filter_eq_nil_iff.mpr fun job member =>
    (decide_eq_true_iff.not.mpr (elsewhere job member)), List.append_nil]

theorem closedFileThere_part {event : Event} {rest : List Event}
    (front : world.queue = event :: rest) {owner labelled : FileSetting}
    (member : owner ∈ shared.settings) (labelledMember : labelled ∈ shared.settings)
    {path : Bytes} (located : owner.pathOf event.wd event.name = some path)
    (there : labelled.closedFileThere world = true) (closed : event.mask = inCloseWrite) :
    ((owner.part world).files path).isSome = true := by
  have found : ((labelled.pathOf event.wd event.name).bind world.files).isSome = true := by
    unfold FileSetting.closedFileThere at there
    rw [front] at there
    simpa [closed] using there
  by_cases same : labelled = owner
  · subst same
    rw [located] at found
    exact FileSetting.isSome_ownFiles (FileSetting.isFile_of_pathOf located) found
  · rw [FileSetting.pathOf_of_apart (apart_of_ne member labelledMember same) located] at found
    cases found

structure Handled (shared : SharedDaemon) (owner : FileSetting) (rest : List Event)
    (world next : FileWorld) : Prop where
  daemon : next.daemon = some shared.daemon
  queue : next.queue = rest
  files : next.files = world.files
  jobs : ∀ job ∈ next.jobs, job ∈ world.jobs ∨ shared.JobOf owner job

theorem stepOf_handleEvent (alive : world.daemon = some shared.daemon) {event : Event}
    {rest : List Event} (front : world.queue = event :: rest) {owner labelled : FileSetting}
    (member : owner ∈ shared.settings)
    (running : owner.Running contents (owner.lookedAhead (owner.part world)))
    {path : Bytes} (located : owner.pathOf event.wd event.name = some path)
    (labelledMember : labelled ∈ shared.settings)
    (there : labelled.closedFileThere world = true)
    (stepped : world.step labelled .handleEvent = some next) :
    shared.StepOf contents owner world next ∧
      shared.Handled owner rest world next := by
  have ownFront : (owner.part world).queue = event :: owner.ownQueue rest := by
    change owner.ownQueue world.queue = _
    rw [front]
    exact List.filter_cons_of_pos (by rw [located]; rfl)
  have queued : event ∈ (owner.part world).queue := by
    rw [ownFront]
    exact List.mem_cons_self
  have ownThere := closedFileThere_part front member labelledMember located there
  obtain ⟨returned, queues⟩ := FileSetting.handled_well running queued located ownThere
  obtain ⟨_path, locatedAgain, reportable⟩ := running.queued event queued
  obtain rfl := Option.some.inj (located.symm.trans locatedAgain)
  obtain ⟨run, apartly, common⟩ := @handled_alike shared owner world member event path located
    reportable
  change (handleEvent owner.accounts (owner.part world).surroundings owner.daemon
    event).result = _ at returned
  change owner.Queues _ _ _ (queuedJobs (handleEvent owner.accounts
    (owner.part world).surroundings owner.daemon event).trace) at queues
  rw [apartly] at returned queues
  obtain ⟨_unit, ended, _daemon⟩ := Traced.bind_result_eq_ok_iff.mp returned
  rw [Traced.bind_of_ok ended] at apartly common queues
  simp only [Traced.pure_trace, Traced.pure_result, List.append_nil] at apartly common queues
  rw [FileSetting.step_handleEvent front alive, (shared.alike labelled labelledMember).1,
    common] at stepped
  obtain rfl := Option.some.inj stepped
  have own : ∀ job ∈ queuedJobs run.trace, shared.JobOf owner job :=
    fun _job listed => jobOf_of_queues member queues listed
  have ownAlive : (owner.part world).daemon = some owner.daemon := by
    change world.daemon.map _ = _
    rw [alive]
    rfl
  refine ⟨⟨⟨.handleEvent, ?_, ?_⟩, ?_⟩, ⟨rfl, rfl, rfl, ?_⟩⟩
  · unfold FileSetting.Harmless FileSetting.closedFileThere
    dsimp only
    rw [ownFront]
    by_cases closed : event.mask = inCloseWrite
    · simpa [located] using Or.inr (ownThere closed)
    · simp [closed]
  · rw [FileSetting.step_handleEvent ownFront ownAlive, apartly]
    unfold FileSetting.part
    dsimp only
    rw [ownJobs_append fun job listed => (own job listed).below]
    rfl
  · intro other otherMember different
    have apart := apart_of_ne member otherMember different
    have skipped : other.ownQueue world.queue = other.ownQueue rest := by
      rw [front]
      exact List.filter_cons_of_neg (by
        rw [FileSetting.pathOf_of_apart apart located]
        decide)
    have elsewhere : ∀ job ∈ queuedJobs run.trace,
        ¬ Below other.root job.destination.path :=
      fun job listed inOther => apart.roots.ne (own job listed).below inOther rfl
    unfold FileSetting.part
    dsimp only
    rw [skipped, alive]
    congr 1
    exact ownJobs_append_elsewhere elsewhere
  · intro job listed
    exact (List.mem_append.mp listed).imp_right (own job)

/-! ### Jobs -/

/-- The file that a job of an entry reads is no file of another. -/
theorem JobOf.sameFile {job : Job} (jobOf : shared.JobOf setting job)
    (filed : ∀ path content, world.files path = some content →
      ∃ owner ∈ shared.settings, owner.IsFile path) :
    (setting.part world).files job.source = world.files job.source := by
  by_cases isFile : setting.IsFile job.source
  · exact FileSetting.ownFiles_of_isFile isFile world.files
  · have absent : world.files job.source = none := by
      rw [Option.eq_none_iff_forall_ne_some]
      intro content found
      obtain ⟨owner, member, ownFile⟩ := filed job.source content found
      by_cases same : owner = setting
      · subst same
        exact isFile ownFile
      · exact jobOf.source owner member same ownFile
    rw [absent]
    exact if_neg isFile

theorem ready_of_upload (running : setting.Running contents (setting.lookedAhead world))
    {source : Bytes} {dest : URL} (waiting : .upload source dest ∈ world.jobs)
    {content : Bytes} (found : world.files source = some content) :
    dest.pathAndSearch = dest.path ∧ source ≠ [] := by
  have isFile := (running.filed source content found).1
  have ahead : .conditionalUpload source dest ∈ (setting.lookedAhead world).jobs :=
    List.mem_filterMap.mpr ⟨_, waiting, if_pos isFile⟩
  obtain ⟨path, other, kept, isUpload | isDelete⟩ := running.waiting _ ahead
  · obtain ⟨rfl, rfl⟩ := Job.conditionalUpload.inj isUpload
    exact kept.ready
  · cases isDelete

theorem waiting_of_looked (running : setting.Running contents (setting.lookedAhead world))
    {job : Job} (waiting : job ∈ world.jobs) (looked : setting.lookAhead job = some job) :
    ∃ path dest, setting.Kept path dest ∧
      (job = .conditionalUpload path dest ∨ job = .remoteDelete dest) :=
  running.waiting job (List.mem_filterMap.mpr ⟨job, waiting, looked⟩)

/-- A job of an entry does in the world what it does in the part of the entry. -/
theorem storeAfter_alike
    (running : setting.Running contents (setting.lookedAhead (setting.part world)))
    (distinct : Set.InjOn (fun content => hexString (setting.md5 content)) contents)
    {labelled : FileSetting} (sameDigest : labelled.md5 = setting.md5) {job : Job}
    (waiting : job ∈ (setting.part world).jobs)
    (file : (setting.part world).files job.source = world.files job.source)
    (object : (setting.part world).store job.destination.path =
      world.store job.destination.path) :
    ∃ value, labelled.storeAfter world job =
        Function.update world.store job.destination.path value ∧
      setting.storeAfter (setting.part world) job =
        Function.update (setting.part world).store job.destination.path value := by
  cases job with
  | upload source dest =>
      have ready : ∀ content, world.files source = some content → content ≠ [] →
          dest.pathAndSearch = dest.path ∧ source ≠ [] :=
        fun _content found _nonempty => ready_of_upload running waiting (file.trans found)
      have applied := @apply_upload setting (setting.part world) source dest setting.rs.token
      dsimp only [Job.source, Job.destination] at file object
      rw [file, object] at applied
      exact ⟨_, apply_upload ready, applied ready⟩
  | conditionalUpload source dest =>
      obtain ⟨path, other, kept, isUpload | isDelete⟩ := waiting_of_looked running waiting rfl
      · obtain ⟨rfl, rfl⟩ := Job.conditionalUpload.inj isUpload
        have unlike : ∀ content stored, world.files source = some content →
            world.store dest.path = some stored →
              hexString (setting.md5 content) = hexString (setting.md5 stored) →
                content = stored := by
          intro content stored found copied same
          refine distinct (running.filed source content (file.trans found)).2.1 ?_ same
          exact (running.stored _ stored kept.underRemoteDir (object.trans copied)).1
        have applied := @apply_conditionalUpload setting (setting.part world) source dest
          setting.rs.token kept.ready.1
        dsimp only [Job.source, Job.destination] at file object
        rw [file, object] at applied
        refine ⟨_, apply_conditionalUpload kept.ready.1 ?_, applied unlike⟩
        rw [sameDigest]
        exact unlike
      · cases isDelete
  | remoteDelete dest =>
      have expected (store : Bytes → Option Bytes) :
          (if (store dest.path).isSome then 204 else 404) = 404 ∨
            (if (store dest.path).isSome then 204 else 404) = 204 := by
        split
        · exact Or.inr rfl
        · exact Or.inl rfl
      exact ⟨none, apply_remoteDelete _ rfl rfl (expected world.store),
        apply_remoteDelete _ rfl rfl (expected (setting.part world).store)⟩

theorem stepOf_applyJob {job : Job} {rest : List Job} (front : world.jobs = job :: rest)
    {owner labelled : FileSetting} (member : owner ∈ shared.settings)
    (running : owner.Running contents (owner.lookedAhead (owner.part world)))
    (jobOf : shared.JobOf owner job)
    (filed : ∀ path content, world.files path = some content →
      ∃ other ∈ shared.settings, other.IsFile path)
    (distinct : Set.InjOn (fun content => hexString (shared.md5 content)) contents)
    (labelledMember : labelled ∈ shared.settings) {service : Service}
    (well : labelled.ServedWell world service)
    (stepped : world.step labelled (.applyJob service) = some next) :
    shared.StepOf contents owner world next ∧
      next = { world with
        jobs := rest
        store := next.store } := by
  have ownFront : (owner.part world).jobs = job :: owner.ownJobs rest := by
    change owner.ownJobs world.jobs = _
    rw [front]
    exact List.filter_cons_of_pos (decide_eq_true jobOf.below)
  have waiting : job ∈ (owner.part world).jobs := by
    rw [ownFront]
    exact List.mem_cons_self
  rw [← (shared.alike owner member).2.2] at distinct
  have sameDigest : labelled.md5 = owner.md5 :=
    (shared.alike labelled labelledMember).2.2.trans (shared.alike owner member).2.2.symm
  have below := jobOf.below
  obtain ⟨value, applied, ownApplied⟩ := storeAfter_alike running distinct sameDigest waiting
    (jobOf.sameFile filed) (FileSetting.ownStore_of_below below world.store)
  rw [FileSetting.step_applyJob front well, applied] at stepped
  obtain rfl := Option.some.inj stepped
  refine ⟨⟨⟨.applyJob _, owner.servedWell_nextServed (owner.part world), ?_⟩, ?_⟩, rfl⟩
  · rw [FileSetting.step_applyJob ownFront (owner.servedWell_nextServed _), ownApplied]
    unfold FileSetting.applied FileSetting.part
    dsimp only
    rw [FileSetting.ownStore_update below]
  · intro other otherMember different
    have elsewhere : ¬ Below other.root job.destination.path :=
      fun inOther => (apart_of_ne member otherMember different).roots.ne below inOther rfl
    have skipped : other.ownJobs world.jobs = other.ownJobs rest := by
      rw [front]
      exact List.filter_cons_of_neg (by rw [decide_eq_true_iff]; exact elsewhere)
    unfold FileSetting.applied FileSetting.part
    dsimp only
    rw [skipped, FileSetting.ownStore_update_elsewhere elsewhere]

/-! ### Runs -/

/-- What there is belongs to an entry, and the part of every entry is in order. -/
structure Ready (shared : SharedDaemon) (contents : Set Bytes) (world : FileWorld) : Prop where
  alive : world.daemon = some shared.daemon
  filed : ∀ path content, world.files path = some content →
    ∃ setting ∈ shared.settings, setting.IsFile path
  located : ∀ event ∈ world.queue, ∃ setting ∈ shared.settings, ∃ path,
    setting.pathOf event.wd event.name = some path
  owned : ∀ job ∈ world.jobs, ∃ setting ∈ shared.settings, shared.JobOf setting job
  running : ∀ setting ∈ shared.settings,
    setting.Running contents (setting.lookedAhead (setting.part world))

section Steps

variable (distinct : Set.InjOn (fun content => hexString (shared.md5 content)) contents)
include distinct

theorem StepOf.running (stepOf : shared.StepOf contents setting world next)
    (ready : shared.Ready contents world) :
    ∀ other ∈ shared.settings,
      other.Running contents (other.lookedAhead (other.part next)) := by
  intro other member
  by_cases same : other = setting
  · subst same
    rw [← (shared.alike other member).2.2] at distinct
    obtain ⟨label, harmless, stepped⟩ := stepOf.own
    exact (FileSetting.carried_of_ahead (ready.running other member) distinct harmless
      stepped).running
  · rw [stepOf.unseen other member same]
    exact ready.running other member

theorem Ready.operation {operation : FileOperation} {merges : List Bool}
    (ready : shared.Ready contents world) (member : setting ∈ shared.settings)
    (harmless : setting.Harmless contents world (.operate operation merges))
    (stepped : world.step setting (.operate operation merges) = some next) :
    shared.StepOf contents setting world next ∧ shared.Ready contents next := by
  have stepOf := @stepOf_operation shared contents setting world next operation merges member
    harmless stepped
  have operated := FileSetting.operated_of_step harmless.1 stepped
  obtain ⟨events, gains, located⟩ := operated.queue
  refine ⟨stepOf, ?_, ?_, ?_, ?_, stepOf.running distinct ready⟩
  · rw [operated.others]
    exact ready.alive
  · intro path content found
    by_cases isFile : setting.IsFile path
    · exact ⟨setting, member, isFile⟩
    · exact ready.filed path content ((operated.files path isFile).symm.trans found)
  · intro event queued
    rcases gains.mem queued with old | new
    · exact ready.located event old
    · exact ⟨setting, member, located event new⟩
  · rw [operated.others]
    exact ready.owned

theorem Ready.handleEvent (ready : shared.Ready contents world)
    (member : setting ∈ shared.settings) (there : setting.closedFileThere world = true)
    (stepped : world.step setting .handleEvent = some next) :
    ∃ owner, shared.StepOf contents owner world next ∧
      shared.Ready contents next := by
  cases front : world.queue with
  | nil =>
      unfold FileWorld.step at stepped
      rw [front] at stepped
      cases stepped
  | cons event rest =>
      obtain ⟨owner, ownerMember, path, located⟩ :=
        ready.located event (front ▸ List.mem_cons_self)
      obtain ⟨stepOf, handled⟩ := stepOf_handleEvent ready.alive front ownerMember
        (ready.running owner ownerMember) located member there stepped
      refine ⟨owner, stepOf, handled.daemon, ?_, ?_, ?_, stepOf.running distinct ready⟩
      · rw [handled.files]
        exact ready.filed
      · intro other queued
        rw [handled.queue] at queued
        exact ready.located other (front ▸ List.mem_cons_of_mem event queued)
      · intro job listed
        rcases handled.jobs job listed with old | new
        · exact ready.owned job old
        · exact ⟨owner, ownerMember, new⟩

theorem Ready.applyJob (ready : shared.Ready contents world)
    (member : setting ∈ shared.settings) {service : Service}
    (well : setting.ServedWell world service)
    (stepped : world.step setting (.applyJob service) = some next) :
    ∃ owner, shared.StepOf contents owner world next ∧
      shared.Ready contents next := by
  cases front : world.jobs with
  | nil =>
      unfold FileWorld.step at stepped
      rw [front] at stepped
      cases stepped
  | cons job rest =>
      obtain ⟨owner, ownerMember, jobOf⟩ := ready.owned job (front ▸ List.mem_cons_self)
      obtain ⟨stepOf, after⟩ := stepOf_applyJob front ownerMember
        (ready.running owner ownerMember) jobOf ready.filed distinct member well stepped
      have running := stepOf.running distinct ready
      rw [after] at stepOf running ⊢
      refine ⟨owner, stepOf, ready.alive, ready.filed, ready.located, ?_, running⟩
      intro other listed
      exact ready.owned other (front ▸ List.mem_cons_of_mem job listed)

/-- Every step is a step of one entry. -/
theorem Ready.step (ready : shared.Ready contents world)
    {label : FileSetting × FileLabel} (harmless : shared.Harmless contents world label)
    (stepped : SharedDaemon.step world label = some next) :
    ∃ owner, shared.StepOf contents owner world next ∧ shared.Ready contents next := by
  obtain ⟨setting, label⟩ := label
  obtain ⟨member, harmless⟩ := harmless
  cases label with
  | operate operation merges =>
      exact ⟨setting, ready.operation distinct member harmless stepped⟩
  | handleEvent => exact ready.handleEvent distinct member harmless stepped
  | applyJob service => exact ready.applyJob distinct member harmless stepped

end Steps

/-- Nothing is queued, and the container has a mirror of the files of every entry. -/
structure Started (shared : SharedDaemon) (contents : Set Bytes) (world : FileWorld) :
    Prop where
  daemon : world.daemon = some shared.daemon
  queue : world.queue = []
  jobs : world.jobs = []
  filed : ∀ path content, world.files path = some content →
    ∃ setting ∈ shared.settings, setting.IsFile path
  parts : ∀ setting ∈ shared.settings, setting.Started contents (setting.part world)

theorem Started.ready (started : shared.Started contents world) :
    shared.Ready contents world where
  alive := started.daemon
  filed := started.filed
  located := by
    rw [started.queue]
    exact fun _event queued => absurd queued List.not_mem_nil
  owned := by
    rw [started.jobs]
    exact fun _job queued => absurd queued List.not_mem_nil
  running setting member := by
    have idle : (setting.part world).jobs = [] := (started.parts setting member).jobs
    have same : setting.lookedAhead (setting.part world) = setting.part world := by
      unfold FileSetting.lookedAhead
      rw [idle, List.filterMap_nil, ← idle]
    rw [same]
    exact (started.parts setting member).running

end SharedDaemon

/-! ### Two entries -/

end Cdnalizerd
