/-
The container mirrors the files whenever everything is settled.

Every step of the world is a step of every file and its copy, so a run leads to
a mirror again as long as no step goes unnoticed that needs a job.
-/

import Cdnalizerd.FileHandling

namespace Cdnalizerd

open Library BoundedQueue

namespace FileSetting

variable {setting : FileSetting} {contents : Set Bytes} {world : FileWorld}

/-! ### Runs -/

def closedFileThere (setting : FileSetting) (world : FileWorld) : Bool :=
  match world.queue with
  | event :: _rest =>
      event.mask ≠ inCloseWrite || ((setting.pathOf event.wd event.name).bind world.files).isSome
  | [] => true

/-- The kernel's queue takes all events of an operation. -/
def hasRoom (setting : FileSetting) (world : FileWorld) (operation : FileOperation) : Bool :=
  match setting.operate world.files operation with
  | some operated => world.queue.length + operated.2.length ≤ setting.maxQueuedEvents
  | none => true

/-- Nothing that needs a copy is renamed, and the objects have URLs. -/
def Unharmed (setting : FileSetting) (contents : Set Bytes) (world : FileWorld) :
    FileOperation → Prop
  | .write handle name content =>
      ∀ path, setting.pathOf handle name = some path → setting.Fitting contents path content
  | .delete handle name => ∀ path, setting.pathOf handle name = some path → setting.Nameable path
  | .rename handle name toHandle toName =>
      ∀ path toPath content, setting.pathOf handle name = some path →
        setting.pathOf toHandle toName = some toPath → world.files path = some content →
          setting.GoesUnnoticed world path ∧ setting.ComesUnnoticed toPath content
  | .moveOut handle name =>
      ∀ path, setting.pathOf handle name = some path → setting.GoesUnnoticed world path
  | .moveIn handle name content =>
      ∀ path, setting.pathOf handle name = some path →
        content ∈ contents ∧ setting.ComesUnnoticed path content

/-- The next job is carried out, and its attempt is answered so. -/
def ServedWell (setting : FileSetting) (world : FileWorld) (service : Service) : Prop :=
  ∀ job ∈ world.jobs.head?, service = setting.goodService world job

def nextServed (setting : FileSetting) (world : FileWorld) : Service :=
  setting.goodService world (world.jobs.headD (.remoteDelete setting.url))

theorem servedWell_nextServed (setting : FileSetting) (world : FileWorld) :
    setting.ServedWell world (setting.nextServed world) := by
  intro job first
  unfold nextServed
  rw [List.headD_eq_head?_getD, Option.mem_def.mp first, Option.getD_some]

/-- Besides, the kernel's queue has room for the events, a closed file is still there
when its event is handled, and the jobs are carried out. -/
def Harmless (setting : FileSetting) (contents : Set Bytes) (world : FileWorld) :
    FileLabel → Prop
  | .operate operation _merges =>
      setting.hasRoom world operation = true ∧ setting.Unharmed contents world operation
  | .handleEvent => setting.closedFileThere world = true
  | .applyJob service => setting.ServedWell world service

theorem room_of_hasRoom {operation : FileOperation} {files : Bytes → Option Bytes}
    {events : List Event} (room : setting.hasRoom world operation = true)
    (operated : setting.operate world.files operation = some (files, events)) :
    world.queue.length + events.length ≤ setting.maxQueuedEvents := by
  unfold hasRoom at room
  rw [operated] at room
  exact of_decide_eq_true room

def fileKinds : List UInt32 :=
  [inCreate, inCloseWrite, inDelete, inMovedFrom, inMovedTo]

/-- The events of an operation are about files. -/
theorem event_of_operate {operation : FileOperation} {before files : Bytes → Option Bytes}
    {events : List Event} (operated : setting.operate before operation = some (files, events))
    {event : Event} (member : event ∈ events) :
    event.mask ∈ fileKinds ∧ ∃ path, setting.pathOf event.wd event.name = some path := by
  cases operation with
  | write handle name content =>
      obtain ⟨path, located, same⟩ := Option.map_eq_some_iff.mp operated
      obtain ⟨_files, rfl⟩ := Prod.mk.inj same
      rcases List.mem_append.mp member with created | closed
      · split at created
        · cases created
        · rw [List.mem_singleton.mp created]
          exact ⟨(by decide : inCreate ∈ fileKinds), path, located⟩
      · rw [List.mem_singleton.mp closed]
        exact ⟨(by decide : inCloseWrite ∈ fileKinds), path, located⟩
  | delete handle name =>
      obtain ⟨path, located, found⟩ := Option.bind_eq_some_iff.mp operated
      obtain ⟨_present, same⟩ := Option.ite_none_right_eq_some.mp found
      obtain ⟨_files, rfl⟩ := Prod.mk.inj (Option.some.inj same)
      rw [List.mem_singleton.mp member]
      exact ⟨(by decide : inDelete ∈ fileKinds), path, located⟩
  | rename handle name toHandle toName =>
      obtain ⟨path, located, found⟩ := Option.bind_eq_some_iff.mp operated
      obtain ⟨toPath, toLocated, found⟩ := Option.bind_eq_some_iff.mp found
      obtain ⟨_present, same⟩ := Option.ite_none_right_eq_some.mp found
      obtain ⟨_files, rfl⟩ := Prod.mk.inj (Option.some.inj same)
      rcases List.mem_pair.mp member with rfl | rfl
      · exact ⟨(by decide : inMovedFrom ∈ fileKinds), path, located⟩
      · exact ⟨(by decide : inMovedTo ∈ fileKinds), toPath, toLocated⟩
  | moveOut handle name =>
      obtain ⟨path, located, found⟩ := Option.bind_eq_some_iff.mp operated
      obtain ⟨_present, same⟩ := Option.ite_none_right_eq_some.mp found
      obtain ⟨_files, rfl⟩ := Prod.mk.inj (Option.some.inj same)
      rw [List.mem_singleton.mp member]
      exact ⟨(by decide : inMovedFrom ∈ fileKinds), path, located⟩
  | moveIn handle name content =>
      obtain ⟨path, located, same⟩ := Option.map_eq_some_iff.mp operated
      obtain ⟨_files, rfl⟩ := Prod.mk.inj same
      rw [List.mem_singleton.mp member]
      exact ⟨(by decide : inMovedTo ∈ fileKinds), path, located⟩

/-- The watches follow every kind of event that an operation causes. -/
theorem followed_of_operate {operation : FileOperation} {before files : Bytes → Option Bytes}
    {events : List Event} (operated : setting.operate before operation = some (files, events)) :
    (events.filter fun event => event.has maskToFollow) = events := by
  have follows : fileKinds.all (fun kind => kind &&& maskToFollow ≠ 0) = true := by decide
  apply List.filter_eq_self.mpr
  intro event member
  rw [Event.has_of_mask rfl]
  exact List.all_eq_true.mp follows event.mask (event_of_operate operated member).1

/-- Where there is room, an operation changes the files, and the queue gains its
events. -/
theorem gained_of_operate {next : FileWorld} {operation : FileOperation} {merges : List Bool}
    (room : setting.hasRoom world operation = true)
    (stepped : world.step setting (.operate operation merges) = some next) :
    ∃ files queue events, setting.operate world.files operation = some (files, events) ∧
      GainsAll world.queue events queue ∧
      next = { world with
        files := files
        queue := queue } := by
  obtain ⟨⟨files, events⟩, operated, rfl⟩ := Option.map_eq_some_iff.mp stepped
  refine ⟨files, _, events, operated, ?_, rfl⟩
  unfold report
  dsimp only
  rw [followed_of_operate operated]
  exact gainsAll_pushAll merges (room_of_hasRoom room operated)

theorem carried_of_write {files : Bytes → Option Bytes} {queue events : List Event}
    (running : setting.Running contents world) {handle : Int} {name content : Bytes}
    (unharmed : setting.Unharmed contents world (.write handle name content))
    (operated : setting.operate world.files (.write handle name content) = some (files, events))
    (gains : GainsAll world.queue events queue) :
    setting.Carried contents world { world with files := files, queue := queue } := by
  obtain ⟨path, located, same⟩ := Option.map_eq_some_iff.mp operated
  obtain ⟨rfl, rfl⟩ := Prod.mk.inj same
  have fitting := unharmed path located
  by_cases present : (world.files path).isSome = true
  · rw [if_pos present] at gains
    obtain _ | ⟨closed, _ | _⟩ := gains
    exact carried_write running located closed fitting
  · rw [if_neg present] at gains
    obtain _ | ⟨first, _ | ⟨closed, _ | _⟩⟩ := gains
    have created := carried_create running located first
    have written := created.trans (carried_write created.running located closed fitting)
    unfold change at written
    dsimp only at written
    rw [Function.update_idem] at written
    exact written

/-- A rename is a file that goes and a file that comes. -/
theorem carried_of_rename {files : Bytes → Option Bytes} {queue events : List Event}
    (running : setting.Running contents world) {handle toHandle : Int} {name toName : Bytes}
    (unharmed : setting.Unharmed contents world (.rename handle name toHandle toName))
    (operated : setting.operate world.files (.rename handle name toHandle toName) =
      some (files, events))
    (gains : GainsAll world.queue events queue) :
    setting.Carried contents world { world with files := files, queue := queue } := by
  obtain ⟨path, located, operated⟩ := Option.bind_eq_some_iff.mp operated
  obtain ⟨toPath, toLocated, operated⟩ := Option.bind_eq_some_iff.mp operated
  obtain ⟨⟨_different, present⟩, moved⟩ := Option.ite_none_right_eq_some.mp operated
  obtain ⟨rfl, rfl⟩ := Prod.mk.inj (Option.some.inj moved)
  obtain ⟨content, found⟩ := Option.isSome_iff_exists.mp present
  obtain ⟨goes, comes⟩ := unharmed path toPath content located toLocated found
  obtain _ | ⟨movedFrom, _ | ⟨movedTo, _ | _⟩⟩ := gains
  have gone := carried_moveOut running located movedFrom goes
  rw [found]
  exact gone.trans (carried_moveIn gone.running toLocated movedTo
    (running.filed path content found).2.1 comes)

theorem carried_of_operate {next : FileWorld} (running : setting.Running contents world)
    {operation : FileOperation} {merges : List Bool}
    (harmless : setting.Harmless contents world (.operate operation merges))
    (stepped : world.step setting (.operate operation merges) = some next) :
    setting.Carried contents world next := by
  obtain ⟨files, queue, events, operated, gains, rfl⟩ := gained_of_operate harmless.1 stepped
  have unharmed := harmless.2
  cases operation with
  | write handle name content => exact carried_of_write running unharmed operated gains
  | delete handle name =>
      obtain ⟨path, located, operated⟩ := Option.bind_eq_some_iff.mp operated
      obtain ⟨_present, deleted⟩ := Option.ite_none_right_eq_some.mp operated
      obtain ⟨rfl, rfl⟩ := Prod.mk.inj (Option.some.inj deleted)
      obtain _ | ⟨first, _ | _⟩ := gains
      exact carried_delete running located first (unharmed path located)
  | rename handle name toHandle toName => exact carried_of_rename running unharmed operated gains
  | moveOut handle name =>
      obtain ⟨path, located, operated⟩ := Option.bind_eq_some_iff.mp operated
      obtain ⟨_present, moved⟩ := Option.ite_none_right_eq_some.mp operated
      obtain ⟨rfl, rfl⟩ := Prod.mk.inj (Option.some.inj moved)
      obtain _ | ⟨first, _ | _⟩ := gains
      exact carried_moveOut running located first (unharmed path located)
  | moveIn handle name content =>
      obtain ⟨path, located, same⟩ := Option.map_eq_some_iff.mp operated
      obtain ⟨rfl, rfl⟩ := Prod.mk.inj same
      obtain ⟨member, comes⟩ := unharmed path located
      obtain _ | ⟨first, _ | _⟩ := gains
      exact carried_moveIn running located first member comes

theorem carried_of_handleEvent {next : FileWorld} (running : setting.Running contents world)
    (harmless : setting.Harmless contents world .handleEvent)
    (stepped : world.step setting .handleEvent = some next) :
    setting.Carried contents world next := by
  unfold FileWorld.step at stepped
  dsimp only at stepped
  rw [running.alive] at stepped
  cases front : world.queue with
  | nil =>
      rw [front] at stepped
      cases stepped
  | cons event rest =>
      rw [front] at stepped
      obtain rfl := Option.some.inj stepped
      have queued : event ∈ world.queue := front ▸ List.mem_cons_self
      obtain ⟨path, located, _reportable⟩ := running.queued event queued
      have there : event.mask = inCloseWrite → (world.files path).isSome = true := by
        intro closed
        unfold Harmless closedFileThere at harmless
        dsimp only at harmless
        rw [front] at harmless
        simpa [closed, located] using harmless
      obtain ⟨returned, queues⟩ := handled_well running queued located there
      rw [returned]
      exact carried_handleEvent running front located queues

theorem step_applyJob {job : Job} {rest : List Job} {service : Service}
    (front : world.jobs = job :: rest) (well : setting.ServedWell world service) :
    world.step setting (.applyJob service) =
      some (FileSetting.applied world rest (setting.storeAfter world job)) := by
  obtain rfl := well job (by rw [front]; rfl)
  unfold FileWorld.step
  dsimp only
  rw [front]
  exact congrArg (fun store => some (applied world rest store)) (storeBehind_goodService world job)

/-- The job that is applied was the first one. -/
theorem applied_of_step {next : FileWorld} {service : Service}
    (well : setting.ServedWell world service)
    (stepped : world.step setting (.applyJob service) = some next) :
    ∃ job rest, world.jobs = job :: rest ∧
      next = FileSetting.applied world rest (setting.storeAfter world job) := by
  cases front : world.jobs with
  | nil =>
      unfold FileWorld.step at stepped
      dsimp only at stepped
      rw [front] at stepped
      cases stepped
  | cons job rest =>
      rw [step_applyJob front well] at stepped
      exact ⟨job, rest, rfl, (Option.some.inj stepped).symm⟩

/-- The daemon waits for the first event, and the container mirrors the files. -/
structure Started (setting : FileSetting) (contents : Set Bytes) (world : FileWorld) :
    Prop where
  queue : world.queue = []
  jobs : world.jobs = []
  daemon : world.daemon = some setting.daemon
  filed : ∀ path content, world.files path = some content →
    setting.IsFile path ∧ setting.Fitting contents path content
  stored : ∀ name content, setting.UnderRemoteDir name → world.store name = some content →
    content ∈ contents
  mirrors : setting.Mirrors world.files world.store

theorem Running.mirrors_iff (running : setting.Running contents world) :
    setting.Mirrors world.files world.store ↔ ∀ path dest, setting.Kept path dest →
      WriteBehind.Agrees (· ≠ []) (world.files path) (world.store dest.path) := by
  constructor
  · intro mirrors path dest kept
    constructor
    · intro content found nonempty
      obtain ⟨again, named, object⟩ := mirrors.copied path content found nonempty kept.wanted
      obtain rfl := Except.ok.inj (kept.named.symm.trans named)
      exact object
    · intro absent
      rw [← Option.not_isSome_iff_eq_none]
      intro stored
      obtain ⟨content, object⟩ := Option.isSome_iff_exists.mp stored
      obtain ⟨other, otherDest, present, wanted, named, same⟩ :=
        mirrors.nothing_else dest.path content kept.underRemoteDir object
      obtain ⟨found, filed⟩ := Option.isSome_iff_exists.mp present
      obtain rfl := kept.unique ⟨(running.filed other found filed).1, wanted, named⟩ same
      cases absent.symm.trans filed
  · intro agrees
    constructor
    · intro path content found nonempty wanted
      obtain ⟨isFile, _member, nameable⟩ := running.filed path content found
      rcases nameable with (ignored | ⟨dest, named⟩) | empty
      · rw [wanted] at ignored
        cases ignored
      · exact ⟨dest, named, (agrees path dest ⟨isFile, wanted, named⟩).1 content found nonempty⟩
      · exact absurd empty nonempty
    · intro name content under object
      obtain ⟨_member, path, dest, kept, rfl⟩ := running.stored name content under object
      refine ⟨path, dest, ?_, kept.wanted, kept.named, rfl⟩
      rw [Option.isSome_iff_ne_none]
      intro absent
      rw [(agrees path dest kept).2 absent] at object
      cases object

theorem Started.running (started : setting.Started contents world) :
    setting.Running contents world where
  alive := started.daemon
  filed := started.filed
  stored name content under object := by
    refine ⟨started.stored name content under object, ?_⟩
    obtain ⟨path, dest, present, wanted, named, same⟩ :=
      started.mirrors.nothing_else name content under object
    obtain ⟨found, filed⟩ := Option.isSome_iff_exists.mp present
    exact ⟨path, dest, ⟨(started.filed path found filed).1, wanted, named⟩, same⟩
  queued := by
    rw [started.queue]
    exact fun _event member => absurd member List.not_mem_nil
  waiting := by
    rw [started.jobs]
    exact fun _job member => absurd member List.not_mem_nil

theorem pending_of_settled (handled : world.queue = []) (applied : world.jobs = [])
    (path : Bytes) (dest : URL) : (setting.view world path dest).pending = [] := by
  unfold view
  rw [handled, applied]
  rfl

end FileSetting

/-! ### One watched directory -/

def sampleDigest (_content : Bytes) : Vector UInt8 16 :=
  #v[157, 212, 228, 97, 38, 140, 128, 52, 245, 200, 86, 78, 21, 92, 103, 166]

def sampleDaemon : Daemon where
  inotify :=
    { watches := Function.update (fun _handle => none) 1 (some (text "/d"))
      paths := Function.update (fun _path => none) (text "/d") (some 1) }
  watchToConfig := Function.update (fun _handle => none) 1 (some sampleEntry)

theorem sampleDaemon_watches {handle : Int} {directory : Bytes}
    (watched : sampleDaemon.inotify.watches handle = some directory) :
    handle = 1 ∧ directory = text "/d" := by
  unfold sampleDaemon at watched
  dsimp only at watched
  by_cases same : handle = 1
  · subst same
    rw [Function.update_self] at watched
    exact ⟨rfl, (Option.some.inj watched).symm⟩
  · rw [Function.update_of_ne same] at watched
    cases watched

def sampleSetting : FileSetting where
  accounts := sampleAccounts
  entry := sampleEntry
  rs := sampleAccount
  url := sampleBase
  daemon := sampleDaemon
  maxQueuedEvents := 16384
  md5 := sampleDigest
  login := rfl
  endpoint := rfl
  ordinary := by decide
  valid := by decide
  configured := by
    intro handle directory watched
    obtain ⟨rfl, _path⟩ := sampleDaemon_watches watched
    rfl
  placed := by
    intro handle directory watched
    exact Or.inl (sampleDaemon_watches watched).2

theorem sampleSetting_destination :
    ∃ dest, sampleSetting.destinationOf (text "/d/f") = .ok dest ∧
      dest.path = text "/v1/c/i/f" := by
  have built : (sampleSetting.destinationOf (text "/d/f")).map URL.path =
      .ok (text "/v1/c/i/f") := by
    decide
  cases named : sampleSetting.destinationOf (text "/d/f") with
  | error failure =>
      rw [named] at built
      cases built
  | ok dest =>
      rw [named] at built
      exact ⟨dest, rfl, Except.ok.inj built⟩

theorem sampleSetting_fitting : sampleSetting.Fitting {text "x"} (text "/d/f") (text "x") := by
  obtain ⟨dest, named, _path⟩ := sampleSetting_destination
  exact ⟨rfl, Or.inl (Or.inr ⟨dest, named⟩)⟩

end Cdnalizerd
