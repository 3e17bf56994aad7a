/-
The part of the world that belongs to one entry.

An entry has the files in its watched directories, the events at their watches, and
the jobs and objects below its remote directory.  What happens in the part of one
entry is not seen in the part of another.
-/

import Cdnalizerd.EntriesApart
import Cdnalizerd.FileWorkers

namespace Cdnalizerd

open Library

namespace FileSetting

variable (setting : FileSetting)

def root : Bytes :=
  objectRoot setting.url setting.entry.container setting.entry.remoteDir

open Classical in
/-- The files in the watched directories of the entry. -/
noncomputable def ownFiles (files : Bytes → Option Bytes) (path : Bytes) : Option Bytes :=
  if setting.IsFile path then files path else none

def ownStore (store : Bytes → Option Bytes) (name : Bytes) : Option Bytes :=
  if Below setting.root name then store name else none

def ownQueue (queue : List Event) : List Event :=
  queue.filter fun event => (setting.pathOf event.wd event.name).isSome

def ownJobs (jobs : List Job) : List Job :=
  jobs.filter fun job => Below setting.root job.destination.path

noncomputable def part (world : FileWorld) : FileWorld where
  files := setting.ownFiles world.files
  queue := setting.ownQueue world.queue
  daemon := world.daemon.map fun _shared => setting.daemon
  jobs := setting.ownJobs world.jobs
  store := setting.ownStore world.store

variable {setting} {files store : Bytes → Option Bytes} {world : FileWorld} {path name : Bytes}
  {dest : URL} {value : Option Bytes}

/-! ### Files and objects -/

theorem ownFiles_of_isFile (isFile : setting.IsFile path) (files : Bytes → Option Bytes) :
    setting.ownFiles files path = files path :=
  if_pos isFile

theorem isSome_ownFiles (isFile : setting.IsFile path) (present : (files path).isSome = true) :
    (setting.ownFiles files path).isSome = true := by
  rw [ownFiles_of_isFile isFile]
  exact present

theorem ownFiles_eq_some_iff {content : Bytes} :
    setting.ownFiles files path = some content ↔
      setting.IsFile path ∧ files path = some content :=
  Option.ite_none_right_eq_some

theorem ownFiles_congr {other : Bytes → Option Bytes}
    (same : ∀ path, setting.IsFile path → other path = files path) :
    setting.ownFiles other = setting.ownFiles files := by
  funext path
  unfold ownFiles
  split
  · rename_i isFile
    exact same path isFile
  · rfl

theorem ownFiles_update (isFile : setting.IsFile path) :
    setting.ownFiles (Function.update files path value) =
      Function.update (setting.ownFiles files) path value := by
  funext other
  by_cases same : other = path
  · subst same
    rw [ownFiles_of_isFile isFile, Function.update_self, Function.update_self]
  · unfold ownFiles
    rw [Function.update_of_ne same, Function.update_of_ne same]

theorem ownStore_of_below (below : Below setting.root name) (store : Bytes → Option Bytes) :
    setting.ownStore store name = store name :=
  if_pos below

theorem ownStore_update (below : Below setting.root name) :
    setting.ownStore (Function.update store name value) =
      Function.update (setting.ownStore store) name value := by
  funext other
  by_cases same : other = name
  · subst same
    rw [ownStore_of_below below, Function.update_self, Function.update_self]
  · unfold ownStore
    rw [Function.update_of_ne same, Function.update_of_ne same]

theorem ownStore_update_elsewhere (elsewhere : ¬ Below setting.root name) :
    setting.ownStore (Function.update store name value) = setting.ownStore store := by
  funext other
  unfold ownStore
  split
  · rename_i below
    apply Function.update_of_ne
    rintro rfl
    exact elsewhere below
  · rfl

theorem below_of_named (named : setting.destinationOf path = .ok dest) :
    Below setting.root dest.path := by
  have parsed := Rackspace.parse_of_getURL setting.endpoint
  have names := ConfigEntry.names_ne_nil_of_validate setting.valid
  have ordinary := mt (fun inside => fromPath_subset setting.url.raw inside) setting.ordinary
  exact (destination_below parsed ordinary names named).1

theorem below_of_kept (kept : setting.Kept path dest) : Below setting.root dest.path :=
  below_of_named kept.named

section Operations

variable {next : FileWorld} {operation : FileOperation} {merges : List Bool} {handle : Int}
  {later : Bytes → Option Bytes} {events : List Event}

/-- An operation at the watches of the entry is about its files alone. -/
theorem operate_own (operated : setting.operate files operation = some (later, events)) :
    setting.operate (setting.ownFiles files) operation = some (setting.ownFiles later, events) := by
  cases operation with
  | write handle name content =>
      obtain ⟨path, located, same⟩ := Option.map_eq_some_iff.mp operated
      obtain ⟨rfl, rfl⟩ := Prod.mk.inj same
      have isFile := isFile_of_pathOf located
      unfold operate
      dsimp only
      rw [located, Option.map_some, ownFiles_update isFile, ownFiles_of_isFile isFile]
  | delete handle name =>
      obtain ⟨path, located, operated⟩ := Option.bind_eq_some_iff.mp operated
      obtain ⟨present, deleted⟩ := Option.ite_none_right_eq_some.mp operated
      obtain ⟨rfl, rfl⟩ := Prod.mk.inj (Option.some.inj deleted)
      have isFile := isFile_of_pathOf located
      unfold operate
      dsimp only
      rw [located, Option.bind_some, if_pos (isSome_ownFiles isFile present),
        ownFiles_update isFile]
  | rename handle name toHandle toName =>
      obtain ⟨path, located, operated⟩ := Option.bind_eq_some_iff.mp operated
      obtain ⟨toPath, toLocated, operated⟩ := Option.bind_eq_some_iff.mp operated
      obtain ⟨present, moved⟩ := Option.ite_none_right_eq_some.mp operated
      obtain ⟨rfl, rfl⟩ := Prod.mk.inj (Option.some.inj moved)
      have isFile := isFile_of_pathOf located
      unfold operate
      dsimp only
      rw [located, Option.bind_some, toLocated, Option.bind_some,
        if_pos ⟨present.1, isSome_ownFiles isFile present.2⟩, ownFiles_of_isFile isFile,
        ownFiles_update (isFile_of_pathOf toLocated), ownFiles_update isFile]
  | moveOut handle name =>
      obtain ⟨path, located, operated⟩ := Option.bind_eq_some_iff.mp operated
      obtain ⟨present, moved⟩ := Option.ite_none_right_eq_some.mp operated
      obtain ⟨rfl, rfl⟩ := Prod.mk.inj (Option.some.inj moved)
      have isFile := isFile_of_pathOf located
      unfold operate
      dsimp only
      rw [located, Option.bind_some, if_pos (isSome_ownFiles isFile present),
        ownFiles_update isFile]
  | moveIn handle name content =>
      obtain ⟨path, located, same⟩ := Option.map_eq_some_iff.mp operated
      obtain ⟨rfl, rfl⟩ := Prod.mk.inj same
      unfold operate
      dsimp only
      rw [located, Option.map_some, ownFiles_update (isFile_of_pathOf located)]

theorem ownRoom (room : setting.hasRoom world operation = true)
    (operated : setting.operate world.files operation = some (later, events)) :
    (setting.ownQueue world.queue).length + events.length ≤ setting.maxQueuedEvents := by
  have whole := room_of_hasRoom room operated
  have shorter : (setting.ownQueue world.queue).length ≤ world.queue.length :=
    List.length_filter_le _ world.queue
  omega

theorem hasRoom_part (room : setting.hasRoom world operation = true)
    (operated : setting.operate world.files operation = some (later, events)) :
    setting.hasRoom (setting.part world) operation = true := by
  have own : setting.operate (setting.part world).files operation =
      some (setting.ownFiles later, events) := operate_own operated
  unfold hasRoom
  rw [own]
  exact decide_eq_true (ownRoom room operated)

/-- What an operation changes at the watches of the entry is changed in its part.  The
kernel may merge other events there than it would for the part alone. -/
theorem part_of_operation (room : setting.hasRoom world operation = true)
    (stepped : world.step setting (.operate operation merges) = some next) :
    ∃ ownMerges, (setting.part world).step setting (.operate operation ownMerges) =
      some (setting.part next) := by
  obtain ⟨later, queue, events, operated, gains, rfl⟩ := gained_of_operate room stepped
  have located : ∀ event ∈ events, (setting.pathOf event.wd event.name).isSome = true := by
    intro event member
    obtain ⟨_kind, path, located⟩ := event_of_operate operated member
    rw [located]
    rfl
  have own : setting.operate (setting.part world).files operation =
      some (setting.ownFiles later, events) := operate_own operated
  obtain ⟨ownMerges, pushed⟩ := @BoundedQueue.exists_pushAll _ _ _ _
    setting.maxQueuedEvents overflowEvent _ (gains.filter_of_kept located) (ownRoom room operated)
  refine ⟨ownMerges, ?_⟩
  unfold FileWorld.step
  dsimp only
  rw [own, Option.map_some]
  unfold report
  dsimp only
  rw [followed_of_operate operated]
  exact congrArg (fun queue => some (FileWorld.mk (setting.ownFiles later) queue _ _ _)) pushed

/-- What the operations of an entry do is about its files. -/
structure Operated (setting : FileSetting) (world next : FileWorld) : Prop where
  queue : ∃ events, BoundedQueue.GainsAll world.queue events next.queue ∧
    ∀ event ∈ events, ∃ path, setting.pathOf event.wd event.name = some path
  files : ∀ path, ¬ setting.IsFile path → next.files path = world.files path
  others : next = { world with
    files := next.files
    queue := next.queue }

theorem update_of_not_isFile (isFile : setting.IsFile path) {other : Bytes}
    (elsewhere : ¬ setting.IsFile other) :
    Function.update files path value other = files other := by
  apply Function.update_of_ne
  rintro rfl
  exact elsewhere isFile

theorem operate_elsewhere (operated : setting.operate files operation = some (later, events))
    {other : Bytes} (elsewhere : ¬ setting.IsFile other) : later other = files other := by
  cases operation with
  | write handle name content =>
      obtain ⟨path, located, same⟩ := Option.map_eq_some_iff.mp operated
      obtain ⟨rfl, _events⟩ := Prod.mk.inj same
      exact update_of_not_isFile (isFile_of_pathOf located) elsewhere
  | delete handle name =>
      obtain ⟨path, located, operated⟩ := Option.bind_eq_some_iff.mp operated
      obtain ⟨_present, deleted⟩ := Option.ite_none_right_eq_some.mp operated
      obtain ⟨rfl, _events⟩ := Prod.mk.inj (Option.some.inj deleted)
      exact update_of_not_isFile (isFile_of_pathOf located) elsewhere
  | rename handle name toHandle toName =>
      obtain ⟨path, located, operated⟩ := Option.bind_eq_some_iff.mp operated
      obtain ⟨toPath, toLocated, operated⟩ := Option.bind_eq_some_iff.mp operated
      obtain ⟨_present, moved⟩ := Option.ite_none_right_eq_some.mp operated
      obtain ⟨rfl, _events⟩ := Prod.mk.inj (Option.some.inj moved)
      exact (update_of_not_isFile (isFile_of_pathOf toLocated) elsewhere).trans
        (update_of_not_isFile (isFile_of_pathOf located) elsewhere)
  | moveOut handle name =>
      obtain ⟨path, located, operated⟩ := Option.bind_eq_some_iff.mp operated
      obtain ⟨_present, moved⟩ := Option.ite_none_right_eq_some.mp operated
      obtain ⟨rfl, _events⟩ := Prod.mk.inj (Option.some.inj moved)
      exact update_of_not_isFile (isFile_of_pathOf located) elsewhere
  | moveIn handle name content =>
      obtain ⟨path, located, same⟩ := Option.map_eq_some_iff.mp operated
      obtain ⟨rfl, _events⟩ := Prod.mk.inj same
      exact update_of_not_isFile (isFile_of_pathOf located) elsewhere

theorem operated_of_step (room : setting.hasRoom world operation = true)
    (stepped : world.step setting (.operate operation merges) = some next) :
    setting.Operated world next := by
  obtain ⟨later, queue, events, operated, gains, rfl⟩ := gained_of_operate room stepped
  refine ⟨⟨events, gains, ?_⟩, fun _path elsewhere => operate_elsewhere operated elsewhere, rfl⟩
  exact fun _event member => (event_of_operate operated member).2

/-- Two entries with neither files nor watches nor objects in common. -/
structure Apart (first second : FileSetting) : Prop where
  roots : Separate first.root second.root
  files : ∀ path, first.IsFile path → ¬ second.IsFile path
  watches : ∀ handle directory, first.daemon.inotify.watches handle = some directory →
    second.daemon.inotify.watches handle = none

theorem Apart.symm {first second : FileSetting} (apart : Apart first second) :
    Apart second first where
  roots := apart.roots.symm
  files path isSecond isFirst := apart.files path isFirst isSecond
  watches handle directory watched := by
    rw [Option.eq_none_iff_forall_ne_some]
    intro other otherWatched
    rw [apart.watches handle other otherWatched] at watched
    cases watched

instance : Std.Symm Apart where
  symm _first _second := Apart.symm

variable {other : FileSetting}

theorem pathOf_of_apart (apart : setting.Apart other)
    (located : setting.pathOf handle name = some path) : other.pathOf handle name = none := by
  obtain ⟨directory, watched, _proper, _path⟩ := pathOf_eq_some_iff.mp located
  unfold pathOf
  rw [apart.watches handle directory watched]

/-- The operation is not seen in the part of another entry. -/
theorem part_of_operation_elsewhere (apart : setting.Apart other)
    (operated : setting.Operated world next) : other.part next = other.part world := by
  obtain ⟨events, gains, located⟩ := operated.queue
  have skipped : other.ownQueue next.queue = other.ownQueue world.queue := by
    apply gains.filter_of_dropped
    intro event member
    obtain ⟨path, own⟩ := located event member
    rw [pathOf_of_apart apart own]
    rfl
  have kept : other.ownFiles next.files = other.ownFiles world.files := by
    apply ownFiles_congr
    intro path isFile
    exact operated.files path fun own => apart.files path own isFile
  unfold part
  rw [skipped, kept, operated.others]

end Operations

end FileSetting

/-! ### A second entry -/

def neighbourDaemon : Daemon where
  inotify :=
    { watches := Function.update (fun _handle => none) 2 (some (text "/e"))
      paths := Function.update (fun _path => none) (text "/e") (some 2) }
  watchToConfig := Function.update (fun _handle => none) 2 (some neighbourEntry)

theorem neighbourDaemon_watches {handle : Int} {directory : Bytes}
    (watched : neighbourDaemon.inotify.watches handle = some directory) :
    handle = 2 ∧ directory = text "/e" := by
  unfold neighbourDaemon at watched
  dsimp only at watched
  rw [Function.update_apply] at watched
  obtain ⟨same, found⟩ := Option.ite_none_right_eq_some.mp watched
  exact ⟨same, (Option.some.inj found).symm⟩

theorem neighbourDaemon_configured {handle : Int} {directory : Bytes}
    (watched : neighbourDaemon.inotify.watches handle = some directory) :
    neighbourDaemon.watchToConfig handle = some neighbourEntry := by
  obtain ⟨rfl, _path⟩ := neighbourDaemon_watches watched
  rfl

theorem neighbourEntry_valid : neighbourEntry.validate = true := by
  decide

def neighbourSetting : FileSetting where
  accounts := sampleAccounts
  entry := neighbourEntry
  rs := sampleAccount
  url := sampleBase
  daemon := neighbourDaemon
  maxQueuedEvents := 16384
  md5 := sampleDigest
  login := sampleSetting.login
  endpoint := sampleSetting.endpoint
  ordinary := sampleSetting.ordinary
  valid := neighbourEntry_valid
  configured _handle _directory watched := neighbourDaemon_configured watched
  placed _handle _directory watched := Or.inl (neighbourDaemon_watches watched).2

theorem prefix_appendPath (directory name : Bytes) : directory <+: appendPath directory name := by
  unfold appendPath
  split
  · exact List.prefix_rfl
  · split
    · exact List.prefix_append directory name
    · exact List.prefix_append directory (slash :: name)

/-- The files of a setting that watches one directory. -/
theorem prefix_of_isFile {setting : FileSetting} {directory path : Bytes}
    (single : ∀ handle watched, setting.daemon.inotify.watches handle = some watched →
      watched = directory)
    (isFile : setting.IsFile path) : directory <+: path := by
  obtain ⟨handle, name, located⟩ := isFile
  obtain ⟨watched, there, _proper, rfl⟩ := FileSetting.pathOf_eq_some_iff.mp located
  rw [single handle watched there]
  exact prefix_appendPath directory name

theorem prefix_of_sampleFile {path : Bytes} (isFile : sampleSetting.IsFile path) :
    text "/d" <+: path :=
  prefix_of_isFile (fun _handle _directory watched => (sampleDaemon_watches watched).2) isFile

theorem prefix_of_neighbourFile {path : Bytes} (isFile : neighbourSetting.IsFile path) :
    text "/e" <+: path :=
  prefix_of_isFile (fun _handle _directory watched => (neighbourDaemon_watches watched).2) isFile

theorem neighbour_apart : sampleSetting.Apart neighbourSetting where
  roots := by decide
  files path isSample isNeighbour := by
    rcases List.prefix_or_prefix_of_prefix (prefix_of_sampleFile isSample)
      (prefix_of_neighbourFile isNeighbour) with wrong | wrong
    · exact absurd wrong (by decide)
    · exact absurd wrong (by decide)
  watches handle directory watched := by
    obtain ⟨rfl, _path⟩ := sampleDaemon_watches watched
    rfl

end Cdnalizerd
