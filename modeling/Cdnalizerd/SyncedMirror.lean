/-
The container once the jobs of the first synchronisation are applied.

The synchronisation compares times and queues plain uploads, which are sent
whatever the container holds.  What they leave is the state that the watching
of the files begins in.
-/

import Cdnalizerd.FileMirror
import Cdnalizerd.SyncTwice

namespace Cdnalizerd

open Library

/-! ### A plain upload -/

section Upload

variable {setting : FileSetting} {world : FileWorld} {source : Bytes} {dest : URL} {token : Bytes}

/-- What a plain upload does to the objects, with whatever is there. -/
theorem apply_upload (ready : ∀ content, world.files source = some content → content ≠ [] →
      dest.pathAndSearch = dest.path ∧ source ≠ []) :
    ((Job.upload source dest).go token
        (setting.attemptSurroundings world source dest)).trace.foldl
          (receive world.files) world.store =
      Function.update world.store dest.path
        (WriteBehind.perform (· ≠ []) (world.files source) (world.store dest.path) .copyOver) := by
  change (upload (setting.attemptSurroundings world source dest) source dest
    token []).trace.foldl (receive world.files) world.store = _
  by_cases trifling : ∀ content, world.files source = some content → ¬ content ≠ []
  · rw [upload_spares_objects trifling, WriteBehind.perform_of_trifling trifling,
      Function.update_eq_self]
  · obtain ⟨content, counted⟩ := not_forall.mp trifling
    obtain ⟨found, nonempty⟩ := Classical.not_imp.mp counted
    replace nonempty : content ≠ [] := not_not.mp nonempty
    obtain ⟨search, named⟩ := ready content found nonempty
    rw [upload_unprepared found nonempty named, found]
    unfold WriteBehind.perform
    dsimp only
    rw [if_pos nonempty]
    exact receive_put found search

end Upload

/-! ### All of them -/

def uploadOne (files store : Bytes → Option Bytes) (job : Bytes × URL) : Bytes → Option Bytes :=
  Function.update store job.2.path
    (WriteBehind.perform (· ≠ []) (files job.1) (store job.2.path) .copyOver)

def uploadAll (files : Bytes → Option Bytes) (jobs : List (Bytes × URL))
    (store : Bytes → Option Bytes) : Bytes → Option Bytes :=
  jobs.foldl (uploadOne files) store

theorem uploadOne_of_trifling {files : Bytes → Option Bytes} {job : Bytes × URL}
    (trifling : ∀ content, files job.1 = some content → ¬ content ≠ [])
    (store : Bytes → Option Bytes) : uploadOne files store job = store := by
  unfold uploadOne
  rw [WriteBehind.perform_of_trifling trifling, Function.update_eq_self]

/-- An object is the copy of a file that was uploaded to it, or it is as before
and nothing with contents was. -/
theorem uploadAll_cases (files : Bytes → Option Bytes) (jobs : List (Bytes × URL))
    (store : Bytes → Option Bytes) (name : Bytes) :
    (∃ job ∈ jobs, job.2.path = name ∧ ∃ content, files job.1 = some content ∧ content ≠ [] ∧
        uploadAll files jobs store name = some content) ∨
      uploadAll files jobs store name = store name ∧ ∀ job ∈ jobs, job.2.path = name →
        ∀ content, files job.1 = some content → content = [] := by
  induction jobs generalizing store with
  | nil => exact Or.inr ⟨rfl, fun _job member => absurd member List.not_mem_nil⟩
  | cons job rest ih =>
      rcases ih (uploadOne files store job) with
        ⟨later, member, copied⟩ | ⟨kept, untouched⟩
      · exact Or.inl ⟨later, List.mem_cons_of_mem job member, copied⟩
      · have whole : uploadAll files (job :: rest) store name =
            Function.update store job.2.path (WriteBehind.perform (· ≠ []) (files job.1)
              (store job.2.path) .copyOver) name := kept
        by_cases same : job.2.path = name
        · subst same
          rw [Function.update_self] at whole
          by_cases trifling : ∀ content, files job.1 = some content → ¬ content ≠ []
          · right
            rw [WriteBehind.perform_of_trifling trifling] at whole
            refine ⟨whole, ?_⟩
            intro other member samePath content found
            rcases List.mem_cons.mp member with rfl | inRest
            · exact not_not.mp (trifling content found)
            · exact untouched other inRest samePath content found
          · left
            obtain ⟨content, counted⟩ := not_forall.mp trifling
            obtain ⟨found, nonempty⟩ := Classical.not_imp.mp counted
            replace nonempty : content ≠ [] := not_not.mp nonempty
            refine ⟨job, List.mem_cons_self, rfl, content, found, nonempty, ?_⟩
            rw [whole, found]
            exact if_pos nonempty
        · right
          rw [Function.update_of_ne (Ne.symm same)] at whole
          refine ⟨whole, ?_⟩
          intro other member samePath content found
          rcases List.mem_cons.mp member with rfl | inRest
          · exact absurd samePath same
          · exact untouched other inRest samePath content found

/-! ### Applied one after the other -/

/-- The next job is applied, and the server carries it out. -/
def FileSetting.AppliesWell (setting : FileSetting) (world : FileWorld) : FileLabel → Prop
  | .applyJob service => setting.ServedWell world service
  | _ => False

/-- Some of the uploads are applied, and the rest lead to the objects behind them all. -/
structure Uploading (start : FileWorld) (jobs rest : List (Bytes × URL)) (world : FileWorld) :
    Prop where
  others : world = { start with
    jobs := rest.map fun job => .upload job.1 job.2
    store := world.store }
  remaining : rest ⊆ jobs
  same : uploadAll start.files rest world.store = uploadAll start.files jobs start.store

section Uploading

variable {setting : FileSetting} {start world next : FileWorld} {jobs rest : List (Bytes × URL)}

/-- The uploads of files with contents go to addresses without a search. -/
def ReadyFor (files : Bytes → Option Bytes) (jobs : List (Bytes × URL)) : Prop :=
  ∀ job ∈ jobs, ∀ content, files job.1 = some content → content ≠ [] →
    job.2.pathAndSearch = job.2.path ∧ job.1 ≠ []

theorem Uploading.step (uploading : Uploading start jobs rest world)
    (ready : ReadyFor start.files jobs) {label : FileLabel}
    (well : setting.AppliesWell world label) (stepped : world.step setting label = some next) :
    ∃ later, Uploading start jobs later next := by
  cases label with
  | operate operation merges => exact absurd well id
  | handleEvent => exact absurd well id
  | applyJob service =>
      have files : world.files = start.files := by rw [uploading.others]
      have queued : world.jobs = rest.map fun job => .upload job.1 job.2 := by
        rw [uploading.others]
      obtain ⟨applied, others, front, rfl⟩ := FileSetting.applied_of_step well stepped
      cases rest with
      | nil =>
          rw [front] at queued
          cases queued
      | cons job later =>
          obtain ⟨rfl, rfl⟩ := List.cons.inj (front.symm.trans queued)
          have first : job ∈ jobs := uploading.remaining List.mem_cons_self
          have uploaded : setting.storeAfter world (.upload job.1 job.2) =
              uploadOne start.files world.store job := by
            rw [← files]
            apply apply_upload
            rw [files]
            exact ready job first
          refine ⟨later, ?_, List.subset_of_cons_subset uploading.remaining, ?_⟩
          · rw [uploading.others]
            rfl
          · rw [← uploading.same]
            unfold FileSetting.applied
            dsimp only
            rw [uploaded]
            rfl

/-- Applied one after the other, the uploads leave the objects behind them all. -/
theorem uploads_of_run (queued : start.jobs = jobs.map fun job => .upload job.1 job.2)
    (ready : ReadyFor start.files jobs)
    (run : Runs.Run (FileWorld.step setting) setting.AppliesWell start world)
    (applied : world.jobs = []) :
    world = { start with jobs := [], store := uploadAll start.files jobs start.store } := by
  have initially : ∃ rest, Uploading start jobs rest start :=
    ⟨jobs, by rw [← queued], List.Subset.refl jobs, rfl⟩
  have inTheEnd : ∃ rest, Uploading start jobs rest world := by
    apply Runs.invariant_of_run run initially
    intro before label after partly well stepped
    obtain ⟨rest, uploading⟩ := partly
    exact uploading.step ready well stepped
  obtain ⟨rest, uploading⟩ := inTheEnd
  have none : rest = [] := by
    have jobs := congrArg FileWorld.jobs uploading.others
    rw [applied] at jobs
    exact List.map_eq_nil_iff.mp jobs.symm
  subst none
  have objects : world.store = uploadAll start.files jobs start.store := uploading.same
  rw [uploading.others, objects]
  rfl

end Uploading

/-! ### The first synchronisation -/

namespace FileSetting

variable (setting : FileSetting) (contents : Set Bytes)

/-- The tree that the synchronisation walked is that of the files. -/
structure TreeShows (tree : LocalTree) (listed : List Bytes) (files : Bytes → Option Bytes) :
    Prop where
  enumerated : tree.recursiveEntries setting.entry.localDir = .ok listed
  complete : ∀ path content, files path = some content → path ∈ listed
  regular : ∀ path content, files path = some content → tree.isDirectory path = .ok false
  size : ∀ path content, files path = some content → tree.fileSize path = .ok content.length
  relative : ∀ path ∈ listed, setting.IsFile path →
    tree.relative path setting.entry.localDir = .ok (relativeTo path setting.entry.localDir)

def NoStrays (files store : Bytes → Option Bytes) : Prop :=
  ∀ name content, setting.UnderRemoteDir name → store name = some content →
    ∃ path dest, (files path).isSome = true ∧ setting.entry.shouldIgnoreFile path = false ∧
      setting.destinationOf path = .ok dest ∧ dest.path = name

def Filed (files : Bytes → Option Bytes) : Prop :=
  ∀ path content, files path = some content →
    setting.IsFile path ∧ setting.Fitting contents path content

/-- A synchronisation finds the files as they are, and a file whose object is
listed as up to date is like its object. -/
structure Surveyed (around : SyncSurroundings) (listed : List Bytes) (world : FileWorld) :
    Prop where
  shows : setting.TreeShows around.tree listed world.files
  returned : (syncOneConfigEntry around setting.rs setting.entry).result = .ok ()
  truthful : ∀ path content, world.files path = some content →
    ∀ remote ∈ around.listing.objects,
      unJoinPaths setting.entry.remoteDir remote.name =
          slash :: relativeTo path setting.entry.localDir →
        UpToDate around path remote →
          ∃ dest, setting.destinationOf path = .ok dest ∧ world.store dest.path = some content

def syncUploads (around : SyncSurroundings) : List (Bytes × URL) :=
  uploadJobs (syncOneConfigEntry around setting.rs setting.entry)

/-- The synchronisation has queued its jobs, and no event has been reported. -/
structure JustSynced (around : SyncSurroundings) (listed : List Bytes) (world : FileWorld) : Prop
    extends setting.Surveyed around listed world where
  queue : world.queue = []
  daemon : world.daemon = some setting.daemon
  filed : setting.Filed contents world.files
  stored : ∀ name content, setting.UnderRemoteDir name → world.store name = some content →
    content ∈ contents
  jobs : world.jobs = (setting.syncUploads around).map fun job => .upload job.1 job.2

variable {setting contents} {around : SyncSurroundings} {listed : List Bytes} {world : FileWorld}

/-- The URL of a file does not depend on the slash before its relative path. -/
theorem destinationOf_of_built {path relative : Bytes} {dest : URL} (isFile : setting.IsFile path)
    (relativeIs : relativeTo path setting.entry.localDir = relative)
    (built : destination setting.url setting.entry.container setting.entry.remoteDir
          (slash :: relative) = .ok dest ∨
      destination setting.url setting.entry.container setting.entry.remoteDir relative =
        .ok dest) : setting.destinationOf path = .ok dest := by
  unfold destinationOf
  rw [relativeIs]
  rcases built with slashed | bare
  · have proper := isFile.split.2
    rw [relativeIs] at proper
    have parsed := Rackspace.parse_of_getURL setting.endpoint
    have names := ConfigEntry.names_ne_nil_of_validate setting.valid
    obtain ⟨parts, _clean, _addresses⟩ := clean_of_destination parsed setting.ordinary names.1
      names.2 (List.cons_ne_nil slash relative) slashed
    have bareParts : ProperParts setting.entry.container setting.entry.remoteDir relative :=
      { parts with
        relativePath_ne_nil := proper.nonempty
        relativePath_ne_slash := by
          rintro rfl
          exact proper.head_ne rfl }
    rw [destination_eq_parse parsed parts] at slashed
    rw [destination_eq_parse parsed bareParts, ← slashed]
    unfold destinationTail
    rw [stripSlashes_cons_slash proper.nonempty proper.last_ne,
      stripSlashes_of_ends_ne proper.head_ne proper.last_ne]
  · exact bare

/-- A job is for the object of its file. -/
theorem Surveyed.kept (surveyed : setting.Surveyed around listed world) {job : Bytes × URL}
    (queued : job ∈ setting.syncUploads around) (isFile : setting.IsFile job.1) :
    setting.Kept job.1 job.2 := by
  obtain ⟨member, wanted, relative, located, built⟩ :=
    built_of_upload surveyed.returned setting.endpoint surveyed.shows.enumerated queued
  have relativeIs := surveyed.shows.relative job.1 member isFile
  exact ⟨isFile, wanted, destinationOf_of_built isFile
    (Except.ok.inj (relativeIs.symm.trans located)) built⟩

theorem IsFile.ne_nil {path : Bytes} (isFile : setting.IsFile path) : path ≠ [] := by
  intro empty
  obtain ⟨split, proper⟩ := isFile.split
  exact proper.nonempty (List.append_eq_nil_iff.mp (split.symm.trans empty)).2

theorem Kept.ready {path : Bytes} {dest : URL} (kept : setting.Kept path dest) :
    dest.pathAndSearch = dest.path ∧ path ≠ [] :=
  ⟨(addresses_of_destination kept.isFile kept.named).pathAndSearch, kept.isFile.ne_nil⟩

/-- A file with contents has a job, or its object is already like it. -/
theorem Surveyed.queued_or_stored (surveyed : setting.Surveyed around listed world)
    {path content : Bytes} {dest : URL} (kept : setting.Kept path dest)
    (found : world.files path = some content) (nonempty : content ≠ []) :
    (path, dest) ∈ setting.syncUploads around ∨ world.store dest.path = some content := by
  have listed := surveyed.shows.complete path content found
  have located := surveyed.shows.relative path listed kept.isFile
  by_cases upToDate : ∃ remote ∈ around.listing.objects,
      unJoinPaths setting.entry.remoteDir remote.name =
        slash :: relativeTo path setting.entry.localDir ∧ UpToDate around path remote
  · obtain ⟨remote, listedRemote, same, fresh⟩ := upToDate
    obtain ⟨object, named, stored⟩ :=
      surveyed.truthful path content found remote listedRemote same fresh
    obtain rfl := Except.ok.inj (kept.named.symm.trans named)
    exact Or.inr stored
  · left
    have filled : around.tree.fileSize path ≠ .ok 0 := by
      rw [surveyed.shows.size path content found]
      intro none
      exact nonempty (List.length_eq_zero_iff.mp (Except.ok.inj none))
    have needed : NeedsUpload around setting.entry path := by
      refine ⟨surveyed.shows.regular path content found, ⟨_, located⟩, kept.wanted, filled, ?_⟩
      intro relative again remote listedRemote same fresh
      obtain rfl := Except.ok.inj (located.symm.trans again)
      exact upToDate ⟨remote, listedRemote, same, fresh⟩
    have once := count_sync_of_needed sortPaths_perm surveyed.returned surveyed.shows.enumerated
      (surveyed.shows.complete path content found) needed
    change Traced.count (uploads path)
      (syncOneConfigEntry around setting.rs setting.entry) = 1 at once
    obtain ⟨object, queued⟩ := exists_upload_of_count (by rw [once]; exact Nat.one_ne_zero)
    have named := (surveyed.kept queued kept.isFile).named
    obtain rfl := Except.ok.inj (kept.named.symm.trans named)
    exact queued

def syncedStore (around : SyncSurroundings) (world : FileWorld) : Bytes → Option Bytes :=
  uploadAll world.files (setting.syncUploads around) world.store

theorem JustSynced.kept_of_found (synced : setting.JustSynced contents around listed world)
    {job : Bytes × URL} (queued : job ∈ setting.syncUploads around) {content : Bytes}
    (found : world.files job.1 = some content) : setting.Kept job.1 job.2 :=
  synced.kept queued (synced.filed job.1 content found).1

theorem JustSynced.copied (synced : setting.JustSynced contents around listed world)
    {path content : Bytes} {dest : URL} (kept : setting.Kept path dest)
    (found : world.files path = some content) (nonempty : content ≠ []) :
    setting.syncedStore around world dest.path = some content := by
  unfold syncedStore
  rcases uploadAll_cases world.files (setting.syncUploads around) world.store dest.path with
    ⟨job, queued, samePath, copy, copyFound, _filled, copied⟩ | ⟨unchanged, untouched⟩
  · obtain same := kept.unique (synced.kept_of_found queued copyFound) samePath
    rw [same, found] at copyFound
    rw [copied, copyFound]
  · rw [unchanged]
    rcases synced.queued_or_stored kept found nonempty with queued | stored
    · exact absurd (untouched _ queued rfl content found) nonempty
    · exact stored

/-- An object is the copy of a file, or it was there before. -/
theorem JustSynced.object_cases (synced : setting.JustSynced contents around listed world)
    {name content : Bytes} (object : setting.syncedStore around world name = some content) :
    (∃ path dest, setting.Kept path dest ∧ dest.path = name ∧
        world.files path = some content) ∨ world.store name = some content := by
  unfold syncedStore at object
  rcases uploadAll_cases world.files (setting.syncUploads around) world.store name with
    ⟨job, queued, samePath, copy, copyFound, _filled, copied⟩ | ⟨unchanged, _untouched⟩
  · obtain rfl := Option.some.inj (copied.symm.trans object)
    exact Or.inl ⟨job.1, job.2, synced.kept_of_found queued copyFound, samePath, copyFound⟩
  · exact Or.inr (unchanged.symm.trans object)

/-- No upload removes an object. -/
theorem syncedStore_isSome {name : Bytes} (object : (world.store name).isSome = true) :
    (setting.syncedStore around world name).isSome = true := by
  unfold syncedStore
  rcases uploadAll_cases world.files (setting.syncUploads around) world.store name with
    ⟨_job, _queued, _samePath, _copy, _copyFound, _filled, copied⟩ | ⟨unchanged, _untouched⟩
  · rw [copied]
    rfl
  · rw [unchanged]
    exact object

theorem JustSynced.mirrors_iff (synced : setting.JustSynced contents around listed world) :
    setting.Mirrors world.files (setting.syncedStore around world) ↔
      setting.NoStrays world.files world.store := by
  constructor
  · intro mirrors name content under object
    obtain ⟨later, stays⟩ := Option.isSome_iff_exists.mp
      (@syncedStore_isSome setting around world name (by rw [object]; rfl))
    exact mirrors.nothing_else name later under stays
  · intro noStrays
    constructor
    · intro path content found nonempty wanted
      obtain ⟨isFile, _member, nameable⟩ := synced.filed path content found
      rcases nameable with (ignored | ⟨dest, named⟩) | empty
      · rw [wanted] at ignored
        cases ignored
      · exact ⟨dest, named, synced.copied ⟨isFile, wanted, named⟩ found nonempty⟩
      · exact absurd empty nonempty
    · intro name content under object
      rcases synced.object_cases object with ⟨path, dest, kept, samePath, found⟩ | before
      · exact ⟨path, dest, by rw [found]; rfl, kept.wanted, kept.named, samePath⟩
      · exact noStrays name content under before

theorem JustSynced.ready (synced : setting.JustSynced contents around listed world) :
    ReadyFor world.files (setting.syncUploads around) :=
  fun _job queued _content found _nonempty => (synced.kept_of_found queued found).ready

/-- The jobs of a synchronisation that the server carries out lead to the state in
which the watching begins, if and only if nothing but objects of files was there. -/
theorem started_iff_no_strays (setting : FileSetting) (contents : Set Bytes)
    {around : SyncSurroundings} {listed : List Bytes} {world settled : FileWorld}
    (synced : setting.JustSynced contents around listed world)
    (run : Runs.Run (FileWorld.step setting) setting.AppliesWell world settled)
    (applied : settled.jobs = []) :
    settled.files = world.files ∧
      (∀ path dest content, setting.Kept path dest → world.files path = some content →
        content ≠ [] → settled.store dest.path = some content) ∧
      (setting.Started contents settled ↔ setting.NoStrays world.files world.store) := by
  obtain rfl := uploads_of_run synced.jobs synced.ready run applied
  refine ⟨rfl, fun _path _dest _content kept found nonempty => synced.copied kept found nonempty,
    ?_⟩
  constructor
  · exact fun started => synced.mirrors_iff.mp started.mirrors
  · intro noStrays
    refine ⟨synced.queue, rfl, synced.daemon, synced.filed, ?_, synced.mirrors_iff.mpr noStrays⟩
    intro name content under object
    rcases synced.object_cases object with ⟨path, _dest, _kept, _samePath, found⟩ | before
    · exact (synced.filed path content found).2.1
    · exact synced.stored name content under before

end FileSetting

/-! ### One file that has no object yet -/

def newFile : SyncSurroundings :=
  sampleSurroundings [(text "/d/f", some (1, 1))] (by decide) []

def newFileWorld : FileWorld where
  files := Function.update (fun _path => none) (text "/d/f") (some (text "x"))
  daemon := some sampleDaemon
  jobs := (uploadJobs (syncOneConfigEntry newFile sampleAccount sampleEntry)).map
    fun job => .upload job.1 job.2
  store _name := none

theorem newFileWorld_files {path content : Bytes} (found : newFileWorld.files path = some content) :
    path = text "/d/f" ∧ content = text "x" := by
  unfold newFileWorld at found
  dsimp only at found
  by_cases same : path = text "/d/f"
  · subst same
    rw [Function.update_self] at found
    exact ⟨rfl, (Option.some.inj found).symm⟩
  · rw [Function.update_of_ne same] at found
    cases found

/-- A synchronisation of one file, against an empty listing. -/
theorem surveyed_of_single {setting : FileSetting} {around : SyncSurroundings}
    {path content : Bytes} {world : FileWorld}
    (enumerated : around.tree.recursiveEntries setting.entry.localDir = .ok [path])
    (regular : around.tree.isDirectory path = .ok false)
    (size : around.tree.fileSize path = .ok content.length)
    (relative : around.tree.relative path setting.entry.localDir =
      .ok (relativeTo path setting.entry.localDir))
    (returned : (syncOneConfigEntry around setting.rs setting.entry).result = .ok ())
    (empty : around.listing.objects = [])
    (only : ∀ other found, world.files other = some found → other = path ∧ found = content) :
    setting.Surveyed around [path] world where
  shows :=
    { enumerated
      complete := by
        intro other found there
        obtain ⟨rfl, _content⟩ := only other found there
        exact List.mem_singleton_self _
      regular := by
        intro other found there
        obtain ⟨rfl, _content⟩ := only other found there
        exact regular
      size := by
        intro other found there
        obtain ⟨rfl, rfl⟩ := only other found there
        exact size
      relative := by
        intro other member _isFile
        rw [List.mem_singleton.mp member]
        exact relative }
  returned
  truthful := by
    intro other found _there remote listed
    rw [empty] at listed
    cases listed

/-- The synchronisation finds the file in every world that has no other. -/
theorem newFile_surveyed {world : FileWorld}
    (only : ∀ path content, world.files path = some content →
      path = text "/d/f" ∧ content = text "x") :
    sampleSetting.Surveyed newFile [text "/d/f"] world :=
  surveyed_of_single rfl rfl rfl rfl (by decide) rfl only

theorem newFileWorld_synced :
    sampleSetting.JustSynced {text "x"} newFile [text "/d/f"] newFileWorld where
  toSurveyed := newFile_surveyed (fun _path _content => newFileWorld_files)
  queue := rfl
  daemon := rfl
  filed := by
    intro path content found
    obtain ⟨rfl, rfl⟩ := newFileWorld_files found
    exact ⟨⟨1, text "f", by decide⟩, sampleSetting_fitting⟩
  stored := by
    intro name content _under object
    cases object
  jobs := rfl

/-- The file is uploaded, and the watching can begin. -/
theorem started_iff_no_strays_sample :
    ∃ settled, settled.store (text "/v1/c/i/f") = some (text "x") ∧
      sampleSetting.Started {text "x"} settled := by
  let settled := (newFileWorld.step sampleSetting
    (.applyJob (sampleSetting.nextServed newFileWorld))).get (by decide)
  have run : Runs.Run (FileWorld.step sampleSetting) sampleSetting.AppliesWell newFileWorld
      settled :=
    Relation.ReflTransGen.single
      ⟨.applyJob _, sampleSetting.servedWell_nextServed newFileWorld, (Option.some_get _).symm⟩
  have synced := FileSetting.started_iff_no_strays sampleSetting {text "x"} newFileWorld_synced
    run (by decide)
  refine ⟨settled, by decide, synced.2.2.mpr ?_⟩
  intro name content _under object
  cases object

end Cdnalizerd
