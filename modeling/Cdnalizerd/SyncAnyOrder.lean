/-
The upload jobs of one synchronisation, in the order of the files and in any
other.

A round queues a job for its own file only, and then moves past it, so no file
is queued twice, whatever is listed and wherever the run stops.  The workers may
therefore take the jobs in any order.
-/

import Cdnalizerd.SyncedMirror

namespace Cdnalizerd

open Library

/-! ### In the order of the files -/

def Request.uploadSource? (request : Request) : Option Bytes :=
  request.upload?.map Prod.fst

theorem actedFor_uploadSource (run : Traced Failure Request Unit) :
    Traced.actedFor Request.uploadSource? run = (uploadJobs run).map Prod.fst :=
  List.map_filterMap.symm

section Rounds

variable {around : SyncSurroundings} {rs : Rackspace} {entry : ConfigEntry} {base : URL}
  {localFile : Bytes}

theorem actedFor_queueUpload (localRelativePath : Bytes) :
    (Traced.actedFor Request.uploadSource?
      (queueUpload base entry localFile localRelativePath)).Sublist [localFile] := by
  unfold queueUpload
  split
  · exact List.nil_sublist [localFile]
  · apply Traced.actedFor_ask_bind
    intro dest _built
    exact List.Sublist.refl [localFile]

theorem actedFor_uploadUnlessEmpty (localRelativePath : Bytes) :
    (Traced.actedFor Request.uploadSource?
      (uploadUnlessEmpty around base entry localFile localRelativePath)).Sublist
        [localFile] := by
  unfold uploadUnlessEmpty
  apply Traced.actedFor_ask_bind
  intro size _measured
  split
  · exact actedFor_queueUpload localRelativePath
  · exact List.nil_sublist [localFile]

theorem actedFor_uploadIfNewer (localRelativePath : Bytes) (remote : RemoteObject) :
    (Traced.actedFor Request.uploadSource?
      (uploadIfNewer around base entry localFile localRelativePath remote)).Sublist
        [localFile] := by
  unfold uploadIfNewer
  apply Traced.actedFor_ask_bind
  intro written _localTime
  apply Traced.actedFor_ask_bind
  intro remoteTime _listedTime
  split
  · exact actedFor_uploadUnlessEmpty localRelativePath
  · exact List.nil_sublist [localFile]

theorem actedFor_uploadLeftOver :
    (Traced.actedFor Request.uploadSource?
      (uploadLeftOver around base entry localFile)).Sublist [localFile] := by
  unfold uploadLeftOver
  have asked : (Traced.actedFor Request.uploadSource? (do
      let localRelativePath ← Traced.ask (around.tree.relative localFile entry.localDir)
      queueUpload base entry localFile localRelativePath)).Sublist [localFile] := by
    apply Traced.actedFor_ask_bind
    intro relative _located
    exact actedFor_queueUpload relative
  exact asked

/-- The walk waits for a file without queueing it. -/
theorem mergeBody_actsInPassing :
    TwoCursors.ActsInPassing Request.uploadSource? (mergeBody around base entry) where
  own localFile remote := by
    unfold mergeBody
    apply Traced.actedFor_ask_bind
    intro directory _looked
    split
    · exact List.nil_sublist [localFile]
    · apply Traced.actedFor_ask_bind
      intro relative _located
      dsimp only
      split
      · exact Traced.actedFor_bind_pure _ (actedFor_uploadIfNewer _ remote)
      · split
        · exact Traced.actedFor_bind_pure _ (actedFor_uploadUnlessEmpty _)
        · exact List.nil_sublist [localFile]
  waiting localFile remote returned := by
    rcases mergeBody_returned returned with ⟨_directory, wrong⟩ | ⟨regular, relative, located⟩
    · cases wrong
    · rw [(mergeBody_right regular located returned).2]
      rfl

theorem uploadSources_sublist (around : SyncSurroundings) (rs : Rackspace) (entry : ConfigEntry)
    {listed : List Bytes} (enumerated : around.tree.recursiveEntries entry.localDir = .ok listed) :
    ((uploadJobs (syncOneConfigEntry around rs entry)).map Prod.fst).Sublist
      (sortPaths listed) := by
  rw [← actedFor_uploadSource]
  unfold syncOneConfigEntry syncWith
  apply Traced.actedFor_ask_bind
  intro base _found
  apply Traced.actedFor_ask_bind
  intro _unit _connected
  rw [enumerated, Traced.ask_ok_bind]
  split
  · exact List.nil_sublist _
  · rw [mergePages_listing, Traced.bind_assoc]
    exact TwoCursors.actedFor_drain mergeBody_actsInPassing rfl
      (fun _localFile => actedFor_uploadLeftOver) (sortPaths listed) around.listing.objects

theorem uploadSources_nodup (around : SyncSurroundings) (rs : Rackspace) (entry : ConfigEntry)
    {listed : List Bytes} (enumerated : around.tree.recursiveEntries entry.localDir = .ok listed) :
    ((uploadJobs (syncOneConfigEntry around rs entry)).map Prod.fst).Nodup := by
  apply (uploadSources_sublist around rs entry enumerated).nodup
  exact (sortPaths_perm listed).nodup_iff.mpr (LocalTree.nodup_of_entries enumerated)

/-- Whatever is listed and wherever the run stops, the files are queued in the
order they are sorted in, and none of them twice. -/
theorem queued_in_file_order (around : SyncSurroundings) (rs : Rackspace) (entry : ConfigEntry)
    {listed : List Bytes} (enumerated : around.tree.recursiveEntries entry.localDir = .ok listed) :
    ((uploadJobs (syncOneConfigEntry around rs entry)).map Prod.fst).Sublist
        (sortPaths listed) ∧
      ((uploadJobs (syncOneConfigEntry around rs entry)).map Prod.fst).Nodup :=
  ⟨uploadSources_sublist around rs entry enumerated,
    uploadSources_nodup around rs entry enumerated⟩

end Rounds

theorem queued_in_file_order_sample :
    ((uploadJobs (syncOneConfigEntry twoFiles sampleAccount sampleEntry)).map Prod.fst).Sublist
      (sortPaths [text "/d/b", text "/d/a"]) :=
  (queued_in_file_order twoFiles sampleAccount sampleEntry rfl).1

/-! ### In any order -/

/-- Uploads to different objects, or of nothing, may change places. -/
theorem uploadOne_comm {files : Bytes → Option Bytes} {first second : Bytes × URL}
    (apart : first.2.path = second.2.path → first = second ∨
      (∀ content, files first.1 = some content → ¬ content ≠ []) ∨
      ∀ content, files second.1 = some content → ¬ content ≠ [])
    (store : Bytes → Option Bytes) :
    uploadOne files (uploadOne files store first) second =
      uploadOne files (uploadOne files store second) first := by
  by_cases samePath : first.2.path = second.2.path
  · rcases apart samePath with rfl | trifling | trifling
    · rfl
    · rw [uploadOne_of_trifling trifling, uploadOne_of_trifling trifling]
    · rw [uploadOne_of_trifling trifling, uploadOne_of_trifling trifling]
  · unfold uploadOne
    rw [Function.update_of_ne (Ne.symm samePath), Function.update_of_ne samePath,
      Function.update_comm samePath]

namespace FileSetting

variable {setting : FileSetting} {around : SyncSurroundings} {listed : List Bytes}
  {world : FileWorld}

/-- Two jobs of a synchronisation are for two objects, or one has nothing to send. -/
theorem Surveyed.apart (surveyed : setting.Surveyed around listed world)
    (located : ∀ path content, world.files path = some content → setting.IsFile path)
    {first second : Bytes × URL} (firstQueued : first ∈ setting.syncUploads around)
    (secondQueued : second ∈ setting.syncUploads around)
    (samePath : first.2.path = second.2.path) :
    first = second ∨ (∀ content, world.files first.1 = some content → ¬ content ≠ []) ∨
      ∀ content, world.files second.1 = some content → ¬ content ≠ [] := by
  cases firstFound : world.files first.1 with
  | none =>
      right
      left
      intro content found
      cases found
  | some content =>
      cases secondFound : world.files second.1 with
      | none =>
          right
          right
          intro content found
          cases found
      | some other =>
          left
          have firstKept := surveyed.kept firstQueued (located first.1 content firstFound)
          have secondKept := surveyed.kept secondQueued (located second.1 other secondFound)
          have distinct := uploadSources_nodup around setting.rs setting.entry
            surveyed.shows.enumerated
          exact List.inj_on_of_nodup_map distinct firstQueued secondQueued
            (secondKept.unique firstKept samePath)

/-- In whatever order the jobs of a synchronisation are applied, the same objects are
there in the end if the server carries each of them out. -/
theorem synced_in_any_order (setting : FileSetting) {around : SyncSurroundings}
    {listed : List Bytes} {world settled : FileWorld}
    (surveyed : setting.Surveyed around listed world)
    (located : ∀ path content, world.files path = some content → setting.IsFile path)
    {order : List (Bytes × URL)} (permuted : order.Perm (setting.syncUploads around))
    (queued : world.jobs = order.map fun job => .upload job.1 job.2)
    (run : Runs.Run (FileWorld.step setting) setting.AppliesWell world settled)
    (applied : settled.jobs = []) :
    settled = { world with jobs := [], store := setting.syncedStore around world } := by
  have ready : ReadyFor world.files order := by
    intro job member content found _nonempty
    exact (surveyed.kept (permuted.mem_iff.mp member) (located job.1 content found)).ready
  have same : uploadAll world.files order world.store = setting.syncedStore around world := by
    apply permuted.foldl_eq'
    intro first firstMember second secondMember store
    exact uploadOne_comm (surveyed.apart located (permuted.mem_iff.mp firstMember)
      (permuted.mem_iff.mp secondMember)) store
  rw [uploads_of_run queued ready run applied, same]

end FileSetting

/-- Two files, and the jobs of their synchronisation the other way round. -/
def twoNewFiles : FileWorld where
  files path := if path = text "/d/a" ∨ path = text "/d/b" then some (text "x") else none
  daemon := some sampleDaemon
  jobs := (sampleSetting.syncUploads newFiles).reverse.map fun job => .upload job.1 job.2
  store _name := none

theorem twoNewFiles_files {path content : Bytes} (found : twoNewFiles.files path = some content) :
    (path = text "/d/a" ∨ path = text "/d/b") ∧ content = text "x" := by
  obtain ⟨either, same⟩ := Option.ite_none_right_eq_some.mp found
  exact ⟨either, (Option.some.inj same).symm⟩

theorem newFiles_surveyed :
    sampleSetting.Surveyed newFiles [text "/d/a", text "/d/b"] twoNewFiles where
  shows :=
    { enumerated := rfl
      complete := by
        intro path content found
        rcases (twoNewFiles_files found).1 with rfl | rfl
        · exact List.mem_cons_self
        · exact List.mem_cons_of_mem _ List.mem_cons_self
      regular := by
        intro path content found
        obtain ⟨rfl | rfl, _content⟩ := twoNewFiles_files found
        · rfl
        · rfl
      size := by
        intro path content found
        obtain ⟨rfl | rfl, rfl⟩ := twoNewFiles_files found
        · rfl
        · rfl
      relative := by
        intro path member _isFile
        rcases List.mem_cons.mp member with rfl | rest
        · rfl
        · rw [List.mem_singleton.mp rest]
          rfl }
  returned := by decide
  truthful := by
    intro path content _found remote listed
    cases listed

theorem synced_in_any_order_sample :
    ∃ settled : FileWorld, settled.store (text "/v1/c/i/a") = some (text "x") ∧
      settled = { twoNewFiles with
        jobs := []
        store := sampleSetting.syncedStore newFiles twoNewFiles } := by
  let half := (twoNewFiles.step sampleSetting
    (.applyJob (sampleSetting.nextServed twoNewFiles))).get (by decide)
  let settled := (half.step sampleSetting (.applyJob (sampleSetting.nextServed half))).get
    (by decide)
  have run : Runs.Run (FileWorld.step sampleSetting) sampleSetting.AppliesWell twoNewFiles
      settled := by
    have first : Runs.Run (FileWorld.step sampleSetting) sampleSetting.AppliesWell twoNewFiles
        half :=
      Relation.ReflTransGen.single
        ⟨.applyJob _, sampleSetting.servedWell_nextServed twoNewFiles, (Option.some_get _).symm⟩
    exact first.tail
      ⟨.applyJob _, sampleSetting.servedWell_nextServed half, (Option.some_get _).symm⟩
  refine ⟨settled, by decide, ?_⟩
  exact FileSetting.synced_in_any_order sampleSetting newFiles_surveyed
    (fun path content found => by
      obtain ⟨rfl | rfl, _content⟩ := twoNewFiles_files found
      · exact ⟨1, text "a", by decide⟩
      · exact ⟨1, text "b", by decide⟩)
    (List.reverse_perm (sampleSetting.syncUploads newFiles)) rfl run (by decide)

end Cdnalizerd
