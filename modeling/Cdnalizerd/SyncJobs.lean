/-
The jobs that a synchronisation queues, and from where.

The merge loop asks for the kind and the size of a file before it queues a job;
the left-over loop asks for neither.  Neither loop knows where one page of the
listing ends and the next begins.
-/

import Cdnalizerd.Sync
import Cdnalizerd.Library.LeftOvers

namespace Cdnalizerd

open Library

/-! ### Where a job comes from -/

section Jobs

variable {around : SyncSurroundings} {baseURL : URL} {entry : ConfigEntry}
variable {localFile : Bytes} {job : Job}

theorem mem_queueUpload_iff {request : Request} {localRelativePath : Bytes} :
    request ∈ (queueUpload baseURL entry localFile localRelativePath).trace ↔
      entry.shouldIgnoreFile localFile = false ∧
        ∃ dest, destination baseURL entry.container entry.remoteDir localRelativePath =
          .ok dest ∧ request = .addJob (.upload localFile dest) := by
  unfold queueUpload
  split
  · rename_i rejected
    rw [rejected]
    simp
  · rename_i wanted
    rw [Bool.not_eq_true] at wanted
    rw [Traced.mem_ask_bind_iff]
    simp [wanted]

theorem mem_uploadUnlessEmpty {localRelativePath : Bytes}
    (member : Request.addJob job ∈
      (uploadUnlessEmpty around baseURL entry localFile localRelativePath).trace) :
    around.tree.fileSize localFile ≠ .ok 0 ∧
      Request.addJob job ∈ (queueUpload baseURL entry localFile localRelativePath).trace := by
  unfold uploadUnlessEmpty at member
  obtain ⟨size, measured, later⟩ := Traced.mem_ask_bind_iff.mp member
  split at later
  · rename_i positive
    constructor
    · intro empty
      have none : size = 0 := Except.ok.inj (measured.symm.trans empty)
      omega
    · rcases Traced.mem_emit_bind_iff.mp later with wrong | queued
      · cases wrong
      · exact queued
  · cases later

theorem mem_uploadIfNewer {localRelativePath : Bytes} {remote : RemoteObject}
    (member : Request.addJob job ∈
      (uploadIfNewer around baseURL entry localFile localRelativePath remote).trace) :
    Request.addJob job ∈
      (uploadUnlessEmpty around baseURL entry localFile localRelativePath).trace := by
  unfold uploadIfNewer at member
  obtain ⟨written, _localTime, later⟩ := Traced.mem_ask_bind_iff.mp member
  obtain ⟨remoteTime, _listedTime, queued⟩ := Traced.mem_ask_bind_iff.mp later
  split at queued
  · exact queued
  · cases queued

/-- A job of the merge loop is for a file with contents that is no directory. -/
theorem mem_mergeBody {remote : RemoteObject}
    (member : Request.addJob job ∈
      (mergeBody around baseURL entry localFile remote).trace) :
    around.tree.isDirectory localFile = .ok false ∧
      around.tree.fileSize localFile ≠ .ok 0 ∧
      ∃ relative, around.tree.relative localFile entry.localDir = .ok relative ∧
        Request.addJob job ∈
          (queueUpload baseURL entry localFile (slash :: relative)).trace := by
  unfold mergeBody at member
  obtain ⟨directory, looked, afterLook⟩ := Traced.mem_ask_bind_iff.mp member
  cases directory with
  | true => cases afterLook
  | false =>
      obtain ⟨relative, located, later⟩ := Traced.mem_ask_bind_iff.mp afterLook
      have queued : Request.addJob job ∈
          (uploadUnlessEmpty around baseURL entry localFile (slash :: relative)).trace := by
        dsimp only at later
        split at later
        · rcases Traced.mem_bind_iff.mp later with newer | ⟨_unit, _returned, wrong⟩
          · exact mem_uploadIfNewer newer
          · cases wrong
        · split at later
          · rcases Traced.mem_bind_iff.mp later with queued | ⟨_unit, _returned, wrong⟩
            · exact queued
            · cases wrong
          · cases later
      obtain ⟨filled, inQueue⟩ := mem_uploadUnlessEmpty queued
      exact ⟨looked, filled, relative, located, inQueue⟩

theorem mem_uploadLeftOver {request : Request}
    (member : request ∈ (uploadLeftOver around baseURL entry localFile).trace) :
    request = .getWorker baseURL.raw ∨
      ∃ relative, around.tree.relative localFile entry.localDir = .ok relative ∧
        request ∈ (queueUpload baseURL entry localFile relative).trace := by
  unfold uploadLeftOver at member
  exact (Traced.mem_emit_bind_iff.mp member).imp_right Traced.mem_ask_bind_iff.mp

end Jobs

/-! ### The two loops -/

def syncFiles (around : SyncSurroundings) (base : URL) (entry : ConfigEntry)
    (files : List Bytes) : Traced Failure Request Unit :=
  TwoCursors.drain (mergeBody around base entry) (Traced.ask around.listing.ending)
    (uploadLeftOver around base entry) files around.listing.objects

section Loops

variable {around : SyncSurroundings} {entry : ConfigEntry} {rs : Rackspace} {base : URL}
  {listed : List Bytes}

theorem sync_eq_syncFiles (found : rs.getURL entry.region entry.snet = .ok base)
    (connected : around.connect base.host = .ok ())
    (enumerated : around.tree.recursiveEntries entry.localDir = .ok listed)
    (nonempty : listed ≠ []) :
    syncOneConfigEntry around rs entry = syncFiles around base entry (sortPaths listed) := by
  unfold syncOneConfigEntry syncWith
  rw [found, Traced.ask_ok_bind, connected, Traced.ask_ok_bind, enumerated,
    Traced.ask_ok_bind, if_neg nonempty, mergePages_listing, Traced.bind_assoc]
  rfl

theorem begun_of_returned (returned : (syncOneConfigEntry around rs entry).result = .ok ()) :
    ∃ base, rs.getURL entry.region entry.snet = .ok base ∧
      around.connect base.host = .ok () := by
  unfold syncOneConfigEntry syncWith at returned
  obtain ⟨base, found, afterURL⟩ := Traced.bind_result_eq_ok_iff.mp returned
  obtain ⟨_unit, connected, _later⟩ := Traced.bind_result_eq_ok_iff.mp afterURL
  exact ⟨base, found, connected⟩

theorem mem_sync {request : Request}
    (member : request ∈ (syncOneConfigEntry around rs entry).trace) :
    ∃ base listed, around.tree.recursiveEntries entry.localDir = .ok listed ∧
      request ∈ (syncFiles around base entry (sortPaths listed)).trace := by
  have requested := member
  unfold syncOneConfigEntry syncWith at member
  obtain ⟨base, found, afterURL⟩ := Traced.mem_ask_bind_iff.mp member
  obtain ⟨_unit, connected, afterConnect⟩ := Traced.mem_ask_bind_iff.mp afterURL
  obtain ⟨listed, enumerated, later⟩ := Traced.mem_ask_bind_iff.mp afterConnect
  refine ⟨base, listed, enumerated, ?_⟩
  split at later
  · cases later
  · rename_i nonempty
    rwa [sync_eq_syncFiles found connected enumerated nonempty] at requested

theorem mem_syncFiles_iff {request : Request} {files : List Bytes} :
    request ∈ (syncFiles around base entry files).trace ↔
      request ∈ (TwoCursors.run (mergeBody around base entry) files
          around.listing.objects).trace ∨
        ∃ state, (TwoCursors.run (mergeBody around base entry) files
            around.listing.objects).result = .ok state ∧
          around.listing.ending = .ok () ∧
          request ∈ (Traced.each (uploadLeftOver around base entry) state.1).trace :=
  TwoCursors.mem_drain_iff (Traced.ask_trace _)

end Loops

/-! ### The pages of the listing -/

def Request.upload? : Request → Option (Bytes × URL)
  | .addJob (.upload source dest) => some (source, dest)
  | _ => none

def uploadJobs (run : Traced Failure Request Unit) : List (Bytes × URL) :=
  run.trace.filterMap Request.upload?

def SyncSurroundings.withPages (around : SyncSurroundings) (pages : List (List RemoteObject)) :
    SyncSurroundings :=
  { around with listing := { around.listing with pages := pages } }

section Pages

variable {sort : List Bytes → List Bytes} {around : SyncSurroundings} {rs : Rackspace}
  {entry : ConfigEntry}

/-- A run over pages is the run over the single page of all their objects. -/
theorem syncWith_single_page (pages : List (List RemoteObject)) :
    syncWith sort (around.withPages pages) rs entry =
      syncWith sort (around.withPages [pages.flatten]) rs entry := by
  have walks (base : URL) (localFiles : List Bytes) :
      mergePages (around.withPages pages) base entry localFiles pages =
        mergePages (around.withPages [pages.flatten]) base entry localFiles
          [pages.flatten] := by
    rw [mergePages_eq, mergePages_eq, List.flatten_singleton]
    rfl
  unfold syncWith
  apply bind_congr
  intro base
  apply bind_congr
  intro _connected
  apply bind_congr
  intro localFiles
  split
  · rfl
  · change mergePages (around.withPages pages) base entry (sort localFiles) pages >>= _ =
      mergePages (around.withPages [pages.flatten]) base entry (sort localFiles)
        [pages.flatten] >>= _
    rw [walks]
    rfl

theorem upload_jobs_independent_of_pages (sort : List Bytes → List Bytes)
    (around : SyncSurroundings) (rs : Rackspace) (entry : ConfigEntry)
    {left right : List (List RemoteObject)} (same : left.flatten = right.flatten) :
    uploadJobs (syncWith sort (around.withPages left) rs entry) =
        uploadJobs (syncWith sort (around.withPages right) rs entry) ∧
      uploadJobs (syncWith sort (around.withPages left) rs entry) =
        uploadJobs (syncWith sort (around.withPages [left.flatten]) rs entry) := by
  constructor
  · rw [syncWith_single_page left, syncWith_single_page right, same]
  · rw [syncWith_single_page left]

theorem upload_jobs_independent_of_pages_sample :
    uploadJobs (syncWith List.reverse (twoFiles.withPages twoFiles.listing.pages) sampleAccount
        sampleEntry) =
      uploadJobs (syncWith List.reverse (twoFiles.withPages [[], twoFiles.listing.objects])
        sampleAccount sampleEntry) := by
  have same : twoFiles.listing.pages.flatten = [[], twoFiles.listing.objects].flatten := by
    rw [List.flatten_cons, List.nil_append, List.flatten_singleton]
    rfl
  exact (upload_jobs_independent_of_pages List.reverse twoFiles sampleAccount sampleEntry same).1

end Pages

end Cdnalizerd
