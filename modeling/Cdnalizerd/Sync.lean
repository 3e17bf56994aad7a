/-
The synchronisation of one configuration entry.

The local files, sorted, and the pages of the remote listing are walked by two
cursors.  A file that the remote listing has passed, and a file that is newer
than its object, is queued for upload; what is left when the listing ends is
queued as well.
-/

import Mathlib.Data.List.Sort
import Cdnalizerd.Config
import Cdnalizerd.Library.TwoCursors

namespace Cdnalizerd

open Library

/-! ### The remote listing -/

/-- The two fields of a listed object that the walk reads. -/
structure RemoteObject where
  name : Bytes
  lastModified : Bytes
deriving DecidableEq

/-- What the listing generator yields: its pages, and how it ends. -/
structure Listing where
  pages : List (List RemoteObject)
  ending : Except Failure Unit

def Listing.objects (listing : Listing) : List RemoteObject :=
  listing.pages.flatten

/-- What a run meets besides its configuration entry and its account. -/
structure SyncSurroundings where
  tree : LocalTree
  listing : Listing
  connect : Bytes → Except Failure Unit
  /-- `time_from_string`, in microseconds since the epoch. -/
  timeFromString : Bytes → Except Failure Int

/-- `from_time_t`, in microseconds since the epoch. -/
def fromTimeT (seconds : Int) : Int :=
  seconds * 1000000

/-- The parsed time of an object. Writing at the index of a missing `T` is
undefined. -/
def SyncSurroundings.remoteTime (around : SyncSurroundings) (remote : RemoteObject) :
    Except Failure Int :=
  match remote.lastModified.findIdx? (· = 'T'.toUInt8) with
  | some index => around.timeFromString (remote.lastModified.set index ' '.toUInt8)
  | none => .error .undefinedBehaviour

/-! ### The walk -/

section Walk

variable (around : SyncSurroundings) (baseURL : URL) (entry : ConfigEntry)

def queueUpload (localFile localRelativePath : Bytes) : Traced Failure Request Unit :=
  if entry.shouldIgnoreFile localFile then pure ()
  else do
    let dest ← Traced.ask
      (destination baseURL entry.container entry.remoteDir localRelativePath)
    Traced.emit (.addJob (.upload localFile dest))

def uploadUnlessEmpty (localFile localRelativePath : Bytes) : Traced Failure Request Unit := do
  let size ← Traced.ask (around.tree.fileSize localFile)
  if 0 < size then do
    Traced.emit (.getWorker baseURL.raw)
    queueUpload baseURL entry localFile localRelativePath
  else pure ()

def uploadIfNewer (localFile localRelativePath : Bytes) (remote : RemoteObject) :
    Traced Failure Request Unit := do
  let written ← Traced.ask (around.tree.lastWriteTime localFile)
  let remoteTime ← Traced.ask (around.remoteTime remote)
  if remoteTime < fromTimeT written then
    uploadUnlessEmpty around baseURL entry localFile localRelativePath
  else pure ()

/-- One round of the `while` loop. -/
def mergeBody (localFile : Bytes) (remote : RemoteObject) :
    Traced Failure Request TwoCursors.Advance := do
  let directory ← Traced.ask (around.tree.isDirectory localFile)
  if directory then pure .left
  else do
    let relative ← Traced.ask (around.tree.relative localFile entry.localDir)
    let remoteRelativePath := unJoinPaths entry.remoteDir remote.name
    let localRelativePath := slash :: relative
    if localRelativePath = remoteRelativePath then do
      uploadIfNewer around baseURL entry localFile localRelativePath remote
      pure .both
    else if localRelativePath < remoteRelativePath then do
      uploadUnlessEmpty around baseURL entry localFile localRelativePath
      pure .left
    else pure .right

/-- The local files that are left when the last page is done. -/
def mergePages : List Bytes → List (List RemoteObject) → Traced Failure Request (List Bytes)
  | localFiles, [] => pure localFiles
  | localFiles, page :: pages => do
      let state ← TwoCursors.run (mergeBody around baseURL entry) localFiles page
      mergePages state.1 pages

/-- One round of the left-over loop, which asks neither for directories nor for
sizes. -/
def uploadLeftOver (localFile : Bytes) : Traced Failure Request Unit := do
  Traced.emit (.getWorker baseURL.raw)
  let localRelativePath ← Traced.ask (around.tree.relative localFile entry.localDir)
  queueUpload baseURL entry localFile localRelativePath

end Walk

/-- `syncOneConfigEntry`, with `sort` in the place of `std::sort`. -/
def syncWith (sort : List Bytes → List Bytes) (around : SyncSurroundings) (rs : Rackspace)
    (entry : ConfigEntry) : Traced Failure Request Unit := do
  let baseURL ← Traced.ask (rs.getURL entry.region entry.snet)
  Traced.ask (around.connect baseURL.host)
  let localFiles ← Traced.ask (around.tree.recursiveEntries entry.localDir)
  if localFiles = [] then pure ()
  else do
    let leftOver ← mergePages around baseURL entry (sort localFiles) around.listing.pages
    Traced.ask around.listing.ending
    Traced.each (uploadLeftOver around baseURL entry) leftOver

/-- `path::operator<` compares paths element by element. -/
def sortPaths (localFiles : List Bytes) : List Bytes :=
  localFiles.insertionSort fun left right => pathElements left ≤ pathElements right

def syncOneConfigEntry (around : SyncSurroundings) (rs : Rackspace) (entry : ConfigEntry) :
    Traced Failure Request Unit :=
  syncWith sortPaths around rs entry

/-! ### The upload jobs for one file -/

def uploads (source : Bytes) : Request → Bool
  | .addJob (.upload localFile _) => localFile = source
  | _ => false

section Uploads

variable {around : SyncSurroundings} {baseURL : URL} {entry : ConfigEntry}

theorem uploads_getWorker (source url : Bytes) : uploads source (.getWorker url) = false := rfl

theorem count_queueUpload_of_ne {source localFile : Bytes} (other : localFile ≠ source)
    (localRelativePath : Bytes) :
    Traced.count (uploads source) (queueUpload baseURL entry localFile localRelativePath) =
      0 := by
  unfold queueUpload
  split
  · exact Traced.count_pure _ _
  · apply Traced.count_bind_eq_zero
    · exact Traced.count_ask _ _
    · intro dest _built
      rw [Traced.count_emit]
      exact if_neg (by simp [uploads, other])

theorem count_queueUpload_of_ignored {localFile : Bytes}
    (rejected : entry.shouldIgnoreFile localFile = true) (source localRelativePath : Bytes) :
    Traced.count (uploads source) (queueUpload baseURL entry localFile localRelativePath) =
      0 := by
  unfold queueUpload
  rw [if_pos rejected]
  exact Traced.count_pure _ _

theorem count_queueUpload_of_wanted {localFile : Bytes}
    (wanted : entry.shouldIgnoreFile localFile = false) {localRelativePath : Bytes}
    (returned : (queueUpload baseURL entry localFile localRelativePath).result = .ok ()) :
    Traced.count (uploads localFile)
      (queueUpload baseURL entry localFile localRelativePath) = 1 := by
  unfold queueUpload at returned ⊢
  rw [if_neg (by rw [wanted]; exact Bool.false_ne_true)] at returned ⊢
  obtain ⟨dest, built, _emitted⟩ := Traced.bind_result_eq_ok_iff.mp returned
  rw [Traced.count_bind_of_ok _ built, Traced.count_ask, Traced.count_emit, Nat.zero_add]
  exact if_pos (by simp [uploads])

/-- Nothing is queued for a file other than the one at hand, or for an ignored
one. -/
def NotQueued (entry : ConfigEntry) (source localFile : Bytes) : Prop :=
  localFile ≠ source ∨ entry.shouldIgnoreFile localFile = true

theorem count_queueUpload {source localFile : Bytes} (spared : NotQueued entry source localFile)
    (localRelativePath : Bytes) :
    Traced.count (uploads source) (queueUpload baseURL entry localFile localRelativePath) =
      0 := by
  rcases spared with other | rejected
  · exact count_queueUpload_of_ne other localRelativePath
  · exact count_queueUpload_of_ignored rejected source localRelativePath

theorem count_uploadUnlessEmpty {source localFile : Bytes}
    (spared : NotQueued entry source localFile ∨ around.tree.fileSize localFile = .ok 0)
    (localRelativePath : Bytes) :
    Traced.count (uploads source)
      (uploadUnlessEmpty around baseURL entry localFile localRelativePath) = 0 := by
  unfold uploadUnlessEmpty
  apply Traced.count_bind_eq_zero
  · exact Traced.count_ask _ _
  · intro size measured
    split
    · rename_i positive
      rcases spared with notQueued | empty
      · apply Traced.count_bind_eq_zero
        · exact Traced.count_emit _ _
        · intro _unit _emitted
          exact count_queueUpload notQueued localRelativePath
      · rw [Traced.ask_result, empty] at measured
        have none : 0 = size := Except.ok.inj measured
        omega
    · exact Traced.count_pure _ _

theorem count_uploadUnlessEmpty_of_wanted {localFile : Bytes}
    (wanted : entry.shouldIgnoreFile localFile = false)
    (filled : around.tree.fileSize localFile ≠ .ok 0) {localRelativePath : Bytes}
    (returned : (uploadUnlessEmpty around baseURL entry localFile
      localRelativePath).result = .ok ()) :
    Traced.count (uploads localFile)
      (uploadUnlessEmpty around baseURL entry localFile localRelativePath) = 1 := by
  unfold uploadUnlessEmpty at returned ⊢
  obtain ⟨size, measured, later⟩ := Traced.bind_result_eq_ok_iff.mp returned
  have positive : 0 < size := by
    apply Nat.pos_of_ne_zero
    intro empty
    exact filled (empty ▸ measured)
  rw [Traced.count_bind_of_ok _ measured, Traced.count_ask, Nat.zero_add]
  rw [if_pos positive] at later ⊢
  obtain ⟨_unit, emitted, queued⟩ := Traced.bind_result_eq_ok_iff.mp later
  rw [Traced.count_bind_of_ok _ emitted, Traced.count_emit,
    count_queueUpload_of_wanted wanted queued, uploads_getWorker]
  rfl

/-! ### The object a file is compared with -/

/-- The listed time of an object is not earlier than the file's own. -/
def UpToDate (around : SyncSurroundings) (localFile : Bytes) (remote : RemoteObject) : Prop :=
  ∃ written remoteTime, around.tree.lastWriteTime localFile = .ok written ∧
    around.remoteTime remote = .ok remoteTime ∧ fromTimeT written ≤ remoteTime

instance (around : SyncSurroundings) (localFile : Bytes) (remote : RemoteObject) :
    Decidable (UpToDate around localFile remote) :=
  match measured : around.tree.lastWriteTime localFile, listed : around.remoteTime remote with
  | .ok written, .ok remoteTime =>
      decidable_of_iff (fromTimeT written ≤ remoteTime) (by simp [UpToDate, measured, listed])
  | .ok _written, .error _reason => isFalse (by simp [UpToDate, listed])
  | .error _reason, _ => isFalse (by simp [UpToDate, measured])

theorem count_uploadIfNewer {source localFile : Bytes} {remote : RemoteObject}
    (spared : NotQueued entry source localFile ∨ around.tree.fileSize localFile = .ok 0 ∨
      UpToDate around localFile remote) (localRelativePath : Bytes) :
    Traced.count (uploads source)
      (uploadIfNewer around baseURL entry localFile localRelativePath remote) = 0 := by
  unfold uploadIfNewer
  apply Traced.count_bind_eq_zero
  · exact Traced.count_ask _ _
  intro written localTime
  apply Traced.count_bind_eq_zero
  · exact Traced.count_ask _ _
  intro remoteTime listedTime
  split
  · rename_i newer
    rcases spared with notQueued | empty | ⟨known, listed, sameWritten, sameListed, upToDate⟩
    · exact count_uploadUnlessEmpty (Or.inl notQueued) localRelativePath
    · exact count_uploadUnlessEmpty (Or.inr empty) localRelativePath
    · have writtenEq : known = written := Except.ok.inj (sameWritten.symm.trans localTime)
      have listedEq : listed = remoteTime := Except.ok.inj (sameListed.symm.trans listedTime)
      subst writtenEq listedEq
      omega
  · exact Traced.count_pure _ _

theorem count_uploadIfNewer_of_wanted {localFile : Bytes} {remote : RemoteObject}
    (wanted : entry.shouldIgnoreFile localFile = false)
    (filled : around.tree.fileSize localFile ≠ .ok 0)
    (stale : ¬ UpToDate around localFile remote) {localRelativePath : Bytes}
    (returned : (uploadIfNewer around baseURL entry localFile localRelativePath
      remote).result = .ok ()) :
    Traced.count (uploads localFile)
      (uploadIfNewer around baseURL entry localFile localRelativePath remote) = 1 := by
  unfold uploadIfNewer at returned ⊢
  obtain ⟨written, localTime, afterWritten⟩ :=
    Traced.bind_result_eq_ok_iff.mp returned
  obtain ⟨remoteTime, listedTime, later⟩ :=
    Traced.bind_result_eq_ok_iff.mp afterWritten
  have newer : remoteTime < fromTimeT written := by
    apply Int.not_le.mp
    intro notLater
    exact stale ⟨written, remoteTime, localTime, listedTime, notLater⟩
  rw [Traced.count_bind_of_ok _ localTime, Traced.count_bind_of_ok _ listedTime,
    Traced.count_ask, Traced.count_ask, Nat.zero_add, Nat.zero_add]
  rw [if_pos newer] at later ⊢
  exact count_uploadUnlessEmpty_of_wanted wanted filled later

/-! ### One round of the walk -/

theorem mergeBody_of_regular {localFile relative : Bytes}
    (regular : around.tree.isDirectory localFile = .ok false)
    (located : around.tree.relative localFile entry.localDir = .ok relative)
    (remote : RemoteObject) :
    mergeBody around baseURL entry localFile remote =
      if slash :: relative = unJoinPaths entry.remoteDir remote.name then
        uploadIfNewer around baseURL entry localFile (slash :: relative) remote >>=
          fun _ => pure .both
      else if slash :: relative < unJoinPaths entry.remoteDir remote.name then
        uploadUnlessEmpty around baseURL entry localFile (slash :: relative) >>=
          fun _ => pure .left
      else pure .right := by
  unfold mergeBody
  rw [regular, located]
  rfl

theorem mergeBody_returned {localFile : Bytes} {remote : RemoteObject}
    {advance : TwoCursors.Advance}
    (returned : (mergeBody around baseURL entry localFile remote).result = .ok advance) :
    around.tree.isDirectory localFile = .ok true ∧ advance = .left ∨
      around.tree.isDirectory localFile = .ok false ∧
        ∃ relative, around.tree.relative localFile entry.localDir = .ok relative := by
  unfold mergeBody at returned
  obtain ⟨directory, looked, later⟩ := Traced.bind_result_eq_ok_iff.mp returned
  cases directory with
  | true => exact Or.inl ⟨looked, (Except.ok.inj later).symm⟩
  | false =>
      obtain ⟨relative, located, _rest⟩ := Traced.bind_result_eq_ok_iff.mp later
      exact Or.inr ⟨looked, relative, located⟩

theorem mergeBody_both {localFile relative : Bytes} {remote : RemoteObject}
    (regular : around.tree.isDirectory localFile = .ok false)
    (located : around.tree.relative localFile entry.localDir = .ok relative)
    (returned : (mergeBody around baseURL entry localFile remote).result = .ok .both) :
    slash :: relative = unJoinPaths entry.remoteDir remote.name := by
  rw [mergeBody_of_regular regular located] at returned
  split at returned
  · assumption
  · split at returned
    · obtain ⟨_unit, _queued, wrong⟩ := Traced.bind_result_eq_ok_iff.mp returned
      cases wrong
    · cases returned

theorem mergeBody_left {localFile relative : Bytes} {remote : RemoteObject}
    (regular : around.tree.isDirectory localFile = .ok false)
    (located : around.tree.relative localFile entry.localDir = .ok relative)
    (returned : (mergeBody around baseURL entry localFile remote).result = .ok .left) :
    slash :: relative < unJoinPaths entry.remoteDir remote.name := by
  rw [mergeBody_of_regular regular located] at returned
  split at returned
  · obtain ⟨_unit, _queued, wrong⟩ := Traced.bind_result_eq_ok_iff.mp returned
    cases wrong
  · split at returned
    · assumption
    · cases returned

theorem mergeBody_right {localFile relative : Bytes} {remote : RemoteObject}
    (regular : around.tree.isDirectory localFile = .ok false)
    (located : around.tree.relative localFile entry.localDir = .ok relative)
    (returned : (mergeBody around baseURL entry localFile remote).result = .ok .right) :
    unJoinPaths entry.remoteDir remote.name < slash :: relative ∧
      mergeBody around baseURL entry localFile remote = pure .right := by
  rw [mergeBody_of_regular regular located] at returned ⊢
  split at returned
  · obtain ⟨_unit, _queued, wrong⟩ := Traced.bind_result_eq_ok_iff.mp returned
    cases wrong
  · rename_i different
    split at returned
    · obtain ⟨_unit, _queued, wrong⟩ := Traced.bind_result_eq_ok_iff.mp returned
      cases wrong
    · rename_i notBefore
      rw [if_neg different, if_neg notBefore]
      exact ⟨lt_of_le_of_ne (not_lt.mp notBefore) (Ne.symm different), rfl⟩

theorem count_mergeBody_right {localFile : Bytes} {remote : RemoteObject}
    (returned : (mergeBody around baseURL entry localFile remote).result = .ok .right)
    (source : Bytes) :
    Traced.count (uploads source) (mergeBody around baseURL entry localFile remote) = 0 := by
  rcases mergeBody_returned returned with ⟨_directory, wrong⟩ | ⟨regular, relative, located⟩
  · cases wrong
  · rw [(mergeBody_right regular located returned).2, Traced.count_pure]

theorem count_mergeBody {source localFile : Bytes} {remote : RemoteObject}
    (spared : NotQueued entry source localFile ∨ around.tree.fileSize localFile = .ok 0) :
    Traced.count (uploads source) (mergeBody around baseURL entry localFile remote) = 0 := by
  unfold mergeBody
  apply Traced.count_bind_eq_zero _ (Traced.count_ask _ _)
  intro directory _looked
  split
  · exact Traced.count_pure _ _
  apply Traced.count_bind_eq_zero _ (Traced.count_ask _ _)
  intro relative _located
  dsimp only
  split
  · apply Traced.count_bind_eq_zero
    · apply count_uploadIfNewer
      rcases spared with notQueued | empty
      · exact Or.inl notQueued
      · exact Or.inr (Or.inl empty)
    · intro _unit _queued
      exact Traced.count_pure _ _
  · split
    · apply Traced.count_bind_eq_zero
      · exact count_uploadUnlessEmpty spared (slash :: relative)
      · intro _unit _queued
        exact Traced.count_pure _ _
    · exact Traced.count_pure _ _

/-- A round that moves past a wanted file queues it, unless its object is up
to date. -/
theorem count_mergeBody_of_wanted {localFile relative : Bytes} {remote : RemoteObject}
    {advance : TwoCursors.Advance}
    (regular : around.tree.isDirectory localFile = .ok false)
    (located : around.tree.relative localFile entry.localDir = .ok relative)
    (wanted : entry.shouldIgnoreFile localFile = false)
    (filled : around.tree.fileSize localFile ≠ .ok 0)
    (stale : slash :: relative = unJoinPaths entry.remoteDir remote.name →
      ¬ UpToDate around localFile remote)
    (returned : (mergeBody around baseURL entry localFile remote).result = .ok advance)
    (moved : advance ≠ .right) :
    Traced.count (uploads localFile) (mergeBody around baseURL entry localFile remote) =
      1 := by
  rw [mergeBody_of_regular regular located] at returned ⊢
  split at returned
  · rename_i same
    obtain ⟨_unit, queued, _moved⟩ := Traced.bind_result_eq_ok_iff.mp returned
    rw [if_pos same, Traced.count_bind_of_ok _ queued, Traced.count_pure, Nat.add_zero]
    exact count_uploadIfNewer_of_wanted wanted filled (stale same) queued
  · rename_i different
    split at returned
    · rename_i before
      obtain ⟨_unit, queued, _moved⟩ := Traced.bind_result_eq_ok_iff.mp returned
      rw [if_neg different, if_pos before, Traced.count_bind_of_ok _ queued,
        Traced.count_pure, Nat.add_zero]
      exact count_uploadUnlessEmpty_of_wanted wanted filled queued
    · exact absurd (Except.ok.inj returned).symm moved

/-! ### The pages and the left-over loop -/

/-- How the listing is cut into pages makes no difference. -/
theorem mergePages_eq (localFiles : List Bytes) (pages : List (List RemoteObject)) :
    mergePages around baseURL entry localFiles pages =
      TwoCursors.run (mergeBody around baseURL entry) localFiles pages.flatten >>=
        fun state => pure state.1 := by
  induction pages generalizing localFiles with
  | nil =>
      rw [List.flatten_nil, TwoCursors.run_nil_right]
      rfl
  | cons page pages ih =>
      rw [List.flatten_cons, TwoCursors.run_append_right, Traced.bind_assoc]
      apply Traced.bind_congr_of_result
      intro state returned
      rw [ih]
      rcases TwoCursors.left_out_or_right_out returned with leftOut | rightOut
      · rw [leftOut, TwoCursors.run_nil_left, TwoCursors.run_nil_left]
        rfl
      · rw [rightOut, List.nil_append]

theorem mergePages_listing (localFiles : List Bytes) :
    mergePages around baseURL entry localFiles around.listing.pages =
      TwoCursors.run (mergeBody around baseURL entry) localFiles around.listing.objects >>=
        fun state => pure state.1 :=
  mergePages_eq localFiles around.listing.pages

theorem count_uploadLeftOver {source localFile : Bytes}
    (spared : NotQueued entry source localFile) :
    Traced.count (uploads source) (uploadLeftOver around baseURL entry localFile) = 0 := by
  unfold uploadLeftOver
  apply Traced.count_bind_eq_zero
  · exact Traced.count_emit _ _
  intro _unit _emitted
  apply Traced.count_bind_eq_zero
  · exact Traced.count_ask _ _
  intro relative _located
  exact count_queueUpload spared relative

theorem count_uploadLeftOver_of_wanted {localFile : Bytes}
    (wanted : entry.shouldIgnoreFile localFile = false)
    (returned : (uploadLeftOver around baseURL entry localFile).result = .ok ()) :
    Traced.count (uploads localFile) (uploadLeftOver around baseURL entry localFile) = 1 := by
  unfold uploadLeftOver at returned ⊢
  obtain ⟨_unit, emitted, afterWorker⟩ := Traced.bind_result_eq_ok_iff.mp returned
  obtain ⟨relative, located, queued⟩ := Traced.bind_result_eq_ok_iff.mp afterWorker
  rw [Traced.count_bind_of_ok _ emitted, Traced.count_bind_of_ok _ located,
    Traced.count_emit, Traced.count_ask, count_queueUpload_of_wanted wanted queued,
    uploads_getWorker]
  rfl

/-! ### Whole runs -/

section Runs

variable {sort : List Bytes → List Bytes} {rs : Rackspace} {listed : List Bytes}

/-- A run that returns has walked the whole listing with the sorted files and
dealt with what was left over. -/
theorem syncWith_returned (returned : (syncWith sort around rs entry).result = .ok ())
    (enumerated : around.tree.recursiveEntries entry.localDir = .ok listed)
    (nonempty : listed ≠ []) :
    ∃ base state,
      (TwoCursors.run (mergeBody around base entry) (sort listed)
        around.listing.objects).result = .ok state ∧
      (Traced.each (uploadLeftOver around base entry) state.1).result = .ok () ∧
      ∀ counted, Traced.count counted (syncWith sort around rs entry) =
        Traced.count counted (TwoCursors.run (mergeBody around base entry) (sort listed)
          around.listing.objects) +
        Traced.count counted (Traced.each (uploadLeftOver around base entry) state.1) := by
  unfold syncWith at returned ⊢
  obtain ⟨base, found, afterURL⟩ := Traced.bind_result_eq_ok_iff.mp returned
  obtain ⟨_unit, connected, afterConnect⟩ := Traced.bind_result_eq_ok_iff.mp afterURL
  rw [enumerated, Traced.ask_ok_bind, if_neg nonempty, mergePages_listing,
    Traced.bind_assoc] at afterConnect
  obtain ⟨state, walked, afterWalk⟩ :=
    Traced.bind_result_eq_ok_iff.mp afterConnect
  rw [Traced.pure_bind] at afterWalk
  obtain ⟨_unit, ended, leftOverDone⟩ := Traced.bind_result_eq_ok_iff.mp afterWalk
  refine ⟨base, state, walked, leftOverDone, ?_⟩
  intro counted
  rw [Traced.count_bind_of_ok _ found, Traced.count_bind_of_ok _ connected, enumerated,
    Traced.ask_ok_bind, if_neg nonempty, mergePages_listing, Traced.bind_assoc,
    Traced.count_bind_of_ok _ walked, Traced.pure_bind, Traced.count_bind_of_ok _ ended]
  simp only [Traced.count_ask, Nat.zero_add]

/-- Whatever stops a run, it counts nothing if neither the walk nor the
left-over loop does. -/
theorem count_syncWith_eq_zero {counted : Request → Bool}
    (enumerated : around.tree.recursiveEntries entry.localDir = .ok listed)
    (quiet : ∀ base, Traced.count counted (TwoCursors.run (mergeBody around base entry)
        (sort listed) around.listing.objects) = 0 ∧
      ∀ state, (TwoCursors.run (mergeBody around base entry) (sort listed)
        around.listing.objects).result = .ok state →
        Traced.count counted (Traced.each (uploadLeftOver around base entry) state.1) = 0) :
    Traced.count counted (syncWith sort around rs entry) = 0 := by
  unfold syncWith
  apply Traced.count_bind_eq_zero _ (Traced.count_ask _ _)
  intro base _found
  apply Traced.count_bind_eq_zero _ (Traced.count_ask _ _)
  intro _unit _connected
  rw [enumerated, Traced.ask_ok_bind]
  split
  · exact Traced.count_pure _ _
  · rw [mergePages_listing, Traced.bind_assoc]
    apply Traced.count_bind_eq_zero _ (quiet base).1
    intro state walked
    rw [Traced.pure_bind]
    apply Traced.count_bind_eq_zero _ (Traced.count_ask _ _)
    intro _unit _ended
    exact (quiet base).2 state walked

/-- A file's place in the sorted sequence, away from all other files. -/
theorem split_sorted {before after : List Bytes} {localFile : Bytes}
    (distinct : (before ++ localFile :: after).Nodup) :
    (∀ other ∈ before ++ after, other ≠ localFile) ∧ localFile ∉ after := by
  obtain ⟨_beforeDistinct, restDistinct, disjoint⟩ := List.nodup_append.mp distinct
  have absent : localFile ∉ after := (List.nodup_cons.mp restDistinct).1
  refine ⟨?_, absent⟩
  intro other member
  rcases List.mem_append.mp member with inBefore | inAfter
  · exact disjoint other inBefore localFile List.mem_cons_self
  · rintro rfl
    exact absent inAfter

/-- A wanted file that is left over is queued once, and one that is not left
over is not queued by the left-over loop. -/
theorem count_leftOvers {leftOver : List Bytes} {localFile base}
    (distinct : leftOver.Nodup) (wanted : entry.shouldIgnoreFile localFile = false)
    (returned : (Traced.each (uploadLeftOver around base entry) leftOver).result = .ok ()) :
    Traced.count (uploads localFile) (Traced.each (uploadLeftOver around base entry) leftOver) =
      if localFile ∈ leftOver then 1 else 0 := by
  split
  · rename_i member
    obtain ⟨itemReturned, counts⟩ := Traced.count_each_of_nodup (uploads localFile) distinct
      member (fun other _member different => count_uploadLeftOver (Or.inl different)) returned
    rw [counts, count_uploadLeftOver_of_wanted wanted itemReturned]
  · rename_i absent
    apply Traced.count_each_eq_zero
    intro other member
    apply count_uploadLeftOver
    left
    rintro rfl
    exact absent member

/-- In a run that returns, a wanted file is queued once unless some round
moves past it in silence. -/
theorem count_sync_of_wanted (returned : (syncWith sort around rs entry).result = .ok ())
    (enumerated : around.tree.recursiveEntries entry.localDir = .ok listed)
    {before after : List Bytes} {localFile : Bytes}
    (sorted : sort listed = before ++ localFile :: after)
    (distinct : (sort listed).Nodup) (nonempty : listed ≠ [])
    (wanted : entry.shouldIgnoreFile localFile = false)
    (loud : ∀ base middle, (TwoCursors.run (mergeBody around base entry) before
        around.listing.objects).result = .ok ([], middle) →
      ∀ remote ∈ middle, ∀ advance, advance ≠ .right →
        (mergeBody around base entry localFile remote).result = .ok advance →
        Traced.count (uploads localFile) (mergeBody around base entry localFile remote) = 1) :
    Traced.count (uploads localFile) (syncWith sort around rs entry) = 1 := by
  obtain ⟨base, state, walked, leftOverDone, counts⟩ :=
    syncWith_returned returned enumerated nonempty
  have leftOverDistinct : state.1.Nodup :=
    distinct.sublist (TwoCursors.suffix_of_run walked).1.sublist
  rw [counts, count_leftOvers leftOverDistinct wanted leftOverDone]
  rw [sorted] at walked distinct ⊢
  obtain ⟨others, absent⟩ := split_sorted distinct
  rcases TwoCursors.count_run_of_single walked
    (fun item member remote _remoteMember =>
      count_mergeBody (Or.inl (Or.inl (others item member))))
    (fun remote _member moved => count_mergeBody_right moved localFile)
    with ⟨kept, nothing⟩ |
      ⟨passed, middle, beforeWalked, remote, member, advance, moved, bodyReturned, once⟩
  · rw [nothing, if_pos kept]
  · rw [once, loud base middle beforeWalked remote member advance moved bodyReturned,
      if_neg (fun kept => absent (passed.subset kept))]

/-- A regular file with contents that is not ignored and has no up-to-date
object. -/
structure NeedsUpload (around : SyncSurroundings) (entry : ConfigEntry) (localFile : Bytes) :
    Prop where
  regular : around.tree.isDirectory localFile = .ok false
  located : ∃ relative, around.tree.relative localFile entry.localDir = .ok relative
  wanted : entry.shouldIgnoreFile localFile = false
  filled : around.tree.fileSize localFile ≠ .ok 0
  stale : ∀ relative, around.tree.relative localFile entry.localDir = .ok relative →
    ∀ remote ∈ around.listing.objects,
      unJoinPaths entry.remoteDir remote.name = slash :: relative →
        ¬ UpToDate around localFile remote

theorem count_sync_of_needed (permutes : ∀ localFiles, (sort localFiles).Perm localFiles)
    (returned : (syncWith sort around rs entry).result = .ok ())
    (enumerated : around.tree.recursiveEntries entry.localDir = .ok listed)
    {localFile : Bytes} (member : localFile ∈ listed)
    (needed : NeedsUpload around entry localFile) :
    Traced.count (uploads localFile) (syncWith sort around rs entry) = 1 := by
  have distinct : (sort listed).Nodup :=
    (permutes listed).nodup_iff.mpr (LocalTree.nodup_of_entries enumerated)
  obtain ⟨before, after, sorted⟩ :=
    List.append_of_mem ((permutes listed).mem_iff.mpr member)
  obtain ⟨relative, located⟩ := needed.located
  apply count_sync_of_wanted returned enumerated sorted distinct (List.ne_nil_of_mem member)
    needed.wanted
  intro base middle beforeWalked remote remoteMember advance moved bodyReturned
  apply count_mergeBody_of_wanted needed.regular located needed.wanted needed.filled _
    bodyReturned moved
  intro same
  exact needed.stale relative located remote
    ((TwoCursors.suffix_of_run beforeWalked).2.subset remoteMember) same.symm

theorem each_needed_file_queued_once (permutes : ∀ localFiles, (sort localFiles).Perm localFiles)
    (returned : (syncWith sort around rs entry).result = .ok ())
    (enumerated : around.tree.recursiveEntries entry.localDir = .ok listed)
    {localFile relative : Bytes} (member : localFile ∈ listed)
    (regular : around.tree.isDirectory localFile = .ok false)
    (located : around.tree.relative localFile entry.localDir = .ok relative)
    (wanted : entry.shouldIgnoreFile localFile = false)
    (filled : around.tree.fileSize localFile ≠ .ok 0)
    (stale : ∀ remote ∈ around.listing.objects,
      unJoinPaths entry.remoteDir remote.name = slash :: relative →
        ¬ UpToDate around localFile remote) :
    Traced.count (uploads localFile) (syncWith sort around rs entry) = 1 := by
  apply count_sync_of_needed permutes returned enumerated member
  refine ⟨regular, ⟨relative, located⟩, wanted, filled, ?_⟩
  intro path again
  obtain rfl : relative = path := Except.ok.inj (located.symm.trans again)
  exact stale

end Runs

end Uploads

def firstSeconds (written : Bytes) : Except Failure Int :=
  match written.reverse with
  | digit :: before =>
      if before.reverse = text "1970-01-01 00:00:0" ∧ 48 ≤ digit ∧ digit ≤ 57 then
        .ok (fromTimeT (digit.toNat - 48))
      else .error (.runtimeError "bad date")
  | [] => .error (.runtimeError "bad date")

def sampleSurroundings (entries : List (Bytes × Option (Nat × Int)))
    (distinct : ((entries.map Prod.fst).map pathElements).Nodup)
    (pages : List (List RemoteObject)) : SyncSurroundings where
  tree := LocalTree.ofEntries entries distinct
  listing := ⟨pages, .ok ()⟩
  connect _host := .ok ()
  timeFromString := firstSeconds

/-- Two files in an order the listing does not have; one is newer than its
object. -/
def twoFiles : SyncSurroundings :=
  sampleSurroundings [(text "/d/b", some (1, 3)), (text "/d/a", some (1, 0))] (by decide)
    [[⟨text "i/a", text "1970-01-01T00:00:02"⟩], [⟨text "i/b", text "1970-01-01T00:00:02"⟩]]

theorem each_needed_file_queued_once_sample :
    Traced.count (uploads (text "/d/b")) (syncWith List.reverse twoFiles sampleAccount
      sampleEntry) = 1 := by
  have located : twoFiles.tree.relative (text "/d/b") sampleEntry.localDir =
      .ok (text "b") := rfl
  apply each_needed_file_queued_once (fun localFiles => localFiles.reverse_perm)
    (by decide) rfl (by decide) rfl located rfl (by decide)
  decide

end Cdnalizerd
