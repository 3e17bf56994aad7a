/-
The files that a synchronisation queues, and what was asked about them.

Both branches of the merge loop ask for the kind and the size of a file before
they queue it.  The left-over loop asks for neither, so a directory or an empty
file is queued where the listing has been used up.
-/

import Cdnalizerd.SyncJobs
import Cdnalizerd.SyncOrder

namespace Cdnalizerd

open Library

/-! ### What is left over -/

section Sources

variable (around : SyncSurroundings) (entry : ConfigEntry)

def Passed (localFile : Bytes) (remote : RemoteObject) : Prop :=
  around.tree.isDirectory localFile = .ok false ∧
    ∃ relative, around.tree.relative localFile entry.localDir = .ok relative ∧
      unJoinPaths entry.remoteDir remote.name < slash :: relative

def SameName (localFile : Bytes) (remote : RemoteObject) : Prop :=
  around.tree.isDirectory localFile = .ok false ∧
    ∃ relative, around.tree.relative localFile entry.localDir = .ok relative ∧
      unJoinPaths entry.remoteDir remote.name = slash :: relative

/-- The files before this one can use up the listing, but for objects that it
passes itself. -/
def LeftOver (before : List Bytes) (localFile : Bytes) : Prop :=
  ∃ taken rest, around.listing.objects = taken ++ rest ∧
    TwoCursors.UsedUp (Passed around entry) (SameName around entry) before taken ∧
    ∀ remote ∈ rest, Passed around entry localFile remote

def DirectoryOrEmpty (localFile : Bytes) : Prop :=
  around.tree.isDirectory localFile = .ok true ∨ around.tree.fileSize localFile = .ok 0

/-- Every directory and every empty file has an object ahead, or is ignored. -/
def ObjectsAhead : Prop :=
  ∀ listed before localFile after, around.tree.recursiveEntries entry.localDir = .ok listed →
    sortPaths listed = before ++ localFile :: after → DirectoryOrEmpty around localFile →
      entry.shouldIgnoreFile localFile = false → ¬ LeftOver around entry before localFile

def SourcesChecked (rs : Rackspace) : Prop :=
  ∀ source dest, Request.addJob (.upload source dest) ∈
      (syncOneConfigEntry around rs entry).trace →
    ¬ DirectoryOrEmpty around source ∧ entry.shouldIgnoreFile source = false

variable {around entry} {base : URL} {rs : Rackspace} {listed : List Bytes}

theorem mergeBody_decides :
    TwoCursors.Decides (mergeBody around base entry) (Passed around entry)
      (SameName around entry) := by
  constructor
  · intro localFile remote advance returned
    constructor
    · rintro rfl
      rcases mergeBody_returned returned with ⟨_directory, wrong⟩ | ⟨regular, relative, located⟩
      · cases wrong
      · exact ⟨regular, relative, located, (mergeBody_right regular located returned).1⟩
    · intro ⟨regular, relative, located, passed⟩
      cases advance with
      | right => rfl
      | left => exact absurd (mergeBody_left regular located returned) (lt_asymm passed)
      | both => exact absurd (mergeBody_both regular located returned) (ne_of_gt passed)
  · intro localFile remote advance returned
    constructor
    · rintro rfl
      rcases mergeBody_returned returned with ⟨_directory, wrong⟩ | ⟨regular, relative, located⟩
      · cases wrong
      · exact ⟨regular, relative, located, (mergeBody_both regular located returned).symm⟩
    · intro ⟨regular, relative, located, same⟩
      cases advance with
      | both => rfl
      | left => exact absurd same (ne_of_gt (mergeBody_left regular located returned))
      | right => exact absurd same (ne_of_lt (mergeBody_right regular located returned).1)

theorem leftOver_iff (enumerated : around.tree.recursiveEntries entry.localDir = .ok listed)
    {before after : List Bytes} {localFile : Bytes}
    (sorted : sortPaths listed = before ++ localFile :: after)
    {state : List Bytes × List RemoteObject}
    (walked : (TwoCursors.run (mergeBody around base entry) (sortPaths listed)
      around.listing.objects).result = .ok state) :
    localFile ∈ state.1 ↔ LeftOver around entry before localFile := by
  have distinct := nodup_of_sorted enumerated sorted
  rw [sorted] at walked
  exact TwoCursors.left_over_iff mergeBody_decides (split_sorted distinct).2 walked

/-! ### Where the jobs of a run come from -/

theorem source_of_queued {localFile source localRelativePath : Bytes} {dest : URL}
    (member : Request.addJob (.upload source dest) ∈
      (queueUpload base entry localFile localRelativePath).trace) :
    localFile = source ∧ entry.shouldIgnoreFile localFile = false := by
  obtain ⟨wanted, _url, _built, same⟩ := mem_queueUpload_iff.mp member
  injection same with sameJob
  injection sameJob with sameFile _sameURL
  exact ⟨sameFile.symm, wanted⟩

theorem checked_of_walk {files : List Bytes} {remotes : List RemoteObject} {source : Bytes}
    {dest : URL} (member : Request.addJob (.upload source dest) ∈
      (TwoCursors.run (mergeBody around base entry) files remotes).trace) :
    ¬ DirectoryOrEmpty around source ∧ entry.shouldIgnoreFile source = false := by
  obtain ⟨localFile, _localMember, remote, _remoteMember, inRound⟩ :=
    TwoCursors.mem_run member
  obtain ⟨regular, filled, relative, _located, queued⟩ := mem_mergeBody inRound
  obtain ⟨rfl, wanted⟩ := source_of_queued queued
  refine ⟨?_, wanted⟩
  rintro (directory | empty)
  · rw [regular] at directory
    cases directory
  · exact filled empty

theorem source_of_leftOvers {leftOver : List Bytes} {source : Bytes} {dest : URL}
    (member : Request.addJob (.upload source dest) ∈
      (Traced.each (uploadLeftOver around base entry) leftOver).trace) :
    source ∈ leftOver ∧ entry.shouldIgnoreFile source = false := by
  obtain ⟨localFile, localMember, inRound⟩ := Traced.mem_each member
  rcases mem_uploadLeftOver inRound with wrong | ⟨relative, _located, queued⟩
  · cases wrong
  · obtain ⟨rfl, wanted⟩ := source_of_queued queued
    exact ⟨localMember, wanted⟩

/-- The left-over loop asks only whether a file is ignored. -/
theorem queued_of_leftOver {leftOver : List Bytes} {localFile : Bytes}
    (returned : (Traced.each (uploadLeftOver around base entry) leftOver).result = .ok ())
    (member : localFile ∈ leftOver) (wanted : entry.shouldIgnoreFile localFile = false) :
    ∃ dest, Request.addJob (.upload localFile dest) ∈
      (Traced.each (uploadLeftOver around base entry) leftOver).trace := by
  obtain ⟨itemReturned, inside⟩ := Traced.item_of_each_returned returned member
  unfold uploadLeftOver queueUpload at itemReturned
  obtain ⟨_unit, _emitted, afterWorker⟩ :=
    Traced.bind_result_eq_ok_iff.mp itemReturned
  obtain ⟨relative, located, queued⟩ := Traced.bind_result_eq_ok_iff.mp afterWorker
  rw [if_neg (by rw [wanted]; exact Bool.false_ne_true)] at queued
  obtain ⟨dest, built, _emitted⟩ := Traced.bind_result_eq_ok_iff.mp queued
  refine ⟨dest, inside ?_⟩
  unfold uploadLeftOver
  apply Traced.mem_emit_bind_iff.mpr
  right
  apply Traced.mem_ask_bind_iff.mpr
  exact ⟨relative, located, mem_queueUpload_iff.mpr ⟨wanted, dest, built, rfl⟩⟩

theorem mem_sync_of_leftOver (returned : (syncOneConfigEntry around rs entry).result = .ok ())
    (enumerated : around.tree.recursiveEntries entry.localDir = .ok listed)
    {before after : List Bytes} {localFile : Bytes}
    (sorted : sortPaths listed = before ++ localFile :: after)
    (leftOver : LeftOver around entry before localFile)
    (wanted : entry.shouldIgnoreFile localFile = false) :
    ∃ dest, Request.addJob (.upload localFile dest) ∈
      (syncOneConfigEntry around rs entry).trace := by
  have member : localFile ∈ listed :=
    (mem_sorted_iff sorted localFile).mp (List.mem_append_right before List.mem_cons_self)
  obtain ⟨base, found, connected⟩ := begun_of_returned returned
  rw [sync_eq_syncFiles found connected enumerated (List.ne_nil_of_mem member)] at returned ⊢
  obtain ⟨state, walked, ended, finished⟩ := TwoCursors.drain_returned returned
  obtain ⟨dest, queued⟩ := queued_of_leftOver finished
    ((leftOver_iff enumerated sorted walked).mpr leftOver) wanted
  exact ⟨dest, mem_syncFiles_iff.mpr (Or.inr ⟨state, walked, ended, queued⟩)⟩

/-- Where every directory and every empty file has an object ahead, every job of
every run has a source that passes the three checks; and no run that returns
passes them otherwise. -/
theorem sources_checked_iff :
    (ObjectsAhead around entry → SourcesChecked around entry rs) ∧
      ((syncOneConfigEntry around rs entry).result = .ok () →
        SourcesChecked around entry rs → ObjectsAhead around entry) := by
  constructor
  · intro ahead source dest member
    obtain ⟨base, listed, enumerated, inLoops⟩ := mem_sync member
    rcases mem_syncFiles_iff.mp inLoops with inWalk | ⟨state, walked, _ended, inLoop⟩
    · exact checked_of_walk inWalk
    · obtain ⟨leftOver, wanted⟩ := source_of_leftOvers inLoop
      refine ⟨?_, wanted⟩
      intro unfit
      obtain ⟨before, after, sorted⟩ :=
        List.append_of_mem ((TwoCursors.suffix_of_run walked).1.subset leftOver)
      exact ahead listed before source after enumerated sorted unfit wanted
        ((leftOver_iff enumerated sorted walked).mp leftOver)
  · intro returned checked listed before localFile after enumerated sorted unfit wanted leftOver
    obtain ⟨dest, queued⟩ := mem_sync_of_leftOver returned enumerated sorted leftOver wanted
    exact (checked localFile dest queued).1 unfit

end Sources

def emptyDirectory : SyncSurroundings :=
  sampleSurroundings [(text "/d/a", none)] (by decide) [[]]

theorem directory_queued :
    emptyDirectory.tree.isDirectory (text "/d/a") = .ok true ∧
      sampleEntry.shouldIgnoreFile (text "/d/a") = false ∧
      (syncOneConfigEntry emptyDirectory sampleAccount sampleEntry).result = .ok () ∧
      Traced.count (uploads (text "/d/a"))
        (syncOneConfigEntry emptyDirectory sampleAccount sampleEntry) = 1 := by
  decide

end Cdnalizerd
