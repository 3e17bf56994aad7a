/-
A local path that a synchronisation cannot process.

Any call that throws for one path leaves both loops.  What was queued before
stays queued, and nothing that sorts behind the path is queued.
-/

import Cdnalizerd.SyncJobs
import Cdnalizerd.SyncOrder
import Cdnalizerd.Library.SortedByKey

namespace Cdnalizerd

open Library SortedByKey

/-! ### The tree without one path -/

def LocalTree.without (tree : LocalTree) (path : Bytes) : LocalTree where
  recursiveEntries root :=
    (tree.recursiveEntries root).map fun listed => listed.filter (· ≠ path)
  isDirectory := tree.isDirectory
  fileSize := tree.fileSize
  lastWriteTime := tree.lastWriteTime
  relative := tree.relative
  entriesDistinct := by
    intro root listed enumerated
    cases before : tree.recursiveEntries root with
    | error reason =>
        rw [before] at enumerated
        cases enumerated
    | ok entries =>
        rw [before] at enumerated
        rw [← Except.ok.inj enumerated]
        exact (tree.entriesDistinct root entries before).sublist
          (List.filter_sublist.map pathElements)

def SyncSurroundings.without (around : SyncSurroundings) (path : Bytes) : SyncSurroundings :=
  { around with tree := around.tree.without path }

theorem sortPaths_filter {tree : LocalTree} {root : Bytes} {listed : List Bytes}
    (enumerated : tree.recursiveEntries root = .ok listed) (keep : Bytes → Bool) :
    sortPaths (listed.filter keep) = (sortPaths listed).filter keep := by
  have kept := sortPaths_perm (listed.filter keep)
  apply eq_of_perm (kept.trans ((sortPaths_perm listed).filter keep).symm) _
    (sortPaths_pairwise _) ((sortPaths_pairwise listed).filter keep)
  rw [(kept.map pathElements).nodup_iff]
  exact (tree.entriesDistinct root listed enumerated).sublist
    (List.filter_sublist.map pathElements)

/-! ### Where a run stops -/

/-- The files before a path are dealt with, and some call throws for the path. -/
structure StopsAt (around : SyncSurroundings) (base : URL) (entry : ConfigEntry)
    (before : List Bytes) (path : Bytes) : Prop where
  reached : (syncFiles around base entry before).result = .ok ()
  stopped : (syncFiles around base entry (before ++ [path])).result ≠ .ok ()

section Failures

variable {around : SyncSurroundings} {entry : ConfigEntry} {rs : Rackspace} {base : URL}
  {listed before after : List Bytes} {path : Bytes}

theorem count_syncFiles_append {more : List Bytes} {source : Bytes}
    (reached : (syncFiles around base entry before).result = .ok ())
    (others : ∀ item ∈ more, item ≠ source) :
    Traced.count (uploads source) (syncFiles around base entry (before ++ more)) =
      Traced.count (uploads source) (syncFiles around base entry before) := by
  apply TwoCursors.count_drain_append reached (Traced.count_ask _ _)
  · intro item member remote _remoteMember
    exact count_mergeBody (Or.inl (Or.inl (others item member)))
  · intro item member
    exact count_uploadLeftOver (Or.inl (others item member))

theorem count_syncFiles_eq_zero {files : List Bytes} {source : Bytes}
    (others : ∀ item ∈ files, item ≠ source) :
    Traced.count (uploads source) (syncFiles around base entry files) = 0 := by
  apply TwoCursors.count_drain_eq_zero (Traced.count_ask _ _)
  · intro item member remote _remoteMember
    exact count_mergeBody (Or.inl (Or.inl (others item member)))
  · intro item member
    exact count_uploadLeftOver (Or.inl (others item member))

theorem listed_without (enumerated : around.tree.recursiveEntries entry.localDir = .ok listed) :
    (around.without path).tree.recursiveEntries entry.localDir =
      .ok (listed.filter (· ≠ path)) := by
  change (around.tree.recursiveEntries entry.localDir).map _ = _
  rw [enumerated]
  rfl

theorem sorted_without (enumerated : around.tree.recursiveEntries entry.localDir = .ok listed)
    (sorted : sortPaths listed = before ++ path :: after) :
    sortPaths (listed.filter (· ≠ path)) = before ++ after := by
  have others := (split_sorted (nodup_of_sorted enumerated sorted)).1
  have kept : ∀ item ∈ before ++ after, decide (item ≠ path) = true :=
    fun item member => decide_eq_true (others item member)
  rw [sortPaths_filter enumerated, sorted, List.filter_append,
    List.filter_cons_of_neg (by simp), ← List.filter_append]
  exact List.filter_eq_self.mpr kept

theorem sync_of_stops (found : rs.getURL entry.region entry.snet = .ok base)
    (connected : around.connect base.host = .ok ())
    (enumerated : around.tree.recursiveEntries entry.localDir = .ok listed)
    (sorted : sortPaths listed = before ++ path :: after)
    (stops : StopsAt around base entry before path) :
    syncOneConfigEntry around rs entry = syncFiles around base entry (before ++ [path]) := by
  have member := (mem_sorted_iff sorted path).mp
    (List.mem_append_right before List.mem_cons_self)
  rw [sync_eq_syncFiles found connected enumerated (List.ne_nil_of_mem member), sorted]
  exact TwoCursors.drain_stops stops.reached stops.stopped after

theorem count_of_stops_before (distinct : (before ++ path :: after).Nodup)
    (stops : StopsAt around base entry before path) {other : Bytes} (member : other ∈ before) :
    Traced.count (uploads other) (syncFiles around base entry (before ++ [path])) =
      Traced.count (uploads other) (syncFiles around base entry (before ++ after)) := by
  obtain ⟨_beforeDistinct, _restDistinct, disjoint⟩ := List.nodup_append.mp distinct
  have apart : ∀ item ∈ path :: after, item ≠ other :=
    fun item itemMember => (disjoint other member item itemMember).symm
  rw [count_syncFiles_append stops.reached, count_syncFiles_append stops.reached]
  · exact fun item itemMember => apart item (List.mem_cons_of_mem path itemMember)
  · intro item itemMember
    rw [List.mem_singleton.mp itemMember]
    exact apart path List.mem_cons_self

theorem count_of_stops_after (distinct : (before ++ path :: after).Nodup) {other : Bytes}
    (member : other ∈ after) :
    Traced.count (uploads other) (syncFiles around base entry (before ++ [path])) = 0 := by
  obtain ⟨_beforeDistinct, restDistinct, disjoint⟩ := List.nodup_append.mp distinct
  apply count_syncFiles_eq_zero
  intro item itemMember
  rcases List.mem_append.mp itemMember with inBefore | itself
  · exact disjoint item inBefore other (List.mem_cons_of_mem path member)
  · rw [List.mem_singleton.mp itself]
    rintro rfl
    exact (List.nodup_cons.mp restDistinct).1 member

/-- Where one path cannot be processed and all others can, the files before it
keep their jobs and the files behind it lose them.  So every other file that
needs an upload has its job exactly if no such file sorts behind the path. -/
theorem other_files_queued_iff
    (enumerated : around.tree.recursiveEntries entry.localDir = .ok listed)
    (sorted : sortPaths listed = before ++ path :: after)
    (found : rs.getURL entry.region entry.snet = .ok base)
    (stops : StopsAt around base entry before path)
    (others : (syncOneConfigEntry (around.without path) rs entry).result = .ok ()) :
    (∀ other ∈ before,
      Traced.count (uploads other) (syncOneConfigEntry around rs entry) =
        Traced.count (uploads other) (syncOneConfigEntry (around.without path) rs entry)) ∧
    (∀ other ∈ after,
      Traced.count (uploads other) (syncOneConfigEntry around rs entry) = 0) ∧
    ((∀ other ∈ listed, other ≠ path → NeedsUpload around entry other →
      Traced.count (uploads other) (syncOneConfigEntry around rs entry) =
        Traced.count (uploads other) (syncOneConfigEntry (around.without path) rs entry)) ↔
      ∀ other ∈ after, ¬ NeedsUpload around entry other) := by
  have distinct := nodup_of_sorted enumerated sorted
  have apart := (split_sorted distinct).1
  have listedIff := mem_sorted_iff sorted
  obtain ⟨start, again, connected⟩ := begun_of_returned others
  obtain rfl : base = start := Except.ok.inj (found.symm.trans again)
  have stopped : syncOneConfigEntry around rs entry =
      syncFiles around base entry (before ++ [path]) :=
    sync_of_stops found connected enumerated sorted stops
  have remains {other : Bytes} (member : other ∈ before ++ after) :
      other ∈ listed.filter (· ≠ path) := by
    rw [← sorted_without enumerated sorted] at member
    exact (sortPaths_perm _).mem_iff.mp member
  have kept : ∀ other ∈ before,
      Traced.count (uploads other) (syncOneConfigEntry around rs entry) =
        Traced.count (uploads other)
          (syncOneConfigEntry (around.without path) rs entry) := by
    intro other member
    have remaining := List.ne_nil_of_mem (remains (List.mem_append_left after member))
    rw [stopped, sync_eq_syncFiles found connected (listed_without enumerated) remaining,
      sorted_without enumerated sorted]
    exact count_of_stops_before distinct stops member
  have lost : ∀ other ∈ after,
      Traced.count (uploads other) (syncOneConfigEntry around rs entry) = 0 := by
    intro other member
    rw [stopped]
    exact count_of_stops_after distinct member
  refine ⟨kept, lost, ?_, ?_⟩
  · intro same other member needed
    have inRest := List.mem_append_right before member
    have otherListed := (listedIff other).mp
      (List.mem_append_right before (List.mem_cons_of_mem path member))
    have once : Traced.count (uploads other)
        (syncOneConfigEntry (around.without path) rs entry) = 1 := by
      apply count_sync_of_needed sortPaths_perm others (listed_without enumerated)
        (remains inRest)
      exact ⟨needed.regular, needed.located, needed.wanted, needed.filled, needed.stale⟩
    rw [← same other otherListed (apart other inRest) needed, lost other member] at once
    cases once
  · intro none other member otherNe needed
    rcases List.mem_append.mp ((listedIff other).mpr member) with inBefore | inRest
    · exact kept other inBefore
    · rcases List.mem_cons.mp inRest with itself | inAfter
      · exact absurd itself otherNe
      · exact absurd needed (none other inAfter)

end Failures

/-- Three files, of which `b` is a symbolic link to nothing. -/
def danglingLink : SyncSurroundings :=
  let around := sampleSurroundings
    [(text "/d/a", some (1, 1)), (text "/d/b", some (1, 1)), (text "/d/c", some (1, 1))]
    (by decide) [[⟨text "i/z", text "1970-01-01T00:00:02"⟩]]
  let missing (path : Bytes) := path = text "/d/b"
  { around with
    tree := { around.tree with
      fileSize := fun path =>
        if missing path then .error (.systemError 2) else around.tree.fileSize path
      lastWriteTime := fun path =>
        if missing path then .error (.systemError 2) else around.tree.lastWriteTime path } }

theorem other_files_queued_iff_sample :
    Traced.count (uploads (text "/d/a"))
        (syncOneConfigEntry danglingLink sampleAccount sampleEntry) =
      Traced.count (uploads (text "/d/a"))
        (syncOneConfigEntry (danglingLink.without (text "/d/b")) sampleAccount sampleEntry) := by
  have sorted : sortPaths [text "/d/a", text "/d/b", text "/d/c"] =
      [text "/d/a"] ++ text "/d/b" :: [text "/d/c"] := by
    decide
  have stops : StopsAt danglingLink sampleBase sampleEntry [text "/d/a"] (text "/d/b") :=
    ⟨by decide, by decide⟩
  exact (other_files_queued_iff rfl sorted (by decide) stops (by decide)).1
    (text "/d/a") List.mem_cons_self

/-- With the link in the tree `c` has no job, and without it `c` has one. -/
theorem later_file_not_queued :
    danglingLink.tree.isDirectory (text "/d/b") = .ok false ∧
      danglingLink.tree.fileSize (text "/d/b") = .error (.systemError 2) ∧
      (syncOneConfigEntry (danglingLink.without (text "/d/b")) sampleAccount
        sampleEntry).result = .ok () ∧
      Traced.count (uploads (text "/d/c"))
        (syncOneConfigEntry (danglingLink.without (text "/d/b")) sampleAccount
          sampleEntry) = 1 ∧
      Traced.count (uploads (text "/d/c"))
        (syncOneConfigEntry danglingLink sampleAccount sampleEntry) = 0 := by
  decide

end Cdnalizerd
