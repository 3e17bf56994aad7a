/-
Files that are up to date and the order of the walk.

The local files are sorted by path elements, the listing by the bytes of the
names.  An up-to-date file is spared exactly when its object has not been
passed by the time the walk arrives at it.
-/

import Cdnalizerd.Sync

namespace Cdnalizerd

open Library

/-! ### The two orders -/

theorem sortPaths_perm (localFiles : List Bytes) : (sortPaths localFiles).Perm localFiles :=
  List.perm_insertionSort _ localFiles

theorem sortPaths_pairwise (localFiles : List Bytes) :
    (sortPaths localFiles).Pairwise fun left right => pathElements left ≤ pathElements right := by
  unfold sortPaths
  apply List.pairwise_insertionSort

section Sorted

variable {tree : LocalTree} {root : Bytes} {listed before after : List Bytes} {localFile : Bytes}

theorem nodup_of_sorted (enumerated : tree.recursiveEntries root = .ok listed)
    (sorted : sortPaths listed = before ++ localFile :: after) :
    (before ++ localFile :: after).Nodup := by
  rw [← sorted]
  exact (sortPaths_perm listed).nodup_iff.mpr (LocalTree.nodup_of_entries enumerated)

theorem mem_sorted_iff (sorted : sortPaths listed = before ++ localFile :: after)
    (other : Bytes) : other ∈ before ++ localFile :: after ↔ other ∈ listed := by
  rw [← sorted]
  exact (sortPaths_perm listed).mem_iff

end Sorted

theorem mem_before_iff {tree : LocalTree} {root : Bytes} {listed before after : List Bytes}
    {localFile : Bytes} (enumerated : tree.recursiveEntries root = .ok listed)
    (sorted : sortPaths listed = before ++ localFile :: after) (other : Bytes) :
    other ∈ before ↔ other ∈ listed ∧ pathElements other < pathElements localFile := by
  have listedIff := mem_sorted_iff sorted
  have distinct := nodup_of_sorted enumerated sorted
  have pairwise := sortPaths_pairwise listed
  rw [sorted] at pairwise
  obtain ⟨_beforeOrdered, restOrdered, across⟩ := List.pairwise_append.mp pairwise
  constructor
  · intro member
    have otherListed := (listedIff other).mp (List.mem_append_left _ member)
    have fileListed := (listedIff localFile).mp
      (List.mem_append_right before List.mem_cons_self)
    refine ⟨otherListed, lt_of_le_of_ne (across other member localFile List.mem_cons_self) ?_⟩
    intro same
    exact (split_sorted distinct).1 other (List.mem_append_left after member)
      (LocalTree.pathElements_injOn enumerated otherListed fileListed same)
  · intro ⟨otherListed, smaller⟩
    rcases List.mem_append.mp ((listedIff other).mpr otherListed) with inBefore | inRest
    · exact inBefore
    · rcases List.mem_cons.mp inRest with same | inAfter
      · rw [same] at smaller
        exact absurd smaller (lt_irrefl _)
      · exact absurd ((List.pairwise_cons.mp restOrdered).1 other inAfter)
          (not_le.mpr smaller)

theorem unJoinPaths_lt {base left right : Bytes} (ordered : left < right)
    (leftBehind : unJoinPaths base left ≠ []) (rightBehind : unJoinPaths base right ≠ []) :
    unJoinPaths base left < unJoinPaths base right := by
  have leftSplit := (unJoinPaths_eq_iff leftBehind).mp rfl
  have rightSplit := (unJoinPaths_eq_iff rightBehind).mp rfl
  rw [leftSplit, rightSplit] at ordered
  by_contra notLess
  rcases lt_or_eq_of_le (not_lt.mp notLess) with greater | same
  · exact lt_asymm ordered (List.append_left_lt greater)
  · rw [same] at ordered
    exact lt_irrefl _ ordered

theorem ne_nil_of_lt {smaller larger : Bytes} (less : smaller < larger) : larger ≠ [] := by
  rintro rfl
  exact List.not_lt_nil smaller less

/-! ### Whether an object is still ahead -/

section Order

variable {around : SyncSurroundings} {entry : ConfigEntry} {rs : Rackspace}
  {listed : List Bytes}

/-- No regular file that is walked before the given one moves the remote cursor
past the object. -/
def StillAhead (around : SyncSurroundings) (entry : ConfigEntry) (listed : List Bytes)
    (localFile : Bytes) (remote : RemoteObject) : Prop :=
  ∀ other ∈ listed, pathElements other < pathElements localFile →
    around.tree.isDirectory other = .ok false →
    ∀ relative, around.tree.relative other entry.localDir = .ok relative →
      slash :: relative < unJoinPaths entry.remoteDir remote.name

theorem left_of_stillAhead {base : URL} {localFile other : Bytes} {remote : RemoteObject}
    (ahead : StillAhead around entry listed localFile remote) (member : other ∈ listed)
    (smaller : pathElements other < pathElements localFile) {advance : TwoCursors.Advance}
    (returned : (mergeBody around base entry other remote).result = .ok advance) :
    advance = .left := by
  rcases mergeBody_returned returned with ⟨_directory, moved⟩ | ⟨regular, relative, located⟩
  · exact moved
  · have less := ahead other member smaller regular relative located
    cases advance with
    | left => rfl
    | right => exact absurd (mergeBody_right regular located returned).1 (lt_asymm less)
    | both => exact absurd (mergeBody_both regular located returned) (ne_of_lt less)

/-- A file is not queued, in no run at all, if the walk arrives at it while an
object is ahead that stops the walk quietly. -/
theorem count_sync_of_stop
    (enumerated : around.tree.recursiveEntries entry.localDir = .ok listed)
    (ordered : around.listing.objects.Pairwise fun left right => left.name < right.name)
    {localFile relative : Bytes} (member : localFile ∈ listed)
    (regular : around.tree.isDirectory localFile = .ok false)
    (located : around.tree.relative localFile entry.localDir = .ok relative)
    {stop : RemoteObject} (stopListed : stop ∈ around.listing.objects)
    (ahead : StillAhead around entry listed localFile stop)
    (reached : slash :: relative ≤ unJoinPaths entry.remoteDir stop.name)
    (quiet : ∀ base, ∀ remote ∈ around.listing.objects,
      remote = stop ∨ remote.name < stop.name →
        Traced.count (uploads localFile) (mergeBody around base entry localFile remote) = 0) :
    Traced.count (uploads localFile) (syncOneConfigEntry around rs entry) = 0 := by
  obtain ⟨before, after, sorted⟩ :=
    List.append_of_mem ((sortPaths_perm listed).mem_iff.mpr member)
  have distinct := nodup_of_sorted enumerated sorted
  obtain ⟨others, absent⟩ := split_sorted distinct
  apply count_syncWith_eq_zero enumerated
  intro base
  rw [sorted]
  have walk := @TwoCursors.count_run_of_stop _ _ _ _ (mergeBody around base entry)
    (uploads localFile) _ before after localFile _ ordered stop stopListed
    (fun item itemMember remote _remoteMember =>
      count_mergeBody (Or.inl (Or.inl (others item itemMember))))
    (fun item itemMember advance returned => by
      obtain ⟨itemListed, smaller⟩ := (mem_before_iff enumerated sorted item).mp itemMember
      exact left_of_stillAhead ahead itemListed smaller returned)
    (fun returned => absurd reached
      (not_le.mpr (mergeBody_right regular located returned).1))
    (quiet base)
  refine ⟨walk.1, ?_⟩
  intro state walked
  apply Traced.count_each_eq_zero
  intro other otherMember
  apply count_uploadLeftOver
  left
  rintro rfl
  exact absent ((walk.2 state walked).subset otherMember)

theorem count_sync_of_ignored
    (enumerated : around.tree.recursiveEntries entry.localDir = .ok listed) {localFile : Bytes}
    (rejected : entry.shouldIgnoreFile localFile = true) :
    Traced.count (uploads localFile) (syncOneConfigEntry around rs entry) = 0 := by
  have spared (other : Bytes) : NotQueued entry localFile other := by
    by_cases same : other = localFile
    · exact Or.inr (same ▸ rejected)
    · exact Or.inl same
  apply count_syncWith_eq_zero enumerated
  intro base
  constructor
  · apply TwoCursors.count_run_eq_zero
    intro other _member remote _remoteMember
    exact count_mergeBody (Or.inl (spared other))
  · intro state _walked
    apply Traced.count_each_eq_zero
    intro other _member
    exact count_uploadLeftOver (spared other)

theorem count_mergeBody_of_up_to_date {base : URL} {localFile relative : Bytes}
    {remote : RemoteObject} (regular : around.tree.isDirectory localFile = .ok false)
    (located : around.tree.relative localFile entry.localDir = .ok relative)
    (same : unJoinPaths entry.remoteDir remote.name = slash :: relative)
    (upToDate : UpToDate around localFile remote) :
    Traced.count (uploads localFile) (mergeBody around base entry localFile remote) = 0 := by
  rw [mergeBody_of_regular regular located, if_pos same.symm]
  apply Traced.count_bind_eq_zero
  · exact count_uploadIfNewer (Or.inr (Or.inr upToDate)) (slash :: relative)
  · intro _unit _queued
    exact Traced.count_pure _ _

theorem count_mergeBody_of_smaller {base : URL} {localFile relative : Bytes}
    {remote : RemoteObject} (regular : around.tree.isDirectory localFile = .ok false)
    (located : around.tree.relative localFile entry.localDir = .ok relative)
    (smaller : unJoinPaths entry.remoteDir remote.name < slash :: relative) :
    Traced.count (uploads localFile) (mergeBody around base entry localFile remote) = 0 := by
  rw [mergeBody_of_regular regular located, if_neg (ne_of_gt smaller),
    if_neg (lt_asymm smaller)]
  exact Traced.count_pure _ _

theorem key_lt_of_name_lt {left right : RemoteObject} {key : Bytes} (nonempty : key ≠ [])
    (ordered : left.name < right.name) (same : unJoinPaths entry.remoteDir right.name = key) :
    unJoinPaths entry.remoteDir left.name < key := by
  by_cases nothing : unJoinPaths entry.remoteDir left.name = []
  · obtain ⟨byte, rest, split⟩ := List.exists_cons_of_ne_nil nonempty
    rw [nothing, split]
    exact List.nil_lt_cons byte rest
  · rw [← same]
    exact unJoinPaths_lt ordered nothing (same ▸ nonempty)

/-- The objects left over by the files before a given one are behind none of
them. -/
theorem stillAhead_of_walked {base : URL} {before after : List Bytes} {localFile : Bytes}
    {middle : List RemoteObject}
    (enumerated : around.tree.recursiveEntries entry.localDir = .ok listed)
    (ordered : around.listing.objects.Pairwise fun left right => left.name < right.name)
    (sorted : sortPaths listed = before ++ localFile :: after)
    (walked : (TwoCursors.run (mergeBody around base entry) before
      around.listing.objects).result = .ok ([], middle)) {remote : RemoteObject}
    (member : remote ∈ middle) (named : unJoinPaths entry.remoteDir remote.name ≠ []) :
    StillAhead around entry listed localFile remote := by
  intro other otherListed smaller regular relative located
  have otherBefore : other ∈ before :=
    (mem_before_iff enumerated sorted other).mpr ⟨otherListed, smaller⟩
  -- An object behind the one a file stops at has no smaller name, or none at all.
  have later {second third : RemoteObject} (less : second.name < third.name)
      (key : unJoinPaths entry.remoteDir second.name ≠ []) :
      unJoinPaths entry.remoteDir third.name ≠ [] →
        unJoinPaths entry.remoteDir second.name < unJoinPaths entry.remoteDir third.name :=
    fun thirdNamed => unJoinPaths_lt less key thirdNamed
  have passed := @TwoCursors.passed_of_run _ _ _ _ (mergeBody around base entry)
    (fun left right => left.name < right.name)
    (fun first second => ∀ relative, around.tree.isDirectory first = .ok false →
      around.tree.relative first entry.localDir = .ok relative →
      unJoinPaths entry.remoteDir second.name ≠ [] →
        slash :: relative < unJoinPaths entry.remoteDir second.name)
    before around.listing.objects ([], middle) walked ordered
    (fun first _firstMember second _secondMember returned => by
      constructor
      · intro path firstRegular firstLocated _named
        exact mergeBody_left firstRegular firstLocated returned
      · intro third less path firstRegular firstLocated thirdNamed
        have here := mergeBody_left firstRegular firstLocated returned
        exact here.trans (later less (ne_nil_of_lt here) thirdNamed))
    (fun first _firstMember second _secondMember returned third less path firstRegular
        firstLocated thirdNamed => by
      have here := mergeBody_both firstRegular firstLocated returned
      have key : unJoinPaths entry.remoteDir second.name ≠ [] := by
        rw [← here]
        exact List.cons_ne_nil slash path
      rw [here]
      exact later less key thirdNamed)
  rcases passed other otherBefore with leftOver | behind
  · cases leftOver
  · exact behind remote member relative regular located named

theorem count_sync_of_ahead
    (enumerated : around.tree.recursiveEntries entry.localDir = .ok listed)
    (ordered : around.listing.objects.Pairwise fun left right => left.name < right.name)
    {localFile relative : Bytes} (member : localFile ∈ listed)
    (regular : around.tree.isDirectory localFile = .ok false)
    (located : around.tree.relative localFile entry.localDir = .ok relative)
    {object : RemoteObject} (objectListed : object ∈ around.listing.objects)
    (same : unJoinPaths entry.remoteDir object.name = slash :: relative)
    (upToDate : UpToDate around localFile object)
    (ahead : StillAhead around entry listed localFile object) :
    Traced.count (uploads localFile) (syncOneConfigEntry around rs entry) = 0 := by
  apply count_sync_of_stop enumerated ordered member regular located objectListed ahead
    (le_of_eq same.symm)
  intro base remote _remoteListed place
  rcases place with itself | smaller
  · rw [itself]
    exact count_mergeBody_of_up_to_date regular located same upToDate
  · exact count_mergeBody_of_smaller regular located
      (key_lt_of_name_lt (List.cons_ne_nil slash relative) smaller same)

/-- The walk of a run that returns stops at no object that would spare the file. -/
theorem count_sync_of_unspared
    (enumerated : around.tree.recursiveEntries entry.localDir = .ok listed)
    (ordered : around.listing.objects.Pairwise fun left right => left.name < right.name)
    {localFile relative : Bytes} (member : localFile ∈ listed)
    (regular : around.tree.isDirectory localFile = .ok false)
    (located : around.tree.relative localFile entry.localDir = .ok relative)
    (returned : (syncOneConfigEntry around rs entry).result = .ok ())
    (wanted : entry.shouldIgnoreFile localFile = false)
    (passed : ∀ remote ∈ around.listing.objects,
      unJoinPaths entry.remoteDir remote.name = slash :: relative →
        ¬ StillAhead around entry listed localFile remote)
    (passedByEmpty : around.tree.fileSize localFile = .ok 0 →
      ∀ remote ∈ around.listing.objects, ¬ StillAhead around entry listed localFile remote) :
    Traced.count (uploads localFile) (syncOneConfigEntry around rs entry) = 1 := by
  obtain ⟨before, after, sorted⟩ :=
    List.append_of_mem ((sortPaths_perm listed).mem_iff.mpr member)
  have distinct : (sortPaths listed).Nodup :=
    (sortPaths_perm listed).nodup_iff.mpr (LocalTree.nodup_of_entries enumerated)
  apply count_sync_of_wanted returned enumerated sorted distinct (List.ne_nil_of_mem member) wanted
  intro base middle walked remote remoteMember advance moved bodyReturned
  have notBehind : slash :: relative ≤ unJoinPaths entry.remoteDir remote.name := by
    cases advance with
    | left => exact le_of_lt (mergeBody_left regular located bodyReturned)
    | right => exact absurd rfl moved
    | both => exact le_of_eq (mergeBody_both regular located bodyReturned)
  have named : unJoinPaths entry.remoteDir remote.name ≠ [] := by
    intro unnamed
    rw [unnamed] at notBehind
    exact absurd (List.nil_lt_cons slash relative) (not_lt.mpr notBehind)
  have ahead := stillAhead_of_walked enumerated ordered sorted walked remoteMember named
  have remoteListed : remote ∈ around.listing.objects :=
    (TwoCursors.suffix_of_run walked).2.subset remoteMember
  apply count_mergeBody_of_wanted regular located wanted _ _ bodyReturned moved
  · intro empty
    exact passedByEmpty empty remote remoteListed ahead
  · intro own
    exact absurd ahead (passed remote remoteListed own.symm)

/-- A file with an up-to-date object is spared in every run if it is ignored,
if its object is still ahead when the walk arrives, or if it is empty and some
object is still ahead.  In a run that returns it is spared in no other case. -/
theorem up_to_date_file_spared_iff
    (enumerated : around.tree.recursiveEntries entry.localDir = .ok listed)
    (ordered : around.listing.objects.Pairwise fun left right => left.name < right.name)
    {localFile relative : Bytes} (member : localFile ∈ listed)
    (regular : around.tree.isDirectory localFile = .ok false)
    (located : around.tree.relative localFile entry.localDir = .ok relative)
    {object : RemoteObject} (objectListed : object ∈ around.listing.objects)
    (same : unJoinPaths entry.remoteDir object.name = slash :: relative)
    (upToDate : UpToDate around localFile object) :
    ((entry.shouldIgnoreFile localFile = true ∨
        StillAhead around entry listed localFile object ∨
        around.tree.fileSize localFile = .ok 0 ∧
          ∃ other ∈ around.listing.objects, StillAhead around entry listed localFile other) →
      Traced.count (uploads localFile) (syncOneConfigEntry around rs entry) = 0) ∧
    ((syncOneConfigEntry around rs entry).result = .ok () →
      Traced.count (uploads localFile) (syncOneConfigEntry around rs entry) = 0 →
      (entry.shouldIgnoreFile localFile = true ∨
        StillAhead around entry listed localFile object ∨
        around.tree.fileSize localFile = .ok 0 ∧
          ∃ other ∈ around.listing.objects,
            StillAhead around entry listed localFile other)) := by
  -- Objects of the same name behind the remote directory are ahead together.
  have ahead_of_same {other : RemoteObject}
      (own : unJoinPaths entry.remoteDir other.name = slash :: relative)
      (ahead : StillAhead around entry listed localFile other) :
      StillAhead around entry listed localFile object := by
    intro earlier earlierListed smaller earlierRegular path earlierLocated
    rw [same, ← own]
    exact ahead earlier earlierListed smaller earlierRegular path earlierLocated
  constructor
  · rintro (rejected | ahead | ⟨empty, other, otherListed, otherAhead⟩)
    · exact count_sync_of_ignored enumerated rejected
    · exact count_sync_of_ahead enumerated ordered member regular located objectListed same
        upToDate ahead
    · by_cases reached : slash :: relative ≤ unJoinPaths entry.remoteDir other.name
      · apply count_sync_of_stop enumerated ordered member regular located otherListed
          otherAhead reached
        intro base remote _remoteListed _place
        exact count_mergeBody (Or.inr empty)
      · -- What is ahead of the files before is behind this file's own object.
        apply count_sync_of_ahead enumerated ordered member regular located objectListed same
          upToDate
        intro earlier earlierListed smaller earlierRegular path earlierLocated
        rw [same]
        exact (otherAhead earlier earlierListed smaller earlierRegular path
          earlierLocated).trans (not_le.mp reached)
  · intro returned nothing
    by_contra unspared
    obtain ⟨notIgnored, unsparedOrder⟩ := not_or.mp unspared
    obtain ⟨passed, unsparedEmpty⟩ := not_or.mp unsparedOrder
    have once : Traced.count (uploads localFile) (syncOneConfigEntry around rs entry) = 1 := by
      apply count_sync_of_unspared enumerated ordered member regular located returned
        (Bool.eq_false_iff.mpr notIgnored)
      · intro remote _remoteListed own ahead
        exact passed (ahead_of_same own ahead)
      · intro empty remote remoteListed ahead
        exact unsparedEmpty ⟨empty, remote, remoteListed, ahead⟩
    rw [once] at nothing
    cases nothing

end Order

def nestedFiles : SyncSurroundings :=
  sampleSurroundings
    [(text "/d/a.txt", some (1, 1)), (text "/d/a", none), (text "/d/a/b", some (1, 1))]
    (by decide)
    [[⟨text "i/a.txt", text "1970-01-01T00:00:02"⟩,
      ⟨text "i/a/b", text "1970-01-01T00:00:02"⟩]]

theorem up_to_date_file_spared_iff_sample :
    Traced.count (uploads (text "/d/a/b"))
      (syncOneConfigEntry nestedFiles sampleAccount sampleEntry) = 0 := by
  have located : nestedFiles.tree.relative (text "/d/a/b") sampleEntry.localDir =
      .ok (text "a/b") := rfl
  have listed : (⟨text "i/a/b", text "1970-01-01T00:00:02"⟩ : RemoteObject) ∈
      nestedFiles.listing.objects := by decide
  have ahead : StillAhead nestedFiles sampleEntry
      [text "/d/a.txt", text "/d/a", text "/d/a/b"] (text "/d/a/b")
      ⟨text "i/a/b", text "1970-01-01T00:00:02"⟩ := by
    intro other member smaller regular
    rcases List.mem_cons.mp member with rfl | inRest
    · exact absurd smaller (by decide)
    rcases List.mem_cons.mp inRest with rfl | inLast
    · exact absurd regular (by decide)
    · rw [List.mem_singleton.mp inLast] at smaller
      exact absurd smaller (lt_irrefl _)
  exact (up_to_date_file_spared_iff rfl (by decide) (by decide) (by decide) located
    listed (by decide) (by decide)).1 (Or.inr (Or.inl ahead))

/-- Both files are up to date, and one of them is queued: `/` is above `.` in
the names and below it in the elements. -/
theorem up_to_date_file_queued :
    nestedFiles.listing.objects.Pairwise (fun left right => left.name < right.name) ∧
      nestedFiles.tree.isDirectory (text "/d/a.txt") = .ok false ∧
      nestedFiles.tree.relative (text "/d/a.txt") sampleEntry.localDir = .ok (text "a.txt") ∧
      (∃ object ∈ nestedFiles.listing.objects,
        unJoinPaths sampleEntry.remoteDir object.name = slash :: text "a.txt" ∧
          UpToDate nestedFiles (text "/d/a.txt") object) ∧
      (syncOneConfigEntry nestedFiles sampleAccount sampleEntry).result = .ok () ∧
      Traced.count (uploads (text "/d/a.txt"))
        (syncOneConfigEntry nestedFiles sampleAccount sampleEntry) = 1 := by
  decide

end Cdnalizerd
