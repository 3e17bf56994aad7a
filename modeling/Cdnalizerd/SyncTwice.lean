/-
A synchronisation behind one whose jobs have been carried out.

The container is known by the listed time of every object.  A request of an attempt at
an upload puts its object there, if the server carries it out, and the next listing
shows the objects of the remote directory in the order of their names.
-/

import Cdnalizerd.FileNames
import Cdnalizerd.RequestLines
import Cdnalizerd.SyncJobs
import Cdnalizerd.SyncNames
import Cdnalizerd.SyncOrder
import Cdnalizerd.Library.Assignments

namespace Cdnalizerd

open Library Assignments

/-! ### The container -/

abbrev StoredTimes := Bytes → Option Bytes

/-- The name under which the object of a request's target is listed. -/
def objectName (base : URL) (container target : Bytes) : Bytes :=
  PercentCoding.decode (target.drop (objectsPath base container).length)

theorem objectName_eq {base url : URL} {container name : Bytes}
    (names : NamesObject url base container name) :
    objectName base container url.path = name := by
  obtain ⟨encoded, split, decoded⟩ := names
  unfold objectName
  rw [split, List.drop_left, decoded]

/-- A listing of the objects whose names begin with the remote directory. -/
structure ListsStored (entry : ConfigEntry) (stored : StoredTimes) (listing : Listing) :
    Prop where
  ordered : listing.objects.Pairwise fun left right => left.name < right.name
  listed : ∀ object, object ∈ listing.objects ↔
    stored object.name = some object.lastModified ∧ entry.remoteDir <+: object.name

def LocalTree.hasContents (tree : LocalTree) (localFile : Bytes) : Bool :=
  match tree.isDirectory localFile, tree.fileSize localFile with
  | .ok false, .ok size => 0 < size
  | _, _ => false

/-- What `makeUploadJob` makes of a file and its URL. -/
def uploadJob (upload : Bytes × URL) : Job :=
  .upload upload.1 upload.2

/-- An attempt at an upload, with the time that an object gets from it. -/
structure UploadAttempt where
  upload : Bytes × URL
  token : Bytes
  service : Service
  stamp : Bytes

namespace UploadAttempt

def Puts (attempt : UploadAttempt) (request : HttpRequest) : Prop :=
  .sent request ∈ ((uploadJob attempt.upload).go attempt.token attempt.service.around).trace ∧
    attempt.service.carriesOut request = true

def putTarget (service : Service) : Observation → Option Bytes
  | .sent request =>
      if request.verb = .put ∧ service.carriesOut request = true then some request.target else none
  | _ => none

/-- The objects that the attempt puts, with the time that they get. -/
def puts (base : URL) (container : Bytes) (attempt : UploadAttempt) : List (Bytes × Bytes) :=
  (((uploadJob attempt.upload).go attempt.token attempt.service.around).trace.filterMap
    (putTarget attempt.service)).map fun target => (objectName base container target, attempt.stamp)

theorem mem_puts_iff {base : URL} {container : Bytes} {attempt : UploadAttempt}
    {put : Bytes × Bytes} :
    put ∈ attempt.puts base container ↔ ∃ request, attempt.Puts request ∧ request.verb = .put ∧
      put = (objectName base container request.target, attempt.stamp) := by
  unfold puts Puts
  constructor
  · intro member
    obtain ⟨target, performed, rfl⟩ := List.mem_map.mp member
    obtain ⟨observed, inTrace, isPut⟩ := List.mem_filterMap.mp performed
    unfold putTarget at isPut
    split at isPut
    · rename_i request
      obtain ⟨⟨verb, carried⟩, same⟩ := Option.ite_none_right_eq_some.mp isPut
      obtain rfl := Option.some.inj same
      exact ⟨request, ⟨inTrace, carried⟩, verb, rfl⟩
    · cases isPut
  · intro performed
    obtain ⟨request, ⟨inTrace, carried⟩, verb, rfl⟩ := performed
    apply List.mem_map.mpr
    exact ⟨request.target, List.mem_filterMap.mpr ⟨_, inTrace, if_pos ⟨verb, carried⟩⟩, rfl⟩

/-- An attempt at an upload sends nothing but the file to its URL. -/
theorem Puts.eq_put {attempt : UploadAttempt} {request : HttpRequest}
    (puts : attempt.Puts request) :
    request.verb = .put ∧ request.target = attempt.upload.2.pathAndSearch := by
  obtain ⟨_filled, _etag, _size, _digested, rfl⟩ := put_of_upload (Or.inl rfl) puts.1
  exact ⟨rfl, rfl⟩

end UploadAttempt

def carryOut (base : URL) (container : Bytes) (attempts : List UploadAttempt)
    (stored : StoredTimes) : StoredTimes :=
  (attempts.flatMap (UploadAttempt.puts base container)).foldl
    (fun (times : StoredTimes) put => Function.update times put.1 (some put.2)) stored

/-- An object has the time of the last attempt that put it, or the one it had. -/
theorem carryOut_eq (base : URL) (container : Bytes) (attempts : List UploadAttempt)
    (stored : StoredTimes) (name : Bytes) :
    (∃ attempt ∈ attempts, objectName base container attempt.upload.2.pathAndSearch = name ∧
        carryOut base container attempts stored name = some attempt.stamp) ∨
      carryOut base container attempts stored name = stored name ∧
        ∀ attempt ∈ attempts, (∃ request, attempt.Puts request) →
          objectName base container attempt.upload.2.pathAndSearch ≠ name := by
  unfold carryOut
  rw [foldl_update Prod.fst Prod.snd]
  cases last : (attempts.flatMap (UploadAttempt.puts base container)).reverse.find?
      (fun put => put.1 = name) with
  | some put =>
      have member := List.mem_of_find?_eq_some last
      rw [List.mem_reverse] at member
      obtain ⟨attempt, tried, isPut⟩ := List.mem_flatMap.mp member
      obtain ⟨request, puts, _verb, rfl⟩ := UploadAttempt.mem_puts_iff.mp isPut
      have named := List.find?_some last
      rw [puts.eq_put.2] at named
      exact Or.inl ⟨attempt, tried, of_decide_eq_true named, rfl⟩
  | none =>
      refine Or.inr ⟨rfl, ?_⟩
      intro attempt tried putting named
      obtain ⟨request, puts⟩ := putting
      have isPut : (objectName base container request.target, attempt.stamp) ∈
          attempt.puts base container :=
        UploadAttempt.mem_puts_iff.mpr ⟨request, puts, puts.eq_put.1, rfl⟩
      have absent := List.find?_eq_none.mp last _
        (List.mem_reverse.mpr (List.mem_flatMap.mpr ⟨attempt, tried, isPut⟩))
      rw [puts.eq_put.2] at absent
      exact absent (decide_eq_true named)

/-! ### The jobs of a synchronisation -/

section Jobs

variable {around : SyncSurroundings} {rs : Rackspace} {entry : ConfigEntry} {base : URL}
  {listed : List Bytes} {localFile : Bytes}

theorem mem_uploadJobs_iff {run : Traced Failure Request Unit} {dest : URL} :
    (localFile, dest) ∈ uploadJobs run ↔ Request.addJob (.upload localFile dest) ∈ run.trace := by
  unfold uploadJobs
  rw [List.mem_filterMap]
  constructor
  · intro found
    obtain ⟨request, member, isUpload⟩ := found
    unfold Request.upload? at isUpload
    split at isUpload
    · obtain ⟨rfl, rfl⟩ := Prod.mk.inj (Option.some.inj isUpload)
      exact member
    · cases isUpload
  · intro member
    exact ⟨_, member, rfl⟩

theorem exists_upload_of_count {run : Traced Failure Request Unit}
    (counted : Traced.count (uploads localFile) run ≠ 0) :
    ∃ dest, (localFile, dest) ∈ uploadJobs run := by
  obtain ⟨request, member, isUpload⟩ := List.countP_pos_iff.mp (Nat.pos_of_ne_zero counted)
  unfold uploads at isUpload
  split at isUpload
  · rename_i source dest
    obtain rfl := of_decide_eq_true isUpload
    exact ⟨dest, mem_uploadJobs_iff.mpr member⟩
  · cases isUpload

theorem queued_of_mem {site : Bytes} {source : Bytes} {dest : URL}
    (member : Request.addJob (.upload source dest) ∈
      (queueUpload base entry localFile site).trace) :
    source = localFile ∧ entry.shouldIgnoreFile localFile = false ∧
      destination base entry.container entry.remoteDir site = .ok dest := by
  obtain ⟨wanted, url, built, same⟩ := mem_queueUpload_iff.mp member
  obtain ⟨rfl, rfl⟩ := Job.upload.inj (Request.addJob.inj same)
  exact ⟨rfl, wanted, built⟩

/-- A synchronisation of an empty directory asks for nothing. -/
theorem listed_ne_nil (enumerated : around.tree.recursiveEntries entry.localDir = .ok listed)
    {request : Request} (member : request ∈ (syncOneConfigEntry around rs entry).trace) :
    listed ≠ [] := by
  rintro rfl
  unfold syncOneConfigEntry syncWith at member
  obtain ⟨_base, _found, afterURL⟩ := Traced.mem_ask_bind_iff.mp member
  obtain ⟨_unit, _connected, afterConnect⟩ := Traced.mem_ask_bind_iff.mp afterURL
  rw [enumerated, Traced.ask_ok_bind, if_pos rfl] at afterConnect
  cases afterConnect

/-- The file of a job was listed and is not ignored, and the relative path that the
job was built from comes with a slash or without. -/
theorem built_of_upload (returned : (syncOneConfigEntry around rs entry).result = .ok ())
    (found : rs.getURL entry.region entry.snet = .ok base)
    (enumerated : around.tree.recursiveEntries entry.localDir = .ok listed) {dest : URL}
    (queued : (localFile, dest) ∈ uploadJobs (syncOneConfigEntry around rs entry)) :
    localFile ∈ listed ∧ entry.shouldIgnoreFile localFile = false ∧
      ∃ relative, around.tree.relative localFile entry.localDir = .ok relative ∧
        (destination base entry.container entry.remoteDir (slash :: relative) = .ok dest ∨
          destination base entry.container entry.remoteDir relative = .ok dest) := by
  obtain ⟨other, otherFound, connected⟩ := begun_of_returned returned
  obtain rfl := Except.ok.inj (found.symm.trans otherFound)
  have member := mem_uploadJobs_iff.mp queued
  rw [sync_eq_syncFiles found connected enumerated (listed_ne_nil enumerated member)] at member
  rcases mem_syncFiles_iff.mp member with walked | ⟨state, walked, _ended, left⟩
  · obtain ⟨file, fileMember, remote, _remoteMember, inBody⟩ := TwoCursors.mem_run walked
    obtain ⟨_regular, _filled, relative, located, inQueue⟩ := mem_mergeBody inBody
    obtain ⟨rfl, wanted, built⟩ := queued_of_mem inQueue
    exact ⟨(sortPaths_perm listed).mem_iff.mp fileMember, wanted, relative, located,
      Or.inl built⟩
  · obtain ⟨file, fileMember, inBody⟩ := Traced.mem_each left
    have inFiles := (TwoCursors.suffix_of_run walked).1.subset fileMember
    rcases mem_uploadLeftOver inBody with wrong | ⟨relative, located, inQueue⟩
    · cases wrong
    · obtain ⟨rfl, wanted, built⟩ := queued_of_mem inQueue
      exact ⟨(sortPaths_perm listed).mem_iff.mp inFiles, wanted, relative, located,
        Or.inr built⟩

/-- Both ways to build the URL name the object that the walk looks for. -/
theorem objectName_of_built (parsed : URL.parse base.raw = .ok base)
    (ordinary : question ∉ base.raw) (valid : entry.validate = true)
    (plain : stripSlashes entry.remoteDir = entry.remoteDir) {relative site : Bytes} {dest : URL}
    (site_ne : site ≠ []) (stripped : stripSlashes site = relative)
    (built : destination base entry.container entry.remoteDir site = .ok dest) :
    objectName base entry.container dest.pathAndSearch =
      entry.remoteDir ++ slash :: relative := by
  obtain ⟨container_ne, remoteDir_ne⟩ := ConfigEntry.names_ne_nil_of_validate valid
  obtain ⟨_proper, _clean, addresses⟩ :=
    clean_of_destination parsed ordinary container_ne remoteDir_ne site_ne built
  rw [addresses.pathAndSearch]
  apply objectName_eq
  rw [namesObject_iff addresses, plain, stripped]

end Jobs

/-! ### The second synchronisation -/

/-- The regular files come in the same order by their path elements, as they are
sorted, and by the bytes of their relative paths, as the objects are listed. -/
def OrdersAgree (tree : LocalTree) (entry : ConfigEntry) (listed : List Bytes) : Prop :=
  ∀ left ∈ listed, ∀ right ∈ listed, pathElements left < pathElements right →
    tree.isDirectory left = .ok false → tree.isDirectory right = .ok false →
      ∀ leftRelative rightRelative, tree.relative left entry.localDir = .ok leftRelative →
        tree.relative right entry.localDir = .ok rightRelative → leftRelative < rightRelative

def SyncSurroundings.withListing (around : SyncSurroundings) (listing : Listing) :
    SyncSurroundings :=
  { around with listing := listing }

section Second

variable {around : SyncSurroundings} {rs : Rackspace} {entry : ConfigEntry} {base : URL}
  {listed : List Bytes} {localFile relative : Bytes} {stored : StoredTimes}
  {attempts : List UploadAttempt} {later : Listing}

theorem LocalTree.regular_of_hasContents {tree : LocalTree} (filled : tree.hasContents localFile = true) :
    tree.isDirectory localFile = .ok false ∧ tree.fileSize localFile ≠ .ok 0 := by
  unfold LocalTree.hasContents at filled
  split at filled
  · rename_i size regular measured
    refine ⟨regular, ?_⟩
    intro empty
    obtain rfl := Except.ok.inj (measured.symm.trans empty)
    exact absurd (of_decide_eq_true filled) (Nat.lt_irrefl 0)
  · cases filled

/-- The attempts are at the jobs of the synchronisation, and for every file with
contents that has one, a request of an attempt has been carried out. -/
structure CarriedOut (around : SyncSurroundings) (rs : Rackspace) (entry : ConfigEntry)
    (attempts : List UploadAttempt) : Prop where
  among : ∀ attempt ∈ attempts,
    attempt.upload ∈ uploadJobs (syncOneConfigEntry around rs entry)
  accepted : ∀ upload ∈ uploadJobs (syncOneConfigEntry around rs entry),
    around.tree.hasContents upload.1 = true →
      ∃ attempt ∈ attempts, attempt.upload = upload ∧ ∃ request, attempt.Puts request

/-- Once the jobs are carried out, a file with contents has an object that is up
to date: its own job put it there, or it was there and no job made it older. -/
theorem stored_of_carried (returned : (syncOneConfigEntry around rs entry).result = .ok ())
    (found : rs.getURL entry.region entry.snet = .ok base) (ordinary : question ∉ base.raw)
    (valid : entry.validate = true)
    (plain : stripSlashes entry.remoteDir = entry.remoteDir)
    (enumerated : around.tree.recursiveEntries entry.localDir = .ok listed)
    (lists : ListsStored entry stored around.listing)
    (carried : CarriedOut around rs entry attempts)
    (late : ∀ attempt ∈ attempts, ∀ file ∈ listed, around.tree.hasContents file = true →
      ∀ name, UpToDate around file ⟨name, attempt.stamp⟩)
    (member : localFile ∈ listed) (filled : around.tree.hasContents localFile = true)
    (wanted : entry.shouldIgnoreFile localFile = false)
    (located : around.tree.relative localFile entry.localDir = .ok relative)
    (proper : FileSetting.ProperRelative relative) :
    ∃ time, carryOut base entry.container attempts stored
        (entry.remoteDir ++ slash :: relative) = some time ∧
      UpToDate around localFile ⟨entry.remoteDir ++ slash :: relative, time⟩ := by
  have parsed := Rackspace.parse_of_getURL found
  obtain ⟨regular, nonempty⟩ := LocalTree.regular_of_hasContents filled
  rcases carryOut_eq base entry.container attempts stored
      (entry.remoteDir ++ slash :: relative) with ⟨attempt, tried, _named, time⟩ |
      ⟨kept, untouched⟩
  · exact ⟨attempt.stamp, time, late attempt tried localFile member filled _⟩
  · rw [kept]
    by_contra missing
    have stale : ∀ remote ∈ around.listing.objects,
        unJoinPaths entry.remoteDir remote.name = slash :: relative →
          ¬ UpToDate around localFile remote := by
      intro remote remoteListed same upToDate
      have name := (unJoinPaths_eq_iff (List.cons_ne_nil slash relative)).mp same
      have time := ((lists.listed remote).mp remoteListed).1
      rw [name] at time
      exact missing ⟨remote.lastModified, time, upToDate⟩
    have needed : NeedsUpload around entry localFile := by
      refine ⟨regular, ⟨relative, located⟩, wanted, nonempty, ?_⟩
      intro path again
      obtain rfl : relative = path := Except.ok.inj (located.symm.trans again)
      exact stale
    have once := count_sync_of_needed sortPaths_perm returned enumerated member needed
    change Traced.count (uploads localFile) (syncOneConfigEntry around rs entry) = 1 at once
    obtain ⟨dest, queued⟩ := exists_upload_of_count (by rw [once]; exact Nat.one_ne_zero)
    obtain ⟨_member, _wanted, path, again, built⟩ := built_of_upload returned found enumerated
      queued
    obtain rfl : relative = path := Except.ok.inj (located.symm.trans again)
    obtain ⟨attempt, tried, own, putting⟩ := carried.accepted _ queued filled
    apply untouched attempt tried putting
    rw [own]
    rcases built with slashed | bare
    · exact objectName_of_built parsed ordinary valid plain (List.cons_ne_nil slash relative)
        (stripSlashes_cons_slash proper.nonempty proper.last_ne) slashed
    · exact objectName_of_built parsed ordinary valid plain proper.nonempty
        (stripSlashes_of_ends_ne proper.head_ne proper.last_ne) bare

theorem stillAhead_of_agree {name : Bytes} {lastModified : Bytes}
    (agree : OrdersAgree around.tree entry listed) (member : localFile ∈ listed)
    (regular : around.tree.isDirectory localFile = .ok false)
    (located : around.tree.relative localFile entry.localDir = .ok relative)
    (same : unJoinPaths entry.remoteDir name = slash :: relative) :
    StillAhead (around.withListing later) entry listed localFile ⟨name, lastModified⟩ := by
  intro other otherMember smaller otherRegular path otherLocated
  rw [same]
  exact List.cons_lt_cons_iff.mpr (Or.inr ⟨rfl, agree other otherMember localFile member smaller
    otherRegular regular path relative otherLocated located⟩)

/-- Where the two orders agree, a synchronisation whose jobs have been carried
out leaves nothing to send to the next one. -/
theorem second_sync_queues_nothing
    (returned : (syncOneConfigEntry around rs entry).result = .ok ())
    (found : rs.getURL entry.region entry.snet = .ok base) (ordinary : question ∉ base.raw)
    (valid : entry.validate = true)
    (front : entry.remoteDir.head? ≠ some slash) (back : entry.remoteDir.getLast? ≠ some slash)
    (enumerated : around.tree.recursiveEntries entry.localDir = .ok listed)
    (agree : OrdersAgree around.tree entry listed)
    (lists : ListsStored entry stored around.listing)
    (carried : CarriedOut around rs entry attempts)
    (late : ∀ attempt ∈ attempts, ∀ file ∈ listed, around.tree.hasContents file = true →
      ∀ name, UpToDate around file ⟨name, attempt.stamp⟩)
    (listsLater : ListsStored entry (carryOut base entry.container attempts stored) later)
    (member : localFile ∈ listed) (filled : around.tree.hasContents localFile = true)
    (located : around.tree.relative localFile entry.localDir = .ok relative)
    (proper : FileSetting.ProperRelative relative) :
    Traced.count (uploads localFile)
      (syncOneConfigEntry (around.withListing later) rs entry) = 0 := by
  by_cases rejected : entry.shouldIgnoreFile localFile = true
  · exact @count_sync_of_ignored (around.withListing later) entry rs listed enumerated
      localFile rejected
  · obtain ⟨_container_ne, remoteDir_ne⟩ := ConfigEntry.names_ne_nil_of_validate valid
    have plain := (stripSlashes_eq_self_iff remoteDir_ne).mpr ⟨front, back⟩
    obtain ⟨time, there, upToDate⟩ := stored_of_carried returned found ordinary valid plain
      enumerated lists carried late member filled (Bool.eq_false_iff.mpr rejected) located proper
    have regular := (LocalTree.regular_of_hasContents filled).1
    have same : unJoinPaths entry.remoteDir (entry.remoteDir ++ slash :: relative) =
        slash :: relative := unJoinPaths_append entry.remoteDir (slash :: relative)
    exact @count_sync_of_ahead (around.withListing later) entry rs listed enumerated
      listsLater.ordered localFile relative member regular located _
      ((listsLater.listed _).mpr ⟨there, List.prefix_append _ _⟩) same upToDate
      (stillAhead_of_agree agree member regular located same)

end Second

def newFiles : SyncSurroundings :=
  sampleSurroundings [(text "/d/a", some (1, 1)), (text "/d/b", some (1, 3))] (by decide) []

def sentTime : Bytes :=
  text "1970-01-01T00:00:05"

def newFilesListed : Listing where
  pages := [[⟨text "i/a", sentTime⟩, ⟨text "i/b", sentTime⟩]]
  ending := .ok ()

def carriedOut (upload : Bytes × URL) : UploadAttempt where
  upload := upload
  token := text "t"
  service :=
    { around := calmSurroundings
      carriesOut := fun _request => true }
  stamp := sentTime

/-- The first attempt is cut short by an exception that no handler catches. -/
def cutShortAndAgain (upload : Bytes × URL) : List UploadAttempt :=
  [{ carriedOut upload with
      service :=
        { around := { calmSurroundings with
            putWrite := .error ⟨false, false, false, fun wrong => wrong⟩ }
          carriesOut := fun _request => false } },
    carriedOut upload]

def newFilesAttempts : List UploadAttempt :=
  (uploadJobs (syncOneConfigEntry newFiles sampleAccount sampleEntry)).flatMap cutShortAndAgain

theorem newFilesAttempts_carriedOut :
    CarriedOut newFiles sampleAccount sampleEntry newFilesAttempts where
  among attempt tried := by
    obtain ⟨upload, queued, isAttempt⟩ := List.mem_flatMap.mp tried
    rcases List.mem_pair.mp isAttempt with rfl | rfl
    · exact queued
    · exact queued
  accepted upload queued _filled := by
    have putting : ∀ other ∈ uploadJobs (syncOneConfigEntry newFiles sampleAccount sampleEntry),
        (carriedOut other).puts sampleBase sampleEntry.container ≠ [] := by
      decide
    refine ⟨carriedOut upload, List.mem_flatMap.mpr ⟨upload, queued, ?_⟩, rfl, ?_⟩
    · exact List.mem_cons_of_mem _ List.mem_cons_self
    · obtain ⟨put, isPut⟩ := List.exists_mem_of_ne_nil _ (putting upload queued)
      obtain ⟨request, puts, _verb, _put⟩ := UploadAttempt.mem_puts_iff.mp isPut
      exact ⟨request, puts⟩

theorem newFilesListed_lists :
    ListsStored sampleEntry (carryOut sampleBase sampleEntry.container newFilesAttempts
      (fun _name => none)) newFilesListed := by
  have names : newFilesAttempts.map
      (fun attempt => objectName sampleBase sampleEntry.container
        attempt.upload.2.pathAndSearch) =
      [text "i/a", text "i/a", text "i/b", text "i/b"] := by decide
  have stamps : ∀ attempt ∈ newFilesAttempts, attempt.stamp = sentTime := by
    intro attempt tried
    obtain ⟨upload, _queued, isAttempt⟩ := List.mem_flatMap.mp tried
    rcases List.mem_pair.mp isAttempt with rfl | rfl
    · rfl
    · rfl
  refine ⟨by decide, ?_⟩
  intro object
  constructor
  · intro member
    rcases List.mem_cons.mp member with rfl | inRest
    · exact ⟨by decide, by decide⟩
    · rw [List.mem_singleton.mp inRest]
      exact ⟨by decide, by decide⟩
  · intro ⟨time, _remoteDir⟩
    rcases carryOut_eq sampleBase sampleEntry.container newFilesAttempts (fun _name => none)
      object.name with ⟨attempt, tried, named, stamped⟩ | ⟨kept, _untouched⟩
    · have listedName := List.mem_map_of_mem
        (f := fun attempt : UploadAttempt => objectName sampleBase sampleEntry.container
          attempt.upload.2.pathAndSearch) tried
      rw [stamps attempt tried] at stamped
      have modified : object.lastModified = sentTime :=
        Option.some.inj (time.symm.trans stamped)
      rw [names, named] at listedName
      have either : object.name = text "i/a" ∨ object.name = text "i/b" := by
        simpa using listedName
      cases object with
      | mk name lastModified =>
          dsimp only at either modified
          subst modified
          rcases either with rfl | rfl
          · exact List.mem_cons_self
          · exact List.mem_cons_of_mem _ List.mem_cons_self
    · rw [kept] at time
      cases time

theorem second_sync_queues_nothing_sample :
    Traced.count (uploads (text "/d/b")) (syncOneConfigEntry newFiles sampleAccount sampleEntry) =
        1 ∧
      Traced.count (uploads (text "/d/b"))
        (syncOneConfigEntry (newFiles.withListing newFilesListed) sampleAccount sampleEntry) =
          0 := by
  have found : sampleAccount.getURL (text "r") false = .ok sampleBase := rfl
  have located : newFiles.tree.relative (text "/d/b") sampleEntry.localDir = .ok (text "b") := rfl
  have enumerated : newFiles.tree.recursiveEntries sampleEntry.localDir =
      .ok [text "/d/a", text "/d/b"] := rfl
  refine ⟨by decide, ?_⟩
  have sentAt (name : Bytes) : newFiles.remoteTime ⟨name, sentTime⟩ = .ok 5000000 := by
    have unnamed : newFiles.remoteTime ⟨[], sentTime⟩ = .ok 5000000 := by decide
    exact unnamed
  refine second_sync_queues_nothing (by decide) found (by decide) (by decide) (by decide)
    (by decide) enumerated ?_ ⟨by decide, ?_⟩ newFilesAttempts_carriedOut ?_
    newFilesListed_lists (by decide) (by decide) located ⟨by decide, by decide, by decide⟩
  · intro left leftMember right rightMember smaller _leftRegular _rightRegular leftPath rightPath
      leftLocated rightLocated
    obtain rfl := Except.ok.inj leftLocated
    obtain rfl := Except.ok.inj rightLocated
    rcases List.mem_cons.mp leftMember with rfl | inLeft
    · rcases List.mem_cons.mp rightMember with rfl | inRight
      · exact absurd smaller (lt_irrefl _)
      · rw [List.mem_singleton.mp inRight]
        decide
    · obtain rfl := List.mem_singleton.mp inLeft
      rcases List.mem_cons.mp rightMember with rfl | inRight
      · exact absurd smaller (by decide)
      · rw [List.mem_singleton.mp inRight] at smaller
        exact absurd smaller (lt_irrefl _)
  · intro object
    constructor
    · intro impossible
      cases impossible
    · intro ⟨impossible, _remoteDir⟩
      cases impossible
  · intro attempt tried file member _filled name
    have stamped : attempt.stamp = sentTime := by
      obtain ⟨upload, _queued, isAttempt⟩ := List.mem_flatMap.mp tried
      rcases List.mem_pair.mp isAttempt with rfl | rfl
      · rfl
      · rfl
    rw [stamped]
    rcases List.mem_cons.mp member with rfl | inRest
    · exact ⟨1, 5000000, rfl, sentAt name, by decide⟩
    · obtain rfl := List.mem_singleton.mp inRest
      exact ⟨3, 5000000, rfl, sentAt name, by decide⟩

end Cdnalizerd
