/-
The objects of different entries.

An entry's jobs are for objects below its remote directory.  So two entries have an
object in common only where the remote directory of one is that of the other or
below it, whatever their files are called.
-/

import Cdnalizerd.WorkerTokens

namespace Cdnalizerd

open Library

/-! ### Directories of objects -/

/-- Two directories above one object are one above the other. -/
theorem nested_of_below {first second path : Bytes} (inFirst : Below first path)
    (inSecond : Below second path) : Below first second ∨ Below second first := by
  obtain ⟨behind, split, begins⟩ := inFirst
  obtain ⟨other, splitOther, otherBegins⟩ := inSecond
  rcases List.append_eq_append_iff.mp (split.symm.trans splitOther) with
    ⟨more, longer, rest⟩ | ⟨more, longer, rest⟩
  · left
    refine ⟨more, longer, ?_⟩
    cases more with
    | nil => exact Or.inl rfl
    | cons head tail =>
        right
        rcases begins with empty | first
        · rw [rest] at empty
          cases empty
        · rw [rest] at first
          exact first
  · right
    refine ⟨more, longer, ?_⟩
    cases more with
    | nil => exact Or.inl rfl
    | cons head tail =>
        right
        rcases otherBegins with empty | first
        · rw [rest] at empty
          cases empty
        · rw [rest] at first
          exact first

def Separate (first second : Bytes) : Prop :=
  ¬ Below first second ∧ ¬ Below second first

instance (first second : Bytes) : Decidable (Separate first second) :=
  inferInstanceAs (Decidable (¬ Below first second ∧ ¬ Below second first))

theorem Separate.symm {first second : Bytes} (separate : Separate first second) :
    Separate second first :=
  And.symm separate

theorem Separate.ne {first second path other : Bytes} (separate : Separate first second)
    (inFirst : Below first path) (inSecond : Below second other) : path ≠ other := by
  rintro rfl
  rcases nested_of_below inFirst inSecond with wrong | wrong
  · exact separate.1 wrong
  · exact separate.2 wrong

/-! ### The jobs of an entry -/

section Entries

variable (accounts : AccountCache) (entries : List ConfigEntry)

/-- A job that the synchronisation of an entry queues, or the event loop for a watch
of the entry. -/
inductive QueuedFor (entry : ConfigEntry) (job : Job) : Prop where
  | synced {around : SyncSurroundings} {rs : Rackspace} (configured : entry ∈ entries)
      (login : accounts entry.username = some rs)
      (queued : Request.addJob job ∈ (syncOneConfigEntry around rs entry).trace)
  | handled {tree : LocalTree} {kernel : Bytes → Except Nat Nat} {start daemon : Daemon}
      {delivered : List Delivery} {delivery : Delivery}
      (setUp : (createINotifyWatches tree kernel entries).result = .ok start)
      (ran : (watchLoop accounts start delivered).result = .ok daemon)
      (watched : daemon.entryOf delivery.event.wd = entry)
      (queued : WatchAction.request (.addJob job) ∈
        (handleEvent accounts delivery.around daemon delivery.event).trace)

/-- The path above the objects of an entry, whose endpoint has no search. -/
def HasRoot (entry : ConfigEntry) (root : Bytes) : Prop :=
  ∃ rs base, AccountFor accounts entries entry rs base ∧ question ∉ fromPath base.raw ∧
    root = objectRoot base entry.container entry.remoteDir

variable {accounts entries} {entry : ConfigEntry} {job : Job}

theorem HasRoot.configured {root : Bytes} (rooted : HasRoot accounts entries entry root) :
    entry ∈ entries := by
  obtain ⟨rs, base, serves, _ordinary, _root⟩ := rooted
  exact serves.configured

theorem built_of_queuedFor (queued : QueuedFor accounts entries entry job) :
    ∃ rs base site, AccountFor accounts entries entry rs base ∧
      destination base entry.container entry.remoteDir site = .ok job.destination := by
  cases queued with
  | @synced around rs configured login queued =>
      obtain ⟨base, site, endpoint, built⟩ := built_of_sync queued
      exact ⟨rs, base, site, ⟨configured, login, endpoint⟩, built⟩
  | handled setUp ran watched queued =>
      obtain rfl := watched
      exact ((Daemon.configuredFrom_of_createINotifyWatches setUp).watchLoop ran).built_of_event
        queued

theorem target_below (valid : entry.validate = true) {root : Bytes}
    (rooted : HasRoot accounts entries entry root)
    (queued : QueuedFor accounts entries entry job) {token : Bytes}
    {around : AttemptSurroundings} {request : HttpRequest}
    (sent : Observation.sent request ∈ (job.go token around).trace) :
    Below root request.target := by
  obtain ⟨rs, base, serves, ordinary, rfl⟩ := rooted
  obtain ⟨account, other, site, served, built⟩ := built_of_queuedFor queued
  obtain rfl := Option.some.inj (serves.login.symm.trans served.login)
  obtain rfl := Except.ok.inj (serves.endpoint.symm.trans served.endpoint)
  have parsed := Rackspace.parse_of_getURL serves.endpoint
  exact (sentTo_of_built parsed valid built sent).target ordinary

/-- Two entries whose remote directories are separate never send requests for the
same object, in any attempt of any of their jobs. -/
theorem entries_apart (valid : ∀ entry ∈ entries, entry.validate = true)
    {first second : ConfigEntry} {firstRoot secondRoot : Bytes}
    (firstRooted : HasRoot accounts entries first firstRoot)
    (secondRooted : HasRoot accounts entries second secondRoot)
    (separate : Separate firstRoot secondRoot) {job other : Job}
    (queued : QueuedFor accounts entries first job)
    (queuedOther : QueuedFor accounts entries second other) {token otherToken : Bytes}
    {around otherAround : AttemptSurroundings} {request otherRequest : HttpRequest}
    (sent : Observation.sent request ∈ (job.go token around).trace)
    (sentOther : Observation.sent otherRequest ∈ (other.go otherToken otherAround).trace) :
    request.target ≠ otherRequest.target := by
  apply separate.ne
  · exact target_below (valid first firstRooted.configured) firstRooted queued sent
  · exact target_below (valid second secondRooted.configured) secondRooted queuedOther sentOther

end Entries

theorem sampleEntry_rooted : HasRoot sampleAccounts [sampleEntry, neighbourEntry] sampleEntry
    (text "/v1/c/i") :=
  ⟨sampleAccount, sampleBase, ⟨List.mem_cons_self, rfl, rfl⟩, by decide, by decide⟩

theorem neighbourEntry_rooted : HasRoot sampleAccounts [sampleEntry, neighbourEntry]
    neighbourEntry (text "/v1/c/j") :=
  ⟨sampleAccount, sampleBase, ⟨List.mem_cons_of_mem _ List.mem_cons_self, rfl, rfl⟩, by decide,
    by decide⟩

theorem entries_apart_sample :
    text "/v1/c/i/a" ≠ text "/v1/c/j/b" := by
  let job : Job := .upload (text "/d/a") { sampleBase with
    raw := text "https://h/v1/c/i/a"
    path := text "/v1/c/i/a"
    pathAndSearch := text "/v1/c/i/a" }
  let other : Job := .upload (text "/e/b") { sampleBase with
    raw := text "https://h/v1/c/j/b"
    path := text "/v1/c/j/b"
    pathAndSearch := text "/v1/c/j/b" }
  let around := sampleSurroundings [(text "/d/a", some (1, 1))] (by decide) []
  let otherAround := sampleSurroundings [(text "/e/b", some (1, 1))] (by decide) []
  have queued : QueuedFor sampleAccounts [sampleEntry, neighbourEntry] sampleEntry job :=
    .synced List.mem_cons_self rfl (by decide : Request.addJob job ∈
      (syncOneConfigEntry around sampleAccount sampleEntry).trace)
  have queuedOther : QueuedFor sampleAccounts [sampleEntry, neighbourEntry] neighbourEntry
      other :=
    .synced (List.mem_cons_of_mem _ List.mem_cons_self) rfl
      (by decide : Request.addJob other ∈
        (syncOneConfigEntry otherAround sampleAccount neighbourEntry).trace)
  have sent : Observation.sent (putRequest job.source job.destination (text "t")
      (hexString (Vector.replicate 16 0)) 3) ∈ (job.go (text "t") calmSurroundings).trace := by
    decide
  have sentOther : Observation.sent (putRequest other.source other.destination (text "t")
      (hexString (Vector.replicate 16 0)) 3) ∈ (other.go (text "t") calmSurroundings).trace := by
    decide
  exact entries_apart (by decide) sampleEntry_rooted neighbourEntry_rooted (by decide) queued
    queuedOther sent sentOther

end Cdnalizerd
