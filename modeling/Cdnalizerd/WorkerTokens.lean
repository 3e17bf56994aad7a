/-
The connection and the token that the requests of a job are sent with.

A worker keeps the account it was launched with, and connects to the host of the
URL it is listed under.  Whoever queues a job has looked that URL up in an account
and built the destination from it, so the three agree, whatever the workers do in
between.
-/

import Cdnalizerd.DestinationTargets
import Cdnalizerd.WorkerSchedules

namespace Cdnalizerd

open Library

/-! ### Workers with their accounts -/

/-- The workers, and the account each was constructed with. -/
structure StaffedPool where
  pool : Pool := {}
  rs : Nat → Option Rackspace := fun _ => none

inductive StaffedLabel where
  /-- `getWorker(url, rs)`, and `addJob` on the worker it returns. -/
  | request (url : Bytes) (rs : Rackspace) (job : Option Job)
  | resume (url : Bytes) (number : Nat) (fails : Bool)

def StaffedLabel.bare : StaffedLabel → PoolLabel
  | .request url _rs job => .request url job
  | .resume url number fails => .resume url number fails

namespace StaffedPool

/-- Only a worker that is launched gets the account of the caller. -/
def hired (staffed : StaffedPool) : StaffedLabel → Nat → Option Rackspace
  | .request url rs _job =>
      if (staffed.pool.workers url).length < maxWorkersPerURL then
        Function.update staffed.rs staffed.pool.nextWorker (some rs)
      else staffed.rs
  | .resume _url _number _fails => staffed.rs

def step (staffed : StaffedPool) (label : StaffedLabel) : Option StaffedPool :=
  (staffed.pool.step label.bare).map fun pool => ⟨pool, staffed.hired label⟩

theorem step_eq_some_iff {staffed next : StaffedPool} {label : StaffedLabel} :
    staffed.step label = some next ↔
      staffed.pool.step label.bare = some next.pool ∧ next.rs = staffed.hired label := by
  unfold step
  rw [Option.map_eq_some_iff]
  constructor
  · rintro ⟨pool, stepped, rfl⟩
    exact ⟨stepped, rfl⟩
  · rintro ⟨stepped, hired⟩
    refine ⟨next.pool, stepped, ?_⟩
    rw [← hired]

end StaffedPool

/-! ### What the processes request -/

section Requests

variable (accounts : AccountCache) (entries : List ConfigEntry)

/-- A turn of a process at the manager: the synchronisation of an entry, or the
event loop with its next event. -/
inductive Requested : StaffedLabel → Prop where
  | resumed (url : Bytes) (number : Nat) (fails : Bool) : Requested (.resume url number fails)
  | synced {around : SyncSurroundings} {entry : ConfigEntry} {rs : Rackspace} {url : Bytes}
      {job : Option Job} (configured : entry ∈ entries)
      (login : accounts entry.username = some rs)
      (got : Request.getWorker url ∈ (syncOneConfigEntry around rs entry).trace)
      (queued : ∀ added ∈ job,
        Request.addJob added ∈ (syncOneConfigEntry around rs entry).trace) :
      Requested (.request url rs job)
  | handled {tree : LocalTree} {kernel : Bytes → Except Nat Nat} {start daemon : Daemon}
      {delivered : List Delivery} {delivery : Delivery} {rs : Rackspace} {url : Bytes}
      {job : Option Job}
      (setUp : (createINotifyWatches tree kernel entries).result = .ok start)
      (ran : (watchLoop accounts start delivered).result = .ok daemon)
      (login : accounts (daemon.entryOf delivery.event.wd).username = some rs)
      (got : WatchAction.request (.getWorker url) ∈
        (handleEvent accounts delivery.around daemon delivery.event).trace)
      (queued : ∀ added ∈ job, WatchAction.request (.addJob added) ∈
        (handleEvent accounts delivery.around daemon delivery.event).trace) :
      Requested (.request url rs job)

structure AccountFor (entry : ConfigEntry) (rs : Rackspace) (base : URL) : Prop where
  configured : entry ∈ entries
  login : accounts entry.username = some rs
  endpoint : rs.getURL entry.region entry.snet = .ok base

def AccountAt (url : Bytes) (rs : Rackspace) : Prop :=
  ∃ entry base, AccountFor accounts entries entry rs base ∧ base.raw = url

/-- A job for an object in the container of some entry, at the endpoint with this
URL. -/
def BelongsTo (url : Bytes) (job : Job) : Prop :=
  ∃ entry rs base site, AccountFor accounts entries entry rs base ∧ base.raw = url ∧
    destination base entry.container entry.remoteDir site = .ok job.destination

end Requests

section Turns

variable {accounts : AccountCache} {entries : List ConfigEntry} {entry : ConfigEntry}
  {rs : Rackspace} {base : URL} {localFile url : Bytes}

theorem getWorker_not_mem_queueUpload {localRelativePath : Bytes} :
    Request.getWorker url ∉ (queueUpload base entry localFile localRelativePath).trace := by
  intro member
  obtain ⟨_wanted, dest, _built, same⟩ := mem_queueUpload_iff.mp member
  cases same

section Sync

variable {around : SyncSurroundings}

theorem url_of_uploadUnlessEmpty {localRelativePath : Bytes}
    (member : Request.getWorker url ∈
      (uploadUnlessEmpty around base entry localFile localRelativePath).trace) :
    url = base.raw := by
  unfold uploadUnlessEmpty at member
  obtain ⟨size, _measured, later⟩ := Traced.mem_ask_bind_iff.mp member
  split at later
  · rcases Traced.mem_emit_bind_iff.mp later with same | wrong
    · exact Request.getWorker.inj same
    · exact (getWorker_not_mem_queueUpload wrong).elim
  · cases later

theorem url_of_uploadIfNewer {localRelativePath : Bytes} {remote : RemoteObject}
    (member : Request.getWorker url ∈
      (uploadIfNewer around base entry localFile localRelativePath remote).trace) :
    url = base.raw := by
  unfold uploadIfNewer at member
  obtain ⟨written, _localTime, later⟩ := Traced.mem_ask_bind_iff.mp member
  obtain ⟨remoteTime, _listedTime, newer⟩ := Traced.mem_ask_bind_iff.mp later
  split at newer
  · exact url_of_uploadUnlessEmpty newer
  · cases newer

theorem url_of_mergeBody {remote : RemoteObject}
    (member : Request.getWorker url ∈ (mergeBody around base entry localFile remote).trace) :
    url = base.raw := by
  unfold mergeBody at member
  obtain ⟨directory, _looked, afterLook⟩ := Traced.mem_ask_bind_iff.mp member
  split at afterLook
  · cases afterLook
  · obtain ⟨relative, _located, later⟩ := Traced.mem_ask_bind_iff.mp afterLook
    dsimp only at later
    split at later
    · rcases Traced.mem_bind_iff.mp later with newer | ⟨_unit, _returned, wrong⟩
      · exact url_of_uploadIfNewer newer
      · cases wrong
    · split at later
      · rcases Traced.mem_bind_iff.mp later with filled | ⟨_unit, _returned, wrong⟩
        · exact url_of_uploadUnlessEmpty filled
        · cases wrong
      · cases later

theorem url_of_uploadLeftOver
    (member : Request.getWorker url ∈ (uploadLeftOver around base entry localFile).trace) :
    url = base.raw := by
  rcases mem_uploadLeftOver member with same | ⟨relative, _located, wrong⟩
  · exact Request.getWorker.inj same
  · exact (getWorker_not_mem_queueUpload wrong).elim

/-- A synchronisation asks for the workers of its endpoint only. -/
theorem url_of_sync (endpoint : rs.getURL entry.region entry.snet = .ok base)
    (member : Request.getWorker url ∈ (syncOneConfigEntry around rs entry).trace) :
    url = base.raw := by
  have requested := member
  unfold syncOneConfigEntry syncWith at member
  obtain ⟨other, found, afterURL⟩ := Traced.mem_ask_bind_iff.mp member
  obtain ⟨_unit, connected, afterConnect⟩ := Traced.mem_ask_bind_iff.mp afterURL
  obtain ⟨listed, enumerated, later⟩ := Traced.mem_ask_bind_iff.mp afterConnect
  obtain rfl := Except.ok.inj (endpoint.symm.trans found)
  split at later
  · cases later
  · rename_i nonempty
    rw [sync_eq_syncFiles found connected enumerated nonempty] at requested
    rcases mem_syncFiles_iff.mp requested with walked | ⟨state, _walked, _ended, left⟩
    · obtain ⟨file, _fileMember, remote, _remoteMember, inBody⟩ := TwoCursors.mem_run walked
      exact url_of_mergeBody inBody
    · obtain ⟨file, _fileMember, inBody⟩ := Traced.mem_each left
      exact url_of_uploadLeftOver inBody

end Sync

namespace Daemon

variable {daemon : Daemon} {around : EventSurroundings} {event : Event} {located : Located}
  {job : Job}

/-- An event asks for the workers of the endpoint of its entry. -/
theorem ConfiguredFrom.url_of_event (configured : ConfiguredFrom entries daemon)
    (login : accounts (daemon.entryOf event.wd).username = some rs)
    (member : WatchAction.request (.getWorker url) ∈
      (Cdnalizerd.handleEvent accounts around daemon event).trace) :
    ∃ base, AccountFor accounts entries (daemon.entryOf event.wd) rs base ∧ url = base.raw := by
  rcases Traced.mem_bind_iff.mp member with inLocate | ⟨_found, _located, wrong⟩
  · obtain ⟨path, watched, afterPath⟩ := Traced.mem_ask_bind_iff.mp inLocate
    obtain ⟨account, found, afterLogin⟩ := Traced.mem_ask_bind_iff.mp afterPath
    obtain ⟨base, endpoint, afterURL⟩ := Traced.mem_ask_bind_iff.mp afterLogin
    obtain rfl := Option.some.inj (login.symm.trans (findAccount_eq_ok_iff.mp found))
    obtain ⟨entry, recorded⟩ :=
      configured.aligned.configured (watchFromHandle_eq_ok_iff.mp watched)
    have known : daemon.entryOf event.wd ∈ entries := by
      unfold entryOf
      rw [recorded, Option.getD_some]
      exact configured.known event.wd entry recorded
    rcases Traced.mem_emit_bind_iff.mp afterURL with same | later
    · exact ⟨base, ⟨known, login, endpoint⟩,
        Request.getWorker.inj (WatchAction.request.inj same)⟩
    · obtain ⟨relative, _taken, wrong⟩ := Traced.mem_ask_bind_iff.mp later
      cases wrong
  · obtain ⟨_job, same, _built⟩ := job_of_dispatch wrong
    cases same

theorem entry_of_locate {next : Daemon}
    (returned : (locate accounts around daemon event).result = .ok (next, located)) :
    located.entry = daemon.entryOf event.wd := by
  obtain ⟨path, _watched, afterPath⟩ := Traced.bind_result_eq_ok_iff.mp returned
  obtain ⟨account, _login, afterLogin⟩ := Traced.bind_result_eq_ok_iff.mp afterPath
  obtain ⟨url, _endpoint, afterURL⟩ := Traced.bind_result_eq_ok_iff.mp afterLogin
  obtain ⟨_unit, _emitted, afterWorker⟩ := Traced.bind_result_eq_ok_iff.mp afterURL
  obtain ⟨relative, _taken, done⟩ := Traced.bind_result_eq_ok_iff.mp afterWorker
  rw [← (Prod.mk.inj (Except.ok.inj done)).2]

/-- A job of an event is built for the entry of the event's watch. -/
theorem ConfiguredFrom.built_of_event (configured : ConfiguredFrom entries daemon)
    (member : WatchAction.request (.addJob job) ∈
      (Cdnalizerd.handleEvent accounts around daemon event).trace) :
    ∃ rs base site, AccountFor accounts entries (daemon.entryOf event.wd) rs base ∧
      destination base (daemon.entryOf event.wd).container
        (daemon.entryOf event.wd).remoteDir site = .ok job.destination := by
  rcases Traced.mem_bind_iff.mp member with wrong | ⟨⟨same, located⟩, returned, dispatched⟩
  · exact (addJob_not_mem_locate wrong).elim
  · obtain ⟨_same, known, rs, login, endpoint⟩ := configured.locate returned
    rw [← entry_of_locate returned]
    exact ⟨rs, located.url, located.localRelativePath, ⟨known, login, endpoint⟩,
      destination_of_dispatch dispatched⟩

theorem ConfiguredFrom.watchLoop (configured : ConfiguredFrom entries daemon)
    {delivered : List Delivery} {reached : Daemon}
    (ran : (Cdnalizerd.watchLoop accounts daemon delivered).result = .ok reached) :
    ConfiguredFrom entries reached :=
  Traced.foldlM_invariant (fun _delivery _current _next kept => kept.handleEvent) configured ran

end Daemon

/-- The account of a request has an endpoint at its URL, and its job belongs
there. -/
theorem served_of_requested {job : Option Job}
    (requested : Requested accounts entries (.request url rs job)) :
    AccountAt accounts entries url rs ∧ ∀ added ∈ job, BelongsTo accounts entries url added := by
  cases requested with
  | @synced around entry rs url job configured login got queued =>
      obtain ⟨base, endpoint⟩ : ∃ base, rs.getURL entry.region entry.snet = .ok base := by
        unfold syncOneConfigEntry syncWith at got
        obtain ⟨base, endpoint, _later⟩ := Traced.mem_ask_bind_iff.mp got
        exact ⟨base, endpoint⟩
      have serves : AccountFor accounts entries entry rs base := ⟨configured, login, endpoint⟩
      have same := url_of_sync endpoint got
      refine ⟨⟨entry, base, serves, same.symm⟩, ?_⟩
      intro added isJob
      obtain ⟨other, site, found, built⟩ := built_of_sync (queued added isJob)
      obtain rfl := Except.ok.inj (endpoint.symm.trans found)
      exact ⟨entry, rs, base, site, serves, same.symm, built⟩
  | @handled tree kernel start daemon delivered delivery rs url job setUp ran login got queued =>
      have configured := (Daemon.configuredFrom_of_createINotifyWatches setUp).watchLoop ran
      obtain ⟨base, serves, same⟩ := configured.url_of_event login got
      refine ⟨⟨_, base, serves, same.symm⟩, ?_⟩
      intro added isJob
      obtain ⟨account, other, site, served, built⟩ :=
        configured.built_of_event (queued added isJob)
      obtain rfl := Option.some.inj (login.symm.trans served.login)
      obtain rfl := Except.ok.inj (serves.endpoint.symm.trans served.endpoint)
      exact ⟨_, rs, base, site, serves, same.symm, built⟩

end Turns

/-! ### Whatever the workers do -/

theorem Pool.url_of_step {pool next : Pool} {label : PoolLabel}
    (stepped : pool.step label = some next) {number : Nat} (launched : number < pool.nextWorker) :
    (next.worker number).url = (pool.worker number).url := by
  have got (url : Bytes) : (pool.getWorker url).worker number = pool.worker number := by
    rw [Pool.worker_getWorker, if_neg (fun both => Nat.ne_of_lt launched both.1)]
  cases label with
  | request url job =>
      cases job with
      | none =>
          obtain rfl := Option.some.inj stepped
          rw [got url]
      | some job =>
          obtain rfl := Option.some.inj stepped
          unfold Pool.addJob
          dsimp only
          by_cases same : number = pool.picked url
          · subst same
            rw [Function.update_self, got url]
          · rw [Function.update_of_ne same, got url]
  | resume url index fails =>
      obtain ⟨_listed, ⟨after, outcome, rfl⟩ | ⟨_gone, rfl⟩⟩ := Pool.step_resume_cases stepped
      · dsimp only
        by_cases same : number = index
        · subst same
          rw [Function.update_self, (Worker.resumed_of_resume outcome).url_eq]
        · rw [Function.update_of_ne same]
      · rfl

/-- The jobs that were added belong to the URL of their worker, and the account of
a worker has an endpoint there. -/
structure StaffedPool.Matched (accounts : AccountCache) (entries : List ConfigEntry)
    (staffed : StaffedPool) : Prop where
  housed : staffed.pool.Housed
  ordered : staffed.pool.KeepsOrder
  served : ∀ url, ∀ number ∈ staffed.pool.workers url,
    ∃ rs, staffed.rs number = some rs ∧ AccountAt accounts entries url rs
  belongs : ∀ ticket ∈ staffed.pool.added,
    BelongsTo accounts entries (staffed.pool.worker ticket.worker).url ticket.job

namespace StaffedPool

variable {accounts : AccountCache} {entries : List ConfigEntry} {staffed next : StaffedPool}
  {label : StaffedLabel}

theorem matched_empty : ({} : StaffedPool).Matched accounts entries where
  housed := Pool.housed_empty
  ordered := Pool.keepsOrder_empty
  served _url _number member := absurd member List.not_mem_nil
  belongs _ticket member := absurd member List.not_mem_nil

theorem Matched.served_step (before : staffed.Matched accounts entries)
    (requested : Requested accounts entries label)
    (stepped : staffed.pool.step label.bare = some next.pool)
    (hired : next.rs = staffed.hired label) :
    ∀ url, ∀ number ∈ next.pool.workers url,
      ∃ rs, next.rs number = some rs ∧ AccountAt accounts entries url rs := by
  intro url number member
  rw [hired]
  cases label with
  | request target rs job =>
      have serves := (served_of_requested requested).1
      have got : number ∈ (staffed.pool.getWorker target).workers url := by
        cases job with
        | none =>
            rw [← Option.some.inj stepped] at member
            exact member
        | some job =>
            rw [← Option.some.inj stepped] at member
            exact member
      unfold StaffedPool.hired
      dsimp only
      rcases Pool.mem_getWorker got with ⟨rfl, room, rfl⟩ | listed
      · rw [if_pos room, Function.update_self]
        exact ⟨rs, rfl, serves⟩
      · have old := before.housed.owns.listed_lt url number listed
        split
        · rw [Function.update_of_ne (Nat.ne_of_lt old)]
          exact before.served url number listed
        · exact before.served url number listed
  | resume target index fails =>
      obtain ⟨_listed, ⟨after, _outcome, same⟩ | ⟨_gone, same⟩⟩ :=
        Pool.step_resume_cases stepped
      · rw [same] at member
        exact before.served url number member
      · rw [same] at member
        exact before.served url number (Pool.mem_of_mem_erased member)

theorem Matched.belongs_step (before : staffed.Matched accounts entries)
    (requested : Requested accounts entries label)
    (stepped : staffed.pool.step label.bare = some next.pool) :
    ∀ ticket ∈ next.pool.added,
      BelongsTo accounts entries (next.pool.worker ticket.worker).url ticket.job := by
  have kept (ticket : Ticket) (member : ticket ∈ staffed.pool.added) :
      BelongsTo accounts entries (next.pool.worker ticket.worker).url ticket.job := by
    rw [Pool.url_of_step stepped (before.ordered.added_lt ticket member)]
    exact before.belongs ticket member
  intro ticket member
  cases label with
  | request url rs job =>
      cases job with
      | none =>
          have same : next.pool.added = staffed.pool.added := by
            rw [← Option.some.inj stepped, Pool.getWorker_added]
          exact kept ticket (same ▸ member)
      | some job =>
          have shape := Option.some.inj stepped
          have grown : next.pool.added = staffed.pool.added ++
              [⟨(staffed.pool.getWorker url).nextJob, job, staffed.pool.picked url⟩] := by
            rw [← shape, ← Pool.getWorker_added staffed.pool url]
            rfl
          rw [grown] at member
          rcases List.mem_append.mp member with old | new
          · exact kept ticket old
          · obtain rfl := List.mem_singleton.mp new
            have listed : staffed.pool.picked url ∈ next.pool.workers url := by
              rw [← shape]
              exact Pool.picked_mem_getWorker staffed.pool url
            dsimp only
            rw [(before.housed.step stepped).url_eq url _ listed]
            exact (served_of_requested requested).2 job rfl
  | resume url number fails =>
      have same : next.pool.added = staffed.pool.added := by
        obtain ⟨_listed, ⟨after, _outcome, same⟩ | ⟨_gone, same⟩⟩ :=
          Pool.step_resume_cases stepped
        · rw [same]
        · rw [same]
      exact kept ticket (same ▸ member)

theorem Matched.step (before : staffed.Matched accounts entries)
    (requested : Requested accounts entries label) (stepped : staffed.step label = some next) :
    next.Matched accounts entries := by
  obtain ⟨pooled, hired⟩ := step_eq_some_iff.mp stepped
  exact ⟨before.housed.step pooled, before.ordered.step pooled,
    before.served_step requested pooled hired, before.belongs_step requested pooled⟩

end StaffedPool

/-- A request to the host of an endpoint, for an object in the remote directory of
an entry. -/
structure SentTo (base : URL) (entry : ConfigEntry) (token : Bytes) (request : HttpRequest) :
    Prop where
  token : request.token = token
  host : request.host = base.host
  target : question ∉ fromPath base.raw →
    Below (objectRoot base entry.container entry.remoteDir) request.target

theorem sentTo_of_built {base : URL} {entry : ConfigEntry} {site : Bytes} {job : Job}
    (parsed : URL.parse base.raw = .ok base) (valid : entry.validate = true)
    (built : destination base entry.container entry.remoteDir site = .ok job.destination)
    {token : Bytes} {around : AttemptSurroundings} {request : HttpRequest}
    (sent : Observation.sent request ∈ (job.go token around).trace) :
    SentTo base entry token request := by
  have named := ConfigEntry.names_ne_nil_of_validate valid
  have host := (destination_sameAuthority parsed named built).host
  have below (ordinary : question ∉ fromPath base.raw) :=
    destination_below parsed ordinary named built
  cases sentFor_of_job sent with
  | put size digested =>
      refine ⟨rfl, host, ?_⟩
      intro ordinary
      change Below _ job.destination.pathAndSearch
      rw [(below ordinary).2]
      exact (below ordinary).1
  | head => exact ⟨rfl, host, fun ordinary => (below ordinary).1⟩
  | delete => exact ⟨rfl, host, fun ordinary => (below ordinary).1⟩

/-- Whatever is queued, and however the workers are resumed: the requests of a job
go to the host its worker is connected to and carry the token of an account with
that endpoint, and they stay in the remote directory of an entry. -/
theorem sent_with_own_account {accounts : AccountCache} {entries : List ConfigEntry}
    (valid : ∀ entry ∈ entries, entry.validate = true) {staffed : StaffedPool}
    (reached : Runs.Run StaffedPool.step (fun _staffed => Requested accounts entries) {} staffed)
    {url : Bytes} {number : Nat} {ticket : Ticket}
    (listed : number ∈ staffed.pool.workers url)
    (attempted : (staffed.pool.worker number).point = .running ticket) :
    ∃ rs base entry account, staffed.rs number = some rs ∧ AccountAt accounts entries url rs ∧
      URL.parse url = .ok base ∧ AccountFor accounts entries entry account base ∧
      ∀ around request, Observation.sent request ∈ (ticket.job.go rs.token around).trace →
        SentTo base entry rs.token request := by
  have matched : staffed.Matched accounts entries :=
    Runs.invariant_of_run reached StaffedPool.matched_empty
      (fun _before _label _after kept requested stepped => kept.step requested stepped)
  obtain ⟨rs, hired, serves⟩ := matched.served url number listed
  have pending : ticket ∈ (staffed.pool.worker number).pending := by
    unfold Worker.pending
    rw [attempted]
    exact List.mem_cons_self
  have given := (matched.ordered.flow url number listed).subset
    (List.mem_append_right _ pending)
  obtain ⟨added, own⟩ := mem_ticketsOf.mp given
  obtain ⟨entry, account, base, site, here, raw, built⟩ := matched.belongs ticket added
  rw [own, matched.housed.url_eq url number listed] at raw
  have parsed := Rackspace.parse_of_getURL here.endpoint
  exact ⟨rs, base, entry, account, hired, serves, raw ▸ parsed, here,
    fun _around _request => sentTo_of_built parsed (valid entry here.configured) built⟩

def oneUpload : Job :=
  .upload (text "/d/a") { sampleBase with
    raw := text "https://h/v1/c/i/a"
    path := text "/v1/c/i/a"
    pathAndSearch := text "/v1/c/i/a" }

theorem sent_with_own_account_sample :
    ∃ request : HttpRequest, request.target = text "/v1/c/i/a" ∧
      SentTo sampleBase sampleEntry (text "t") request := by
  let around := sampleSurroundings [(text "/d/a", some (1, 1))] (by decide) []
  let labels : List StaffedLabel := [.request sampleBase.raw sampleAccount (some oneUpload),
    .resume sampleBase.raw 0 false, .resume sampleBase.raw 0 false]
  let staffed := (Runs.replay StaffedPool.step {} labels).get (by decide)
  have requested : ∀ label ∈ labels, Requested sampleAccounts [sampleEntry] label := by
    intro label member
    rcases List.mem_cons.mp member with rfl | later
    · exact .synced List.mem_cons_self rfl
        (by decide : Request.getWorker sampleBase.raw ∈
          (syncOneConfigEntry around sampleAccount sampleEntry).trace)
        (fun added isJob => by
          obtain rfl := Option.mem_some.mp isJob
          decide)
    · rcases List.mem_cons.mp later with rfl | last
      · exact .resumed _ _ _
      · rw [List.mem_singleton.mp last]
        exact .resumed _ _ _
  have reached : Runs.Run StaffedPool.step
      (fun _staffed => Requested sampleAccounts [sampleEntry]) {} staffed :=
    Runs.run_of_replay_get _ (fun label member _staffed => requested label member)
  obtain ⟨rs, base, entry, account, hired, _serves, parsed, here, sent⟩ :=
    sent_with_own_account (fun entry member => by
      rw [List.mem_singleton.mp member]
      decide) reached (by decide : 0 ∈ staffed.pool.workers sampleBase.raw)
      (by decide : (staffed.pool.worker 0).point = .running ⟨0, oneUpload, 0⟩)
  obtain rfl : sampleAccount = rs := Option.some.inj hired
  obtain rfl : sampleBase = base := Except.ok.inj (parse_sampleBase.symm.trans parsed)
  obtain rfl := List.mem_singleton.mp here.configured
  exact ⟨_, rfl, sent calmSurroundings (putRequest (text "/d/a") oneUpload.destination
    (text "t") (hexString (Vector.replicate 16 0)) 3) (by decide)⟩

end Cdnalizerd
