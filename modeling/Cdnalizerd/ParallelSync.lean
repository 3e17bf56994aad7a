/-
The synchronisations of all entries, which run at the same time.

They have the worker manager in common and nothing else.  Their requests come in
any order, workers fail and try again, and still each file gets its own copy, as
long as the remote directories of the entries are separate and no attempt ends
without its file having been accepted.
-/

import Cdnalizerd.EntryParts
import Cdnalizerd.RequestLines
import Cdnalizerd.SyncedMirror
import Mathlib.Data.List.Pairwise

namespace Cdnalizerd

open Library

/-! ### The synchronisation of one entry among others -/

structure EntrySync where
  setting : FileSetting
  around : SyncSurroundings
  listed : List Bytes

namespace EntrySync

variable (sync : EntrySync)

def jobs : List (Bytes × URL) :=
  sync.setting.syncUploads sync.around

/-- The synchronisation finds the files of its entry as they are, and lists no
others. -/
structure Finds (world : FileWorld) : Prop where
  surveyed : sync.setting.Surveyed sync.around sync.listed
    { world with files := sync.setting.ownFiles world.files }
  owned : ∀ path ∈ sync.listed, ∀ content, world.files path = some content →
    sync.setting.IsFile path

def Copies (files : Bytes → Option Bytes) (path : Bytes) (dest : URL) (content : Bytes) : Prop :=
  sync.setting.Kept path dest ∧ files path = some content ∧ content ≠ []

def Apart (first second : EntrySync) : Prop :=
  Separate first.setting.root second.setting.root

instance : Std.Symm Apart where
  symm _first _second := Separate.symm

variable {sync} {world : FileWorld} {job : Bytes × URL} {path content : Bytes} {dest : URL}

theorem Finds.kept (finds : sync.Finds world) (queued : job ∈ sync.jobs)
    (found : world.files job.1 = some content) : sync.setting.Kept job.1 job.2 := by
  have listed := (built_of_upload finds.surveyed.returned sync.setting.endpoint
    finds.surveyed.shows.enumerated queued).1
  exact finds.surveyed.kept queued (finds.owned job.1 listed content found)

theorem Finds.queued_or_stored (finds : sync.Finds world)
    (copies : sync.Copies world.files path dest content) :
    (path, dest) ∈ sync.jobs ∨ world.store dest.path = some content := by
  obtain ⟨kept, found, nonempty⟩ := copies
  have own : sync.setting.ownFiles world.files path = some content := by
    rw [FileSetting.ownFiles_of_isFile kept.isFile, found]
  exact finds.surveyed.queued_or_stored kept own nonempty

end EntrySync

/-! ### All of them -/

section Together

variable {syncs : List EntrySync} {world : FileWorld} {done : List (Bytes × URL)}

/-- A job that has contents to send for the object of a file is the file's own. -/
theorem source_of_job (finds : ∀ sync ∈ syncs, sync.Finds world)
    (separate : syncs.Pairwise EntrySync.Apart)
    {sync other : EntrySync} (member : sync ∈ syncs) (otherMember : other ∈ syncs)
    {path found : Bytes} {dest : URL} (kept : sync.setting.Kept path dest) {job : Bytes × URL}
    (queued : job ∈ other.jobs) (there : world.files job.1 = some found)
    (samePath : job.2.path = dest.path) : job.1 = path := by
  have otherKept := (finds other otherMember).kept queued there
  by_cases same : sync = other
  · subst same
    exact kept.unique otherKept samePath
  · have apart : sync.Apart other := separate.forall member otherMember same
    exact absurd samePath.symm
      (Separate.ne apart (FileSetting.below_of_kept kept) (FileSetting.below_of_kept otherKept))

/-- Done in any order and any number of times, the jobs leave the copies of all files. -/
theorem copied_in_any_order (finds : ∀ sync ∈ syncs, sync.Finds world)
    (separate : syncs.Pairwise EntrySync.Apart)
    (among : done ⊆ syncs.flatMap EntrySync.jobs)
    (all : syncs.flatMap EntrySync.jobs ⊆ done) {sync : EntrySync}
    (member : sync ∈ syncs) {path content : Bytes} {dest : URL}
    (copies : sync.Copies world.files path dest content) :
    uploadAll world.files done world.store dest.path = some content := by
  obtain ⟨kept, there, nonempty⟩ := copies
  rcases uploadAll_cases world.files done world.store dest.path with
    ⟨job, isDone, samePath, found, foundThere, _nonempty, copied⟩ | ⟨unchanged, trifling⟩
  · obtain ⟨other, otherMember, queued⟩ := List.mem_flatMap.mp (among isDone)
    rw [source_of_job finds separate member otherMember kept queued foundThere samePath]
      at foundThere
    obtain rfl := Option.some.inj (there.symm.trans foundThere)
    exact copied
  · rcases (finds sync member).queued_or_stored ⟨kept, there, nonempty⟩ with queued | stored
    · have isDone := all (List.mem_flatMap.mpr ⟨sync, member, queued⟩)
      exact absurd (trifling _ isDone rfl content there) nonempty
    · rw [unchanged, stored]

/-- Every other object is as it was. -/
theorem untouched_in_any_order (finds : ∀ sync ∈ syncs, sync.Finds world)
    (among : done ⊆ syncs.flatMap EntrySync.jobs) {name : Bytes}
    (foreign : ∀ sync ∈ syncs, ∀ path dest content,
      sync.Copies world.files path dest content → dest.path ≠ name) :
    uploadAll world.files done world.store name = world.store name := by
  rcases uploadAll_cases world.files done world.store name with
    ⟨job, isDone, samePath, content, there, nonempty, _copied⟩ | ⟨unchanged, _trifling⟩
  · obtain ⟨sync, member, queued⟩ := List.mem_flatMap.mp (among isDone)
    have kept := (finds sync member).kept queued there
    exact absurd samePath (foreign sync member job.1 job.2 content ⟨kept, there, nonempty⟩)
  · exact unchanged

end Together

/-! ### Attempts at an upload -/

/-- The file has the size that is measured, and an attempt at a job for a file with
contents does not return unless a request that sends it has been carried out. -/
structure Service.Accepts (service : Service) (token : Bytes) (files : Bytes → Option Bytes)
    (job : Job) : Prop where
  measured : ∀ size, service.around.fileSize = .ok size →
    ∃ content, files job.source = some content ∧ content.length = size
  accepted : (job.go token service.around).result = .ok () →
    ∀ content, files job.source = some content → content ≠ [] →
      ∃ request, .sent request ∈ (job.go token service.around).trace ∧
        service.carriesOut request = true

section Attempts

variable {files store : Bytes → Option Bytes} {upload : Bytes × URL} {service : Service}
  {token : Bytes}

theorem uploadOne_of_content {content : Bytes} (found : files upload.1 = some content)
    (nonempty : content ≠ []) (store : Bytes → Option Bytes) :
    uploadOne files store upload = Function.update store upload.2.path (some content) := by
  unfold uploadOne
  rw [found]
  exact congrArg _ (if_pos nonempty)

/-- A request is sent only for a file with contents, and has the effect of the upload. -/
theorem receive_sent (ready : ReadyFor files [upload])
    (accepts : service.Accepts token files (uploadJob upload)) {request : HttpRequest}
    (sent : .sent request ∈ ((uploadJob upload).go token service.around).trace)
    (store : Bytes → Option Bytes) :
    receive files store (.sent request) = uploadOne files store upload ∧
      receive files (uploadOne files store upload) (.sent request) =
        uploadOne files store upload := by
  obtain ⟨⟨size, measured, filled⟩, etag, length, _digested, rfl⟩ :=
    put_of_upload (Or.inl rfl) sent
  obtain ⟨content, found, long⟩ := accepts.measured size measured
  change files upload.1 = some content at found
  have nonempty : content ≠ [] := by
    rintro rfl
    exact filled long.symm
  have plain := (ready upload List.mem_cons_self content found nonempty).1
  rw [receive_put found plain, receive_put found plain, uploadOne_of_content found nonempty,
    Function.update_idem]
  exact ⟨rfl, rfl⟩

theorem moves_of_accepts (ready : ReadyFor files [upload])
    (accepts : service.Accepts token files (uploadJob upload)) (store : Bytes → Option Bytes) :
    ∀ performed ∈ ((uploadJob upload).go token service.around).trace.filter service.receives,
      (receive files store performed = store ∨
          receive files store performed = uploadOne files store upload) ∧
        receive files (uploadOne files store upload) performed =
          uploadOne files store upload := by
  intro performed member
  have inTrace := (List.mem_filter.mp member).1
  cases performed with
  | sent request =>
      have received := receive_sent ready accepts inTrace store
      exact ⟨Or.inr received.1, received.2⟩
  | fileGone => exact ⟨Or.inl rfl, rfl⟩
  | fileEmpty => exact ⟨Or.inl rfl, rfl⟩
  | sameDigest => exact ⟨Or.inl rfl, rfl⟩
  | answered verb status => exact ⟨Or.inl rfl, rfl⟩
  | networkError => exact ⟨Or.inl rfl, rfl⟩

/-- Whatever an attempt meets with, it has had the effect of the upload or none. -/
theorem storeBehind_cases (ready : ReadyFor files [upload])
    (accepts : service.Accepts token files (uploadJob upload)) :
    service.storeBehind token files store (uploadJob upload) = store ∨
      service.storeBehind token files store (uploadJob upload) = uploadOne files store upload :=
  Assignments.foldl_idle_or_done (moves_of_accepts ready accepts store)

theorem storeBehind_of_returned (ready : ReadyFor files [upload])
    (accepts : service.Accepts token files (uploadJob upload))
    (returned : ((uploadJob upload).go token service.around).result = .ok ()) :
    service.storeBehind token files store (uploadJob upload) = uploadOne files store upload := by
  by_cases trifling : ∀ content, files upload.1 = some content → ¬ content ≠ []
  · have spared := uploadOne_of_trifling trifling store
    rcases @storeBehind_cases files store upload service token ready accepts with idle | done
    · rw [idle, spared]
    · exact done
  · obtain ⟨content, counted⟩ := not_forall.mp trifling
    obtain ⟨found, nonempty⟩ := Classical.not_imp.mp counted
    obtain ⟨request, sent, carried⟩ :=
      accepts.accepted returned content found (not_not.mp nonempty)
    exact Assignments.foldl_done (moves_of_accepts ready accepts store)
      (List.mem_filter.mpr ⟨sent, carried⟩) (receive_sent ready accepts sent store).1

/-- The server that takes everything accepts every upload. -/
theorem accepts_of_goodService (setting : FileSetting) (world : FileWorld) {upload : Bytes × URL}
    (named : upload.1 ≠ []) (token : Bytes) :
    (setting.goodService world (uploadJob upload)).Accepts token world.files
      (uploadJob upload) where
  measured size measured := by
    cases found : world.files (uploadJob upload).source with
    | none =>
        simp only [FileSetting.goodService, FileSetting.attemptSurroundings, found] at measured
        cases measured
    | some content =>
        simp only [FileSetting.goodService, FileSetting.attemptSurroundings, found] at measured
        exact ⟨content, rfl, Except.ok.inj measured⟩
  accepted _returned content found nonempty := by
    have sends := @upload_unprepared setting world upload.1 upload.2 token content found nonempty
      named
    refine ⟨putRequest upload.1 upload.2 token (hexString (setting.md5 content)) content.length,
      ?_, rfl⟩
    change _ ∈ (Cdnalizerd.upload (setting.attemptSurroundings world upload.1 upload.2) upload.1
      upload.2 token []).trace
    rw [sends]
    exact List.mem_cons_self

end Attempts

/-! ### With the workers -/

structure StoreWorld where
  pool : Pool := {}
  store : Bytes → Option Bytes

inductive StoreLabel where
  | request (url : Bytes) (job : Option Job)
  /-- A worker's coroutine resumed, with its account's token: whether its connection is
  broken, and what an attempt at a job has met with. -/
  | resume (url : Bytes) (number : Nat) (broken : Bool) (token : Bytes) (service : Service)

namespace StoreWorld

def step (files : Bytes → Option Bytes) (world : StoreWorld) : StoreLabel → Option StoreWorld
  | .request url job =>
      (world.pool.step (.request url job)).map fun next => { world with pool := next }
  | .resume url number broken token service =>
      let worker := world.pool.worker number
      let fails := worker.fails token service broken
      (world.pool.step (.resume url number fails)).map fun next =>
        { pool := next
          store := worker.leaves token service files world.store }

/-- The requests are those of the synchronisations.  Anything may fail, but an attempt
that returns has had its file accepted. -/
def Accepting (syncs : List EntrySync) (files : Bytes → Option Bytes) (world : StoreWorld) :
    StoreLabel → Prop
  | .request _url job =>
      ∀ asked ∈ job, ∃ upload ∈ syncs.flatMap EntrySync.jobs, asked = uploadJob upload
  | .resume _url number _broken token service =>
      ∀ ticket, (world.pool.worker number).point = .running ticket →
        service.Accepts token files ticket.job

/-- The objects are those behind some uploads, among them the completed ones. -/
structure Copying (syncs : List EntrySync) (files store : Bytes → Option Bytes)
    (done : List (Bytes × URL)) (world : StoreWorld) : Prop where
  ordered : world.pool.KeepsOrder
  added : ∀ ticket ∈ world.pool.added, ∃ upload ∈ syncs.flatMap EntrySync.jobs,
    ticket.job = uploadJob upload
  among : done ⊆ syncs.flatMap EntrySync.jobs
  objects : world.store = uploadAll files done store
  completed : ∀ ticket ∈ world.pool.executed, ∃ upload ∈ done, ticket.job = uploadJob upload

variable {syncs : List EntrySync} {files store : Bytes → Option Bytes}
  {done : List (Bytes × URL)} {world next : StoreWorld}

theorem Copying.request (copying : Copying syncs files store done world) {url : Bytes}
    {job : Option Job}
    (allowed : ∀ asked ∈ job, ∃ upload ∈ syncs.flatMap EntrySync.jobs, asked = uploadJob upload)
    (stepped : world.step files (.request url job) = some next) :
    Copying syncs files store done next := by
  obtain ⟨pool, poolStepped, rfl⟩ := Option.map_eq_some_iff.mp stepped
  have ordered := copying.ordered.step poolStepped
  cases job with
  | none =>
      obtain rfl := Option.some.inj poolStepped
      refine ⟨ordered, ?_, copying.among, copying.objects, ?_⟩
      · rw [Pool.getWorker_added]
        exact copying.added
      · rw [Pool.getWorker_executed]
        exact copying.completed
  | some job =>
      obtain rfl := Option.some.inj poolStepped
      refine ⟨ordered, ?_, copying.among, copying.objects, ?_⟩
      · intro ticket member
        rcases List.mem_append.mp member with old | new
        · rw [Pool.getWorker_added] at old
          exact copying.added ticket old
        · rw [List.mem_singleton.mp new]
          exact allowed job rfl
      · intro ticket member
        change ticket ∈ (world.pool.getWorker url).executed at member
        rw [Pool.getWorker_executed] at member
        exact copying.completed ticket member

/-- A worker waits for an attempt only at a job that was added. -/
theorem running_added {pool : Pool} (ordered : pool.KeepsOrder) {url : Bytes} {number : Nat}
    (listed : number ∈ pool.workers url) {ticket : Ticket}
    (running : (pool.worker number).point = .running ticket) : ticket ∈ pool.added := by
  have pending : ticket ∈ (pool.worker number).pending := by
    unfold Worker.pending
    rw [running]
    exact List.mem_cons_self
  have own := (ordered.flow url number listed).subset (List.mem_append_right _ pending)
  exact (mem_ticketsOf.mp own).1

/-- The copying goes on with a resumed worker. -/
theorem Copying.extend (copying : Copying syncs files store done world) {pool : Pool}
    {later : List (Bytes × URL)} {objects : Bytes → Option Bytes} (ordered : pool.KeepsOrder)
    (added : pool.added = world.pool.added) (grown : done ⊆ later)
    (among : later ⊆ syncs.flatMap EntrySync.jobs) (stored : objects = uploadAll files later store)
    (completed : ∀ ticket ∈ pool.executed, ticket ∈ world.pool.executed ∨
      ∃ upload ∈ later, ticket.job = uploadJob upload) :
    Copying syncs files store later ⟨pool, objects⟩ where
  ordered
  added := by
    rw [added]
    exact copying.added
  among
  objects := stored
  completed ticket member := by
    rcases completed ticket member with old | new
    · obtain ⟨upload, isDone, same⟩ := copying.completed ticket old
      exact ⟨upload, grown isDone, same⟩
    · exact new

/-- A job is completed only where its attempt returns. -/
theorem completed_of_resume {pool after : Pool} {url : Bytes} {number : Nat} {fails : Bool}
    (stepped : pool.step (.resume url number fails) = some after) :
    ∀ ticket ∈ after.executed, ticket ∈ pool.executed ∨
      (pool.worker number).point = .running ticket ∧ fails = false := by
  intro ticket member
  rw [(Pool.recorded_of_resume stepped).2] at member
  rcases List.mem_append.mp member with old | new
  · exact Or.inl old
  · exact Or.inr (Worker.done_of_resume (Option.mem_toList.mp new))

/-- An attempt that fails has had the effect of its upload or none, and one that returns
has had it. -/
theorem Copying.attempt (copying : Copying syncs files store done world)
    (ready : ReadyFor files (syncs.flatMap EntrySync.jobs)) {number : Nat} {broken : Bool}
    {token : Bytes} {service : Service} {pool : Pool} (ordered : pool.KeepsOrder)
    (added : pool.added = world.pool.added) {ticket : Ticket}
    (wasAdded : ticket ∈ world.pool.added)
    (running : (world.pool.worker number).point = .running ticket)
    (accepts : service.Accepts token files ticket.job)
    (completed : ∀ other ∈ pool.executed, other ∈ world.pool.executed ∨
      (world.pool.worker number).point = .running other ∧
        (world.pool.worker number).fails token service broken = false) :
    ∃ later, Copying syncs files store later
      ⟨pool, (world.pool.worker number).leaves token service files world.store⟩ := by
  obtain ⟨upload, queued, same⟩ := copying.added ticket wasAdded
  rw [Worker.leaves_of_running running, same]
  rw [same] at accepts
  have single : ReadyFor files [upload] := by
    intro other member
    rw [List.mem_singleton.mp member]
    exact ready upload queued
  have grown : done ⊆ done ++ [upload] := List.subset_append_left done [upload]
  have among : done ++ [upload] ⊆ syncs.flatMap EntrySync.jobs :=
    List.append_subset.mpr ⟨copying.among, List.cons_subset.mpr ⟨queued, List.nil_subset _⟩⟩
  have once : uploadOne files world.store upload = uploadAll files (done ++ [upload]) store := by
    unfold uploadAll
    rw [List.foldl_append, copying.objects]
    rfl
  by_cases returned : ((uploadJob upload).go token service.around).result = .ok ()
  · rw [storeBehind_of_returned single accepts returned, once]
    refine ⟨done ++ [upload], copying.extend ordered added grown among rfl ?_⟩
    intro other member
    rcases completed other member with old | ⟨new, _well⟩
    · exact Or.inl old
    · obtain rfl := SwitchPoint.running.inj (running.symm.trans new)
      exact Or.inr ⟨upload, List.mem_append_right _ List.mem_cons_self, same⟩
  · have old : ∀ other ∈ pool.executed, other ∈ world.pool.executed := by
      intro other member
      rcases completed other member with old | ⟨_new, well⟩
      · exact old
      · have ended := Worker.returned_of_not_fails running well
        rw [same] at ended
        exact absurd ended returned
    rcases @storeBehind_cases files world.store upload service token single accepts with
      idle | sent
    · rw [idle]
      exact ⟨done, copying.extend ordered added (List.Subset.refl done) copying.among
        copying.objects fun other member => Or.inl (old other member)⟩
    · rw [sent, once]
      exact ⟨done ++ [upload], copying.extend ordered added grown among rfl
        fun other member => Or.inl (old other member)⟩

theorem Copying.resume (copying : Copying syncs files store done world)
    (ready : ReadyFor files (syncs.flatMap EntrySync.jobs)) {url : Bytes} {number : Nat}
    {broken : Bool} {token : Bytes} {service : Service}
    (allowed : ∀ ticket, (world.pool.worker number).point = .running ticket →
      service.Accepts token files ticket.job)
    (stepped : world.step files (.resume url number broken token service) = some next) :
    ∃ later, Copying syncs files store later next := by
  obtain ⟨pool, poolStepped, rfl⟩ := Option.map_eq_some_iff.mp stepped
  have ordered := copying.ordered.step poolStepped
  obtain ⟨added, _executed⟩ := Pool.recorded_of_resume poolStepped
  have listed := (Pool.step_resume_cases poolStepped).1
  have completed := completed_of_resume poolStepped
  by_cases attempts : ∃ ticket, (world.pool.worker number).point = .running ticket
  · obtain ⟨ticket, running⟩ := attempts
    exact copying.attempt ready ordered added (running_added copying.ordered listed running)
      running (allowed ticket running) completed
  · rw [Worker.leaves_of_no_attempt attempts]
    refine ⟨done, copying.extend ordered added (List.Subset.refl done) copying.among
      copying.objects ?_⟩
    intro ticket member
    rcases completed ticket member with old | ⟨new, _well⟩
    · exact Or.inl old
    · exact absurd ⟨ticket, new⟩ attempts

theorem copying_of_run {start : StoreWorld} (copying : Copying syncs files store done start)
    (ready : ReadyFor files (syncs.flatMap EntrySync.jobs))
    (run : Runs.Run (step files) (Accepting syncs files) start world) :
    ∃ later, Copying syncs files store later world := by
  apply Runs.invariant_of_run run ⟨done, copying⟩
  intro before label after reached allowed stepped
  obtain ⟨reachedDone, here⟩ := reached
  cases label with
  | request url job => exact ⟨reachedDone, here.request allowed stepped⟩
  | resume url number broken token service => exact here.resume ready allowed stepped

end StoreWorld

/-- However the requests of the synchronisations and the steps of the workers are mixed
and whatever fails on the way, as long as no attempt returns whose file has not been
accepted: when every job is completed, each file of each entry has its copy, and no
other object has changed. -/
theorem synced_in_parallel {syncs : List EntrySync} {world : FileWorld}
    (finds : ∀ sync ∈ syncs, sync.Finds world) (separate : syncs.Pairwise EntrySync.Apart)
    {final : StoreWorld}
    (run : Runs.Run (StoreWorld.step world.files) (StoreWorld.Accepting syncs world.files)
      { store := world.store } final)
    (requested : ∀ upload ∈ syncs.flatMap EntrySync.jobs, ∃ ticket ∈ final.pool.added,
      ticket.job = uploadJob upload)
    (completed : ∀ ticket ∈ final.pool.added, ticket ∈ final.pool.executed) :
    (∀ sync ∈ syncs, ∀ path dest content, sync.Copies world.files path dest content →
        final.store dest.path = some content) ∧
      ∀ name, (∀ sync ∈ syncs, ∀ path dest content,
        sync.Copies world.files path dest content → dest.path ≠ name) →
          final.store name = world.store name := by
  have ready : ReadyFor world.files (syncs.flatMap EntrySync.jobs) := by
    intro job queued content there _nonempty
    obtain ⟨sync, member, own⟩ := List.mem_flatMap.mp queued
    exact ((finds sync member).kept own there).ready
  have initially : StoreWorld.Copying syncs world.files world.store [] { store := world.store } :=
    ⟨Pool.keepsOrder_empty, fun _ticket none => absurd none List.not_mem_nil,
      List.nil_subset _, rfl, fun _ticket none => absurd none List.not_mem_nil⟩
  obtain ⟨done, copying⟩ := StoreWorld.copying_of_run initially ready run
  have all : syncs.flatMap EntrySync.jobs ⊆ done := by
    intro upload queued
    obtain ⟨ticket, added, same⟩ := requested upload queued
    obtain ⟨other, isDone, sameJob⟩ := copying.completed ticket (completed ticket added)
    obtain ⟨source, dest⟩ := Job.upload.inj (same.symm.trans sameJob)
    obtain rfl : upload = other := Prod.ext source dest
    exact isDone
  rw [copying.objects]
  constructor
  · intro sync member path dest content copies
    exact copied_in_any_order finds separate copying.among all member copies
  · intro name foreign
    exact untouched_in_any_order finds copying.among foreign

/-! ### Two entries -/

def neighbourWorld : FileWorld where
  files path := if path = text "/d/f" ∨ path = text "/e/f" then some (text "x") else none
  daemon := none
  store _name := none

theorem neighbourWorld_files {path content : Bytes}
    (found : neighbourWorld.files path = some content) :
    (path = text "/d/f" ∨ path = text "/e/f") ∧ content = text "x" := by
  obtain ⟨either, same⟩ := Option.ite_none_right_eq_some.mp found
  exact ⟨either, (Option.some.inj same).symm⟩

theorem neighbourWorld_paths {path content : Bytes} (directory : Bytes) {mine : Bytes}
    (single : ∀ file ∈ [text "/d/f", text "/e/f"], directory <+: file → file = mine)
    (found : neighbourWorld.files path = some content) (within : directory <+: path) :
    path = mine ∧ content = text "x" := by
  obtain ⟨either, rfl⟩ := neighbourWorld_files found
  have listed : path ∈ [text "/d/f", text "/e/f"] := by
    rcases either with rfl | rfl
    · exact List.mem_cons_self
    · exact List.mem_cons_of_mem _ List.mem_cons_self
  exact ⟨single path listed within, rfl⟩

def sampleSync : EntrySync :=
  ⟨sampleSetting, newFile, [text "/d/f"]⟩

def neighbourSync : EntrySync :=
  ⟨neighbourSetting, sampleSurroundings [(text "/e/f", some (1, 1))] (by decide) [],
    [text "/e/f"]⟩

theorem sampleSync_finds : sampleSync.Finds neighbourWorld where
  surveyed :=
    @surveyed_of_single _ _ _ (text "x") _ rfl rfl rfl rfl (by decide) rfl
      fun _path _content own =>
        have ⟨isFile, found⟩ := FileSetting.ownFiles_eq_some_iff.mp own
        neighbourWorld_paths (text "/d") (by decide) found (prefix_of_sampleFile isFile)
  owned := by
    intro path listed content _found
    rw [List.mem_singleton.mp listed]
    exact ⟨1, text "f", by decide⟩

theorem neighbourSync_finds : neighbourSync.Finds neighbourWorld where
  surveyed :=
    @surveyed_of_single _ _ _ (text "x") _ rfl rfl rfl rfl (by decide) rfl
      fun _path _content own =>
        have ⟨isFile, found⟩ := FileSetting.ownFiles_eq_some_iff.mp own
        neighbourWorld_paths (text "/e") (by decide) found (prefix_of_neighbourFile isFile)
  owned := by
    intro path listed content _found
    rw [List.mem_singleton.mp listed]
    exact ⟨2, text "f", by decide⟩

def sampleUpload : Bytes × URL :=
  sampleSync.jobs.head (by decide)

def neighbourUpload : Bytes × URL :=
  neighbourSync.jobs.head (by decide)

/-- The answer to an upload is cut short by an exception that no handler catches. -/
def cutShort (upload : Bytes × URL) : Service where
  around :=
    { sampleSetting.attemptSurroundings neighbourWorld upload.1 upload.2 with
      putResponse := .error ⟨false, false, false, fun wrong => wrong⟩ }
  carriesOut _request := true

theorem cutShort_fails :
    ((uploadJob sampleUpload).go (text "t") (cutShort sampleUpload).around).result.toOption =
      none := by
  decide

theorem cutShort_accepts :
    (cutShort sampleUpload).Accepts (text "t") neighbourWorld.files (uploadJob sampleUpload) where
  measured := (accepts_of_goodService sampleSetting neighbourWorld
    (by decide : sampleUpload.1 ≠ []) (text "t")).measured
  accepted returned := by
    have failed := cutShort_fails
    rw [returned] at failed
    cases failed

def neighbourService (upload : Bytes × URL) : Service :=
  sampleSetting.goodService neighbourWorld (uploadJob upload)

theorem neighbourService_accepts {upload : Bytes × URL} (named : upload.1 ≠ []) :
    (neighbourService upload).Accepts (text "t") neighbourWorld.files (uploadJob upload) :=
  accepts_of_goodService sampleSetting neighbourWorld named (text "t")

/-- The jobs come in the other order, to two workers, and the first attempt of one fails
behind the upload. -/
def neighbourSchedule : List StoreLabel :=
  [.request sampleBase.raw (some (uploadJob neighbourUpload)),
    .request sampleBase.raw (some (uploadJob sampleUpload))] ++
    [(0, neighbourService neighbourUpload), (1, neighbourService sampleUpload),
      (0, neighbourService neighbourUpload), (1, neighbourService sampleUpload),
      (1, cutShort sampleUpload), (0, neighbourService neighbourUpload),
      (1, neighbourService sampleUpload), (1, neighbourService sampleUpload)].map fun resumed =>
        .resume sampleBase.raw resumed.1 false (text "t") resumed.2

theorem neighbourSchedule_replay :
    (Runs.replay (StoreWorld.step neighbourWorld.files) { store := neighbourWorld.store }
      neighbourSchedule).isSome = true := by
  decide

def Worker.attempted (worker : Worker) : Option Job :=
  match worker.point with
  | .running ticket => some ticket.job
  | _ => none

theorem accepting_of_attempted {worker : Worker} {files : Bytes → Option Bytes} {token : Bytes}
    {service : Service} {job : Job} (known : worker.attempted.all (· = job) = true)
    (accepts : service.Accepts token files job) :
    ∀ ticket, worker.point = .running ticket → service.Accepts token files ticket.job := by
  intro ticket running
  unfold Worker.attempted at known
  rw [running] at known
  rw [of_decide_eq_true known]
  exact accepts

theorem neighbourSchedule_accepting :
    Runs.Along (StoreWorld.step neighbourWorld.files)
      (fun world label _next =>
        StoreWorld.Accepting [sampleSync, neighbourSync] neighbourWorld.files world label)
      { store := neighbourWorld.store } neighbourSchedule := by
  refine ⟨?_, ?_, ?_, ?_, ?_, ?_, ?_, ?_, ?_, ?_, trivial⟩
  · rintro _ ⟨⟩
    exact ⟨neighbourUpload, by decide, rfl⟩
  · rintro _ ⟨⟩
    exact ⟨sampleUpload, by decide, rfl⟩
  · exact accepting_of_attempted (by decide) (neighbourService_accepts (by decide))
  · exact accepting_of_attempted (by decide) (neighbourService_accepts (by decide))
  · exact accepting_of_attempted (by decide) (neighbourService_accepts (by decide))
  · exact accepting_of_attempted (by decide) (neighbourService_accepts (by decide))
  · exact accepting_of_attempted (by decide) cutShort_accepts
  · exact accepting_of_attempted (by decide) (neighbourService_accepts (by decide))
  · exact accepting_of_attempted (by decide) (neighbourService_accepts (by decide))
  · exact accepting_of_attempted (by decide) (neighbourService_accepts (by decide))

theorem synced_in_parallel_sample :
    ∃ final : StoreWorld, final.pool.executed.length = 2 ∧
      ∀ path dest content, neighbourSync.Copies neighbourWorld.files path dest content →
        final.store dest.path = some content := by
  let final := (Runs.replay (StoreWorld.step neighbourWorld.files)
    { store := neighbourWorld.store } neighbourSchedule).get neighbourSchedule_replay
  have finds : ∀ sync ∈ [sampleSync, neighbourSync], sync.Finds neighbourWorld := by
    intro sync member
    rcases List.mem_cons.mp member with rfl | rest
    · exact sampleSync_finds
    · rw [List.mem_singleton.mp rest]
      exact neighbourSync_finds
  have separate : [sampleSync, neighbourSync].Pairwise EntrySync.Apart :=
    List.pairwise_pair.mpr neighbour_apart.roots
  have run := Runs.run_of_along (Option.some_get neighbourSchedule_replay).symm
    neighbourSchedule_accepting
  refine ⟨final, by decide, ?_⟩
  exact (synced_in_parallel finds separate run
    (by decide : ∀ upload ∈ [sampleSync, neighbourSync].flatMap EntrySync.jobs,
      ∃ ticket ∈ final.pool.added, ticket.job = uploadJob upload)
    (by decide : ∀ ticket ∈ final.pool.added, ticket ∈ final.pool.executed)).1
      neighbourSync (List.mem_cons_of_mem _ List.mem_cons_self)

end Cdnalizerd
