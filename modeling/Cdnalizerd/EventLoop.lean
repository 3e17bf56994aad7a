/-
The loop over the events of the watched directories.

The handlers of `watchForFileChanges` stand outside the loop, so the loop goes
on exactly as long as no event throws.
-/

import Cdnalizerd.MainProcess

namespace Cdnalizerd

open Library

/-! ### Tables of the instance -/

theorem watchFromHandle_eq_ok_iff {inotify : Inotify} {handle : Int} {path : Bytes} :
    inotify.watchFromHandle handle = .ok path ↔ inotify.watches handle = some path := by
  unfold Inotify.watchFromHandle
  cases inotify.watches handle with
  | none => simp
  | some found => simp

theorem addWatch_returns_iff {kernel : Bytes → Except Nat Nat} {inotify : Inotify}
    {path : Bytes} {mask : UInt32} :
    (inotify.addWatch kernel path mask).Returns ↔
      inotify.paths path = none ∧ ∃ handle, kernel path = .ok handle := by
  constructor
  · rintro ⟨outcome, returned⟩
    obtain ⟨unwatched, handle, answered, _entered⟩ := Inotify.addWatch_of_returned returned
    exact ⟨unwatched, handle, answered⟩
  · rintro ⟨unwatched, handle, answered⟩
    cases taken : inotify.watches handle with
    | none =>
        rw [Inotify.addWatch_of_new unwatched answered taken]
        exact ⟨_, rfl⟩
    | some kept =>
        rw [Inotify.addWatch_of_taken unwatched answered taken]
        exact ⟨_, rfl⟩

theorem removeWatch_returns (inotify : Inotify) (handle : Int) :
    (inotify.removeWatch handle).Returns := by
  unfold Inotify.removeWatch
  cases inotify.watches handle with
  | some path => exact ⟨_, rfl⟩
  | none => exact ⟨_, rfl⟩

theorem watchNewDirectory_returns_iff {kernel : Bytes → Except Nat Nat} {entry : ConfigEntry}
    {daemon : Daemon} {path : Bytes} :
    (watchNewDirectory kernel entry daemon path).Returns ↔
      entry.shouldIgnoreDirectory path = true ∨
        daemon.inotify.paths path = none ∧ ∃ handle, kernel path = .ok handle := by
  unfold watchNewDirectory
  by_cases rejected : entry.shouldIgnoreDirectory path = true
  · simp [rejected]
  · rw [if_neg rejected, Traced.returns_bind_of_forall, addWatch_returns_iff, or_iff_right rejected]
    intro outcome
    exact ⟨_, rfl⟩

/-! ### When the handling of an event returns -/

def Located.Builds (located : Located) : Prop :=
  ∃ dest, located.destination = .ok dest

section Events

variable {accounts : AccountCache} {around : EventSurroundings} {daemon : Daemon} {event : Event}

theorem handleClosed_returns_iff {located : Located} :
    (handleClosed around located).Returns ↔
      ∃ size, around.fileSize located.localFile = .ok size ∧
        (0 < size → located.entry.shouldIgnoreFile located.localFile = false →
          located.Builds) := by
  unfold handleClosed Located.Builds
  rw [Traced.returns_ask_bind_iff]
  apply exists_congr
  intro size
  apply and_congr_right
  intro _read
  by_cases nonempty : 0 < size
  · by_cases rejected : located.entry.shouldIgnoreFile located.localFile = true
    · simp [nonempty, rejected]
    · simp [nonempty, rejected, Traced.returns_ask_bind_iff]
  · simp [nonempty]

theorem handleDeleted_returns_iff {located : Located} :
    (handleDeleted event located).Returns ↔
      (event.isDir = false → located.entry.shouldIgnoreFile located.localFile = false →
        located.Builds) := by
  unfold handleDeleted Located.Builds
  by_cases directory : event.isDir = true
  · simp [directory]
  · by_cases rejected : located.entry.shouldIgnoreFile located.localFile = true
    · simp [directory, rejected]
    · simp [directory, rejected, Traced.returns_ask_bind_iff]

/-- What the branch that an event takes relies on. -/
def Dispatchable (around : EventSurroundings) (daemon : Daemon) (event : Event)
    (located : Located) : Prop :=
  if event.wasClosed then
    ∃ size, around.fileSize located.localFile = .ok size ∧
      (0 < size → located.entry.shouldIgnoreFile located.localFile = false → located.Builds)
  else if event.wasIgnored then True
  else if event.wasDeleted then
    event.isDir = false → located.entry.shouldIgnoreFile located.localFile = false →
      located.Builds
  else if event.wasCreated ∧ event.isDir then
    located.entry.shouldIgnoreDirectory located.localFile = true ∨
      daemon.inotify.paths located.localFile = none ∧
        ∃ handle, around.addWatch located.localFile = .ok handle
  else True

theorem dispatch_returns_iff {located : Located} :
    (dispatch around daemon event located).Returns ↔
      Dispatchable around daemon event located := by
  unfold dispatch Dispatchable
  by_cases closed : event.wasClosed = true
  · rw [if_pos closed, if_pos closed, ← handleClosed_returns_iff]
    exact Traced.returns_bind_of_forall (fun _done => Traced.returns_pure daemon)
  rw [if_neg closed, if_neg closed]
  by_cases ignored : event.wasIgnored = true
  · rw [if_pos ignored, if_pos ignored, Traced.returns_bind_of_forall (fun _inotify => ⟨_, rfl⟩)]
    exact iff_of_true (removeWatch_returns daemon.inotify event.wd) trivial
  rw [if_neg ignored, if_neg ignored]
  by_cases deleted : event.wasDeleted = true
  · rw [if_pos deleted, if_pos deleted, ← handleDeleted_returns_iff]
    exact Traced.returns_bind_of_forall (fun _done => Traced.returns_pure daemon)
  rw [if_neg deleted, if_neg deleted]
  by_cases created : event.wasCreated = true
  · by_cases directory : event.isDir = true
    · rw [if_pos created, if_pos directory, if_pos ⟨created, directory⟩]
      exact watchNewDirectory_returns_iff
    · rw [if_pos created, if_neg directory, if_neg (fun both => directory both.2)]
      exact iff_of_true (Traced.returns_pure daemon) trivial
  · rw [if_neg created, if_neg (fun both => created both.1)]
    exact iff_of_true (Traced.returns_pure daemon) trivial

/-- The watch is recorded, the account and the region of its entry are known,
the relative path can be taken, and the event's own branch has what it needs. -/
def Handleable (accounts : AccountCache) (around : EventSurroundings) (daemon : Daemon)
    (event : Event) : Prop :=
  ∃ path rs url localRelativePath,
    daemon.inotify.watches event.wd = some path ∧
    accounts (daemon.entryOf event.wd).username = some rs ∧
    rs.getURL (daemon.entryOf event.wd).region (daemon.entryOf event.wd).snet = .ok url ∧
    around.relative (appendPath path event.name) (daemon.entryOf event.wd).localDir =
      .ok localRelativePath ∧
    Dispatchable around daemon event
      ⟨daemon.entryOf event.wd, url, appendPath path event.name, localRelativePath⟩

theorem findAccount_eq_ok_iff {username : Bytes} {rs : Rackspace} :
    findAccount accounts username = .ok rs ↔ accounts username = some rs := by
  unfold findAccount
  cases accounts username with
  | none => simp
  | some found => simp

theorem handleEvent_returns_iff :
    (handleEvent accounts around daemon event).Returns ↔
      Handleable accounts around daemon event := by
  unfold handleEvent locate Handleable
  simp only [Traced.bind_assoc, Traced.returns_ask_bind_iff, Traced.returns_emit_bind_iff,
    Traced.pure_bind, dispatch_returns_iff, watchFromHandle_eq_ok_iff, findAccount_eq_ok_iff]
  constructor
  · rintro ⟨path, recorded, rs, login, url, endpoint, localRelativePath, taken, ready⟩
    exact ⟨path, rs, url, localRelativePath, recorded, login, endpoint, taken, ready⟩
  · rintro ⟨path, rs, url, localRelativePath, recorded, login, endpoint, taken, ready⟩
    exact ⟨path, recorded, rs, login, url, endpoint, localRelativePath, taken, ready⟩

theorem dispatch_of_closed {located : Located} (kind : event.mask = inCloseWrite) :
    dispatch around daemon event located =
      handleClosed around located >>= fun _done => pure daemon := by
  have closed : event.wasClosed = true := (Event.has_of_mask kind _).trans (by decide)
  unfold dispatch
  rw [if_pos closed]

theorem dispatch_of_deleted_file {located : Located} (kind : event.mask = inDelete) :
    dispatch around daemon event located =
      handleDeleted event located >>= fun _done => pure daemon := by
  have tests : event.wasClosed = false ∧ event.wasIgnored = false ∧ event.wasDeleted = true := by
    unfold Event.wasClosed Event.wasIgnored Event.wasDeleted
    simp only [Event.has_of_mask kind]
    decide
  unfold dispatch
  rw [tests.1, tests.2.1, tests.2.2]
  rfl

/-- Of the tests in the chain a creation passes the last one. -/
theorem dispatch_of_created {located : Located}
    (kind : event.mask = inCreate ∨ event.mask = inCreate ||| inIsDir) :
    dispatch around daemon event located =
      if event.isDir then
        watchNewDirectory around.addWatch located.entry daemon located.localFile
      else pure daemon := by
  have tests : event.wasClosed = false ∧ event.wasIgnored = false ∧
      event.wasDeleted = false ∧ event.wasCreated = true := by
    unfold Event.wasClosed Event.wasIgnored Event.wasDeleted Event.wasCreated
    rcases kind with file | directory
    · simp only [Event.has_of_mask file]
      decide
    · simp only [Event.has_of_mask directory]
      decide
  unfold dispatch
  rw [tests.1, tests.2.1, tests.2.2.1, tests.2.2.2]
  rfl

theorem dispatch_of_created_file {located : Located} (kind : event.mask = inCreate) :
    dispatch around daemon event located = pure daemon := by
  have file : event.isDir = false := (Event.has_of_mask kind _).trans (by decide)
  rw [dispatch_of_created (Or.inl kind), file]
  rfl

theorem dispatch_of_created_directory {located : Located}
    (kind : event.mask = inCreate ||| inIsDir) :
    dispatch around daemon event located =
      watchNewDirectory around.addWatch located.entry daemon located.localFile := by
  have directory : event.isDir = true := (Event.has_of_mask kind _).trans (by decide)
  rw [dispatch_of_created (Or.inr kind), directory]
  rfl

theorem dispatch_of_moved {located : Located}
    (kind : event.mask = inMovedFrom ∨ event.mask = inMovedTo ∨
      event.mask = inMovedTo ||| inIsDir) :
    dispatch around daemon event located = pure daemon := by
  have tests : event.wasClosed = false ∧ event.wasIgnored = false ∧
      event.wasDeleted = false ∧ event.wasCreated = false := by
    unfold Event.wasClosed Event.wasIgnored Event.wasDeleted Event.wasCreated
    rcases kind with movedFrom | movedTo | directory
    · simp only [Event.has_of_mask movedFrom]
      decide
    · simp only [Event.has_of_mask movedTo]
      decide
    · simp only [Event.has_of_mask directory]
      decide
  unfold dispatch
  rw [tests.1, tests.2.1, tests.2.2.1, tests.2.2.2]
  rfl

theorem handleEvent_of_recorded {path : Bytes} {entry : ConfigEntry} {rs : Rackspace} {url : URL}
    {localRelativePath : Bytes} (recorded : daemon.inotify.watches event.wd = some path)
    (configured : daemon.watchToConfig event.wd = some entry)
    (login : accounts entry.username = some rs)
    (endpoint : rs.getURL entry.region entry.snet = .ok url)
    (taken : around.relative (appendPath path event.name) entry.localDir =
      .ok localRelativePath) :
    handleEvent accounts around daemon event =
      Traced.emit (.request (.getWorker url.raw)) >>= fun _ =>
        dispatch around daemon event
          ⟨entry, url, appendPath path event.name, localRelativePath⟩ := by
  have entry_eq : daemon.entryOf event.wd = entry := by
    unfold Daemon.entryOf
    rw [configured, Option.getD_some]
  have unchanged : Function.update daemon.watchToConfig event.wd (some entry) =
      daemon.watchToConfig := by
    rw [← configured]
    exact Function.update_eq_self _ _
  unfold handleEvent locate
  simp only [Traced.bind_assoc, entry_eq, watchFromHandle_eq_ok_iff.mpr recorded,
    findAccount_eq_ok_iff.mpr login, endpoint, taken, Traced.ask_ok_bind, Traced.pure_bind,
    unchanged]

/-! ### Runs of the loop -/

/-- The loop has handled every event and waits for the next one exactly if
each event was handleable when it was read. -/
theorem watchLoop_goes_on_iff (accounts : AccountCache) (daemon : Daemon)
    (delivered : List Delivery) :
    (watchLoop accounts daemon delivered).Returns ↔
      ∀ earlier delivery later, delivered = earlier ++ delivery :: later →
        ∀ reached, (watchLoop accounts daemon earlier).result = .ok reached →
          Handleable accounts delivery.around reached delivery.event := by
  induction delivered generalizing daemon with
  | nil =>
      refine iff_of_true (Traced.returns_pure daemon) ?_
      intro earlier delivery later split
      cases earlier with
      | nil => cases split
      | cons _ _ => cases split
  | cons first rest ih =>
      have unfolded : watchLoop accounts daemon (first :: rest) =
          handleEvent accounts first.around daemon first.event >>= fun next =>
            watchLoop accounts next rest := rfl
      rw [unfolded, Traced.returns_bind_iff]
      constructor
      · rintro ⟨next, handled, goesOn⟩ earlier delivery later split reached before
        cases earlier with
        | nil =>
            obtain ⟨rfl, rfl⟩ := List.cons.inj split
            obtain rfl := Except.ok.inj before
            exact handleEvent_returns_iff.mp ⟨next, handled⟩
        | cons front earlier =>
            obtain ⟨rfl, rfl⟩ := List.cons.inj split
            obtain ⟨middle, handledAgain, onward⟩ :=
              Traced.bind_result_eq_ok_iff.mp before
            rw [handled] at handledAgain
            obtain rfl := Except.ok.inj handledAgain
            exact (ih next).mp goesOn earlier delivery later rfl reached onward
      · intro handleable
        obtain ⟨next, handled⟩ :=
          handleEvent_returns_iff.mpr (handleable [] first rest rfl daemon rfl)
        refine ⟨next, handled, (ih next).mpr ?_⟩
        intro earlier delivery later split reached before
        apply handleable (first :: earlier) delivery later (by rw [split]; rfl) reached
        exact Traced.bind_result_eq_ok_iff.mpr ⟨next, handled, before⟩

end Events

/-- The events of a queue that overflowed are lost, and with them the loop: the
event that says so carries no watch handle. -/
theorem overflow_ends_the_loop :
    ∃ daemon,
      (createINotifyWatches (LocalTree.ofEntries [] (by decide)) (fun _path => .ok 1)
        [sampleEntry]).result = .ok daemon ∧
      ∀ around later,
        ¬ (watchLoop sampleAccounts daemon (⟨⟨-1, inQOverflow, []⟩, around⟩ :: later)).Returns := by
  refine ⟨_, rfl, ?_⟩
  rintro around later ⟨final, returned⟩
  cases returned

end Cdnalizerd
