/-
Runs in which directories come into being.

Either a directory has its watch, or the report of its creation is still
queued: this holds as long as every directory is created where the daemon
already looks.
-/

import Cdnalizerd.DirectoryWatches

namespace Cdnalizerd

open Library BoundedQueue

def Creates (kernel : Kernel) (event : Event) (path : Bytes) : Prop :=
  event.mask = inCreate ||| inIsDir ∧
    ∃ parent, event.wd = kernel.handleOf parent ∧ path = appendPath parent event.name

theorem Creates.unique {kernel : Kernel} {event : Event} {left right : Bytes}
    (creates : Creates kernel event left) (again : Creates kernel event right) :
    left = right := by
  obtain ⟨_mask, parent, wd, rfl⟩ := creates
  obtain ⟨_mask', other, wd', rfl⟩ := again
  rw [wd] at wd'
  rw [kernel.injective (Int.ofNat.inj wd')]

/-- What holds along a run: the kernel marks what the instance has recorded,
and an accepted directory is recorded or its creation is queued. -/
structure Followed (kernel : Kernel) (entries : List ConfigEntry) (world : DirectoryWorld)
    (daemon : Daemon) : Prop where
  alive : world.daemon = some daemon
  marked : world.marks = daemon.inotify.watches
  recorded : Recorded kernel entries world.directories daemon
  watched : ∀ event ∈ world.queue, ∃ parent, daemon.inotify.watches event.wd = some parent
  reported : ∀ event ∈ world.queue, event.mask = inMovedTo ||| inIsDir ∨
    ∃ path ∈ world.directories, Creates kernel event path ∧ ¬ daemon.Records path
  distinct : world.queue.Pairwise fun earlier later =>
    ∀ path, Creates kernel earlier path → ¬ Creates kernel later path
  covered : ∀ entry ∈ entries, ∀ path ∈ world.directories,
    isBelow entry.localDir path = true → entry.shouldIgnoreDirectory path = false →
      daemon.Records path ∨ ∃ event ∈ world.queue, Creates kernel event path ∧
        ∃ taker, daemon.watchToConfig event.wd = some taker ∧
          taker.shouldIgnoreDirectory path = false

variable {kernel : Kernel} {accounts : AccountCache} {entries : List ConfigEntry}
  {world : DirectoryWorld} {daemon next : Daemon}

/-- An event is handled, and its directory recorded at most. -/
theorem Followed.pop (followed : Followed kernel entries world daemon) {event : Event}
    {rest : List Event} (queued : world.queue = event :: rest)
    (recorded : Recorded kernel entries world.directories next)
    (kept : ∀ handle path, daemon.inotify.watches handle = some path →
      next.inotify.watches handle = some path ∧
        next.watchToConfig handle = daemon.watchToConfig handle)
    (older : ∀ path, daemon.Records path → next.Records path)
    (newer : ∀ path, next.Records path → daemon.Records path ∨ Creates kernel event path)
    (taken : ∀ path taker, Creates kernel event path →
      daemon.watchToConfig event.wd = some taker → taker.shouldIgnoreDirectory path = false →
        next.Records path) :
    Followed kernel entries
      { world with
        marks := next.inotify.watches
        queue := rest
        daemon := some next } next := by
  have among (other : Event) (member : other ∈ rest) : other ∈ world.queue := by
    rw [queued]
    exact List.mem_cons_of_mem event member
  have distinct := followed.distinct
  rw [queued, List.pairwise_cons] at distinct
  refine ⟨rfl, rfl, recorded, ?_, ?_, distinct.2, ?_⟩
  · intro other member
    obtain ⟨parent, watched⟩ := followed.watched other (among other member)
    exact ⟨parent, (kept _ _ watched).1⟩
  · intro other member
    rcases followed.reported other (among other member) with moved | ⟨path, there, creates, not⟩
    · exact Or.inl moved
    · refine Or.inr ⟨path, there, creates, ?_⟩
      intro records
      rcases newer path records with before | created
      · exact not before
      · exact distinct.1 other member path created creates
  · intro entry member path there below accepted
    rcases followed.covered entry member path there below accepted with
      records | ⟨other, queuedOther, creates, taker, configured, takes⟩
    · exact Or.inl (older path records)
    · rw [queued] at queuedOther
      rcases List.mem_cons.mp queuedOther with rfl | later
      · exact Or.inl (taken path taker creates configured takes)
      · obtain ⟨parent, watched⟩ := followed.watched other (among other later)
        refine Or.inr ⟨other, later, creates, taker, ?_, takes⟩
        rw [(kept _ _ watched).2]
        exact configured

def Served (accounts : AccountCache) (entries : List ConfigEntry) : Prop :=
  ∀ entry ∈ entries, ∃ rs url, accounts entry.username = some rs ∧
    rs.getURL entry.region entry.snet = .ok url

/-- The watch an event came from is the one on the directory it is about. -/
theorem Followed.path_eq (followed : Followed kernel entries world daemon) {event : Event}
    {parent path : Bytes} (watched : daemon.inotify.watches event.wd = some parent)
    (creates : Creates kernel event path) : appendPath parent event.name = path := by
  have wd := followed.recorded.handle_eq _ _ watched
  obtain ⟨_mask, other, wd', rfl⟩ := creates
  rw [wd] at wd'
  rw [kernel.injective (Int.ofNat.inj wd')]

theorem Followed.popRejected (followed : Followed kernel entries world daemon) {event : Event}
    {rest : List Event} (queued : world.queue = event :: rest) {path : Bytes}
    {entry : ConfigEntry} (configured : daemon.watchToConfig event.wd = some entry)
    (creates : Creates kernel event path)
    (rejected : entry.shouldIgnoreDirectory path = true) :
    Followed kernel entries
      { world with
        marks := daemon.inotify.watches
        queue := rest
        daemon := some daemon } daemon := by
  apply followed.pop queued followed.recorded
  · intro handle other before
    exact ⟨before, rfl⟩
  · exact fun other before => before
  · exact fun other records => Or.inl records
  · intro other taker created configuredAgain takes
    rw [configured] at configuredAgain
    obtain rfl := Option.some.inj configuredAgain
    rw [created.unique creates, rejected] at takes
    cases takes

theorem Followed.popWatching (followed : Followed kernel entries world daemon) {event : Event}
    {rest : List Event} (queued : world.queue = event :: rest) {path : Bytes}
    {entry : ConfigEntry} (member : entry ∈ entries) (there : path ∈ world.directories)
    (creates : Creates kernel event path) (free : daemon.inotify.paths path = none) :
    Followed kernel entries
      { world with
        marks := (daemon.watching path (kernel.handleOf path) entry).inotify.watches
        queue := rest
        daemon := some (daemon.watching path (kernel.handleOf path) entry) }
      (daemon.watching path (kernel.handleOf path) entry) := by
  have handleFree := followed.recorded.handle_free free
  apply followed.pop queued (followed.recorded.watching there free member)
  · intro handle other before
    have different : handle ≠ kernel.handleOf path := by
      rintro rfl
      rw [handleFree] at before
      cases before
    dsimp only [Daemon.watching]
    rw [Function.update_of_ne different, Function.update_of_ne different]
    exact ⟨before, rfl⟩
  · exact Daemon.records_watching
  · intro other records
    by_cases same : other = path
    · subst same
      exact Or.inr creates
    · dsimp only [Daemon.Records, Daemon.watching] at records
      rw [Function.update_of_ne same] at records
      exact Or.inl records
  · intro other taker created _configured _takes
    rw [created.unique creates]
    dsimp only [Daemon.Records, Daemon.watching]
    rw [Function.update_self]
    exact Option.some_ne_none _

theorem Followed.watchCreated (followed : Followed kernel entries world daemon) {event : Event}
    {rest : List Event} (queued : world.queue = event :: rest) {path : Bytes}
    {entry : ConfigEntry} (configured : daemon.watchToConfig event.wd = some entry)
    (member : entry ∈ entries) (there : path ∈ world.directories)
    (creates : Creates kernel event path) (unrecorded : ¬ daemon.Records path) :
    ∃ next, (watchNewDirectory (DirectoryWorld.addWatchAnswer kernel world.directories) entry
        daemon path).result = .ok next ∧
      (watchNewDirectory (DirectoryWorld.addWatchAnswer kernel world.directories) entry
          daemon path).trace.foldl (DirectoryWorld.applyAction kernel)
            { world with
              queue := rest
              daemon := some next } =
        { world with
          marks := next.inotify.watches
          queue := rest
          daemon := some next } ∧
      Followed kernel entries
        { world with
          marks := next.inotify.watches
          queue := rest
          daemon := some next } next := by
  have free : daemon.inotify.paths path = none := not_not.mp unrecorded
  have returns : (watchNewDirectory (DirectoryWorld.addWatchAnswer kernel world.directories)
      entry daemon path).Returns := by
    apply watchNewDirectory_returns_iff.mpr
    refine Or.inr ⟨free, kernel.handleOf path, ?_⟩
    rw [DirectoryWorld.addWatchAnswer, if_pos there]
  obtain ⟨next, returned⟩ := returns
  refine ⟨next, returned, ?_⟩
  rcases watchNewDirectory_cases followed.recorded returned with
    ⟨rejected, rfl, trace⟩ | ⟨_there, _free, rfl, trace⟩
  · refine ⟨?_, followed.popRejected queued configured creates rejected⟩
    rw [trace, List.foldl_nil, ← followed.marked]
  · refine ⟨?_, followed.popWatching queued member there creates free⟩
    rw [trace, List.foldl_cons, List.foldl_nil]
    unfold DirectoryWorld.applyAction Daemon.watching
    rw [followed.marked]

theorem Followed.handle (followed : Followed kernel entries world daemon)
    (served : Served accounts entries) {after : DirectoryWorld}
    (stepped : world.step kernel accounts .handle = some after) :
    ∃ next, Followed kernel entries after next := by
  unfold DirectoryWorld.step at stepped
  rw [followed.alive] at stepped
  cases queued : world.queue with
  | nil =>
      rw [queued] at stepped
      cases stepped
  | cons event rest =>
      rw [queued] at stepped
      obtain rfl := Option.some.inj stepped
      have first : event ∈ world.queue := by
        rw [queued]
        exact List.mem_cons_self
      obtain ⟨parent, watched⟩ := followed.watched event first
      obtain ⟨entry, member, configured⟩ := followed.recorded.configured _ _ watched
      obtain ⟨rs, url, login, endpoint⟩ := served entry member
      rw [handleEvent_of_recorded watched configured login endpoint rfl, Traced.emit_bind]
      rcases followed.reported event first with moved | ⟨path, there, creates, unrecorded⟩
      · rw [dispatch_of_moved (Or.inr (Or.inr moved))]
        refine ⟨daemon, ?_⟩
        have popped := followed.pop queued followed.recorded (fun _handle _path before =>
          ⟨before, rfl⟩) (fun _path before => before) (fun _path records => Or.inl records) ?_
        · rw [← followed.marked] at popped
          exact popped
        · intro path taker creates
          rw [creates.1] at moved
          exact absurd moved (by decide)
      · rw [followed.path_eq watched creates, dispatch_of_created_directory creates.1]
        obtain ⟨next, returned, shape, nextFollowed⟩ :=
          followed.watchCreated queued configured member there creates unrecorded
        refine ⟨next, ?_⟩
        have surroundings : (world.surroundings kernel).addWatch =
            DirectoryWorld.addWatchAnswer kernel world.directories := rfl
        rw [surroundings, returned, List.foldl_cons]
        dsimp only [DirectoryWorld.applyAction, Except.toOption]
        rw [shape]
        exact nextFollowed

/-! ### New directories -/

/-- The daemon looks at the directory, and its entry there accepts the new path. -/
def Awaited (kernel : Kernel) (daemon : Daemon) (parent path : Bytes) : Prop :=
  daemon.inotify.watches (kernel.handleOf parent) = some parent ∧
    ∃ taker, daemon.watchToConfig (kernel.handleOf parent) = some taker ∧
      taker.shouldIgnoreDirectory path = false

def Unwanted (entries : List ConfigEntry) (path : Bytes) : Prop :=
  ∀ entry ∈ entries, isBelow entry.localDir path = true →
    entry.shouldIgnoreDirectory path = true

theorem Recorded.mono {directories more : List Bytes}
    (recorded : Recorded kernel entries directories daemon) (grown : directories ⊆ more) :
    Recorded kernel entries more daemon where
  path_of_watch := recorded.path_of_watch
  watch_of_path := recorded.watch_of_path
  handle_eq := recorded.handle_eq
  known handle path watched := grown (recorded.known handle path watched)
  configured := recorded.configured

theorem Followed.not_records_of_fresh (followed : Followed kernel entries world daemon)
    {path : Bytes} (fresh : path ∉ world.directories) : ¬ daemon.Records path := by
  intro records
  obtain ⟨handle, named⟩ := Option.ne_none_iff_exists'.mp records
  exact fresh (followed.recorded.known _ _ (followed.recorded.watch_of_path _ _ named))

theorem Followed.not_creates_of_fresh (followed : Followed kernel entries world daemon)
    {path : Bytes} (fresh : path ∉ world.directories) {event : Event}
    (queued : event ∈ world.queue) : ¬ Creates kernel event path := by
  intro creates
  rcases followed.reported event queued with moved | ⟨other, there, createsOther, _unrecorded⟩
  · rw [creates.1] at moved
    exact absurd moved (by decide)
  · rw [creates.unique createsOther] at fresh
    exact fresh there

theorem Followed.grow (followed : Followed kernel entries world daemon) {new : List Bytes}
    (caught : ∀ path ∈ new, Unwanted entries path) :
    Followed kernel entries { world with directories := world.directories ++ new } daemon where
  alive := followed.alive
  marked := followed.marked
  recorded := followed.recorded.mono (List.subset_append_left _ _)
  watched := followed.watched
  reported event queued := by
    rcases followed.reported event queued with moved | ⟨path, there, creates, unrecorded⟩
    · exact Or.inl moved
    · exact Or.inr ⟨path, List.mem_append_left _ there, creates, unrecorded⟩
  distinct := followed.distinct
  covered entry member path there below accepted := by
    rcases List.mem_append.mp there with old | fresh
    · exact followed.covered entry member path old below accepted
    · rw [caught path fresh entry member below] at accepted
      cases accepted

def DirectoryWorld.HasRoom (kernel : Kernel) (world : DirectoryWorld) (parent : Bytes) : Prop :=
  world.marks (kernel.handleOf parent) = some parent →
    world.queue.length < kernel.maxQueuedEvents

theorem DirectoryWorld.report_of_looked {parent : Bytes} (room : world.HasRoom kernel parent)
    (looked : world.marks (kernel.handleOf parent) = some parent) {kind : UInt32}
    (followed : (kind ||| inIsDir) &&& maskToFollow ≠ 0) (merges : Bool) (name : Bytes) :
    ∃ queue, Gains world.queue ⟨kernel.handleOf parent, kind ||| inIsDir, name⟩ queue ∧
      world.report kernel merges parent name kind = { world with queue := queue } := by
  have kept : [(⟨kernel.handleOf parent, kind ||| inIsDir, name⟩ : Event)].filter
      (fun event => event.has maskToFollow) =
        [⟨kernel.handleOf parent, kind ||| inIsDir, name⟩] := by
    apply List.filter_eq_self.mpr
    intro event single
    rw [List.mem_singleton.mp single, Event.has_of_mask rfl]
    exact decide_eq_true followed
  unfold DirectoryWorld.report Cdnalizerd.report
  rw [if_pos looked, kept]
  exact ⟨_, gains_push (room looked) merges _, rfl⟩

theorem Followed.watched_gained (followed : Followed kernel entries world daemon)
    {parent : Bytes} (looked : world.marks (kernel.handleOf parent) = some parent)
    {mask : UInt32} {name : Bytes} {queue : List Event}
    (gains : Gains world.queue ⟨kernel.handleOf parent, mask, name⟩ queue) :
    ∀ event ∈ queue, ∃ path, daemon.inotify.watches event.wd = some path := by
  intro event queued
  rcases gains.mem queued with old | rfl
  · exact followed.watched event old
  · rw [followed.marked] at looked
    exact ⟨parent, looked⟩

/-- A report of a move is nothing that a directory waits for. -/
theorem Followed.reportMove (followed : Followed kernel entries world daemon)
    {parent : Bytes} (room : world.HasRoom kernel parent) (merges : Bool) (name : Bytes) :
    Followed kernel entries (world.report kernel merges parent name inMovedTo) daemon := by
  by_cases looked : world.marks (kernel.handleOf parent) = some parent
  · obtain ⟨queue, gains, reported⟩ :=
      @DirectoryWorld.report_of_looked kernel world parent room looked inMovedTo (by decide)
        merges name
    rw [reported]
    refine ⟨followed.alive, followed.marked, followed.recorded,
      followed.watched_gained looked gains, ?_, ?_, ?_⟩
    · intro event queued
      rcases gains.mem queued with old | rfl
      · exact followed.reported event old
      · exact Or.inl rfl
    · apply gains.pairwise followed.distinct
      intro earlier _old path _creates creates
      have mask : inMovedTo ||| inIsDir = inCreate ||| inIsDir := creates.1
      exact absurd mask (by decide)
    · intro entry member path there below accepted
      rcases followed.covered entry member path there below accepted with
        records | ⟨event, queued, creates⟩
      · exact Or.inl records
      · exact Or.inr ⟨event, gains.subset queued, creates⟩
  · unfold DirectoryWorld.report
    rw [if_neg looked]
    exact followed

theorem Followed.reportCreate (followed : Followed kernel entries world daemon)
    {parent name : Bytes} (fresh : appendPath parent name ∉ world.directories)
    (room : world.HasRoom kernel parent) (merges : Bool)
    (caught : Awaited kernel daemon parent (appendPath parent name) ∨
      Unwanted entries (appendPath parent name)) :
    Followed kernel entries
      (DirectoryWorld.report kernel
        { world with directories := world.directories ++ [appendPath parent name] }
        merges parent name inCreate) daemon := by
  have creates : Creates kernel ⟨kernel.handleOf parent, inCreate ||| inIsDir, name⟩
      (appendPath parent name) := ⟨rfl, parent, rfl, rfl⟩
  by_cases looked : world.marks (kernel.handleOf parent) = some parent
  · obtain ⟨queue, gains, reported⟩ := @DirectoryWorld.report_of_looked kernel
      { world with directories := world.directories ++ [appendPath parent name] } parent room
      looked inCreate (by decide) merges name
    rw [reported]
    refine ⟨followed.alive, followed.marked,
      followed.recorded.mono (List.subset_append_left _ _),
      followed.watched_gained looked gains, ?_, ?_, ?_⟩
    · intro event queued
      rcases gains.mem queued with old | rfl
      · rcases followed.reported event old with moved | ⟨path, there, createsOld, unrecorded⟩
        · exact Or.inl moved
        · exact Or.inr ⟨path, List.mem_append_left _ there, createsOld, unrecorded⟩
      · exact Or.inr ⟨_, List.mem_append_right _ (List.mem_singleton_self _), creates,
          followed.not_records_of_fresh fresh⟩
    · apply gains.pairwise followed.distinct
      intro earlier old path createsOld createsNew
      rw [createsNew.unique creates] at createsOld
      exact followed.not_creates_of_fresh fresh old createsOld
    · intro entry member path there below accepted
      rcases List.mem_append.mp there with old | new
      · rcases followed.covered entry member path old below accepted with
          records | ⟨event, queued, createsOld⟩
        · exact Or.inl records
        · exact Or.inr ⟨event, gains.subset queued, createsOld⟩
      · obtain rfl := List.mem_singleton.mp new
        rcases caught with ⟨_watched, taker, configured, takes⟩ | unwanted
        · exact Or.inr ⟨_, gains.new_mem, creates, taker, configured, takes⟩
        · rw [unwanted entry member below] at accepted
          cases accepted
  · unfold DirectoryWorld.report
    rw [if_neg looked]
    apply followed.grow
    intro path new
    obtain rfl := List.mem_singleton.mp new
    rcases caught with awaited | unwanted
    · refine absurd ?_ looked
      rw [followed.marked]
      exact awaited.1
    · exact unwanted

/-! ### Drained queues -/

/-- A new directory that an entry accepts is created where the daemon already
looks, and none that an entry accepts comes with a move.  The queue has room for the
report. -/
def DirectoryWorld.Caught (kernel : Kernel) (entries : List ConfigEntry)
    (world : DirectoryWorld) : DirectoryLabel → Prop
  | .create parent name _merges =>
      world.HasRoom kernel parent ∧
        ((∃ daemon, world.daemon = some daemon ∧
            Awaited kernel daemon parent (appendPath parent name)) ∨
          Unwanted entries (appendPath parent name))
  | .moveIn parent name below _merges =>
      world.HasRoom kernel parent ∧
        ∀ path ∈ appendPath parent name :: below, Unwanted entries path
  | .handle => True

theorem Followed.step (followed : Followed kernel entries world daemon)
    (served : Served accounts entries) {label : DirectoryLabel} {after : DirectoryWorld}
    (caught : world.Caught kernel entries label)
    (stepped : world.step kernel accounts label = some after) :
    ∃ next, Followed kernel entries after next := by
  cases label with
  | create parent name merges =>
      obtain ⟨room, caught⟩ := caught
      unfold DirectoryWorld.step at stepped
      dsimp only at stepped
      split at stepped
      · rename_i possible
        obtain rfl := Option.some.inj stepped
        refine ⟨daemon, followed.reportCreate possible.2 room merges ?_⟩
        rcases caught with ⟨other, alive, awaited⟩ | unwanted
        · rw [followed.alive] at alive
          obtain rfl := Option.some.inj alive
          exact Or.inl awaited
        · exact Or.inr unwanted
      · cases stepped
  | moveIn parent name below merges =>
      unfold DirectoryWorld.step at stepped
      dsimp only at stepped
      split at stepped
      · obtain rfl := Option.some.inj stepped
        exact ⟨daemon, (followed.grow caught.2).reportMove caught.1 merges name⟩
      · cases stepped
  | handle => exact followed.handle served stepped

def numbered : Bytes → Nat
  | [] => 0
  | byte :: rest => 257 * numbered rest + (byte.toNat + 1)

def sampleDirectory : LocalTree :=
  { LocalTree.ofEntries [] (by decide) with
    isDirectory := fun path => .ok (path = text "/d") }

end Cdnalizerd
