/-
Which directories are watched.

A directory whose creation is reported gets its watch when the report is
handled.  One that was created in a directory without a watch, or renamed into
the tree, is never looked at.
-/

import Cdnalizerd.DirectoryWorld
import Cdnalizerd.EventLoop
import Cdnalizerd.Library.InverseMaps

namespace Cdnalizerd

open Library Library.InverseMaps

/-! ### Recorded watches -/

def Daemon.watching (daemon : Daemon) (path : Bytes) (handle : Int) (entry : ConfigEntry) :
    Daemon where
  inotify := {
    watches := Function.update daemon.inotify.watches handle (some path)
    paths := Function.update daemon.inotify.paths path (some handle) }
  watchToConfig := Function.update daemon.watchToConfig handle (some entry)

/-- The two tables of the instance agree, and every watch belongs to a
directory and to an entry of the configuration. -/
structure Recorded (kernel : Kernel) (entries : List ConfigEntry) (directories : List Bytes)
    (daemon : Daemon) : Prop where
  path_of_watch : ∀ handle path, daemon.inotify.watches handle = some path →
    daemon.inotify.paths path = some handle
  watch_of_path : ∀ path handle, daemon.inotify.paths path = some handle →
    daemon.inotify.watches handle = some path
  handle_eq : ∀ handle path, daemon.inotify.watches handle = some path →
    handle = kernel.handleOf path
  known : ∀ handle path, daemon.inotify.watches handle = some path → path ∈ directories
  configured : ∀ handle path, daemon.inotify.watches handle = some path →
    ∃ entry ∈ entries, daemon.watchToConfig handle = some entry

variable {kernel : Kernel} {entries : List ConfigEntry} {directories : List Bytes}
  {daemon next : Daemon} {entry : ConfigEntry} {path : Bytes}

theorem Recorded.inverse (recorded : Recorded kernel entries directories daemon) :
    Inverse daemon.inotify.watches daemon.inotify.paths :=
  fun handle path => ⟨recorded.path_of_watch handle path, recorded.watch_of_path path handle⟩

theorem Recorded.handle_free (recorded : Recorded kernel entries directories daemon)
    (unwatched : daemon.inotify.paths path = none) :
    daemon.inotify.watches (kernel.handleOf path) = none := by
  rw [Option.eq_none_iff_forall_ne_some]
  intro other taken
  have same : kernel.handleOf path = kernel.handleOf other :=
    Int.ofNat.inj (recorded.handle_eq _ _ taken)
  have back := recorded.path_of_watch _ _ taken
  rw [← kernel.injective same, unwatched] at back
  cases back

theorem Recorded.watching (recorded : Recorded kernel entries directories daemon)
    (present : path ∈ directories) (unwatched : daemon.inotify.paths path = none)
    (member : entry ∈ entries) :
    Recorded kernel entries directories
      (daemon.watching path (kernel.handleOf path) entry) := by
  have inverse := recorded.inverse.insert (recorded.handle_free unwatched) unwatched
  have watch_cases (handle : Int) (other : Bytes)
      (watched : (daemon.watching path (kernel.handleOf path) entry).inotify.watches handle =
        some other) :
      handle = kernel.handleOf path ∧ other = path ∨
        handle ≠ kernel.handleOf path ∧ daemon.inotify.watches handle = some other := by
    dsimp only [Daemon.watching] at watched
    by_cases new : handle = kernel.handleOf path
    · subst new
      rw [Function.update_self] at watched
      exact Or.inl ⟨rfl, (Option.some.inj watched).symm⟩
    · rw [Function.update_of_ne new] at watched
      exact Or.inr ⟨new, watched⟩
  refine ⟨?_, ?_, ?_, ?_, ?_⟩
  · intro handle other watched
    exact (inverse handle other).mp watched
  · intro other handle named
    exact (inverse handle other).mpr named
  · intro handle other watched
    rcases watch_cases handle other watched with ⟨rfl, rfl⟩ | ⟨_new, old⟩
    · rfl
    · exact recorded.handle_eq _ _ old
  · intro handle other watched
    rcases watch_cases handle other watched with ⟨rfl, rfl⟩ | ⟨_new, old⟩
    · exact present
    · exact recorded.known _ _ old
  · intro handle other watched
    dsimp only [Daemon.watching]
    rcases watch_cases handle other watched with ⟨rfl, rfl⟩ | ⟨new, old⟩
    · exact ⟨entry, member, Function.update_self _ _ _⟩
    · rw [Function.update_of_ne new]
      exact recorded.configured _ _ old

theorem watchNewDirectory_cases (recorded : Recorded kernel entries directories daemon)
    (returned : (watchNewDirectory (DirectoryWorld.addWatchAnswer kernel directories) entry
      daemon path).result = .ok next) :
    entry.shouldIgnoreDirectory path = true ∧ next = daemon ∧
        (watchNewDirectory (DirectoryWorld.addWatchAnswer kernel directories) entry
          daemon path).trace = [] ∨
      path ∈ directories ∧ daemon.inotify.paths path = none ∧
        next = daemon.watching path (kernel.handleOf path) entry ∧
        (watchNewDirectory (DirectoryWorld.addWatchAnswer kernel directories) entry
          daemon path).trace = [.addWatch path maskToFollow (kernel.handleOf path)] := by
  by_cases rejected : entry.shouldIgnoreDirectory path = true
  · left
    unfold watchNewDirectory at returned ⊢
    rw [if_pos rejected] at returned ⊢
    exact ⟨rejected, (Except.ok.inj returned).symm, rfl⟩
  · right
    obtain ⟨unwatched, handle, answer⟩ :=
      (watchNewDirectory_returns_iff.mp ⟨next, returned⟩).resolve_left rejected
    have there : path ∈ directories := by
      by_contra missing
      rw [DirectoryWorld.addWatchAnswer, if_neg missing] at answer
      cases answer
    have number : handle = kernel.handleOf path := by
      rw [DirectoryWorld.addWatchAnswer, if_pos there] at answer
      exact (Except.ok.inj answer).symm
    subst number
    have free := recorded.handle_free unwatched
    unfold watchNewDirectory at returned ⊢
    rw [if_neg rejected, Inotify.addWatch_of_new unwatched answer free] at returned ⊢
    exact ⟨there, unwatched, (Except.ok.inj returned).symm, rfl⟩

/-! ### Setting up the watches -/

/-- What is true while the watches are set up: the kernel marks what the
instance has recorded. -/
structure SetUp (kernel : Kernel) (entries : List ConfigEntry) (directories : List Bytes)
    (daemon : Daemon) (performed : List WatchAction) : Prop where
  recorded : Recorded kernel entries directories daemon
  marked : ∀ world : DirectoryWorld, world.marks = (fun _handle => none) →
    performed.foldl (DirectoryWorld.applyAction kernel) world =
      { world with marks := daemon.inotify.watches }

def Daemon.Records (daemon : Daemon) (path : Bytes) : Prop :=
  daemon.inotify.paths path ≠ none

theorem Daemon.records_watching {handle : Int} (other : Bytes) (before : daemon.Records other) :
    (daemon.watching path handle entry).Records other := by
  unfold Records watching
  dsimp only
  by_cases same : other = path
  · subst same
    rw [Function.update_self]
    exact Option.some_ne_none handle
  · rw [Function.update_of_ne same]
    exact before

theorem SetUp.watchNewDirectory {performed : List WatchAction}
    (setUp : SetUp kernel entries directories daemon performed) (member : entry ∈ entries)
    (returned : (watchNewDirectory (DirectoryWorld.addWatchAnswer kernel directories) entry
      daemon path).result = .ok next) :
    SetUp kernel entries directories next (performed ++
        (Cdnalizerd.watchNewDirectory (DirectoryWorld.addWatchAnswer kernel directories) entry
          daemon path).trace) ∧
      (∀ other, daemon.Records other → next.Records other) ∧
      (entry.shouldIgnoreDirectory path = false → next.Records path) := by
  rcases watchNewDirectory_cases setUp.recorded returned with
    ⟨rejected, rfl, trace⟩ | ⟨present, unwatched, rfl, trace⟩
  · rw [trace, List.append_nil]
    refine ⟨setUp, fun _other before => before, ?_⟩
    intro accepted
    rw [rejected] at accepted
    cases accepted
  · rw [trace]
    refine ⟨⟨setUp.recorded.watching present unwatched member, ?_⟩,
      Daemon.records_watching, fun _accepted => ?_⟩
    · intro world unmarked
      rw [List.foldl_append, setUp.marked world unmarked]
      rfl
    · unfold Daemon.Records Daemon.watching
      simp

def CoversAll (entry : ConfigEntry) (directories : List Bytes) (daemon : Daemon)
    (paths : List Bytes) : Prop :=
  ∀ path ∈ paths, path ∈ directories → entry.shouldIgnoreDirectory path = false →
    daemon.Records path

variable {tree : LocalTree} {performed : List WatchAction}

theorem SetUp.watchIfDirectory
    (directory : ∀ path answer, tree.isDirectory path = .ok answer →
      (answer = true ↔ path ∈ directories))
    (setUp : SetUp kernel entries directories daemon performed) (member : entry ∈ entries)
    (returned : (watchIfDirectory tree (DirectoryWorld.addWatchAnswer kernel directories) entry
      daemon path).result = .ok next) :
    SetUp kernel entries directories next (performed ++
        (Cdnalizerd.watchIfDirectory tree (DirectoryWorld.addWatchAnswer kernel directories)
          entry daemon path).trace) ∧
      (∀ other, daemon.Records other → next.Records other) ∧
      CoversAll entry directories next [path] := by
  unfold Cdnalizerd.watchIfDirectory at returned ⊢
  obtain ⟨answer, asked, branch⟩ := Traced.bind_result_eq_ok_iff.mp returned
  rw [Traced.ask_result] at asked
  rw [asked, Traced.ask_ok_bind]
  have meaning := directory path answer asked
  by_cases there : path ∈ directories
  · rw [if_pos (meaning.mpr there)] at branch ⊢
    obtain ⟨after, kept, covered⟩ := setUp.watchNewDirectory member branch
    refine ⟨after, kept, ?_⟩
    intro other single _there accepted
    obtain rfl := List.mem_singleton.mp single
    exact covered accepted
  · rw [if_neg (fun yes => there (meaning.mp yes))] at branch ⊢
    obtain rfl := Except.ok.inj branch
    refine ⟨?_, fun _other before => before, ?_⟩
    · rw [Traced.pure_trace, List.append_nil]
      exact setUp
    · intro other single thereAfterAll
      obtain rfl := List.mem_singleton.mp single
      exact absurd thereAfterAll there

theorem CoversAll.mono {paths : List Bytes} (covers : CoversAll entry directories daemon paths)
    (kept : ∀ other, daemon.Records other → next.Records other) :
    CoversAll entry directories next paths :=
  fun path member there accepted => kept path (covers path member there accepted)

theorem SetUp.recursivelyWatchDirectory
    (visited : ∀ found, tree.recursiveEntries entry.localDir = .ok found →
      ∀ path ∈ directories, isBelow entry.localDir path = true → path ≠ entry.localDir →
        path ∈ found)
    (directory : ∀ path answer, tree.isDirectory path = .ok answer →
      (answer = true ↔ path ∈ directories))
    (setUp : SetUp kernel entries directories daemon performed) (member : entry ∈ entries)
    (returned : (recursivelyWatchDirectory tree (DirectoryWorld.addWatchAnswer kernel
      directories) daemon entry).result = .ok next) :
    SetUp kernel entries directories next (performed ++
        (Cdnalizerd.recursivelyWatchDirectory tree (DirectoryWorld.addWatchAnswer kernel
          directories) daemon entry).trace) ∧
      (∀ other, daemon.Records other → next.Records other) ∧
      ∀ path ∈ directories, isBelow entry.localDir path = true →
        entry.shouldIgnoreDirectory path = false → next.Records path := by
  unfold Cdnalizerd.recursivelyWatchDirectory at returned ⊢
  obtain ⟨rooted, first, rest⟩ := Traced.bind_result_eq_ok_iff.mp returned
  obtain ⟨found, listed, looped⟩ := Traced.bind_result_eq_ok_iff.mp rest
  rw [Traced.ask_result] at listed
  rw [Traced.bind_of_ok first, listed, Traced.ask_ok_bind, ← List.append_assoc]
  obtain ⟨rootSetUp, rootKept, rootCovered⟩ := setUp.watchNewDirectory member first
  have walked := Traced.foldlM_rule
    (fun done current performed => SetUp kernel entries directories current performed ∧
      (∀ other, rooted.Records other → current.Records other) ∧
      CoversAll entry directories current done) ?_
    ⟨rootSetUp, fun _other before => before, fun _path none => absurd none List.not_mem_nil⟩ looped
  · obtain ⟨final, kept, covered⟩ := walked
    refine ⟨final, fun other before => kept other (rootKept other before), ?_⟩
    intro path there below accepted
    by_cases same : path = entry.localDir
    · subst same
      exact kept _ (rootCovered accepted)
    · exact covered path (visited found listed path there below same) there accepted
  · rintro done current performed after path _member ⟨currentSetUp, kept, covered⟩ stepped
    obtain ⟨afterSetUp, afterKept, afterCovered⟩ :=
      currentSetUp.watchIfDirectory directory member stepped
    refine ⟨afterSetUp, fun other before => afterKept other (kept other before), ?_⟩
    intro other listed
    rcases List.mem_append.mp listed with old | new
    · exact covered.mono afterKept other old
    · exact afterCovered other new

namespace DirectoryWorld

/-- What holds of the world once `createINotifyWatches` has returned. -/
theorem Started.setUp {world : DirectoryWorld}
    (started : Started kernel entries tree directories world) :
    ∃ daemon, Recorded kernel entries directories daemon ∧
      world = {
        directories := directories
        marks := daemon.inotify.watches
        daemon := some daemon } ∧
      ∀ entry ∈ entries, ∀ path ∈ directories, isBelow entry.localDir path = true →
        entry.shouldIgnoreDirectory path = false → daemon.Records path := by
  obtain ⟨daemon, returned, shape⟩ := started.returned
  have empty : Recorded kernel entries directories {} := by
    refine ⟨?_, ?_, ?_, ?_, ?_⟩
    all_goals
      intro _first _second impossible
      cases impossible
  have initial : SetUp kernel entries directories {} [] := by
    refine ⟨empty, ?_⟩
    intro world unmarked
    change world = { world with marks := fun _handle => none }
    rw [← unmarked]
  have walked := Traced.foldlM_rule
    (fun done current performed => SetUp kernel entries directories current performed ∧
      ∀ entry ∈ done, ∀ path ∈ directories, isBelow entry.localDir path = true →
        entry.shouldIgnoreDirectory path = false → current.Records path) ?_
    ⟨initial, fun _entry none => absurd none List.not_mem_nil⟩ returned
  · obtain ⟨setUp, covered⟩ := walked
    refine ⟨daemon, setUp.recorded, ?_, covered⟩
    rw [shape]
    exact setUp.marked _ rfl
  · rintro done entry current performed next member ⟨currentSetUp, covered⟩ stepped
    obtain ⟨nextSetUp, kept, nextCovered⟩ := currentSetUp.recursivelyWatchDirectory
      (started.visited entry member) started.directory member stepped
    refine ⟨nextSetUp, ?_⟩
    intro other among path there below accepted
    rcases List.mem_append.mp among with old | new
    · exact kept path (covered other old path there below accepted)
    · obtain rfl := List.mem_singleton.mp new
      exact nextCovered path there below accepted

end DirectoryWorld

end Cdnalizerd
