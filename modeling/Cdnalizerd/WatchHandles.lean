/-
The handles in the two tables that have a row for every watch.

The instance and the process enter and remove a watch in separate calls.  A
handle that the kernel returns again is a row of both tables already.
-/

import Cdnalizerd.EventLoop
import Cdnalizerd.Library.InverseMaps

namespace Cdnalizerd

open Library InverseMaps

namespace Inotify

variable {inotify : Inotify}

theorem keys_addWatch {kernel : Bytes → Except Nat Nat} {path : Bytes} {mask : UInt32}
    {outcome : Inotify × Int}
    (returned : (inotify.addWatch kernel path mask).result = .ok outcome) :
    keys outcome.1.watches = insert outcome.2 (keys inotify.watches) := by
  obtain ⟨_unwatched, number, _answered, handle, _paths, watches⟩ := addWatch_of_returned returned
  rw [handle]
  rcases watches with ⟨_free, entered⟩ | ⟨taken, kept⟩
  · rw [entered]
    exact keys_enter _ _ _
  · rw [kept]
    exact (Set.insert_eq_of_mem taken).symm

theorem keys_removeWatch {handle : Int} {next : Inotify}
    (returned : (inotify.removeWatch handle).result = .ok next) :
    keys next.watches = keys inotify.watches \ {handle} := by
  unfold removeWatch at returned
  cases watched : inotify.watches handle with
  | some path =>
      rw [watched] at returned
      rw [← Except.ok.inj returned]
      exact keys_erase _ _
  | none =>
      rw [watched] at returned
      rw [← Except.ok.inj returned]
      have absent : handle ∉ keys inotify.watches := fun entered => entered watched
      exact (Set.sdiff_singleton_eq_self absent).symm

end Inotify

namespace Daemon

/-- Every watch has its configuration entry, and nothing else has one. -/
def Aligned (daemon : Daemon) : Prop :=
  keys daemon.watchToConfig = keys daemon.inotify.watches

theorem aligned_initial : Aligned {} :=
  keys_none.trans keys_none.symm

variable {daemon next : Daemon} {entry : ConfigEntry}

theorem Aligned.configured (aligned : daemon.Aligned) {handle : Int} {path : Bytes}
    (recorded : daemon.inotify.watches handle = some path) :
    ∃ entry, daemon.watchToConfig handle = some entry := by
  have entered : handle ∈ keys daemon.watchToConfig := by
    rw [aligned]
    exact mem_keys_iff.mpr ⟨path, recorded⟩
  exact mem_keys_iff.mp entered

/-! ### Setting up the watches -/

section

variable {tree : LocalTree} {kernel : Bytes → Except Nat Nat} {path : Bytes}

theorem Aligned.watchNewDirectory (aligned : daemon.Aligned)
    (returned : (watchNewDirectory kernel entry daemon path).result = .ok next) :
    next.Aligned := by
  unfold Cdnalizerd.watchNewDirectory at returned
  split at returned
  · rw [← Except.ok.inj returned]
    exact aligned
  · obtain ⟨outcome, added, entered⟩ := Traced.bind_result_eq_ok_iff.mp returned
    rw [← Except.ok.inj entered]
    calc
      keys (Function.update daemon.watchToConfig outcome.2 (some entry))
        = insert outcome.2 (keys daemon.watchToConfig) := keys_enter _ _ _
      _ = insert outcome.2 (keys daemon.inotify.watches) := by rw [aligned]
      _ = keys outcome.1.watches := (Inotify.keys_addWatch added).symm

theorem Aligned.watchIfDirectory (aligned : daemon.Aligned)
    (returned : (watchIfDirectory tree kernel entry daemon path).result = .ok next) :
    next.Aligned := by
  obtain ⟨directory, _asked, later⟩ := Traced.bind_result_eq_ok_iff.mp returned
  cases directory with
  | true => exact aligned.watchNewDirectory later
  | false =>
      rw [← Except.ok.inj later]
      exact aligned

theorem Aligned.recursivelyWatchDirectory (aligned : daemon.Aligned)
    (returned : (recursivelyWatchDirectory tree kernel daemon entry).result = .ok next) :
    next.Aligned := by
  obtain ⟨rooted, root, afterRoot⟩ := Traced.bind_result_eq_ok_iff.mp returned
  obtain ⟨found, _listed, below⟩ := Traced.bind_result_eq_ok_iff.mp afterRoot
  exact Traced.foldlM_invariant (fun _path _current _next kept => kept.watchIfDirectory)
    (aligned.watchNewDirectory root) below

theorem aligned_of_createINotifyWatches {entries : List ConfigEntry}
    (returned : (createINotifyWatches tree kernel entries).result = .ok daemon) :
    daemon.Aligned :=
  Traced.foldlM_invariant (fun _entry _current _next kept => kept.recursivelyWatchDirectory)
    aligned_initial returned

end

/-! ### Handling the events -/

section Events

variable {accounts : AccountCache} {around : EventSurroundings} {event : Event}
  {located : Located}

/-- `operator[]` finds the entry of a watch, and makes up none. -/
theorem Aligned.locate (aligned : daemon.Aligned)
    (returned : (locate accounts around daemon event).result = .ok (next, located)) :
    next = daemon ∧ ∃ entry, daemon.watchToConfig event.wd = some entry := by
  obtain ⟨path, found, afterPath⟩ := Traced.bind_result_eq_ok_iff.mp returned
  obtain ⟨rs, _login, afterLogin⟩ := Traced.bind_result_eq_ok_iff.mp afterPath
  obtain ⟨url, _endpoint, afterURL⟩ := Traced.bind_result_eq_ok_iff.mp afterLogin
  obtain ⟨_unit, _emitted, afterWorker⟩ := Traced.bind_result_eq_ok_iff.mp afterURL
  obtain ⟨relative, _taken, done⟩ := Traced.bind_result_eq_ok_iff.mp afterWorker
  obtain ⟨entry, configured⟩ := aligned.configured (watchFromHandle_eq_ok_iff.mp found)
  refine ⟨?_, entry, configured⟩
  have unchanged : Function.update daemon.watchToConfig event.wd
      (some (daemon.entryOf event.wd)) = daemon.watchToConfig := by
    unfold entryOf
    rw [configured, Option.getD_some, ← configured]
    exact Function.update_eq_self _ _
  rw [← (Prod.mk.inj (Except.ok.inj done)).1, unchanged]

theorem Aligned.of_unchanged {computation : Watching Unit} (aligned : daemon.Aligned)
    (returned : (computation >>= fun _done => pure daemon).result = .ok next) :
    next.Aligned := by
  obtain ⟨_unit, _ran, done⟩ := Traced.bind_result_eq_ok_iff.mp returned
  rw [← Except.ok.inj done]
  exact aligned

theorem Aligned.dispatch (aligned : daemon.Aligned)
    (returned : (dispatch around daemon event located).result = .ok next) : next.Aligned := by
  unfold Cdnalizerd.dispatch at returned
  split at returned
  · exact aligned.of_unchanged returned
  split at returned
  · -- Both tables lose the handle of the directory that is gone.
    obtain ⟨inotify, removed, done⟩ := Traced.bind_result_eq_ok_iff.mp returned
    rw [← Except.ok.inj done]
    calc
      keys (Function.update daemon.watchToConfig event.wd none)
        = keys daemon.watchToConfig \ {event.wd} := keys_erase _ _
      _ = keys daemon.inotify.watches \ {event.wd} := by rw [aligned]
      _ = keys inotify.watches := (Inotify.keys_removeWatch removed).symm
  split at returned
  · exact aligned.of_unchanged returned
  split at returned
  · split at returned
    · exact aligned.watchNewDirectory returned
    · rw [← Except.ok.inj returned]
      exact aligned
  · rw [← Except.ok.inj returned]
    exact aligned

theorem Aligned.handleEvent (aligned : daemon.Aligned)
    (returned : (handleEvent accounts around daemon event).result = .ok next) :
    next.Aligned := by
  obtain ⟨⟨same, located⟩, found, done⟩ := Traced.bind_result_eq_ok_iff.mp returned
  obtain ⟨rfl, _entry⟩ := aligned.locate found
  exact aligned.dispatch done

theorem Aligned.watchLoop (aligned : daemon.Aligned) {delivered : List Delivery}
    (returned : (watchLoop accounts daemon delivered).result = .ok next) : next.Aligned :=
  Traced.foldlM_invariant (fun _delivery _current _next kept => kept.handleEvent) aligned
    returned

end Events

end Daemon

open Daemon

/-- Before every event of the loop both tables have the same handles.  The table of
configuration entries is then looked up without being changed, and the search for
the handle of a directory that is gone finds it. -/
theorem same_handles_before_every_event {tree : LocalTree} {kernel : Bytes → Except Nat Nat}
    {entries : List ConfigEntry} {accounts : AccountCache} {start reached : Daemon}
    {delivered : List Delivery}
    (setUp : (createINotifyWatches tree kernel entries).result = .ok start)
    (handled : (watchLoop accounts start delivered).result = .ok reached) :
    keys reached.watchToConfig = keys reached.inotify.watches ∧
      (∀ handle path, reached.inotify.watchFromHandle handle = .ok path →
        ∃ entry, reached.watchToConfig handle = some entry) ∧
      ∀ around event next located,
        (locate accounts around reached event).result = .ok (next, located) →
          next = reached ∧ ∃ entry, next.watchToConfig event.wd = some entry := by
  have aligned : reached.Aligned :=
    (aligned_of_createINotifyWatches setUp).watchLoop handled
  refine ⟨aligned, ?_, ?_⟩
  · intro handle path found
    exact aligned.configured (watchFromHandle_eq_ok_iff.mp found)
  · intro around event next located returned
    obtain ⟨rfl, configured⟩ := aligned.locate returned
    exact ⟨rfl, configured⟩

/-- A directory and a symbolic link to it in it: one handle, which the kernel then
takes back.  A directory is created in between. -/
def linkedEvents : List Delivery :=
  let around : EventSurroundings := {
    fileSize := fun _path => .error (.systemError 2)
    relative := fun path base => .ok (path.drop base.length)
    addWatch := fun _path => .ok 2 }
  [⟨⟨1, inCreate ||| inIsDir, text "n"⟩, around⟩, ⟨⟨1, inIgnored, []⟩, around⟩]

theorem same_handles_before_every_event_sample :
    ∃ start reached,
      (createINotifyWatches (LocalTree.ofEntries [(text "/d/s", none)] (by decide))
        (fun _path => .ok 1) [sampleEntry]).result = .ok start ∧
      (watchLoop sampleAccounts start linkedEvents).result = .ok reached ∧
      keys reached.watchToConfig = keys reached.inotify.watches := by
  have runs : ∃ start,
      (createINotifyWatches (LocalTree.ofEntries [(text "/d/s", none)] (by decide))
        (fun _path => .ok 1) [sampleEntry]).result = .ok start ∧
      ∃ reached, (watchLoop sampleAccounts start linkedEvents).result = .ok reached :=
    ⟨_, rfl, _, rfl⟩
  obtain ⟨start, setUp, reached, handled⟩ := runs
  exact ⟨start, reached, setUp, handled, (same_handles_before_every_event setUp handled).1⟩

end Cdnalizerd
