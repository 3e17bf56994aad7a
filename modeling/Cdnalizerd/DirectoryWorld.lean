/-
Directories that come into being while the daemon runs.

A directory is known by the path the daemon has for it, and no directory has
two.  The kernel reports to the watch on a directory what happens in it, and
nothing of what happened before there was one.
-/

import Cdnalizerd.Library.Runs
import Cdnalizerd.MainProcess

namespace Cdnalizerd

open Library

/-! ### The kernel's side -/

/-- The handle that the watch on a directory gets, and the length of the queue. -/
structure Kernel where
  handleOf : Bytes → Nat
  injective : Function.Injective handleOf
  maxQueuedEvents : Nat

structure DirectoryWorld where
  directories : List Bytes
  /-- The directories under a watch, by handle. -/
  marks : Int → Option Bytes := fun _ => none
  queue : List Event := []
  /-- Nothing once the loop over the events has ended. -/
  daemon : Option Daemon

namespace DirectoryWorld

/-- `inotify_rm_watch` is answered by an event. -/
def applyAction (kernel : Kernel) (world : DirectoryWorld) : WatchAction → DirectoryWorld
  | .request _request => world
  | .addWatch path _mask handle =>
      { world with marks := Function.update world.marks handle (some path) }
  | .rmWatch handle =>
      match world.marks handle with
      | some _path =>
          { world with
            marks := Function.update world.marks handle none
            queue := BoundedQueue.push kernel.maxQueuedEvents overflowEvent false world.queue
              ⟨handle, inIgnored, []⟩ }
      | none => world

def addWatchAnswer (kernel : Kernel) (directories : List Bytes) (path : Bytes) :
    Except Nat Nat :=
  if path ∈ directories then .ok (kernel.handleOf path) else .error 2

def surroundings (kernel : Kernel) (world : DirectoryWorld) : EventSurroundings where
  fileSize _path := .error (.systemError 2)
  relative path base := .ok (relativeTo path base)
  addWatch := addWatchAnswer kernel world.directories

def report (kernel : Kernel) (world : DirectoryWorld) (merges : Bool) (parent name : Bytes)
    (kind : UInt32) : DirectoryWorld :=
  if world.marks (kernel.handleOf parent) = some parent then
    { world with
      queue := Cdnalizerd.report kernel.maxQueuedEvents maskToFollow [merges] world.queue
        [⟨kernel.handleOf parent, kind ||| inIsDir, name⟩] }
  else world

end DirectoryWorld

/-- What happens, and whether the kernel would merge the event about it. -/
inductive DirectoryLabel where
  | create (parent name : Bytes) (merges : Bool)
  /-- A directory is renamed into the tree, with the directories below it. -/
  | moveIn (parent name : Bytes) (below : List Bytes) (merges : Bool)
  | handle

namespace DirectoryWorld

def step (kernel : Kernel) (accounts : AccountCache) (world : DirectoryWorld) :
    DirectoryLabel → Option DirectoryWorld
  | .create parent name merges =>
      let path := appendPath parent name
      if parent ∈ world.directories ∧ path ∉ world.directories then
        some (report kernel { world with directories := world.directories ++ [path] }
          merges parent name inCreate)
      else none
  | .moveIn parent name below merges =>
      let path := appendPath parent name
      if parent ∈ world.directories ∧ path ∉ world.directories ∧
          ∀ directory ∈ below, directory ∉ world.directories ∧ isBelow path directory = true then
        some (report kernel { world with directories := world.directories ++ path :: below }
          merges parent name inMovedTo)
      else none
  | .handle =>
      match world.queue, world.daemon with
      | event :: queue, some daemon =>
          let handled := handleEvent accounts (world.surroundings kernel) daemon event
          some (handled.trace.foldl (applyAction kernel)
            { world with
              queue := queue
              daemon := handled.result.toOption })
      | _, _ => none

/-- `createINotifyWatches` has returned, on a tree that has the directories and
whose iterators visit each of those below a local directory. -/
structure Started (kernel : Kernel) (entries : List ConfigEntry) (tree : LocalTree)
    (directories : List Bytes) (world : DirectoryWorld) : Prop where
  visited : ∀ entry ∈ entries, ∀ found, tree.recursiveEntries entry.localDir = .ok found →
    ∀ path ∈ directories, isBelow entry.localDir path = true → path ≠ entry.localDir →
      path ∈ found
  directory : ∀ path answer, tree.isDirectory path = .ok answer →
    (answer = true ↔ path ∈ directories)
  returned : ∃ daemon,
    let created := createINotifyWatches tree (addWatchAnswer kernel directories) entries
    created.result = .ok daemon ∧
      world = created.trace.foldl (applyAction kernel)
        { directories := directories
          daemon := some daemon }

end DirectoryWorld

end Cdnalizerd
