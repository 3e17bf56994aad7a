/-
The process that watches the local directories.

One event is handled at a time, with the file system and the kernel answering
as they are at that time.  An exception ends the loop over the events, which
has its handlers outside.
-/

import Cdnalizerd.Inotify

namespace Cdnalizerd

open Library

def maskToFollow : UInt32 :=
  inCreate ||| inCloseWrite ||| inDelete ||| inMovedFrom ||| inMovedTo

structure Daemon where
  inotify : Inotify := {}
  /-- The configuration entry of every watch handle. -/
  watchToConfig : Int → Option ConfigEntry := fun _ => none

/-! ### Setting up the watches -/

def watchNewDirectory (kernel : Bytes → Except Nat Nat) (entry : ConfigEntry)
    (daemon : Daemon) (path : Bytes) : Watching Daemon :=
  if entry.shouldIgnoreDirectory path then pure daemon
  else do
    let (inotify, handle) ← daemon.inotify.addWatch kernel path maskToFollow
    pure {
      inotify := inotify
      watchToConfig := Function.update daemon.watchToConfig handle (some entry) }

def watchIfDirectory (tree : LocalTree) (kernel : Bytes → Except Nat Nat)
    (entry : ConfigEntry) (daemon : Daemon) (path : Bytes) : Watching Daemon := do
  let directory ← Traced.ask (tree.isDirectory path)
  if directory then watchNewDirectory kernel entry daemon path
  else pure daemon

/-- The iterator visits the directories below ignored ones as well. -/
def recursivelyWatchDirectory (tree : LocalTree) (kernel : Bytes → Except Nat Nat)
    (daemon : Daemon) (entry : ConfigEntry) : Watching Daemon := do
  let daemon ← watchNewDirectory kernel entry daemon entry.localDir
  let found ← Traced.ask (tree.recursiveEntries entry.localDir)
  found.foldlM (watchIfDirectory tree kernel entry) daemon

def createINotifyWatches (tree : LocalTree) (kernel : Bytes → Except Nat Nat)
    (entries : List ConfigEntry) : Watching Daemon :=
  entries.foldlM (recursivelyWatchDirectory tree kernel) {}

/-! ### Handling one event -/

structure EventSurroundings where
  fileSize : Bytes → Except Failure Nat
  relative : Bytes → Bytes → Except Failure Bytes
  addWatch : Bytes → Except Nat Nat

structure Located where
  entry : ConfigEntry
  url : URL
  localFile : Bytes
  localRelativePath : Bytes

/-- The entry of a watch handle, which `operator[]` makes up where there is none. -/
def Daemon.entryOf (daemon : Daemon) (handle : Int) : ConfigEntry :=
  (daemon.watchToConfig handle).getD {}

def findAccount (accounts : AccountCache) (username : Bytes) : Except Failure Rackspace :=
  match accounts username with
  | some rs => .ok rs
  | none => .error (.runtimeError
      "All Rackspace accounts should be initialized by the time this is called")

section Events

variable (accounts : AccountCache) (around : EventSurroundings) (daemon : Daemon) (event : Event)

/-- The loop body up to the relative path. -/
def locate : Watching (Daemon × Located) := do
  let path ← Traced.ask (daemon.inotify.watchFromHandle event.wd)
  let entry := daemon.entryOf event.wd
  let rs ← Traced.ask (findAccount accounts entry.username)
  let localFile := appendPath path event.name
  let url ← Traced.ask (rs.getURL entry.region entry.snet)
  Traced.emit (.request (.getWorker url.raw))
  let localRelativePath ← Traced.ask (around.relative localFile entry.localDir)
  pure (
    { daemon with
      watchToConfig := Function.update daemon.watchToConfig event.wd (some entry) },
    { entry := entry
      url := url
      localFile := localFile
      localRelativePath := localRelativePath })

variable (located : Located)

/-- `url / entry.container / entry.remote_dir / localRelativePath`, as a URL. -/
def Located.destination : Except Failure URL :=
  Cdnalizerd.destination located.url located.entry.container located.entry.remoteDir
    located.localRelativePath

def handleClosed : Watching Unit := do
  let size ← Traced.ask (around.fileSize located.localFile)
  if 0 < size then
    if located.entry.shouldIgnoreFile located.localFile then pure ()
    else do
      let dest ← Traced.ask located.destination
      Traced.emit (.request (.addJob (.conditionalUpload located.localFile dest)))
  else pure ()

def handleDeleted : Watching Unit :=
  if event.isDir then pure ()
  else if located.entry.shouldIgnoreFile located.localFile then pure ()
  else do
    let dest ← Traced.ask located.destination
    Traced.emit (.request (.addJob (.remoteDelete dest)))

/-- The chain of tests for the kind of an event. -/
def dispatch : Watching Daemon :=
  if event.wasClosed then do
    handleClosed around located
    pure daemon
  else if event.wasIgnored then do
    let inotify ← daemon.inotify.removeWatch event.wd
    pure {
      inotify := inotify
      watchToConfig := Function.update daemon.watchToConfig event.wd none }
  else if event.wasDeleted then do
    handleDeleted event located
    pure daemon
  else if event.wasCreated then
    if event.isDir then watchNewDirectory around.addWatch located.entry daemon located.localFile
    else pure daemon
  else pure daemon

def handleEvent : Watching Daemon := do
  let (daemon, located) ← locate accounts around daemon event
  dispatch around daemon event located

end Events

structure Delivery where
  event : Event
  around : EventSurroundings

/-- The loop over the events, as far as they have been delivered. -/
def watchLoop (accounts : AccountCache) (daemon : Daemon) (delivered : List Delivery) :
    Watching Daemon :=
  delivered.foldlM (fun daemon delivery =>
    handleEvent accounts delivery.around daemon delivery.event) daemon

end Cdnalizerd
