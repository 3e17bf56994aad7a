/-
Files that change in watched directories while the daemon runs.

The kernel reports the operations on the files while its queue has room, the daemon
turns reports into jobs, and the jobs are applied in the order they were queued.
What becomes of a job depends on what its attempt finds and on what the server
carries out.
-/

import Cdnalizerd.Jobs
import Cdnalizerd.Library.Runs
import Cdnalizerd.MainProcess
import Cdnalizerd.UrlDestination

namespace Cdnalizerd

open Library SeparatorJoin

def ProperName (name : Bytes) : Prop :=
  name ≠ [] ∧ slash ∉ name

instance (name : Bytes) : Decidable (ProperName name) :=
  inferInstanceAs (Decidable (name ≠ [] ∧ slash ∉ name))

/-- The directory, or one below it that is named by the names on the way. -/
def Beneath (root directory : Bytes) : Prop :=
  directory = root ∨
    ∃ names, directory = withSlash root ++ names ∧ names ≠ [] ∧
      names.head? ≠ some slash ∧ names.getLast? ≠ some slash

/-- A daemon that watches directories of one configuration entry, whose account
is logged in. -/
structure FileSetting where
  accounts : AccountCache
  entry : ConfigEntry
  rs : Rackspace
  url : URL
  daemon : Daemon
  maxQueuedEvents : Nat
  md5 : Bytes → Vector UInt8 16
  login : accounts entry.username = some rs
  endpoint : rs.getURL entry.region entry.snet = .ok url
  ordinary : question ∉ url.raw
  valid : entry.validate = true
  configured : ∀ handle directory, daemon.inotify.watches handle = some directory →
    daemon.watchToConfig handle = some entry
  placed : ∀ handle directory, daemon.inotify.watches handle = some directory →
    Beneath entry.localDir directory

structure FileWorld where
  /-- The content of every file. -/
  files : Bytes → Option Bytes
  queue : List Event := []
  /-- Nothing once the loop over the events has ended. -/
  daemon : Option Daemon
  jobs : List Job := []
  /-- The objects, by the path of a request. -/
  store : Bytes → Option Bytes

inductive FileOperation where
  /-- A file is created or overwritten, and closed. -/
  | write (handle : Int) (name content : Bytes)
  | delete (handle : Int) (name : Bytes)
  | rename (handle : Int) (name : Bytes) (toHandle : Int) (toName : Bytes)
  | moveOut (handle : Int) (name : Bytes)
  | moveIn (handle : Int) (name content : Bytes)

/-- What an attempt finds, and which of its requests the server carries out. -/
structure Service where
  around : AttemptSurroundings
  carriesOut : HttpRequest → Bool

inductive FileLabel where
  /-- An operation, and which of its events the kernel would merge. -/
  | operate (operation : FileOperation) (merges : List Bool)
  | handleEvent
  | applyJob (service : Service)

namespace FileSetting

variable (setting : FileSetting)

def pathOf (handle : Int) (name : Bytes) : Option Bytes :=
  match setting.daemon.inotify.watches handle with
  | some directory => if ProperName name then some (appendPath directory name) else none
  | none => none

/-- The files after an operation, and the events about it. -/
def operate (files : Bytes → Option Bytes) :
    FileOperation → Option ((Bytes → Option Bytes) × List Event)
  | .write handle name content =>
      (setting.pathOf handle name).map fun path =>
        let created := if (files path).isSome then [] else [⟨handle, inCreate, name⟩]
        (Function.update files path (some content), created ++ [⟨handle, inCloseWrite, name⟩])
  | .delete handle name =>
      (setting.pathOf handle name).bind fun path =>
        if (files path).isSome then
          some (Function.update files path none, [⟨handle, inDelete, name⟩])
        else none
  | .rename handle name toHandle toName =>
      (setting.pathOf handle name).bind fun path =>
        (setting.pathOf toHandle toName).bind fun toPath =>
          if path ≠ toPath ∧ (files path).isSome then
            some (Function.update (Function.update files path none) toPath (files path),
              [⟨handle, inMovedFrom, name⟩, ⟨toHandle, inMovedTo, toName⟩])
          else none
  | .moveOut handle name =>
      (setting.pathOf handle name).bind fun path =>
        if (files path).isSome then
          some (Function.update files path none, [⟨handle, inMovedFrom, name⟩])
        else none
  | .moveIn handle name content =>
      (setting.pathOf handle name).map fun path =>
        (Function.update files path (some content), [⟨handle, inMovedTo, name⟩])

def destinationOf (path : Bytes) : Except Failure URL :=
  destination setting.url setting.entry.container setting.entry.remoteDir
    (relativeTo path setting.entry.localDir)

/-- The files as they are, and a server that takes everything. -/
def attemptSurroundings (world : FileWorld) (source : Bytes) (dest : URL) :
    AttemptSurroundings where
  isRegularFile := .ok (world.files source).isSome
  digest :=
    match world.files source with
    | some [] => .error (.empty, Thrown.enabled)
    | some content => .ok (setting.md5 content)
    | none => .error (.gone, Thrown.enabled)
  fileSize :=
    match world.files source with
    | some content => .ok content.length
    | none => .error (.gone, Thrown.enabledSystemError)
  openFile :=
    match world.files source with
    | some content => .ok content.length
    | none => .error .gone
  headWrite := .ok ()
  headResponse :=
    match world.store dest.path with
    | some content => .ok (200, hexString (setting.md5 content))
    | none => .ok (404, [])
  putWrite := .ok ()
  putResponse := .ok 201
  deleteWrite := .ok ()
  deleteResponse := .ok (if (world.store dest.path).isSome then 204 else 404)

/-- The server carries everything out, and answers so. -/
def goodService (world : FileWorld) (job : Job) : Service where
  around := setting.attemptSurroundings world job.source job.destination
  carriesOut _request := true

end FileSetting

def receive (files store : Bytes → Option Bytes) : Observation → Bytes → Option Bytes
  | .sent request =>
      match request.verb, request.body.bind files with
      | .put, some content => Function.update store request.target (some content)
      | .delete, _body => Function.update store request.target none
      | _, _ => store
  | _ => store

def Service.receives (service : Service) : Observation → Bool
  | .sent request => service.carriesOut request
  | _ => true

def Service.storeBehind (service : Service) (token : Bytes) (files store : Bytes → Option Bytes)
    (job : Job) : Bytes → Option Bytes :=
  ((job.go token service.around).trace.filter service.receives).foldl (receive files) store

def queuedJobs (trace : List WatchAction) : List Job :=
  trace.filterMap fun
    | .request (.addJob job) => some job
    | _ => none

namespace FileWorld

def surroundings (world : FileWorld) : EventSurroundings where
  fileSize path :=
    match world.files path with
    | some content => .ok content.length
    | none => .error (.systemError 2)
  relative path base := .ok (relativeTo path base)
  addWatch _path := .error 2

def step (setting : FileSetting) (world : FileWorld) : FileLabel → Option FileWorld
  | .operate operation merges =>
      (setting.operate world.files operation).map fun operated =>
        { world with
          files := operated.1
          queue := report setting.maxQueuedEvents maskToFollow merges world.queue operated.2 }
  | .handleEvent =>
      match world.queue, world.daemon with
      | event :: queue, some daemon =>
          let handled := Cdnalizerd.handleEvent setting.accounts world.surroundings daemon event
          some { world with
            queue := queue
            daemon := handled.result.toOption
            jobs := world.jobs ++ queuedJobs handled.trace }
      | _, _ => none
  | .applyJob service =>
      match world.jobs with
      | job :: jobs =>
          some { world with
            jobs := jobs
            store := service.storeBehind setting.rs.token world.files world.store job }
      | [] => none

end FileWorld

/-! ### Mirrors -/

/-- The path of an object whose name begins with the remote directory. -/
def FileSetting.UnderRemoteDir (setting : FileSetting) (name : Bytes) : Prop :=
  stripBack slash setting.url.path ++ slash ::
    destinationTail setting.entry.container setting.entry.remoteDir [] <+: name

/-- The container has a copy of every file that is neither ignored nor empty,
and under the remote directory nothing but objects of files that exist. -/
structure FileSetting.Mirrors (setting : FileSetting) (files store : Bytes → Option Bytes) :
    Prop where
  copied : ∀ path content, files path = some content → content ≠ [] →
    setting.entry.shouldIgnoreFile path = false →
      ∃ dest, setting.destinationOf path = .ok dest ∧ store dest.path = some content
  nothing_else : ∀ name content, setting.UnderRemoteDir name → store name = some content →
    ∃ path dest, (files path).isSome = true ∧ setting.entry.shouldIgnoreFile path = false ∧
      setting.destinationOf path = .ok dest ∧ dest.path = name

end Cdnalizerd
