/-
The wrapper around inotify: events, and the two tables of an instance.

A watch is known by its handle and its path.  What the kernel answers to
`inotify_add_watch`, an error number or a handle, belongs to the surroundings.  The
queue it keeps for an instance holds `max_queued_events`.
-/

import Mathlib.Logic.Function.Basic
import Cdnalizerd.Config
import Cdnalizerd.Library.BoundedQueue
import Cdnalizerd.Library.Traced

namespace Cdnalizerd

open Library

/-! ### Events -/

def inCloseWrite : UInt32 := 0x8

def inCloseNoWrite : UInt32 := 0x10

def inMovedFrom : UInt32 := 0x40

def inMovedTo : UInt32 := 0x80

def inCreate : UInt32 := 0x100

def inDelete : UInt32 := 0x200

def inQOverflow : UInt32 := 0x4000

def inIgnored : UInt32 := 0x8000

def inIsDir : UInt32 := 0x40000000

/-- An event as it is read. The name ends before its first NUL. -/
structure Event where
  wd : Int
  mask : UInt32
  name : Bytes := []
deriving DecidableEq

namespace Event

def has (event : Event) (bits : UInt32) : Bool :=
  event.mask &&& bits ≠ 0

def wasClosed (event : Event) : Bool :=
  event.has (inCloseWrite ||| inCloseNoWrite)

def wasIgnored (event : Event) : Bool :=
  event.has inIgnored

def wasDeleted (event : Event) : Bool :=
  event.has inDelete

def wasCreated (event : Event) : Bool :=
  event.has inCreate

def isDir (event : Event) : Bool :=
  event.has inIsDir

theorem has_of_mask {event : Event} {mask : UInt32} (kind : event.mask = mask) (bits : UInt32) :
    event.has bits = decide (mask &&& bits ≠ 0) := by
  unfold has
  rw [kind]

end Event

/-- `operator/` of a path and a name of one element. -/
def appendPath (path name : Bytes) : Bytes :=
  if name = [] then path
  else if path = [] ∨ path.getLast? = some slash then path ++ name
  else path ++ slash :: name

/-! ### The kernel's queue -/

def overflowEvent : Event where
  wd := -1
  mask := inQOverflow

/-- The queue after some events, of which the watches follow some kinds.  An event may
be merged with the last unread one that is like it. -/
def report (maxQueuedEvents : Nat) (followed : UInt32) (merges : List Bool)
    (queue events : List Event) : List Event :=
  BoundedQueue.pushAll maxQueuedEvents overflowEvent merges queue
    (events.filter fun event => event.has followed)

/-! ### Paths below a directory -/

def withSlash (directory : Bytes) : Bytes :=
  if directory = [] ∨ directory.getLast? = some slash then directory
  else directory ++ [slash]

/-- The directory itself, or what is below it. -/
def isBelow (directory path : Bytes) : Bool :=
  path = directory || (withSlash directory).isPrefixOf path

/-- `fs::relative` of a path below the directory. -/
def relativeTo (path directory : Bytes) : Bytes :=
  path.drop (withSlash directory).length

theorem withSlash_of_open {directory : Bytes}
    (open_end : ¬ (directory = [] ∨ directory.getLast? = some slash)) :
    withSlash directory = directory ++ [slash] :=
  if_neg open_end

theorem appendPath_eq_withSlash {directory name : Bytes} (nonempty : name ≠ []) :
    appendPath directory name = withSlash directory ++ name := by
  unfold appendPath withSlash
  rw [if_neg nonempty]
  split
  · rfl
  · rw [List.append_assoc, List.singleton_append]

/-! ### Watches -/

inductive WatchAction where
  | request (request : Request)
  /-- `inotify_add_watch`, and the handle it returned. -/
  | addWatch (path : Bytes) (mask : UInt32) (handle : Int)
  /-- `inotify_rm_watch`. -/
  | rmWatch (handle : Int)
deriving DecidableEq

abbrev Watching := Traced Failure WatchAction

/-- `inotify::Instance`. -/
structure Inotify where
  /-- The path of the watch under a handle. -/
  watches : Int → Option Bytes := fun _ => none
  /-- The handle under a path. -/
  paths : Bytes → Option Int := fun _ => none

namespace Inotify

/-- `watches.at`. -/
def watchFromHandle (inotify : Inotify) (handle : Int) : Except Failure Bytes :=
  match inotify.watches handle with
  | some path => .ok path
  | none => .error .outOfRange

/-- The table of watches keeps what it has under a handle, and the new watch is
destroyed then. -/
def addWatch (kernel : Bytes → Except Nat Nat) (inotify : Inotify) (path : Bytes)
    (mask : UInt32) : Watching (Inotify × Int) :=
  match inotify.paths path with
  | some _found => Traced.fail (.logicError "Can't watch the same path twice")
  | none => do
      let number ← Traced.ask ((kernel path).mapError .systemError)
      let handle : Int := number
      Traced.emit (.addWatch path mask handle)
      let paths := Function.update inotify.paths path (some handle)
      match inotify.watches handle with
      | some _kept => do
          Traced.emit (.rmWatch handle)
          pure ({ inotify with paths := paths }, handle)
      | none =>
          pure ({
            watches := Function.update inotify.watches handle (some path)
            paths := paths }, handle)

section

variable {kernel : Bytes → Except Nat Nat} {inotify : Inotify} {path : Bytes} {mask : UInt32}

theorem addWatch_of_watched {handle : Int} (found : inotify.paths path = some handle) :
    inotify.addWatch kernel path mask =
      Traced.fail (.logicError "Can't watch the same path twice") := by
  unfold addWatch
  rw [found]

theorem addWatch_of_refused {code : Nat} (unwatched : inotify.paths path = none)
    (refused : kernel path = .error code) :
    inotify.addWatch kernel path mask = ⟨[], .error (.systemError code)⟩ := by
  unfold addWatch
  rw [unwatched, refused]
  rfl

theorem addWatch_of_new {number : Nat} (unwatched : inotify.paths path = none)
    (answered : kernel path = .ok number) (free : inotify.watches number = none) :
    inotify.addWatch kernel path mask =
      ⟨[.addWatch path mask number], .ok ({
        watches := Function.update inotify.watches number (some path)
        paths := Function.update inotify.paths path (some (number : Int)) }, number)⟩ := by
  unfold addWatch
  rw [unwatched, answered]
  simp only [Except.mapError, Traced.ask_ok_bind, Traced.emit_bind, free]
  rfl

theorem addWatch_of_taken {number : Nat} {kept : Bytes} (unwatched : inotify.paths path = none)
    (answered : kernel path = .ok number) (taken : inotify.watches number = some kept) :
    inotify.addWatch kernel path mask =
      ⟨[.addWatch path mask number, .rmWatch number], .ok ({
        watches := inotify.watches
        paths := Function.update inotify.paths path (some (number : Int)) }, number)⟩ := by
  unfold addWatch
  rw [unwatched, answered]
  simp only [Except.mapError, Traced.ask_ok_bind, Traced.emit_bind, taken]
  rfl

theorem addWatch_of_returned {outcome : Inotify × Int}
    (returned : (inotify.addWatch kernel path mask).result = .ok outcome) :
    inotify.paths path = none ∧ ∃ number : Nat, kernel path = .ok number ∧ outcome.2 = number ∧
      outcome.1.paths = Function.update inotify.paths path (some (number : Int)) ∧
      (inotify.watches number = none ∧
          outcome.1.watches = Function.update inotify.watches number (some path) ∨
        inotify.watches number ≠ none ∧ outcome.1.watches = inotify.watches) := by
  cases watched : inotify.paths path with
  | some handle =>
      rw [addWatch_of_watched watched] at returned
      cases returned
  | none =>
      cases answered : kernel path with
      | error code =>
          rw [addWatch_of_refused watched answered] at returned
          cases returned
      | ok number =>
          refine ⟨rfl, number, rfl, ?_⟩
          cases taken : inotify.watches number with
          | none =>
              rw [addWatch_of_new watched answered taken] at returned
              rw [← Except.ok.inj returned]
              exact ⟨rfl, rfl, Or.inl ⟨rfl, rfl⟩⟩
          | some kept =>
              rw [addWatch_of_taken watched answered taken] at returned
              rw [← Except.ok.inj returned]
              exact ⟨rfl, rfl, Or.inr ⟨Option.some_ne_none kept, rfl⟩⟩

end

/-- The watch is destroyed with its entry. -/
def removeWatch (inotify : Inotify) (handle : Int) : Watching Inotify :=
  match inotify.watches handle with
  | some path => do
      Traced.emit (.rmWatch handle)
      pure {
        watches := Function.update inotify.watches handle none
        paths := Function.update inotify.paths path none }
  | none => pure inotify

/-- The other `removeWatch`, which takes the path. -/
def removeWatchAt (inotify : Inotify) (path : Bytes) : Watching Inotify :=
  match inotify.paths path with
  | some handle => do
      match inotify.watches handle with
      | some _watch => Traced.emit (.rmWatch handle)
      | none => pure ()
      pure {
        watches := Function.update inotify.watches handle none
        paths := Function.update inotify.paths path none }
  | none => pure inotify

end Inotify

end Cdnalizerd
