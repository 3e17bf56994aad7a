/-
The two tables of an inotify instance, and the watches the kernel has for it.

The kernel knows inodes.  A path that leads to an inode under a watch is given
the handle of that watch, and the instance then destroys what it takes for a
second one: the kernel's watch ends, and both tables keep the handle.
-/

import Cdnalizerd.Inotify
import Cdnalizerd.Library.InverseMaps
import Cdnalizerd.Library.Runs

namespace Cdnalizerd

open Library InverseMaps Runs

/-! ### The kernel's side -/

/-- The watches of the kernel: descriptors, and the inodes they are on. -/
abbrev Marks (Inode : Type) := List (Nat × Inode)

namespace Marks

variable {Inode : Type}

def has (marks : Marks Inode) (handle : Int) : Bool :=
  marks.any (fun mark => (mark.1 : Int) == handle)

theorem has_iff {marks : Marks Inode} {handle : Int} :
    marks.has handle = true ↔ ∃ mark ∈ marks, (mark.1 : Int) = handle := by
  simp [has]

theorem has_cons (mark : Nat × Inode) {marks : Marks Inode} {handle : Int}
    (active : marks.has handle = true) : has (mark :: marks) handle = true := by
  simp only [has, List.any_cons] at active ⊢
  rw [active, Bool.or_true]

variable [DecidableEq Inode]

def descriptor (marks : Marks Inode) (fresh : Nat) (inode : Inode) : Nat :=
  match marks.find? (fun mark => mark.2 == inode) with
  | some mark => mark.1
  | none => fresh

/-- What a call of the kernel does, where the path of an added watch leads to an inode. -/
def perform (named : Option Inode) (marks : Marks Inode) : WatchAction → Marks Inode
  | .request _request => marks
  | .addWatch _path _mask handle =>
      match named with
      | some inode =>
          if marks.any (fun mark => mark.2 == inode) then marks
          else (handle.toNat, inode) :: marks
      | none => marks
  | .rmWatch handle => marks.filter (fun mark => (mark.1 : Int) != handle)

theorem has_rmWatch (named : Option Inode) {marks : Marks Inode} {handle ended : Int} :
    (marks.perform named (.rmWatch ended)).has handle = true ↔
      handle ≠ ended ∧ marks.has handle = true := by
  simp only [has_iff, perform, List.mem_filter, bne_iff_ne, ne_eq]
  constructor
  · intro found
    obtain ⟨mark, ⟨member, kept⟩, same⟩ := found
    exact ⟨same ▸ kept, mark, member, same⟩
  · intro both
    obtain ⟨other, mark, member, same⟩ := both
    exact ⟨mark, ⟨member, same.symm ▸ other⟩, same⟩

theorem find_of_new {marks : Marks Inode} {inode : Inode}
    (new : ∀ mark ∈ marks, mark.2 ≠ inode) :
    marks.find? (fun mark => mark.2 == inode) = none := by
  apply List.find?_eq_none.mpr
  intro mark member
  simpa using new mark member

theorem descriptor_of_new {marks : Marks Inode} {inode : Inode} (fresh : Nat)
    (new : ∀ mark ∈ marks, mark.2 ≠ inode) : marks.descriptor fresh inode = fresh := by
  unfold descriptor
  rw [find_of_new new]

theorem descriptor_of_old {marks : Marks Inode} {inode : Inode} (fresh : Nat)
    (old : ∃ mark ∈ marks, mark.2 = inode) :
    ∃ mark ∈ marks, marks.descriptor fresh inode = mark.1 := by
  unfold descriptor
  cases found : marks.find? (fun mark => mark.2 == inode) with
  | none =>
      obtain ⟨mark, member, same⟩ := old
      have other := List.find?_eq_none.mp found mark member
      rw [same] at other
      exact (other BEq.rfl).elim
  | some mark => exact ⟨mark, List.mem_of_find?_eq_some found, rfl⟩

theorem perform_addWatch_of_new {marks : Marks Inode} {inode : Inode} (path : Bytes)
    (mask : UInt32) (fresh : Nat) (new : ∀ mark ∈ marks, mark.2 ≠ inode) :
    marks.perform (some inode) (.addWatch path mask fresh) = (fresh, inode) :: marks := by
  have nowhere : marks.any (fun mark => mark.2 == inode) = false := by
    simpa using fun descriptor other member => new (descriptor, other) member
  simp only [perform, nowhere]
  rfl

end Marks

/-! ### Calls -/

inductive WatchCall (Inode : Type) where
  /-- With the inode the path leads to, or the error number, and the descriptor
  that the kernel would choose for it. -/
  | addWatch (path : Bytes) (mask : UInt32) (named : Except Nat Inode) (fresh : Nat)
  | removeWatch (handle : Int)
  | removeWatchAt (path : Bytes)

structure WatchWorld (Inode : Type) where
  inotify : Inotify := {}
  marks : Marks Inode := []

namespace WatchWorld

variable {Inode : Type}

/-- The tables are each other's inverse, and the kernel has every watch of theirs. -/
structure Consistent (world : WatchWorld Inode) : Prop where
  inverse : Inverse world.inotify.paths world.inotify.watches
  active : ∀ handle path, world.inotify.watches handle = some path → world.marks.has handle

/-- A path without a watch does not lead to an inode that has one. -/
def NamesNewInode (world : WatchWorld Inode) : WatchCall Inode → Prop
  | .addWatch path _mask (.ok inode) _fresh =>
      world.inotify.paths path = none → ∀ mark ∈ world.marks, mark.2 ≠ inode
  | _ => True

/-- What is true as long as no watch is entered twice: the tables have every
watch of the kernel as well. -/
structure Tracked (world : WatchWorld Inode) : Prop where
  consistent : world.Consistent
  entered : ∀ mark ∈ world.marks, ∃ path, world.inotify.watches mark.1 = some path

theorem tracked_initial : Tracked ({} : WatchWorld Inode) := by
  refine ⟨⟨inverse_none, ?_⟩, ?_⟩
  · intro handle path impossible
    cases impossible
  · intro mark member
    cases member

variable {world next : WatchWorld Inode} {path : Bytes} {mask : UInt32} {fresh : Nat}

theorem Tracked.free (tracked : Tracked world) (unused : world.marks.has fresh = false) :
    world.inotify.watches fresh = none := by
  cases taken : world.inotify.watches fresh with
  | none => rfl
  | some other =>
      have active := tracked.consistent.active _ _ taken
      rw [unused] at active
      cases active

theorem Tracked.insert (tracked : Tracked world) (inode : Inode)
    (unused : world.marks.has fresh = false) (unwatched : world.inotify.paths path = none) :
    Tracked {
      inotify := {
        watches := Function.update world.inotify.watches fresh (some path)
        paths := Function.update world.inotify.paths path (some (fresh : Int)) }
      marks := (fresh, inode) :: world.marks } := by
  refine ⟨⟨tracked.consistent.inverse.insert unwatched (tracked.free unused), ?_⟩, ?_⟩
  · intro handle other watched
    by_cases same : handle = fresh
    · rw [same]
      exact Marks.has_iff.mpr ⟨_, List.mem_cons_self, rfl⟩
    · dsimp only at watched
      rw [Function.update_of_ne same] at watched
      exact Marks.has_cons _ (tracked.consistent.active handle other watched)
  · intro mark member
    by_cases same : (mark.1 : Int) = fresh
    · exact ⟨path, same ▸ Function.update_self _ _ _⟩
    · have old : mark ∈ world.marks := by
        rcases List.mem_cons.mp member with entered | old
        · rw [entered] at same
          exact (same rfl).elim
        · exact old
      obtain ⟨other, watched⟩ := tracked.entered mark old
      exact ⟨other, (Function.update_of_ne same _ _).trans watched⟩

variable [DecidableEq Inode]

/-- Nothing is entered before the last thing that can throw. -/
def after {α : Type} (world : WatchWorld Inode) (named : Option Inode) (ran : Watching α)
    (tables : α → Inotify) : WatchWorld Inode where
  inotify :=
    match ran.result with
    | .ok value => tables value
    | .error _thrown => world.inotify
  marks := ran.trace.foldl (Marks.perform named) world.marks

/-- A call, which may throw.  No descriptor in use is chosen again. -/
def step (world : WatchWorld Inode) : WatchCall Inode → Option (WatchWorld Inode)
  | .addWatch path mask named fresh =>
      if world.marks.has fresh then none
      else
        let kernel (_path : Bytes) := named.map (world.marks.descriptor fresh)
        some (world.after named.toOption (world.inotify.addWatch kernel path mask) Prod.fst)
  | .removeWatch handle => some (world.after none (world.inotify.removeWatch handle) id)
  | .removeWatchAt path => some (world.after none (world.inotify.removeWatchAt path) id)

/-! ### What a call does to the tables -/

theorem after_of_ok {α : Type} {named : Option Inode} {performed : List WatchAction} {value : α}
    (tables : α → Inotify) :
    world.after named ⟨performed, .ok value⟩ tables =
      ⟨tables value, performed.foldl (Marks.perform named) world.marks⟩ := rfl

theorem Tracked.enter (tracked : Tracked world) {inode : Inode}
    (unused : world.marks.has fresh = false) (unwatched : world.inotify.paths path = none)
    (new : ∀ mark ∈ world.marks, mark.2 ≠ inode) :
    Tracked (world.after (some inode) (world.inotify.addWatch
      (fun _path => .ok (world.marks.descriptor fresh inode)) path mask) Prod.fst) := by
  rw [Marks.descriptor_of_new fresh new,
    Inotify.addWatch_of_new unwatched rfl (tracked.free unused), after_of_ok,
    List.foldl_cons, List.foldl_nil, Marks.perform_addWatch_of_new path mask fresh new]
  exact tracked.insert inode unused unwatched

/-- The handle of an inode that has a watch already loses the watch. -/
theorem Tracked.lose (tracked : Tracked world) {inode : Inode}
    (unwatched : world.inotify.paths path = none) (old : ∃ mark ∈ world.marks, mark.2 = inode) :
    ¬ Consistent (world.after (some inode) (world.inotify.addWatch
      (fun _path => .ok (world.marks.descriptor fresh inode)) path mask) Prod.fst) := by
  intro consistent
  obtain ⟨mark, member, same⟩ := Marks.descriptor_of_old fresh old
  obtain ⟨kept, taken⟩ := tracked.entered mark member
  rw [same, Inotify.addWatch_of_taken unwatched rfl taken, after_of_ok] at consistent
  have active := consistent.active mark.1 kept taken
  rw [List.foldl_cons, List.foldl_cons, List.foldl_nil] at active
  exact ((Marks.has_rmWatch (some inode)).mp active).1 rfl

theorem Tracked.leave (tracked : Tracked world) {handle : Int}
    (pair : world.inotify.paths path = some handle) :
    Tracked {
      inotify := {
        watches := Function.update world.inotify.watches handle none
        paths := Function.update world.inotify.paths path none }
      marks := world.marks.perform none (.rmWatch handle) } := by
  refine ⟨⟨tracked.consistent.inverse.erase pair, ?_⟩, ?_⟩
  · intro other kept watched
    dsimp only at watched ⊢
    by_cases same : other = handle
    · rw [same, Function.update_self] at watched
      cases watched
    · rw [Function.update_of_ne same] at watched
      exact (Marks.has_rmWatch _).mpr ⟨same, tracked.consistent.active other kept watched⟩
  · intro mark member
    dsimp only [Marks.perform] at member ⊢
    obtain ⟨old, other⟩ := List.mem_filter.mp member
    rw [Function.update_of_ne (bne_iff_ne.mp other)]
    exact tracked.entered mark old

/-! ### Runs of calls -/

theorem Tracked.removeWatch (tracked : Tracked world) (handle : Int) :
    Tracked (world.after none (world.inotify.removeWatch handle) id) := by
  cases watched : world.inotify.watches handle with
  | none =>
      unfold Inotify.removeWatch
      rw [watched]
      exact tracked
  | some path =>
      unfold Inotify.removeWatch
      rw [watched]
      exact tracked.leave ((tracked.consistent.inverse path handle).mpr watched)

theorem Tracked.removeWatchAt (tracked : Tracked world) (path : Bytes) :
    Tracked (world.after none (world.inotify.removeWatchAt path) id) := by
  cases found : world.inotify.paths path with
  | none =>
      unfold Inotify.removeWatchAt
      rw [found]
      exact tracked
  | some handle =>
      have watched := (tracked.consistent.inverse path handle).mp found
      unfold Inotify.removeWatchAt
      rw [found]
      simp only [watched]
      exact tracked.leave found

theorem step_addWatch_eq_some {named : Except Nat Inode}
    (stepped : world.step (.addWatch path mask named fresh) = some next) :
    world.marks.has fresh = false ∧ next = world.after named.toOption (world.inotify.addWatch
      (fun _path => named.map (world.marks.descriptor fresh)) path mask) Prod.fst := by
  change (if world.marks.has fresh = true then none else some _) = some next at stepped
  cases used : world.marks.has fresh with
  | true =>
      rw [used] at stepped
      cases stepped
  | false =>
      rw [used] at stepped
      exact ⟨rfl, (Option.some.inj stepped).symm⟩

/-- The tables stay consistent in exactly the calls that name new inodes. -/
theorem Tracked.step (tracked : Tracked world) {call : WatchCall Inode}
    (stepped : world.step call = some next) :
    (world.NamesNewInode call → Tracked next) ∧ (Consistent next → world.NamesNewInode call) := by
  cases call with
  | removeWatch handle =>
      obtain rfl := Option.some.inj stepped
      exact ⟨fun _new => tracked.removeWatch handle, fun _consistent => trivial⟩
  | removeWatchAt path =>
      obtain rfl := Option.some.inj stepped
      exact ⟨fun _new => tracked.removeWatchAt path, fun _consistent => trivial⟩
  | addWatch path mask named fresh =>
      obtain ⟨unused, rfl⟩ := step_addWatch_eq_some stepped
      cases watched : world.inotify.paths path with
      | some handle =>
          rw [Inotify.addWatch_of_watched watched]
          refine ⟨fun _new => tracked, fun _consistent => ?_⟩
          cases named with
          | error code => trivial
          | ok inode =>
              intro unwatched
              rw [watched] at unwatched
              cases unwatched
      | none =>
          cases named with
          | error code =>
              rw [Inotify.addWatch_of_refused watched rfl]
              exact ⟨fun _new => tracked, fun _consistent => trivial⟩
          | ok inode =>
              refine ⟨fun new => tracked.enter unused watched (new watched), ?_⟩
              intro consistent _unwatched mark member same
              exact tracked.lose watched ⟨mark, member, same⟩ consistent

/-- After every call of a sequence, the tables are each other's inverse and the
kernel has all their watches, if and only if no call that adds a watch for a new
path names an inode that has one already. -/
theorem consistent_along_iff (calls : List (WatchCall Inode)) :
    Along step (fun _world _call next => Consistent next) {} calls ↔
      Along step (fun world call _next => NamesNewInode world call) {} calls := by
  apply along_good_iff Tracked
  · intro world call next tracked stepped new
    exact (tracked.step stepped).1 new
  · intro world call next tracked stepped
    exact ⟨(tracked.step stepped).2, fun new => ((tracked.step stepped).1 new).consistent⟩
  · exact tracked_initial

def linkedDirectory : List (WatchCall Nat) :=
  [.addWatch (text "/d") 0 (.ok 7) 1, .addWatch (text "/s") 0 (.ok 7) 2]

theorem linked_directory_loses_watch :
    ¬ Along step (fun _world _call next => Consistent next) ({} : WatchWorld Nat)
      linkedDirectory := by
  intro along
  have consistent := along.2.1
  have active := consistent.active 1 (text "/d") (by decide)
  exact Bool.false_ne_true active

end WatchWorld

end Cdnalizerd
