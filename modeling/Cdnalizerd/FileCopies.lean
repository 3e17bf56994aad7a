/-
One file and its copy, while the files change.

The queued events and jobs about a file are the work that its copy waits for.
An operation on the files is a step of every file and its copy, as long as
nothing that needs a copy is renamed.
-/

import Cdnalizerd.FileNames
import Cdnalizerd.Library.WriteBehind

namespace Cdnalizerd

open Library BoundedQueue

namespace FileSetting

variable (setting : FileSetting)

/-! ### One file and its copy -/

def kindWork (mask : UInt32) : Option WriteBehind.Work :=
  if mask = inCloseWrite then some .copyOver
  else if mask = inDelete then some .remove
  else none

def eventWork (path : Bytes) (event : Event) : Option WriteBehind.Work :=
  if setting.pathOf event.wd event.name = some path then kindWork event.mask else none

def jobWork (path : Bytes) (dest : URL) : Job → Option WriteBehind.Work
  | .upload _source _dest => none
  | .conditionalUpload source _dest => if source = path then some .copyOver else none
  | .remoteDelete other => if other = dest then some .remove else none

def view (world : FileWorld) (path : Bytes) (dest : URL) : WriteBehind.Copy Bytes where
  source := world.files path
  copy := world.store dest.path
  pending := world.jobs.filterMap (jobWork path dest) ++
    world.queue.filterMap (setting.eventWork path)

/-- A file that the program keeps a copy of, with the URL of the copy. -/
structure Kept (path : Bytes) (dest : URL) : Prop where
  isFile : setting.IsFile path
  wanted : setting.entry.shouldIgnoreFile path = false
  named : setting.destinationOf path = .ok dest

def Nameable (path : Bytes) : Prop :=
  setting.entry.shouldIgnoreFile path = true ∨ ∃ dest, setting.destinationOf path = .ok dest

def Reportable (mask : UInt32) (path : Bytes) : Prop :=
  mask = inCreate ∨ mask = inMovedFrom ∨ mask = inMovedTo ∨ mask = inCloseWrite ∨
    mask = inDelete ∧ setting.Nameable path

def Fitting (contents : Set Bytes) (path content : Bytes) : Prop :=
  content ∈ contents ∧ (setting.Nameable path ∨ content = [])

/-- What holds along a run, apart from the contents of the copies. -/
structure Running (contents : Set Bytes) (world : FileWorld) : Prop where
  alive : world.daemon = some setting.daemon
  filed : ∀ path content, world.files path = some content →
    setting.IsFile path ∧ setting.Fitting contents path content
  stored : ∀ name content, setting.UnderRemoteDir name → world.store name = some content →
    content ∈ contents ∧ ∃ path dest, setting.Kept path dest ∧ dest.path = name
  queued : ∀ event ∈ world.queue, ∃ path, setting.pathOf event.wd event.name = some path ∧
    setting.Reportable event.mask path
  waiting : ∀ job ∈ world.jobs, ∃ path dest, setting.Kept path dest ∧
    (job = .conditionalUpload path dest ∨ job = .remoteDelete dest)

variable {setting} {contents : Set Bytes} {world : FileWorld} {path : Bytes} {dest : URL}

theorem Kept.unique {other : Bytes} {otherDest : URL} (kept : setting.Kept path dest)
    (otherKept : setting.Kept other otherDest) (same : otherDest.path = dest.path) :
    other = path :=
  path_injective otherKept.isFile kept.isFile otherKept.named kept.named same

theorem Kept.underRemoteDir (kept : setting.Kept path dest) :
    setting.UnderRemoteDir dest.path := by
  refine ⟨urlencode (stripSlashes (relativeTo path setting.entry.localDir)), ?_⟩
  have nothing : urlencode (stripSlashes []) = [] := rfl
  rw [(addresses_of_destination kept.isFile kept.named).path]
  unfold destinationTail
  simp only [nothing, List.append_assoc, List.cons_append, List.nil_append]

theorem isFile_of_pathOf {handle : Int} {name : Bytes}
    (located : setting.pathOf handle name = some path) : setting.IsFile path :=
  ⟨handle, name, located⟩

/-! ### Operations on files -/

def change (world : FileWorld) (path : Bytes) (value : Option Bytes) (queue : List Event) :
    FileWorld :=
  { world with
    files := Function.update world.files path value
    queue := queue }

theorem eventWork_of_located {event : Event}
    (located : setting.pathOf event.wd event.name = some path) (other : Bytes) :
    setting.eventWork other event = if path = other then kindWork event.mask else none := by
  unfold eventWork
  rw [located]
  by_cases same : path = other
  · rw [if_pos same, if_pos (congrArg some same)]
  · rw [if_neg same, if_neg (fun equal => same (Option.some.inj equal))]

section Views

variable {file : Bytes} {value : Option Bytes} {event : Event} {queue : List Event}

theorem view_change_elsewhere (located : setting.pathOf event.wd event.name = some file)
    (gains : Gains world.queue event queue) (different : file ≠ path) :
    setting.view (change world file value queue) path dest = setting.view world path dest := by
  have blind := eventWork_of_located located path
  rw [if_neg different] at blind
  unfold view change
  dsimp only
  rw [gains.filterMap_of_none blind, Function.update_of_ne (Ne.symm different)]

theorem view_change_of_workless (located : setting.pathOf event.wd event.name = some path)
    (gains : Gains world.queue event queue) (workless : kindWork event.mask = none) :
    setting.view (change world path value queue) path dest =
      { setting.view world path dest with source := value } := by
  have blind := eventWork_of_located located path
  rw [if_pos rfl, workless] at blind
  unfold view change
  dsimp only
  rw [gains.filterMap_of_none blind, Function.update_self]

/-- What an event stands for is noted, perhaps with the work before it. -/
theorem view_change_of_work (located : setting.pathOf event.wd event.name = some path)
    (gains : Gains world.queue event queue) {work : WriteBehind.Work}
    (works : kindWork event.mask = some work) :
    ∃ pending, Gains (setting.view world path dest).pending work pending ∧
      setting.view (change world path value queue) path dest =
        { setting.view world path dest with
          source := value
          pending := pending } := by
  have sees := eventWork_of_located located path
  rw [if_pos rfl, works] at sees
  refine ⟨_, (gains.filterMap_of_some sees).append_left
    (world.jobs.filterMap (jobWork path dest)), ?_⟩
  unfold view change
  dsimp only
  rw [Function.update_self]

end Views

theorem Running.change {file : Bytes} {value : Option Bytes} {event : Event}
    {queue : List Event} (running : setting.Running contents world)
    (located : setting.pathOf event.wd event.name = some file)
    (gains : Gains world.queue event queue) (reportable : setting.Reportable event.mask file)
    (fitting : ∀ content, value = some content → setting.Fitting contents file content) :
    setting.Running contents (FileSetting.change world file value queue) where
  alive := running.alive
  filed other content found := by
    dsimp only [FileSetting.change] at found
    by_cases same : other = file
    · subst same
      rw [Function.update_self] at found
      exact ⟨⟨event.wd, event.name, located⟩, fitting content found⟩
    · rw [Function.update_of_ne same] at found
      exact running.filed other content found
  stored := running.stored
  queued other member := by
    rcases gains.mem member with old | rfl
    · exact running.queued other old
    · exact ⟨file, located, reportable⟩
  waiting := running.waiting

/-- Nobody notices that the file goes: it is ignored, or has no object. -/
def GoesUnnoticed (setting : FileSetting) (world : FileWorld) (path : Bytes) : Prop :=
  setting.entry.shouldIgnoreFile path = true ∨
    ∀ dest, setting.destinationOf path = .ok dest → world.store dest.path = none

/-- Nobody notices that the file comes: it is ignored, or empty. -/
def ComesUnnoticed (setting : FileSetting) (path content : Bytes) : Prop :=
  setting.entry.shouldIgnoreFile path = true ∨ content = []

/-- The copies follow: every file and its copy go through steps of their own. -/
structure Carried (setting : FileSetting) (contents : Set Bytes) (world next : FileWorld) :
    Prop where
  running : setting.Running contents next
  follows : ∀ path dest, setting.Kept path dest →
    Relation.ReflTransGen (WriteBehind.Step (· ≠ [])) (setting.view world path dest)
      (setting.view next path dest)

theorem Carried.trans {middle next : FileWorld} (first : setting.Carried contents world middle)
    (second : setting.Carried contents middle next) : setting.Carried contents world next where
  running := second.running
  follows path dest kept := (first.follows path dest kept).trans (second.follows path dest kept)

section Changes

variable {handle : Int} {name content : Bytes} {queue : List Event}

theorem carried_create (running : setting.Running contents world)
    (located : setting.pathOf handle name = some path)
    (gains : Gains world.queue ⟨handle, inCreate, name⟩ queue) :
    setting.Carried contents world (change world path (world.files path) queue) := by
  constructor
  · apply running.change located gains (Or.inl rfl)
    intro content found
    exact (running.filed path content found).2
  · intro other dest _kept
    by_cases same : path = other
    · subst same
      rw [view_change_of_workless located gains rfl]
      exact Relation.ReflTransGen.refl
    · rw [view_change_elsewhere located gains same]

theorem carried_write (running : setting.Running contents world)
    (located : setting.pathOf handle name = some path)
    (gains : Gains world.queue ⟨handle, inCloseWrite, name⟩ queue)
    (fitting : setting.Fitting contents path content) :
    setting.Carried contents world (change world path (some content) queue) := by
  constructor
  · apply running.change located gains (Or.inr (Or.inr (Or.inr (Or.inl rfl))))
    intro other same
    exact Option.some.inj same ▸ fitting
  · intro other dest _kept
    by_cases same : path = other
    · subst same
      obtain ⟨pending, noted, view⟩ :=
        @view_change_of_work setting world path dest (some content) _ _ located gains _ rfl
      rw [view]
      exact Relation.ReflTransGen.single (WriteBehind.Step.written _ content pending noted)
    · rw [view_change_elsewhere located gains same]

theorem carried_delete (running : setting.Running contents world)
    (located : setting.pathOf handle name = some path)
    (gains : Gains world.queue ⟨handle, inDelete, name⟩ queue)
    (nameable : setting.Nameable path) :
    setting.Carried contents world (change world path none queue) := by
  constructor
  · apply running.change located gains (Or.inr (Or.inr (Or.inr (Or.inr ⟨rfl, nameable⟩))))
    intro content absent
    cases absent
  · intro other dest _kept
    by_cases same : path = other
    · subst same
      obtain ⟨pending, noted, view⟩ :=
        @view_change_of_work setting world path dest none _ _ located gains _ rfl
      rw [view]
      exact Relation.ReflTransGen.single (WriteBehind.Step.removed _ pending noted)
    · rw [view_change_elsewhere located gains same]

theorem carried_moveOut (running : setting.Running contents world)
    (located : setting.pathOf handle name = some path)
    (gains : Gains world.queue ⟨handle, inMovedFrom, name⟩ queue)
    (unnoticed : setting.GoesUnnoticed world path) :
    setting.Carried contents world (change world path none queue) := by
  constructor
  · apply running.change located gains (Or.inr (Or.inl rfl))
    intro content absent
    cases absent
  · intro other dest kept
    by_cases same : path = other
    · subst same
      rw [view_change_of_workless located gains rfl]
      apply Relation.ReflTransGen.single
      apply WriteBehind.Step.slippedOut (setting.view world path dest)
      rcases unnoticed with ignored | objectless
      · rw [kept.wanted] at ignored
        cases ignored
      · exact objectless dest kept.named
    · rw [view_change_elsewhere located gains same]

theorem carried_moveIn (running : setting.Running contents world)
    (located : setting.pathOf handle name = some path)
    (gains : Gains world.queue ⟨handle, inMovedTo, name⟩ queue)
    (member : content ∈ contents) (unnoticed : setting.ComesUnnoticed path content) :
    setting.Carried contents world (change world path (some content) queue) := by
  constructor
  · apply running.change located gains (Or.inr (Or.inr (Or.inl rfl)))
    intro other same
    obtain rfl := Option.some.inj same
    exact ⟨member, unnoticed.imp_left Or.inl⟩
  · intro other dest kept
    by_cases same : path = other
    · subst same
      rw [view_change_of_workless located gains rfl]
      apply Relation.ReflTransGen.single
      apply WriteBehind.Step.slippedIn (setting.view world path dest) content
      rcases unnoticed with ignored | empty
      · rw [kept.wanted] at ignored
        cases ignored
      · exact not_not.mpr empty
    · rw [view_change_elsewhere located gains same]

end Changes

end FileSetting

end Cdnalizerd
