/-
The watches of a whole configuration.

The entries are gone through one after another, and for each the directories
from its local directory on.  A directory that is come to a second time ends
the setting up if it has the same path, and has its watch taken away if it is
only the same inode.
-/

import Cdnalizerd.ConfigEntries
import Cdnalizerd.DirectoryRuns
import Cdnalizerd.WatchTables

namespace Cdnalizerd

open Library WatchWorld

/-! ### The kernel's answers -/

def WatchAction.path? : WatchAction → Option Bytes
  | .addWatch path _mask _handle => some path
  | .request _request => none
  | .rmWatch _handle => none

namespace Marks

variable {Inode : Type} [DecidableEq Inode] (inodeOf : Bytes → Inode)

def performAt (marks : Marks Inode) (action : WatchAction) : Marks Inode :=
  marks.perform (action.path?.map inodeOf) action

/-- The handle of an inode that has a watch, and an unused one for any other. -/
def Permits (marks : Marks Inode) : WatchAction → Prop
  | .addWatch path _mask handle =>
      ∃ fresh : Nat, marks.has fresh = false ∧ handle = marks.descriptor fresh (inodeOf path)
  | _ => True

def Lawful : Marks Inode → List WatchAction → Prop
  | _marks, [] => True
  | marks, action :: rest =>
      marks.Permits inodeOf action ∧ Lawful (marks.performAt inodeOf action) rest

variable {inodeOf}

theorem lawful_append_iff {marks : Marks Inode} {first second : List WatchAction} :
    Lawful inodeOf marks (first ++ second) ↔
      Lawful inodeOf marks first ∧ Lawful inodeOf (first.foldl (performAt inodeOf) marks) second := by
  induction first generalizing marks with
  | nil => simp [Lawful]
  | cons action first ih =>
      simp only [List.cons_append, Lawful, List.foldl_cons]
      rw [ih, and_assoc]

end Marks

/-! ### The directories in the order they are come to -/

namespace LocalTree

def holdsDirectory (tree : LocalTree) (path : Bytes) : Bool :=
  match tree.isDirectory path with
  | .ok answer => answer
  | .error _thrown => false

def directoriesFrom (tree : LocalTree) (root : Bytes) : List Bytes :=
  root ::
    match tree.recursiveEntries root with
    | .ok found => found.filter tree.holdsDirectory
    | .error _thrown => []

def Answers (tree : LocalTree) (root : Bytes) : Prop :=
  ∃ found, tree.recursiveEntries root = .ok found ∧
    ∀ path ∈ found, ∃ answer, tree.isDirectory path = .ok answer

end LocalTree

def visitsOf (tree : LocalTree) (entry : ConfigEntry) : List (ConfigEntry × Bytes) :=
  ((tree.directoriesFrom entry.localDir).filter (fun path => !entry.shouldIgnoreDirectory path)).map
    (Prod.mk entry)

def visits (tree : LocalTree) (entries : List ConfigEntry) : List (ConfigEntry × Bytes) :=
  entries.flatMap (visitsOf tree)

theorem mem_visits_iff {tree : LocalTree} {entries : List ConfigEntry} {entry : ConfigEntry}
    {path : Bytes} :
    (entry, path) ∈ visits tree entries ↔
      entry ∈ entries ∧ path ∈ tree.directoriesFrom entry.localDir ∧
        entry.shouldIgnoreDirectory path = false := by
  simp only [visits, visitsOf, List.mem_flatMap, List.mem_map, List.mem_filter, Prod.mk.injEq,
    Bool.not_eq_true']
  constructor
  · intro found
    obtain ⟨_other, member, _path, kept, rfl, rfl⟩ := found
    exact ⟨member, kept⟩
  · intro both
    exact ⟨entry, both.1, path, both.2, rfl, rfl⟩

def visit (kernel : Bytes → Except Nat Nat) (daemon : Daemon)
    (visited : ConfigEntry × Bytes) : Watching Daemon := do
  let (inotify, handle) ← daemon.inotify.addWatch kernel visited.2 maskToFollow
  pure {
    inotify := inotify
    watchToConfig := Function.update daemon.watchToConfig handle (some visited.1) }

section Order

variable {tree : LocalTree} {kernel : Bytes → Except Nat Nat} {entry : ConfigEntry}

theorem foldlM_watchIfDirectory {found : List Bytes}
    (known : ∀ path ∈ found, ∃ answer, tree.isDirectory path = .ok answer) (daemon : Daemon) :
    found.foldlM (watchIfDirectory tree kernel entry) daemon =
      (found.filter tree.holdsDirectory).foldlM (watchNewDirectory kernel entry) daemon := by
  induction found generalizing daemon with
  | nil => rfl
  | cons path found ih =>
      obtain ⟨answer, asked⟩ := known path List.mem_cons_self
      have rest := ih (fun other member => known other (List.mem_cons_of_mem path member))
      have holds : tree.holdsDirectory path = answer := by
        unfold LocalTree.holdsDirectory
        rw [asked]
      rw [List.foldlM_cons]
      unfold watchIfDirectory
      rw [asked, Traced.ask_ok_bind]
      cases answer with
      | true =>
          rw [List.filter_cons_of_pos holds, List.foldlM_cons, if_pos rfl]
          exact bind_congr rest
      | false =>
          rw [List.filter_cons_of_neg (by rw [holds]; exact Bool.false_ne_true)]
          exact rest daemon

theorem foldlM_watchNewDirectory (paths : List Bytes) (daemon : Daemon) :
    paths.foldlM (watchNewDirectory kernel entry) daemon =
      ((paths.filter (fun path => !entry.shouldIgnoreDirectory path)).map (Prod.mk entry)).foldlM
        (visit kernel) daemon := by
  induction paths generalizing daemon with
  | nil => rfl
  | cons path paths ih =>
      rw [List.foldlM_cons]
      cases ignored : entry.shouldIgnoreDirectory path with
      | true =>
          rw [List.filter_cons_of_neg (by simp [ignored])]
          unfold watchNewDirectory
          rw [if_pos ignored]
          exact ih daemon
      | false =>
          rw [List.filter_cons_of_pos (by simp [ignored]), List.map_cons, List.foldlM_cons]
          have visiting : watchNewDirectory kernel entry daemon path =
              visit kernel daemon (entry, path) := by
            unfold watchNewDirectory
            rw [if_neg (by rw [ignored]; exact Bool.false_ne_true)]
            rfl
          rw [visiting]
          exact bind_congr ih

theorem recursivelyWatchDirectory_eq (answers : tree.Answers entry.localDir) (daemon : Daemon) :
    recursivelyWatchDirectory tree kernel daemon entry =
      (visitsOf tree entry).foldlM (visit kernel) daemon := by
  obtain ⟨found, listed, known⟩ := answers
  have from_root : tree.directoriesFrom entry.localDir =
      entry.localDir :: found.filter tree.holdsDirectory := by
    unfold LocalTree.directoriesFrom
    rw [listed]
  unfold visitsOf
  rw [← foldlM_watchNewDirectory, from_root, List.foldlM_cons]
  unfold recursivelyWatchDirectory
  rw [listed]
  exact bind_congr (fun rooted => foldlM_watchIfDirectory known rooted)

theorem createINotifyWatches_eq {entries : List ConfigEntry}
    (answers : ∀ entry ∈ entries, tree.Answers entry.localDir) :
    createINotifyWatches tree kernel entries =
      (visits tree entries).foldlM (visit kernel) {} := by
  unfold createINotifyWatches
  generalize ({} : Daemon) = daemon
  induction entries generalizing daemon with
  | nil => rfl
  | cons entry entries ih =>
      have rest := ih (fun other member => answers other (List.mem_cons_of_mem entry member))
      unfold visits
      rw [List.foldlM_cons, List.flatMap_cons, List.foldlM_append,
        recursivelyWatchDirectory_eq (answers entry List.mem_cons_self)]
      exact bind_congr rest

end Order

/-! ### Directories that are come to once -/

section Once

variable {Inode : Type} {inodeOf : Bytes → Inode} {kernel : Bytes → Except Nat Nat}
  {daemon next : Daemon} {marks : Marks Inode} {done : List (ConfigEntry × Bytes)}
  {entry : ConfigEntry} {path : Bytes}

/-- The kernel's watch on the directory has a handle that is entered under the
path and leads to the entry. -/
def WatchedAs (inodeOf : Bytes → Inode) (marks : Marks Inode) (daemon : Daemon)
    (entry : ConfigEntry) (path : Bytes) : Prop :=
  ∃ number : Nat, (number, inodeOf path) ∈ marks ∧
    daemon.inotify.paths path = some (number : Int) ∧
    daemon.inotify.watches number = some path ∧
    daemon.watchToConfig number = some entry

/-- The directories come to so far are different, and they are what is watched. -/
structure Entered (inodeOf : Bytes → Inode) (done : List (ConfigEntry × Bytes))
    (daemon : Daemon) (marks : Marks Inode) : Prop where
  tracked : Tracked ⟨daemon.inotify, marks⟩
  watched : ∀ visited ∈ done, WatchedAs inodeOf marks daemon visited.1 visited.2
  marked : ∀ mark ∈ marks, ∃ visited ∈ done, inodeOf visited.2 = mark.2
  named : ∀ path handle, daemon.inotify.paths path = some handle →
    ∃ visited ∈ done, visited.2 = path

theorem entered_nothing : Entered inodeOf [] {} [] := by
  refine ⟨tracked_initial, ?_, ?_, ?_⟩
  · intro visited none
    cases none
  · intro mark none
    cases none
  · intro path handle impossible
    cases impossible

theorem Entered.unwatched (entered : Entered inodeOf done daemon marks)
    (new : ∀ visited ∈ done, inodeOf visited.2 ≠ inodeOf path) :
    daemon.inotify.paths path = none := by
  cases found : daemon.inotify.paths path with
  | none => rfl
  | some handle =>
      obtain ⟨visited, member, same⟩ := entered.named path handle found
      exact absurd (congrArg inodeOf same) (new visited member)

theorem Entered.unmarked (entered : Entered inodeOf done daemon marks)
    (new : ∀ visited ∈ done, inodeOf visited.2 ≠ inodeOf path) :
    ∀ mark ∈ marks, mark.2 ≠ inodeOf path := by
  intro mark member same
  obtain ⟨visited, earlier, other⟩ := entered.marked mark member
  exact new visited earlier (other.trans same)

theorem WatchedAs.watching {fresh : Nat} {other : ConfigEntry} {otherPath : Bytes}
    (watched : WatchedAs inodeOf marks daemon other otherPath)
    (unused : marks.has fresh = false) (different : otherPath ≠ path) :
    WatchedAs inodeOf ((fresh, inodeOf path) :: marks) (daemon.watching path fresh entry)
      other otherPath := by
  obtain ⟨number, marked, named, kept, attributed⟩ := watched
  have apart : (number : Int) ≠ fresh := by
    intro same
    have active := Marks.has_iff.mpr ⟨_, marked, same⟩
    rw [unused] at active
    cases active
  refine ⟨number, List.mem_cons_of_mem _ marked, ?_, ?_, ?_⟩
  · exact (Function.update_of_ne different _ _).trans named
  · exact (Function.update_of_ne apart _ _).trans kept
  · exact (Function.update_of_ne apart _ _).trans attributed

theorem Entered.watching {fresh : Nat} (entered : Entered inodeOf done daemon marks)
    (unused : marks.has fresh = false)
    (new : ∀ visited ∈ done, inodeOf visited.2 ≠ inodeOf path) :
    Entered inodeOf (done ++ [(entry, path)]) (daemon.watching path fresh entry)
      ((fresh, inodeOf path) :: marks) := by
  have unwatched := entered.unwatched new
  refine ⟨entered.tracked.insert (inodeOf path) unused unwatched, ?_, ?_, ?_⟩
  · intro visited member
    rcases List.mem_append.mp member with early | last
    · apply (entered.watched visited early).watching unused
      intro same
      exact new visited early (congrArg inodeOf same)
    · rw [List.mem_singleton.mp last]
      exact ⟨fresh, List.mem_cons_self, Function.update_self _ _ _, Function.update_self _ _ _,
        Function.update_self _ _ _⟩
  · intro mark member
    rcases List.mem_cons.mp member with same | old
    · rw [same]
      exact ⟨_, List.mem_append_right done (List.mem_singleton_self _), rfl⟩
    · obtain ⟨visited, earlier, same⟩ := entered.marked mark old
      exact ⟨visited, List.mem_append_left _ earlier, same⟩
  · intro other handle found
    by_cases same : other = path
    · rw [same]
      exact ⟨_, List.mem_append_right done (List.mem_singleton_self _), rfl⟩
    · have before : daemon.inotify.paths other = some handle :=
        (Function.update_of_ne same _ _).symm.trans found
      obtain ⟨visited, earlier, named⟩ := entered.named other handle before
      exact ⟨visited, List.mem_append_left _ earlier, named⟩

variable [DecidableEq Inode]

theorem visit_of_new {number : Nat} (entered : Entered inodeOf done daemon marks)
    (answered : kernel path = .ok number)
    (permitted : marks.Permits inodeOf (.addWatch path maskToFollow number))
    (new : ∀ visited ∈ done, inodeOf visited.2 ≠ inodeOf path) :
    marks.has number = false ∧
      marks.performAt inodeOf (.addWatch path maskToFollow number) =
        (number, inodeOf path) :: marks ∧
      visit kernel daemon (entry, path) =
        ⟨[.addWatch path maskToFollow number], .ok (daemon.watching path number entry)⟩ := by
  obtain ⟨fresh, unused, chosen⟩ := permitted
  have unmarked := entered.unmarked new
  rw [Marks.descriptor_of_new fresh unmarked] at chosen
  obtain rfl := Int.ofNat.inj chosen
  refine ⟨unused, Marks.perform_addWatch_of_new path maskToFollow number unmarked, ?_⟩
  have added : daemon.inotify.addWatch kernel path maskToFollow = _ :=
    Inotify.addWatch_of_new (entered.unwatched new) answered (entered.tracked.free unused)
  unfold visit
  rw [added]
  rfl

/-! ### Directories that are come to again -/

def Misnamed (inotify : Inotify) (path : Bytes) : Prop :=
  ∃ handle other, inotify.paths path = some handle ∧ inotify.watches handle = some other ∧
    other ≠ path

omit [DecidableEq Inode] in
theorem Misnamed.not_watchedAs (misnamed : Misnamed daemon.inotify path) :
    ¬ WatchedAs inodeOf marks daemon entry path := by
  intro watched
  obtain ⟨handle, other, named, kept, different⟩ := misnamed
  obtain ⟨number, _marked, also, under, _attributed⟩ := watched
  obtain rfl := Option.some.inj (named.symm.trans also)
  exact different (Option.some.inj (kept.symm.trans under))

theorem Misnamed.visit {visited : ConfigEntry × Bytes}
    (misnamed : Misnamed daemon.inotify path)
    (returned : (visit kernel daemon visited).result = .ok next) :
    Misnamed next.inotify path := by
  obtain ⟨handle, other, named, kept, different⟩ := misnamed
  obtain ⟨outcome, added, rest⟩ := Traced.bind_result_eq_ok_iff.mp returned
  rw [← Except.ok.inj rest]
  obtain ⟨unwatched, number, _answered, _handle, paths, watches⟩ :=
    Inotify.addWatch_of_returned added
  have elsewhere : path ≠ visited.2 := by
    intro same
    rw [same, unwatched] at named
    cases named
  refine ⟨handle, other, ?_, ?_, different⟩
  · dsimp only
    rw [paths, Function.update_of_ne elsewhere]
    exact named
  · dsimp only
    rcases watches with ⟨free, entered⟩ | ⟨_taken, same⟩
    · have apart : handle ≠ number := by
        intro same
        rw [same, free] at kept
        cases kept
      rw [entered, Function.update_of_ne apart]
      exact kept
    · rw [same]
      exact kept

theorem Misnamed.run {rest : List (ConfigEntry × Bytes)} (misnamed : Misnamed daemon.inotify path)
    (returned : (rest.foldlM (Cdnalizerd.visit kernel) daemon).result = .ok next) :
    Misnamed next.inotify path := by
  induction rest generalizing daemon with
  | nil =>
      obtain rfl := Except.ok.inj returned
      exact misnamed
  | cons visited rest ih =>
      rw [List.foldlM_cons] at returned
      obtain ⟨middle, first, later⟩ := Traced.bind_result_eq_ok_iff.mp returned
      exact ih (misnamed.visit first) later

/-- A directory that has its watch already, under this path or another, is not
given one under this path. -/
theorem visit_of_old {number : Nat} (entered : Entered inodeOf done daemon marks)
    (answered : kernel path = .ok number)
    (permitted : daemon.inotify.paths path = none →
      marks.Permits inodeOf (.addWatch path maskToFollow number))
    (old : ∃ visited ∈ done, inodeOf visited.2 = inodeOf path)
    (returned : (visit kernel daemon (entry, path)).result = .ok next) :
    Misnamed next.inotify path := by
  obtain ⟨outcome, added, rest⟩ := Traced.bind_result_eq_ok_iff.mp returned
  rw [← Except.ok.inj rest]
  obtain ⟨unwatched, other, otherAnswer, _handle, paths, watches⟩ :=
    Inotify.addWatch_of_returned added
  obtain rfl := Except.ok.inj (otherAnswer.symm.trans answered)
  obtain ⟨fresh, _unused, chosen⟩ := permitted unwatched
  obtain ⟨visited, member, same⟩ := old
  obtain ⟨earlier, marked, _named, _kept, _attributed⟩ := entered.watched visited member
  obtain ⟨mark, markMember, existing⟩ := Marks.descriptor_of_old fresh ⟨_, marked, same⟩
  rw [existing] at chosen
  obtain ⟨kept, taken⟩ := entered.tracked.entered mark markMember
  rw [← chosen] at taken
  refine ⟨other, kept, ?_, ?_, ?_⟩
  · dsimp only
    rw [paths, Function.update_self]
  · dsimp only
    rcases watches with ⟨free, _entered⟩ | ⟨_taken, unchanged⟩
    · rw [free] at taken
      cases taken
    · rw [unchanged]
      exact taken
  · intro samePath
    have named := (entered.tracked.consistent.inverse kept other).mpr taken
    rw [samePath, unwatched] at named
    cases named

/-! ### Going through the directories -/

theorem visit_trace {number : Nat} (unwatched : daemon.inotify.paths path = none)
    (answered : kernel path = .ok number) :
    ∃ more following, Cdnalizerd.visit kernel daemon (entry, path) =
      ⟨.addWatch path maskToFollow number :: more, .ok following⟩ := by
  unfold Cdnalizerd.visit
  cases taken : daemon.inotify.watches number with
  | none =>
      rw [Inotify.addWatch_of_new unwatched answered taken]
      exact ⟨_, _, rfl⟩
  | some kept =>
      rw [Inotify.addWatch_of_taken unwatched answered taken]
      exact ⟨_, _, rfl⟩

theorem permits_of_lawful {number : Nat} {rest : List (ConfigEntry × Bytes)}
    (answered : kernel path = .ok number)
    (lawful : Marks.Lawful inodeOf marks
      (((entry, path) :: rest).foldlM (Cdnalizerd.visit kernel) daemon).trace)
    (unwatched : daemon.inotify.paths path = none) :
    marks.Permits inodeOf (.addWatch path maskToFollow number) := by
  obtain ⟨more, following, visiting⟩ := @visit_trace kernel daemon entry path number unwatched answered
  rw [List.foldlM_cons, visiting, Traced.bind_of_ok rfl] at lawful
  exact lawful.1

theorem Entered.advance {number : Nat} {rest : List (ConfigEntry × Bytes)}
    (entered : Entered inodeOf done daemon marks) (answered : kernel path = .ok number)
    (lawful : Marks.Lawful inodeOf marks
      (((entry, path) :: rest).foldlM (Cdnalizerd.visit kernel) daemon).trace)
    (new : ∀ visited ∈ done, inodeOf visited.2 ≠ inodeOf path) :
    ∃ following marked, Entered inodeOf (done ++ [(entry, path)]) following marked ∧
      Marks.Lawful inodeOf marked (rest.foldlM (Cdnalizerd.visit kernel) following).trace ∧
      (((entry, path) :: rest).foldlM (Cdnalizerd.visit kernel) daemon).result =
        (rest.foldlM (Cdnalizerd.visit kernel) following).result ∧
      (((entry, path) :: rest).foldlM (Cdnalizerd.visit kernel) daemon).trace.foldl
          (Marks.performAt inodeOf) marks =
        (rest.foldlM (Cdnalizerd.visit kernel) following).trace.foldl
          (Marks.performAt inodeOf) marked := by
  have permitted := permits_of_lawful answered lawful (entered.unwatched new)
  obtain ⟨unused, marked, visiting⟩ :
      _ ∧ _ ∧ Cdnalizerd.visit kernel daemon (entry, path) = _ :=
    visit_of_new entered answered permitted new
  refine ⟨_, _, entered.watching unused new, ?_⟩
  rw [List.foldlM_cons, visiting, Traced.bind_of_ok rfl] at lawful ⊢
  rw [Marks.lawful_append_iff, List.foldl_cons, List.foldl_nil, marked] at lawful
  refine ⟨lawful.2, rfl, ?_⟩
  rw [List.foldl_append, List.foldl_cons, List.foldl_nil, marked]

/-- Different directories are all watched at the end. -/
theorem Entered.run {rest : List (ConfigEntry × Bytes)}
    (entered : Entered inodeOf done daemon marks)
    (answered : ∀ visited ∈ rest, ∃ number, kernel visited.2 = .ok number)
    (lawful : Marks.Lawful inodeOf marks (rest.foldlM (Cdnalizerd.visit kernel) daemon).trace)
    (distinct : ((done ++ rest).map (fun visited => inodeOf visited.2)).Nodup) :
    ∃ final, (rest.foldlM (Cdnalizerd.visit kernel) daemon).result = .ok final ∧
      Entered inodeOf (done ++ rest) final
        ((rest.foldlM (Cdnalizerd.visit kernel) daemon).trace.foldl
          (Marks.performAt inodeOf) marks) := by
  induction rest generalizing done daemon marks with
  | nil => exact ⟨daemon, rfl, (List.append_nil done).symm ▸ entered⟩
  | cons visited rest ih =>
      obtain ⟨entry, path⟩ := visited
      have new : ∀ visited ∈ done, inodeOf visited.2 ≠ inodeOf path := by
        intro visited member
        rw [List.map_append, List.nodup_append] at distinct
        exact distinct.2.2 _ (List.mem_map_of_mem member) _ List.mem_cons_self
      obtain ⟨number, answer⟩ := answered _ List.mem_cons_self
      obtain ⟨following, marked, after, restLawful, result, performed⟩ :=
        entered.advance answer lawful new
      rw [List.append_cons] at distinct ⊢
      rw [result, performed]
      exact ih after (fun other member => answered other (List.mem_cons_of_mem _ member))
        restLawful distinct

/-- A directory that is come to twice is not watched at the end. -/
theorem Entered.run_repeated {rest : List (ConfigEntry × Bytes)} {final : Daemon}
    (entered : Entered inodeOf done daemon marks)
    (answered : ∀ visited ∈ rest, ∃ number, kernel visited.2 = .ok number)
    (lawful : Marks.Lawful inodeOf marks (rest.foldlM (Cdnalizerd.visit kernel) daemon).trace)
    (once : (done.map (fun visited => inodeOf visited.2)).Nodup)
    (repeated : ¬ ((done ++ rest).map (fun visited => inodeOf visited.2)).Nodup)
    (returned : (rest.foldlM (Cdnalizerd.visit kernel) daemon).result = .ok final) :
    ∃ visited ∈ rest, Misnamed final.inotify visited.2 := by
  induction rest generalizing done daemon marks with
  | nil =>
      rw [List.append_nil] at repeated
      exact absurd once repeated
  | cons visited rest ih =>
      obtain ⟨entry, path⟩ := visited
      obtain ⟨number, answer⟩ := answered _ List.mem_cons_self
      by_cases old : ∃ visited ∈ done, inodeOf visited.2 = inodeOf path
      · refine ⟨_, List.mem_cons_self, ?_⟩
        have permitted := permits_of_lawful answer lawful
        rw [List.foldlM_cons] at returned
        obtain ⟨middle, first, later⟩ := Traced.bind_result_eq_ok_iff.mp returned
        exact (visit_of_old entered answer permitted old first).run later
      · have new : ∀ visited ∈ done, inodeOf visited.2 ≠ inodeOf path :=
          fun visited member same => old ⟨visited, member, same⟩
        obtain ⟨following, marked, after, restLawful, result, _performed⟩ :=
          entered.advance answer lawful new
        rw [List.append_cons] at repeated
        have stillOnce : ((done ++ [(entry, path)]).map
            (fun visited => inodeOf visited.2)).Nodup := by
          rw [List.map_append, List.nodup_append]
          refine ⟨once, List.nodup_singleton _, ?_⟩
          intro earlier member last single
          obtain ⟨visited, earlierMember, rfl⟩ := List.mem_map.mp member
          rw [List.mem_singleton.mp single]
          exact new visited earlierMember
        obtain ⟨other, member, misnamed⟩ := ih after
          (fun other member => answered other (List.mem_cons_of_mem _ member)) restLawful stillOnce
          repeated (result.symm.trans returned)
        exact ⟨other, List.mem_cons_of_mem _ member, misnamed⟩

end Once

/-! ### The configuration -/

section Configuration

variable {Inode : Type} [DecidableEq Inode]

/-- What the file system and the kernel are relied on for while the watches of
the entries are set up. -/
structure Serves (tree : LocalTree) (kernel : Bytes → Except Nat Nat) (inodeOf : Bytes → Inode)
    (entries : List ConfigEntry) : Prop where
  readable : ∀ entry ∈ entries, tree.Answers entry.localDir
  accepts : ∀ entry ∈ entries, ∀ path ∈ tree.directoriesFrom entry.localDir,
    ∃ number, kernel path = .ok number
  lawful : Marks.Lawful inodeOf [] (createINotifyWatches tree kernel entries).trace

/-- The setting up returns, and every directory that an entry does not ignore
is watched for that entry. -/
def AllWatched (tree : LocalTree) (kernel : Bytes → Except Nat Nat) (inodeOf : Bytes → Inode)
    (config : Entries) (added : List ConfigEntry) : Prop :=
  let created := createINotifyWatches tree kernel config.entries
  ∃ daemon, created.result = .ok daemon ∧
    ∀ entry ∈ added, ∀ path ∈ tree.directoriesFrom entry.localDir,
      entry.shouldIgnoreDirectory path = false →
        WatchedAs inodeOf (created.trace.foldl (Marks.performAt inodeOf) []) daemon entry path

def VisitedOnce (tree : LocalTree) (inodeOf : Bytes → Inode) (added : List ConfigEntry) : Prop :=
  ((visits tree added).map (fun visited => inodeOf visited.2)).Nodup

theorem all_watched_iff_visited_once (tree : LocalTree) (kernel : Bytes → Except Nat Nat)
    (inodeOf : Bytes → Inode) {added : List ConfigEntry} {config : Entries}
    (built : ({} : Entries).addEntries added = .ok config)
    (serves : Serves tree kernel inodeOf config.entries) :
    AllWatched tree kernel inodeOf config added ↔ VisitedOnce tree inodeOf added := by
  have perm : config.entries.Perm added := by
    have same := Entries.perm_of_addEntries built
    rwa [List.append_nil] at same
  have sameVisits : (visits tree config.entries).Perm (visits tree added) :=
    perm.flatMap_right _
  have lawful := serves.lawful
  have answered : ∀ visited ∈ visits tree config.entries,
      ∃ number, kernel visited.2 = .ok number := by
    intro visited member
    obtain ⟨listed, there, _kept⟩ := mem_visits_iff.mp member
    exact serves.accepts _ listed _ there
  unfold AllWatched
  rw [createINotifyWatches_eq serves.readable] at lawful ⊢
  constructor
  · intro watched
    obtain ⟨daemon, returned, all⟩ := watched
    by_contra repeated
    have again : ¬ (([] ++ visits tree config.entries).map
        (fun (visited : ConfigEntry × Bytes) => inodeOf visited.2)).Nodup := by
      intro distinct
      exact repeated ((sameVisits.map _).nodup_iff.mp distinct)
    obtain ⟨visited, member, misnamed⟩ := entered_nothing.run_repeated answered lawful
      List.nodup_nil again returned
    obtain ⟨listed, there, kept⟩ := mem_visits_iff.mp (sameVisits.mem_iff.mp member)
    exact misnamed.not_watchedAs (all _ listed _ there kept)
  · intro once
    have distinct : (([] ++ visits tree config.entries).map
        (fun (visited : ConfigEntry × Bytes) => inodeOf visited.2)).Nodup :=
      (sameVisits.map _).nodup_iff.mpr once
    obtain ⟨daemon, returned, entered⟩ := entered_nothing.run answered lawful distinct
    refine ⟨daemon, returned, ?_⟩
    intro entry listed path there kept
    exact entered.watched (entry, path)
      (sameVisits.mem_iff.mpr (mem_visits_iff.mpr ⟨listed, there, kept⟩))

end Configuration

/-! ### Two entries -/

def numberedKernel (path : Bytes) : Except Nat Nat :=
  .ok (numbered path)

theorem twoTrees_distinct (root : Bytes) :
    (([text "/d/a", text "/d/a/b", text "/d/f", text "/e/g"].filter
      (isBelow root)).map pathElements).Nodup := by
  have all : ([text "/d/a", text "/d/a/b", text "/d/f", text "/e/g"].map pathElements).Nodup := by
    decide
  exact all.sublist (List.filter_sublist.map pathElements)

def twoTrees : LocalTree :=
  { LocalTree.ofEntries [(text "/d/a", none), (text "/d/a/b", none), (text "/d/f", some (1, 1)),
      (text "/e/g", none)] (by decide) with
    recursiveEntries := fun root =>
      .ok ([text "/d/a", text "/d/a/b", text "/d/f", text "/e/g"].filter (isBelow root))
    entriesDistinct := fun root _listed enumerated =>
      Except.ok.inj enumerated ▸ twoTrees_distinct root }

def sampleConfig : Entries where
  entries := [sampleEntry, neighbourEntry]
  sorted := by decide
  valid := by decide

theorem sampleConfig_built :
    ({} : Entries).addEntries [sampleEntry, neighbourEntry] = .ok sampleConfig := rfl

theorem sampleConfig_serves : Serves twoTrees numberedKernel id sampleConfig.entries where
  readable _entry _member := ⟨_, rfl, fun _path _found => ⟨_, rfl⟩⟩
  accepts _entry _member path _there := ⟨numbered path, rfl⟩
  lawful :=
    ⟨⟨numbered (text "/d"), by decide, by decide⟩, ⟨numbered (text "/d/a"), by decide, by decide⟩,
      ⟨numbered (text "/d/a/b"), by decide, by decide⟩,
      ⟨numbered (text "/e"), by decide, by decide⟩,
      ⟨numbered (text "/e/g"), by decide, by decide⟩, trivial⟩

theorem all_watched_sampleConfig :
    AllWatched twoTrees numberedKernel id sampleConfig [sampleEntry, neighbourEntry] :=
  (all_watched_iff_visited_once _ _ _ sampleConfig_built sampleConfig_serves).mpr (by
    unfold VisitedOnce
    decide)

theorem sampleDirectory_serves {entries : List ConfigEntry}
    (lawful : Marks.Lawful id [] (createINotifyWatches sampleDirectory numberedKernel
      entries).trace) :
    Serves sampleDirectory numberedKernel id entries where
  readable _entry _member := ⟨[], rfl, fun _path none => nomatch none⟩
  accepts _entry _member path _there := ⟨numbered path, rfl⟩
  lawful := lawful

def secondEntry : ConfigEntry :=
  { sampleEntry with container := text "b" }

def overlappingConfig : Entries where
  entries := [secondEntry, sampleEntry]
  sorted := by decide
  valid := by decide

theorem overlapping_entries_not_watched :
    ({} : Entries).addEntries [sampleEntry, secondEntry] = .ok overlappingConfig ∧
      Serves sampleDirectory numberedKernel id overlappingConfig.entries ∧
      ¬ AllWatched sampleDirectory numberedKernel id overlappingConfig
        [sampleEntry, secondEntry] := by
  refine ⟨rfl, ?_, ?_⟩
  · exact sampleDirectory_serves ⟨⟨numbered (text "/d"), rfl, rfl⟩, trivial⟩
  · intro watched
    obtain ⟨daemon, returned, _all⟩ := watched
    have thrown : (createINotifyWatches sampleDirectory numberedKernel
        overlappingConfig.entries).result =
          .error (.logicError "Can't watch the same path twice") := rfl
    rw [thrown] at returned
    cases returned

end Cdnalizerd
