/-
The objects of the files in watched directories: no two files share one.
-/

import Cdnalizerd.FileWorld
import Cdnalizerd.UrlDestination

namespace Cdnalizerd

namespace FileSetting

variable {setting : FileSetting}

def IsFile (setting : FileSetting) (path : Bytes) : Prop :=
  ∃ handle name, setting.pathOf handle name = some path

theorem pathOf_eq_some_iff {handle : Int} {name path : Bytes} :
    setting.pathOf handle name = some path ↔
      ∃ directory, setting.daemon.inotify.watches handle = some directory ∧ ProperName name ∧
        path = appendPath directory name := by
  unfold pathOf
  cases setting.daemon.inotify.watches handle with
  | none => simp
  | some directory =>
      by_cases proper : ProperName name
      · simp [proper, eq_comm]
      · simp [proper]

/-- A relative path as `fs::relative` returns it for a file. -/
structure ProperRelative (names : Bytes) : Prop where
  nonempty : names ≠ []
  head_ne : names.head? ≠ some slash
  last_ne : names.getLast? ≠ some slash

theorem properRelative_of_name {name : Bytes} (proper : ProperName name) :
    ProperRelative name where
  nonempty := proper.1
  head_ne first := proper.2 (List.mem_of_mem_head? first)
  last_ne last := proper.2 (List.mem_of_getLast? last)

theorem IsFile.split {path : Bytes} (isFile : setting.IsFile path) :
    path = withSlash setting.entry.localDir ++ relativeTo path setting.entry.localDir ∧
      ProperRelative (relativeTo path setting.entry.localDir) := by
  have of_append {names : Bytes} (shape : path = withSlash setting.entry.localDir ++ names)
      (proper : ProperRelative names) :
      path = withSlash setting.entry.localDir ++ relativeTo path setting.entry.localDir ∧
        ProperRelative (relativeTo path setting.entry.localDir) := by
    have relative : relativeTo path setting.entry.localDir = names := by
      unfold relativeTo
      rw [shape, List.drop_left]
    rw [relative]
    exact ⟨shape, proper⟩
  obtain ⟨handle, name, located⟩ := isFile
  obtain ⟨directory, watched, proper, rfl⟩ := pathOf_eq_some_iff.mp located
  rcases setting.placed handle directory watched with
    rfl | ⟨names, rfl, nonempty, head_ne, last_ne⟩
  · exact of_append (appendPath_eq_withSlash proper.1) (properRelative_of_name proper)
  · have deep : withSlash (withSlash setting.entry.localDir ++ names) =
        withSlash setting.entry.localDir ++ (names ++ [slash]) := by
      rw [withSlash_of_open, List.append_assoc]
      rintro (empty | last)
      · exact nonempty (List.append_eq_nil_iff.mp empty).2
      · rw [List.getLast?_append_of_ne_nil _ nonempty] at last
        exact last_ne last
    apply of_append
    · rw [appendPath_eq_withSlash proper.1, deep, List.append_assoc]
    · have nameProper := properRelative_of_name proper
      refine ⟨?_, ?_, ?_⟩
      · intro empty
        exact proper.1 (List.append_eq_nil_iff.mp empty).2
      · rw [List.append_assoc, List.head?_append_of_ne_nil _ nonempty]
        exact head_ne
      · rw [List.getLast?_append_of_ne_nil _ proper.1]
        exact nameProper.last_ne

theorem addresses_of_destination {path : Bytes} {dest : URL} (isFile : setting.IsFile path)
    (named : setting.destinationOf path = .ok dest) :
    Addresses dest setting.url setting.entry.container setting.entry.remoteDir
      (relativeTo path setting.entry.localDir) := by
  have names := ConfigEntry.names_ne_nil_of_validate setting.valid
  exact (clean_of_destination (Rackspace.parse_of_getURL setting.endpoint) setting.ordinary
    names.1 names.2 isFile.split.2.nonempty named).2.2

theorem path_injective {left right : Bytes} {leftDest rightDest : URL}
    (leftFile : setting.IsFile left) (rightFile : setting.IsFile right)
    (leftNamed : setting.destinationOf left = .ok leftDest)
    (rightNamed : setting.destinationOf right = .ok rightDest)
    (same : leftDest.path = rightDest.path) : left = right := by
  have leftSplit := leftFile.split
  have rightSplit := rightFile.split
  rw [(addresses_of_destination leftFile leftNamed).path,
    (addresses_of_destination rightFile rightNamed).path] at same
  have tails := List.append_cancel_left same
  unfold destinationTail at tails
  have encoded := (List.cons.inj (List.append_cancel_left (List.cons.inj
    (List.append_cancel_left (List.cons.inj tails).2)).2)).2
  have stripped := urlencode_injective encoded
  rw [stripSlashes_of_ends_ne leftSplit.2.head_ne leftSplit.2.last_ne,
    stripSlashes_of_ends_ne rightSplit.2.head_ne rightSplit.2.last_ne] at stripped
  rw [leftSplit.1, rightSplit.1, stripped]

end FileSetting

end Cdnalizerd
