/-
What is ignored below an ignored directory.

The watcher asks about the path of a directory, the first synchronisation about
the path of a file below it.  Both search the same expressions, so a match in
the directory's path is found in the longer one as well, unless it rests on the
end of the path.
-/

import Cdnalizerd.Inotify
import Cdnalizerd.Library.RegularExpressions

namespace Cdnalizerd

open Library.RegularExpressions

/-- `std::regex`, searched for with `std::regex_search`. -/
def Regex.compile (expression : Expression UInt8) : Regex where
  search := expression.search

namespace ConfigEntry

def ignoring (entry : ConfigEntry) (directories files : List (Expression UInt8)) :
    ConfigEntry :=
  { entry with
    directoriesToIgnore := directories.map Regex.compile
    filesToIgnore := files.map Regex.compile }

def IgnoresBelow (entry : ConfigEntry) (path : Bytes) : Prop :=
  ∀ below, isBelow path below = true → below ≠ path →
    entry.shouldIgnoreFile below = true ∧ entry.shouldIgnoreDirectory below = true

theorem shouldIgnoreFile_of_directory {entry : ConfigEntry} {path : Bytes}
    (ignored : entry.shouldIgnoreDirectory path = true) : entry.shouldIgnoreFile path = true := by
  unfold shouldIgnoreFile
  rw [ignored, Bool.true_or]

theorem shouldIgnoreDirectory_ignoring {entry : ConfigEntry}
    {directories files : List (Expression UInt8)} {path : Bytes} :
    (entry.ignoring directories files).shouldIgnoreDirectory path = true ↔
      ∃ expression ∈ directories, expression.search path = true := by
  unfold shouldIgnoreDirectory ignoring
  simp [Regex.compile]

theorem prefix_withSlash (path : Bytes) : path <+: withSlash path := by
  unfold withSlash
  split
  · exact List.prefix_rfl
  · exact List.prefix_append path [slash]

theorem append_of_isBelow {path below : Bytes} (beneath : isBelow path below = true) :
    ∃ more, below = path ++ more := by
  rcases Bool.or_eq_true_iff.mp beneath with same | longer
  · exact ⟨[], (of_decide_eq_true same).trans (List.append_nil path).symm⟩
  · obtain ⟨more, split⟩ := (prefix_withSlash path).trans (List.isPrefixOf_iff_prefix.mp longer)
    exact ⟨more, split.symm⟩

variable {entry : ConfigEntry} {directories files : List (Expression UInt8)} {path : Bytes}

theorem ignoresBelow_of_occurs {expression : Expression UInt8} (listed : expression ∈ directories)
    (found : expression.occurs false path = true) :
    (entry.ignoring directories files).IgnoresBelow path := by
  intro below beneath _other
  obtain ⟨more, longer⟩ := append_of_isBelow beneath
  have ignored : (entry.ignoring directories files).shouldIgnoreDirectory below = true := by
    rw [longer]
    exact shouldIgnoreDirectory_ignoring.mpr
      ⟨expression, listed, Expression.search_append found more⟩
  exact ⟨shouldIgnoreFile_of_directory ignored, ignored⟩

/-- A match of a directory expression that does not rest on the end of the path
makes the watcher ignore the directory and both processes ignore everything
below it.  Every match is one where no directory expression looks for the end. -/
theorem watcher_and_sync_agree (entry : ConfigEntry) (directories files : List (Expression UInt8))
    (path : Bytes) :
    ((∃ expression ∈ directories, expression.occurs false path = true) →
      (entry.ignoring directories files).shouldIgnoreDirectory path = true ∧
        (entry.ignoring directories files).IgnoresBelow path) ∧
    ((∀ expression ∈ directories, expression.looksAtNoEnd = true) →
      (entry.ignoring directories files).shouldIgnoreDirectory path = true →
        (entry.ignoring directories files).IgnoresBelow path) := by
  constructor
  · intro matched
    obtain ⟨expression, listed, found⟩ := matched
    refine ⟨?_, ignoresBelow_of_occurs listed found⟩
    have here := Expression.search_append found []
    rw [List.append_nil] at here
    exact shouldIgnoreDirectory_ignoring.mpr ⟨expression, listed, here⟩
  · intro none ignored
    obtain ⟨expression, listed, found⟩ := shouldIgnoreDirectory_ignoring.mp ignored
    rw [← Expression.occurs_of_looksAtNoEnd (none expression listed)] at found
    exact ignoresBelow_of_occurs listed found

def cacheAnywhere : Expression UInt8 :=
  .literal (text "cache")

theorem cache_agrees : (sampleEntry.ignoring [cacheAnywhere] []).IgnoresBelow (text "/d/cache") :=
  ((watcher_and_sync_agree sampleEntry [cacheAnywhere] [] (text "/d/cache")).1
    ⟨cacheAnywhere, List.mem_singleton_self _, by decide⟩).2

def cacheAtEnd : Expression UInt8 :=
  .concat cacheAnywhere .finish

theorem anchored_directory_file_not_ignored :
    (sampleEntry.ignoring [cacheAtEnd] []).shouldIgnoreDirectory (text "/d/cache") = true ∧
      ¬ (sampleEntry.ignoring [cacheAtEnd] []).IgnoresBelow (text "/d/cache") := by
  refine ⟨by decide, ?_⟩
  intro below
  have ignored := (below (text "/d/cache/f") (by decide) (by decide)).1
  have kept : (sampleEntry.ignoring [cacheAtEnd] []).shouldIgnoreFile
      (text "/d/cache/f") = false := by
    decide
  rw [kept] at ignored
  cases ignored

end ConfigEntry

end Cdnalizerd
