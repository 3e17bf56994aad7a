/-
The configuration: its entries, in the order of their local directories.

An entry is looked up by `lower_bound`, which finds the place where the path
would be entered.  What stands in that place is returned without being compared
with the path.
-/

import Cdnalizerd.Config
import Cdnalizerd.Library.SortedByKey

namespace Cdnalizerd

open Library SortedByKey

structure ConfigError where
  what : String

def ConfigEntry.upTo (left right : ConfigEntry) : Prop :=
  left.localDir ≤ right.localDir

instance ConfigEntry.instDecidableRelUpTo : DecidableRel ConfigEntry.upTo :=
  fun left right => inferInstanceAs (Decidable (left.localDir ≤ right.localDir))

instance ConfigEntry.instTotalUpTo : Std.Total ConfigEntry.upTo where
  total left right := le_total left.localDir right.localDir

instance ConfigEntry.instIsTransUpTo : IsTrans ConfigEntry ConfigEntry.upTo where
  trans _ _ _ := le_trans

/-- `Config`. -/
structure Entries where
  entries : List ConfigEntry := []
  sorted : entries.Pairwise ConfigEntry.upTo := by exact .nil
  valid : ∀ entry ∈ entries, entry.validate = true := by exact fun _ none => nomatch none

namespace Entries

def empty : Entries := {}

@[simp] theorem entries_empty : empty.entries = [] := rfl

theorem eq_of_entries {left right : Entries} (same : left.entries = right.entries) :
    left = right := by
  cases left
  cases right
  congr

/-- The place is the first one that does not come before the new local directory. -/
def addEntry (config : Entries) (entry : ConfigEntry) : Except ConfigError Entries :=
  if valid : entry.validate = true then
    .ok {
      entries := config.entries.orderedInsert ConfigEntry.upTo entry
      sorted := config.sorted.orderedInsert entry _
      valid := by
        intro other member
        rcases (List.mem_orderedInsert _).mp member with same | old
        · rw [same]
          exact valid
        · exact config.valid other old }
  else .error {
    what :=
      "Need to have a valid username, apikey, region and container before adding a path pair" }

def addEntries (config : Entries) (added : List ConfigEntry) : Except ConfigError Entries :=
  added.foldlM addEntry config

theorem addEntry_eq_ok_iff {config next : Entries} {entry : ConfigEntry} :
    config.addEntry entry = .ok next ↔
      entry.validate = true ∧
        next.entries = config.entries.orderedInsert ConfigEntry.upTo entry := by
  unfold addEntry
  split
  · rename_i valid
    rw [and_iff_right valid, Except.ok.injEq]
    constructor
    · intro same
      rw [← same]
    · intro same
      exact eq_of_entries same.symm
  · rename_i invalid
    constructor
    · intro returned
      cases returned
    · intro both
      exact (invalid both.1).elim

theorem perm_of_addEntry {config next : Entries} {entry : ConfigEntry}
    (returned : config.addEntry entry = .ok next) :
    next.entries.Perm (entry :: config.entries) := by
  rw [(addEntry_eq_ok_iff.mp returned).2]
  exact List.perm_orderedInsert _ entry config.entries

/-- The new entry stands where `lower_bound` would look for its local directory. -/
theorem addEntry_at_lowerBound {config next : Entries} {entry : ConfigEntry}
    (returned : config.addEntry entry = .ok next) :
    ∃ before, config.entries =
        before ++ lowerBound ConfigEntry.localDir entry.localDir config.entries ∧
      next.entries =
        before ++ entry :: lowerBound ConfigEntry.localDir entry.localDir config.entries := by
  rw [(addEntry_eq_ok_iff.mp returned).2]
  exact orderedInsert_at_lowerBound (fun _left _right => Iff.rfl) entry config.entries

theorem addEntry_of_validate (config : Entries) {entry : ConfigEntry}
    (valid : entry.validate = true) : ∃ next, config.addEntry entry = .ok next :=
  ⟨_, dif_pos valid⟩

/-! ### Calls of `addEntry` -/

/-- The configuration after a call, which leaves it alone when it throws. -/
def afterAddEntry (config : Entries) (entry : ConfigEntry) : Entries :=
  match config.addEntry entry with
  | .ok next => next
  | .error _thrown => config

def afterCalls (calls : List ConfigEntry) : Entries :=
  calls.foldl afterAddEntry empty

theorem afterAddEntry_of_ok {config next : Entries} {entry : ConfigEntry}
    (returned : config.addEntry entry = .ok next) : config.afterAddEntry entry = next := by
  unfold afterAddEntry
  rw [returned]

/-- Each call for a valid entry adds that entry. -/
theorem perm_of_calls {calls : List ConfigEntry}
    (valid : ∀ entry ∈ calls, entry.validate = true) (config : Entries) :
    (calls.foldl afterAddEntry config).entries.Perm (calls ++ config.entries) := by
  induction calls generalizing config with
  | nil => exact List.Perm.refl _
  | cons entry calls ih =>
      obtain ⟨next, returned⟩ := config.addEntry_of_validate (valid entry List.mem_cons_self)
      have rest := ih (fun other member => valid other (List.mem_cons_of_mem entry member)) next
      have here := (perm_of_addEntry returned).append_left calls
      rw [List.foldl_cons, afterAddEntry_of_ok returned]
      exact (rest.trans here).trans List.perm_middle

/-- If no call throws, every entry was valid. -/
theorem calls_of_addEntries {config built : Entries} {added : List ConfigEntry}
    (returned : config.addEntries added = .ok built) :
    (∀ entry ∈ added, entry.validate = true) ∧ added.foldl afterAddEntry config = built := by
  induction added generalizing config with
  | nil =>
      refine ⟨?_, Except.ok.inj returned⟩
      intro entry impossible
      cases impossible
  | cons entry added ih =>
      unfold addEntries at returned
      rw [List.foldlM_cons] at returned
      cases first : config.addEntry entry with
      | error thrown =>
          rw [first] at returned
          cases returned
      | ok next =>
          rw [first] at returned
          obtain ⟨valid, same⟩ := ih returned
          rw [List.foldl_cons, afterAddEntry_of_ok first]
          exact ⟨List.forall_mem_cons.mpr ⟨(addEntry_eq_ok_iff.mp first).1, valid⟩, same⟩

/-- The entries are those that were added, in some order. -/
theorem perm_of_addEntries {config built : Entries} {added : List ConfigEntry}
    (returned : config.addEntries added = .ok built) :
    built.entries.Perm (added ++ config.entries) := by
  obtain ⟨valid, same⟩ := calls_of_addEntries returned
  rw [← same]
  exact perm_of_calls valid config

/-! ### Looking an entry up -/

/-- `std::logic_error`, with a text that holds paths. -/
structure LookupError where
  what : Bytes

def listedPaths (config : Entries) : Bytes :=
  config.entries.flatMap (fun entry => entry.localDir ++ text ", ")

def getEntryByPath (config : Entries) (path : Bytes) : Except LookupError ConfigEntry :=
  match lowerBound ConfigEntry.localDir path config.entries with
  | found :: _rest => .ok found
  | [] => .error {
      what := text "Couldn't find " ++ path ++ text " in this list: " ++ config.listedPaths }

theorem getEntryByPath_of_below {config : Entries} {path : Bytes}
    (below : ∀ entry ∈ config.entries, entry.localDir < path) :
    config.getEntryByPath path = .error {
      what := text "Couldn't find " ++ path ++ text " in this list: " ++ config.listedPaths } := by
  unfold getEntryByPath
  rw [lowerBound_eq_nil_iff.mpr below]

theorem getEntryByPath_of_not_below {config : Entries} {path : Bytes}
    (reached : ∃ entry ∈ config.entries, path ≤ entry.localDir) :
    ∃ found rest, lowerBound ConfigEntry.localDir path config.entries = found :: rest ∧
      config.getEntryByPath path = .ok found := by
  unfold getEntryByPath
  cases searched : lowerBound ConfigEntry.localDir path config.entries with
  | nil =>
      obtain ⟨entry, member, above⟩ := reached
      have below := lowerBound_eq_nil_iff.mp searched entry member
      exact (not_lt_of_ge above below).elim
  | cons found rest => exact ⟨found, rest, rfl, rfl⟩

theorem getEntryByPath_of_mem {config : Entries} {path : Bytes}
    (present : ∃ entry ∈ config.entries, entry.localDir = path) :
    ∃ found ∈ config.entries, config.getEntryByPath path = .ok found ∧
      found.localDir = path := by
  obtain ⟨entry, member, same⟩ := present
  obtain ⟨found, rest, searched, returned⟩ :=
    getEntryByPath_of_not_below ⟨entry, member, same.ge⟩
  exact ⟨found, (found_of_lowerBound searched).1, returned,
    key_found_of_mem config.sorted member same searched⟩

structure FindsOnly (config : Entries) (path : Bytes) : Prop where
  found : (∃ entry ∈ config.entries, entry.localDir = path) →
    ∃ entry ∈ config.entries, config.getEntryByPath path = .ok entry ∧ entry.localDir = path
  thrown : (∀ entry ∈ config.entries, entry.localDir ≠ path) →
    ∃ error, config.getEntryByPath path = .error error

/-- A path that is no entry's is missed only behind the last entry. -/
theorem findsOnly_iff (calls : List ConfigEntry) (path : Bytes) :
    (afterCalls calls).FindsOnly path ↔
      (∃ entry ∈ (afterCalls calls).entries, entry.localDir = path) ∨
        ∀ entry ∈ (afterCalls calls).entries, entry.localDir < path := by
  generalize afterCalls calls = config
  constructor
  · intro finds
    by_cases present : ∃ entry ∈ config.entries, entry.localDir = path
    · exact Or.inl present
    · right
      intro entry member
      obtain ⟨error, thrown⟩ := finds.thrown
        (fun other otherMember same => present ⟨other, otherMember, same⟩)
      apply lt_of_not_ge
      intro above
      obtain ⟨found, rest, _searched, returned⟩ :=
        getEntryByPath_of_not_below ⟨entry, member, above⟩
      rw [thrown] at returned
      cases returned
  · intro condition
    refine ⟨getEntryByPath_of_mem, ?_⟩
    intro absent
    rcases condition with ⟨entry, member, same⟩ | below
    · exact (absent entry member same).elim
    · exact ⟨_, getEntryByPath_of_below below⟩

/-- The parent directory of the only entry. -/
theorem parent_directory_found :
    (afterCalls [sampleEntry]).getEntryByPath (text "/") = .ok sampleEntry ∧
      ¬ (afterCalls [sampleEntry]).FindsOnly (text "/") := by
  have returned : (afterCalls [sampleEntry]).getEntryByPath (text "/") = .ok sampleEntry := rfl
  refine ⟨returned, ?_⟩
  intro finds
  have absent : ∀ entry ∈ (afterCalls [sampleEntry]).entries, entry.localDir ≠ text "/" := by
    intro entry member
    rw [List.mem_singleton.mp member]
    decide
  obtain ⟨error, thrown⟩ := finds.thrown absent
  rw [returned] at thrown
  cases thrown

end Entries

end Cdnalizerd
