/-
The comparison of two configuration entries, `ConfigEntry::operator<`.

It holds when any of eight fields is less, not when the first field that differs
is.  Two entries that differ in opposite directions come before each other.
-/

import Mathlib.Data.Bool.Basic
import Cdnalizerd.Config
import Cdnalizerd.Library.FieldOrders

namespace Cdnalizerd

open Library FieldOrders

namespace ConfigEntry

/-- `operator<`, to allow easy sorting. -/
def less (entry other : ConfigEntry) : Bool :=
  entry.localDir < other.localDir || entry.remoteDir < other.remoteDir ||
    entry.username < other.username || entry.region < other.region ||
    entry.container < other.container || entry.apikey < other.apikey ||
    entry.snet < other.snet || entry.move < other.move

/-- `operator==`.  The lists of what is ignored are not compared. -/
def equal (entry other : ConfigEntry) : Bool :=
  entry.localDir = other.localDir && entry.remoteDir = other.remoteDir &&
    entry.username = other.username && entry.region = other.region &&
    entry.container = other.container && entry.apikey = other.apikey &&
    entry.snet = other.snet && entry.move = other.move

def NowhereAbove (entry other : ConfigEntry) : Prop :=
  entry.localDir ≤ other.localDir ∧ entry.remoteDir ≤ other.remoteDir ∧
    entry.username ≤ other.username ∧ entry.region ≤ other.region ∧
    entry.container ≤ other.container ∧ entry.apikey ≤ other.apikey ∧
    entry.snet ≤ other.snet ∧ entry.move ≤ other.move

abbrev Fields : Type :=
  Bytes × Bytes × Bytes × Bytes × Bytes × Bytes × Bool × Bool

def fields (entry : ConfigEntry) : Fields :=
  (entry.localDir, entry.remoteDir, entry.username, entry.region, entry.container, entry.apikey,
    entry.snet, entry.move)

theorem fields_le_iff (entry other : ConfigEntry) :
    entry.fields ≤ other.fields ↔ entry.NowhereAbove other := Iff.rfl

theorem less_iff (entry other : ConfigEntry) :
    entry.less other = true ↔ ¬ other.fields ≤ entry.fields := by
  rw [fields_le_iff]
  simp only [less, NowhereAbove, Bool.or_eq_true, decide_eq_true_eq, not_and_or, not_le, or_assoc]

theorem equal_iff (entry other : ConfigEntry) :
    entry.equal other = true ↔ entry.fields = other.fields := by
  simp only [equal, fields, Bool.and_eq_true, decide_eq_true_eq, Prod.mk.injEq, and_assoc]

/-- Some entries can be sorted by their comparison if and only if no two of them
differ in opposite directions. -/
theorem sortable_iff (entries : Set ConfigEntry) :
    StrictOrderOn entries (fun entry other => entry.less other = true)
        (fun entry other => entry.equal other = true) ↔
      ∀ entry ∈ entries, ∀ other ∈ entries,
        entry.NowhereAbove other ∨ other.NowhereAbove entry :=
  strictOrderOn_iff less_iff equal_iff entries

def crossedEntry : ConfigEntry :=
  { sampleEntry with
    localDir := text "/e"
    remoteDir := text "h" }

theorem crossed_entries_before_each_other :
    sampleEntry.less crossedEntry = true ∧ crossedEntry.less sampleEntry = true ∧
      ¬ StrictOrderOn Set.univ (fun entry other : ConfigEntry => entry.less other = true)
        (fun entry other => entry.equal other = true) := by
  have before : sampleEntry.less crossedEntry = true := by decide
  have behind : crossedEntry.less sampleEntry = true := by decide
  refine ⟨before, behind, ?_⟩
  intro order
  exact order.asymmetric sampleEntry trivial crossedEntry trivial before behind

end ConfigEntry

end Cdnalizerd
