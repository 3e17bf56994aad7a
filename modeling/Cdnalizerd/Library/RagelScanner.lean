/-
Table-driven scanners in the form Ragel writes for its binary-search style.

A state owns a block of single keys, a block of key ranges and a block of
transition indices.  A step searches the singles, then the ranges, and falls
through to the last index of the block.  State zero is the error state: the
scanner stops on the byte that led to it, and the end-of-input actions do not
run.
-/

import Mathlib.Order.Bounds.Defs

namespace RagelScanner

/-- The arrays of a generated scanner, under the names Ragel gives them. -/
structure Tables where
  actions : List Nat
  keyOffsets : List Nat
  transKeys : List Int
  singleLengths : List Nat
  rangeLengths : List Nat
  indexOffsets : List Nat
  indicies : List Nat
  transTargs : List Nat
  transActions : List Nat
  eofActions : List Nat
  start : Nat
  firstFinal : Nat

/-- The value of a plain `char` that holds the given byte. -/
def charValue (byte : UInt8) : Int :=
  if byte.toNat < 128 then byte.toNat else (byte.toNat : Int) - 256

namespace Tables

variable (tables : Tables)

/-- Binary search for a key (`width` one) or for a key range (`width` two).
The bounds only close in on each other, so the number of keys bounds the
number of rounds. -/
def search (width : Int) (key : Int) : (rounds : Nat) → (lower upper : Int) → Option Int
  | 0, _, _ => none
  | rounds + 1, lower, upper =>
      if upper < lower then none
      else
        let mid := lower + (upper - lower) / 2 / width * width
        if key < tables.transKeys.getD mid.toNat 0 then
          search width key rounds lower (mid - width)
        else if tables.transKeys.getD (mid + width - 1).toNat 0 < key then
          search width key rounds (mid + width) upper
        else some mid

/-- The index of the transition a state takes on a key.  An empty block leaves
`upper` below `lower`, so its search finds nothing. -/
def transition (state : Nat) (key : Int) : Nat :=
  let keys : Int := tables.keyOffsets.getD state 0
  let trans := tables.indexOffsets.getD state 0
  let singles := tables.singleLengths.getD state 0
  let ranges := tables.rangeLengths.getD state 0
  let slot :=
    match tables.search 1 key (singles + 1) keys (keys + singles - 1) with
    | some mid => trans + (mid - keys).toNat
    | none =>
        let keys := keys + singles
        let trans := trans + singles
        match tables.search 2 key (ranges + 1) keys (keys + 2 * ranges - 2) with
        | some mid => trans + ((mid - keys) / 2).toNat
        | none => trans + ranges
  tables.indicies.getD slot 0

def target (state : Nat) (byte : UInt8) : Nat :=
  tables.transTargs.getD (tables.transition state (charValue byte)) 0

def actionsAt (offset : Nat) : List Nat :=
  (tables.actions.drop (offset + 1)).take (tables.actions.getD offset 0)

def stepActions (state : Nat) (byte : UInt8) : List Nat :=
  tables.actionsAt
    (tables.transActions.getD (tables.transition state (charValue byte)) 0)

def finalActions (state : Nat) : List Nat :=
  tables.actionsAt (tables.eofActions.getD state 0)

theorem search_bounds {width key : Int} (positive : 0 < width) {rounds : Nat}
    {lower upper mid : Int} (found : tables.search width key rounds lower upper = some mid) :
    lower ≤ mid ∧ mid ≤ upper := by
  induction rounds generalizing lower upper with
  | zero => cases found
  | succ rounds ih =>
      unfold search at found
      split at found
      · cases found
      · rename_i ordered
        have halves : 0 ≤ (upper - lower) / 2 := by omega
        have steps : 0 ≤ (upper - lower) / 2 / width * width :=
          Int.mul_nonneg (Int.ediv_nonneg halves (Int.le_of_lt positive)) (Int.le_of_lt positive)
        have within : (upper - lower) / 2 / width * width ≤ (upper - lower) / 2 :=
          Int.ediv_mul_le _ (Int.ne_of_gt positive)
        dsimp only at found
        split at found
        · have inner := ih found
          omega
        · split at found
          · have inner := ih found
            omega
          · obtain rfl := Option.some.inj found
            omega

theorem search_of_below {width key : Int} (below : ∀ index, key < tables.transKeys.getD index 0)
    (rounds : Nat) (lower upper : Int) : tables.search width key rounds lower upper = none := by
  induction rounds generalizing lower upper with
  | zero => rfl
  | succ rounds ih =>
      unfold search
      split
      · rfl
      · dsimp only
        rw [if_pos (below _)]
        exact ih _ _

theorem transition_of_below {key : Int} (below : ∀ index, key < tables.transKeys.getD index 0)
    (state : Nat) :
    tables.transition state key = tables.indicies.getD (tables.indexOffsets.getD state 0 +
      tables.singleLengths.getD state 0 + tables.rangeLengths.getD state 0) 0 := by
  unfold transition
  simp only [tables.search_of_below below]

theorem transition_in_block (state : Nat) (key : Int) :
    ∃ slot, slot ≤ tables.singleLengths.getD state 0 + tables.rangeLengths.getD state 0 ∧
      tables.transition state key =
        tables.indicies.getD (tables.indexOffsets.getD state 0 + slot) 0 := by
  unfold transition
  dsimp only
  split
  · rename_i mid found
    have bounds := tables.search_bounds (by decide) found
    refine ⟨_, ?_, rfl⟩
    omega
  · split
    · rename_i mid found
      have bounds := tables.search_bounds (by decide) found
      refine ⟨_, ?_, by rw [Nat.add_assoc]⟩
      omega
    · exact ⟨_, Nat.le_refl _, by rw [Nat.add_assoc]⟩

end Tables

/-- The cursor, the current state and whatever the actions work on. -/
structure Config (memory : Type) where
  position : Nat
  state : Nat
  memory : memory

section Execution

variable {memory : Type} (tables : Tables) (perform : Nat → Nat → memory → memory)

/-- The actions of one transition, run in order at one cursor position. -/
def performAll (position : Nat) (actions : List Nat) (initial : memory) : memory :=
  actions.foldl (fun current action => perform action position current) initial

/-- One byte.  The cursor stays on a byte that leads to the error state. -/
def step (config : Config memory) (byte : UInt8) : Config memory :=
  if config.state = 0 then config
  else
    let next := tables.target config.state byte
    { position := if next = 0 then config.position else config.position + 1
      state := next
      memory := performAll perform config.position
        (tables.stepActions config.state byte) config.memory }

def scan (config : Config memory) (input : List UInt8) : Config memory :=
  input.foldl (step tables perform) config

/-- The end-of-input actions run only when the cursor reached the end. -/
def finish (config : Config memory) : Config memory :=
  if config.state = 0 then config
  else
    { config with
      memory := performAll perform config.position
        (tables.finalActions config.state) config.memory }

def exec (initial : memory) (input : List UInt8) : Config memory :=
  finish tables perform
    (scan tables perform ⟨0, tables.start, initial⟩ input)

/-! ### Composing runs -/

variable {tables perform}

theorem performAll_concat (position : Nat) (actions : List Nat) (last : Nat)
    (initial : memory) :
    performAll perform position (actions ++ [last]) initial =
      perform last position (performAll perform position actions initial) := by
  unfold performAll
  rw [List.foldl_append]
  rfl

theorem scan_append (config : Config memory) (before after : List UInt8) :
    scan tables perform config (before ++ after) =
      scan tables perform (scan tables perform config before) after :=
  List.foldl_append

theorem scan_cons (config : Config memory) (byte : UInt8) (rest : List UInt8) :
    scan tables perform config (byte :: rest) =
      scan tables perform (step tables perform config byte) rest :=
  rfl

theorem step_of_dead {config : Config memory} (dead : config.state = 0)
    (byte : UInt8) : step tables perform config byte = config := by
  unfold step
  rw [if_pos dead]

theorem scan_of_dead {config : Config memory} (dead : config.state = 0)
    (input : List UInt8) : scan tables perform config input = config := by
  induction input with
  | nil => rfl
  | cons byte rest ih => rw [scan_cons, step_of_dead dead, ih]

/-- A state that survives a byte spends exactly one cursor position on it. -/
theorem step_of_alive {config : Config memory} {byte : UInt8}
    (alive : config.state ≠ 0) (survives : tables.target config.state byte ≠ 0) :
    step tables perform config byte =
      { position := config.position + 1
        state := tables.target config.state byte
        memory := performAll perform config.position
          (tables.stepActions config.state byte) config.memory } := by
  unfold step
  rw [if_neg alive]
  simp only [if_neg survives]

theorem step_state_of_alive {config : Config memory} (alive : config.state ≠ 0)
    (byte : UInt8) :
    (step tables perform config byte).state = tables.target config.state byte := by
  unfold step
  rw [if_neg alive]

theorem alive_of_scan_alive {config : Config memory} {input : List UInt8}
    (alive : (scan tables perform config input).state ≠ 0) : config.state ≠ 0 := by
  intro dead
  rw [scan_of_dead dead] at alive
  exact alive dead

theorem scan_position {config : Config memory} {input : List UInt8}
    (alive : (scan tables perform config input).state ≠ 0) :
    (scan tables perform config input).position =
      config.position + input.length := by
  induction input generalizing config with
  | nil => rfl
  | cons byte rest ih =>
      rw [scan_cons] at alive ⊢
      have configAlive : config.state ≠ 0 := by
        intro dead
        rw [step_of_dead dead] at alive
        exact alive_of_scan_alive alive dead
      have survives : tables.target config.state byte ≠ 0 := by
        have stepAlive := alive_of_scan_alive alive
        rwa [step_state_of_alive configAlive] at stepAlive
      rw [ih alive, step_of_alive configAlive survives]
      simp only [List.length_cons]
      omega

/-- The cursor of a scan stops behind the longest part of its input that leaves
it alive. -/
theorem scan_position_greatest {config : Config memory} (alive : config.state ≠ 0)
    (input : List UInt8) :
    IsGreatest {length | ∃ before after, input = before ++ after ∧
        config.position + before.length = length ∧
        (scan tables perform config before).state ≠ 0}
      (scan tables perform config input).position := by
  induction input generalizing config with
  | nil =>
      refine ⟨⟨[], [], rfl, rfl, alive⟩, ?_⟩
      rintro length ⟨before, after, split, rfl, -⟩
      obtain ⟨rfl, rfl⟩ := List.append_eq_nil_iff.mp split.symm
      exact Nat.le_refl _
  | cons byte rest ih =>
      by_cases survives : tables.target config.state byte = 0
      · have stepped : (step tables perform config byte).state = 0 := by
          rw [step_state_of_alive alive, survives]
        have halted : (scan tables perform config (byte :: rest)).position =
            config.position := by
          rw [scan_cons, scan_of_dead stepped]
          unfold step
          rw [if_neg alive]
          simp only [if_pos survives]
        rw [halted]
        refine ⟨⟨[], byte :: rest, rfl, rfl, alive⟩, ?_⟩
        rintro length ⟨before, after, split, rfl, beforeAlive⟩
        cases before with
        | nil => exact Nat.le_refl _
        | cons first later =>
            obtain ⟨rfl, -⟩ := List.cons.inj split
            rw [scan_cons, scan_of_dead stepped] at beforeAlive
            exact absurd stepped beforeAlive
      · have stepped := @step_of_alive _ tables perform _ _ alive survives
        have onRest := @ih (step tables perform config byte)
          (by rw [stepped]; exact survives)
        have moved : (step tables perform config byte).position = config.position + 1 := by
          rw [stepped]
        rw [scan_cons]
        constructor
        · obtain ⟨before, after, split, length, beforeAlive⟩ := onRest.1
          refine ⟨byte :: before, after, by rw [split]; rfl, ?_, beforeAlive⟩
          rw [← length, moved, List.length_cons]
          omega
        · rintro length ⟨before, after, split, rfl, beforeAlive⟩
          cases before with
          | nil =>
              obtain ⟨before, after, -, length, -⟩ := onRest.1
              rw [← length, moved, List.length_nil]
              omega
          | cons first later =>
              obtain ⟨rfl, rfl⟩ := List.cons.inj split
              have bound := onRest.2 ⟨later, after, rfl, rfl, beforeAlive⟩
              rw [moved] at bound
              rw [List.length_cons]
              omega

theorem scan_invariant {invariant : Config memory → Prop} {input : List UInt8}
    (keeps : ∀ config byte, byte ∈ input → invariant config →
      invariant (step tables perform config byte))
    {config : Config memory} (initially : invariant config) :
    invariant (scan tables perform config input) := by
  induction input generalizing config with
  | nil => exact initially
  | cons byte rest ih =>
      exact ih (fun current next member held =>
          keeps current next (List.mem_cons_of_mem byte member) held)
        (keeps config byte List.mem_cons_self initially)

/-- A scan consults its actions only at the positions it passes. -/
theorem scan_congr {other : Nat → Nat → memory → memory} {config : Config memory}
    {input : List UInt8}
    (agree : ∀ position, position < config.position + input.length →
      ∀ action current, perform action position current = other action position current) :
    scan tables perform config input = scan tables other config input := by
  induction input generalizing config with
  | nil => rfl
  | cons byte rest ih =>
      have here : ∀ actions current, performAll perform config.position actions current =
          performAll other config.position actions current := by
        intro actions
        induction actions with
        | nil => intro current; rfl
        | cons action later onLater =>
            intro current
            have same := agree config.position (by simp) action current
            change performAll perform _ later (perform _ _ _) =
              performAll other _ later (other _ _ _)
            rw [same]
            exact onLater _
      have stepSame : step tables perform config byte = step tables other config byte := by
        unfold step
        rw [here]
      have bound : (step tables other config byte).position ≤ config.position + 1 := by
        unfold step
        split
        · omega
        · simp only
          split <;> omega
      rw [scan_cons, scan_cons, stepSame]
      apply ih
      intro position before
      apply agree
      simp only [List.length_cons]
      omega

/-- A state that every byte of the input keeps, without an action, only moves
the cursor. -/
theorem scan_of_loop {config : Config memory} {input : List UInt8}
    (alive : config.state ≠ 0)
    (stays : ∀ byte ∈ input, tables.target config.state byte = config.state)
    (idle : ∀ byte ∈ input, tables.stepActions config.state byte = []) :
    scan tables perform config input =
      { config with position := config.position + input.length } := by
  induction input generalizing config with
  | nil => rfl
  | cons byte rest ih =>
      have onByte := stays byte List.mem_cons_self
      have stepped : step tables perform config byte =
          { config with position := config.position + 1 } := by
        rw [step_of_alive alive (by rw [onByte]; exact alive), onByte,
          idle byte List.mem_cons_self]
        rfl
      have onRest := @ih { config with position := config.position + 1 } alive
        (fun next member => stays next (List.mem_cons_of_mem byte member))
        (fun next member => idle next (List.mem_cons_of_mem byte member))
      rw [scan_cons, stepped, onRest]
      simp only [List.length_cons, Config.mk.injEq, and_true]
      omega

end Execution

end RagelScanner
