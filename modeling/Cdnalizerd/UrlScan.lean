/-
What the generated URL scanner does around the path component.

The facts about the path are checked over all bytes, those about the other
states over their blocks.  From them: a string that parses and has no question
mark can be continued, after one slash, by any bytes of the path class, and
only the path of the result changes.
-/

import Cdnalizerd.Url
import Cdnalizerd.Library.PercentCoding
import Cdnalizerd.Library.SeparatorJoin

namespace Cdnalizerd

open RagelScanner SeparatorJoin

/-- The bytes of `hpath` in `url.rl`: `uchar`, the reserved bytes an `hsegment`
admits, and the slash between segments. -/
def isPathByte (byte : UInt8) : Bool :=
  isAlphanumeric byte ||
    (['$', '-', '_', '.', '+', '!', '*', '\'', '(', ')', ',', '%',
      ';', ':', '@', '&', '=', '/'].map Char.toUInt8).contains byte

/-- The final states without a search: inside the path, or after a host or a
port that the path may follow. -/
def opensPath (state : Nat) : Bool :=
  state = 16 || state = 17 || state = 20 || state = 21 || state = 22

/-! ### Table facts -/

private theorem path_table : ∀ index : Fin 256,
    UInt8.ofNat index.val ≠ question →
      urlTables.target 17 (UInt8.ofNat index.val) =
          (if isPathByte (UInt8.ofNat index.val) then 17 else 0) ∧
        urlTables.stepActions 17 (UInt8.ofNat index.val) = [] := by
  decide +kernel

private theorem opening_table : ∀ state : Fin 23, opensPath state.val = true →
    urlTables.target state.val slash = 17 ∧
      urlTables.stepActions state.val slash =
        if state.val = 17 then [] else urlTables.finalActions state.val ++ [9] := by
  decide

private theorem slash_target_table : ∀ state : Fin 23,
    16 ≤ urlTables.target state.val slash → opensPath state.val = true := by
  decide

private theorem final_actions_table : ∀ state : Fin 23, opensPath state.val = true →
    state.val ≠ 17 →
      urlTables.finalActions state.val = [2] ∨ urlTables.finalActions state.val = [4] := by
  decide

/-- Outside the path no transition enters the search or assigns one of the last
components, whatever the byte. -/
private theorem block_table : ∀ state : Fin 23,
    state.val ≠ 17 → state.val ≠ 18 → state.val ≠ 19 →
      ∀ slot : Fin 13,
        slot.val ≤ urlTables.singleLengths.getD state.val 0 +
            urlTables.rangeLengths.getD state.val 0 →
          let index := urlTables.indicies.getD (urlTables.indexOffsets.getD state.val 0 + slot.val) 0
          urlTables.transTargs.getD index 0 < 23 ∧
            urlTables.transTargs.getD index 0 ≠ 18 ∧
            urlTables.transTargs.getD index 0 ≠ 19 ∧
            ∀ action ∈ urlTables.actionsAt (urlTables.transActions.getD index 0), action < 10 := by
  decide

private theorem block_lengths_table : ∀ state : Fin 23,
    urlTables.singleLengths.getD state.val 0 + urlTables.rangeLengths.getD state.val 0 < 13 := by
  decide

theorem ne_question_of_path {byte : UInt8} (legal : isPathByte byte = true) :
    byte ≠ question := by
  rintro rfl
  exact absurd legal (by decide)

theorem target_path {byte : UInt8} (legal : isPathByte byte = true) :
    urlTables.target 17 byte = 17 := by
  have ordinary := ne_question_of_path legal
  obtain ⟨index, rfl⟩ := PercentCoding.exists_byte_index byte
  rw [(path_table index ordinary).1, if_pos legal]

theorem stepActions_path {byte : UInt8} (ordinary : byte ≠ question) :
    urlTables.stepActions 17 byte = [] := by
  obtain ⟨index, rfl⟩ := PercentCoding.exists_byte_index byte
  exact (path_table index ordinary).2

theorem target_path_illegal {byte : UInt8} (illegal : isPathByte byte = false)
    (ordinary : byte ≠ question) : urlTables.target 17 byte = 0 := by
  obtain ⟨index, rfl⟩ := PercentCoding.exists_byte_index byte
  rw [(path_table index ordinary).1, illegal]
  rfl

/-! ### Slices and the start iterator -/

theorem slice_append_left {before : Bytes} (after : Bytes) (start : Nat) {p : Nat}
    (inside : p ≤ before.length) : slice (before ++ after) start p = slice before start p := by
  unfold slice
  rw [List.take_append_of_le_length inside]

theorem slice_to_end (raw : Bytes) (start : Nat) :
    slice raw start raw.length = raw.drop start := by
  unfold slice
  rw [List.take_length]

theorem performAction_append_left {before : Bytes} (after : Bytes) {p : Nat}
    (inside : p ≤ before.length) (action : Nat) (memory : ParseMemory) :
    performAction (before ++ after) action p memory =
      performAction before action p memory := by
  unfold performAction
  rw [slice_append_left after memory.start inside]

theorem scan_append_left (before after : Bytes) (config : Config ParseMemory)
    (atStart : config.position = 0) :
    scan urlTables (performAction (before ++ after)) config before =
      scan urlTables (performAction before) config before := by
  apply scan_congr
  intro position inside action current
  apply performAction_append_left
  omega

/-! ### The scan of a string without a question mark -/

/-- What holds of the scanner as long as no question mark was read. -/
structure BeforeSearch (config : Config ParseMemory) : Prop where
  state_lt : config.state < 23
  notSearchStart : config.state ≠ 18
  notSearch : config.state ≠ 19
  path_nil : config.memory.url.path = []
  search_nil : config.memory.url.search = []
  start_le : config.memory.start ≤ config.position

private theorem performAction_of_lt_ten {action : Nat} (early : action < 10)
    (raw : Bytes) (p : Nat) (memory : ParseMemory) :
    (performAction raw action p memory).url.path = memory.url.path ∧
      (performAction raw action p memory).url.search = memory.url.search ∧
      ((performAction raw action p memory).start = memory.start ∨
        (performAction raw action p memory).start = p) := by
  have cases : action = 0 ∨ action = 1 ∨ action = 2 ∨ action = 3 ∨ action = 4 ∨
      action = 5 ∨ action = 6 ∨ action = 7 ∨ action = 8 ∨ action = 9 := by omega
  rcases cases with rfl | rfl | rfl | rfl | rfl | rfl | rfl | rfl | rfl | rfl <;>
    simp [performAction]

private theorem performAll_before_search {actions : List Nat} {p : Nat} (raw : Bytes)
    (early : ∀ action ∈ actions, action < 10) (memory : ParseMemory)
    (started : memory.start ≤ p) :
    (performAll (performAction raw) p actions memory).url.path = memory.url.path ∧
      (performAll (performAction raw) p actions memory).url.search = memory.url.search ∧
      (performAll (performAction raw) p actions memory).start ≤ p := by
  induction actions generalizing memory with
  | nil => exact ⟨rfl, rfl, started⟩
  | cons action later ih =>
      obtain ⟨samePath, sameSearch, moved⟩ :=
        performAction_of_lt_ten (early action List.mem_cons_self) raw p memory
      have stillStarted : (performAction raw action p memory).start ≤ p := by
        rcases moved with kept | reset <;> omega
      have rest := ih (fun other member => early other (List.mem_cons_of_mem action member))
        (performAction raw action p memory) stillStarted
      rw [samePath, sameSearch] at rest
      exact rest

/-- What a byte other than a question mark can do. -/
theorem target_before_search {config : Config ParseMemory} {byte : UInt8}
    (before : BeforeSearch config) (ordinary : byte ≠ question) :
    urlTables.target config.state byte < 23 ∧
      urlTables.target config.state byte ≠ 18 ∧
      urlTables.target config.state byte ≠ 19 ∧
      ∀ action ∈ urlTables.stepActions config.state byte, action < 10 := by
  by_cases inPath : config.state = 17
  · rw [inPath, stepActions_path ordinary]
    have stays : urlTables.target 17 byte = 17 ∨ urlTables.target 17 byte = 0 := by
      cases legal : isPathByte byte with
      | true => exact Or.inl (target_path legal)
      | false => exact Or.inr (target_path_illegal legal ordinary)
    refine ⟨by omega, by omega, by omega, ?_⟩
    exact fun action member => absurd member List.not_mem_nil
  · obtain ⟨slot, within, taken⟩ := urlTables.transition_in_block config.state (charValue byte)
    have short := block_lengths_table ⟨config.state, before.state_lt⟩
    have block := block_table ⟨config.state, before.state_lt⟩ inPath before.notSearchStart
      before.notSearch ⟨slot, Nat.lt_of_le_of_lt within short⟩ within
    unfold Tables.target Tables.stepActions
    rw [taken]
    exact block

theorem step_before_search {config : Config ParseMemory} {byte : UInt8} (raw : Bytes)
    (before : BeforeSearch config) (ordinary : byte ≠ question) :
    BeforeSearch (step urlTables (performAction raw) config byte) := by
  by_cases dead : config.state = 0
  · rw [step_of_dead dead]
    exact before
  · obtain ⟨inRange, notStart, notSearch, early⟩ := target_before_search before ordinary
    obtain ⟨samePath, sameSearch, started⟩ :=
      performAll_before_search raw early config.memory before.start_le
    unfold step
    rw [if_neg dead]
    constructor
    · exact inRange
    · exact notStart
    · exact notSearch
    · exact samePath.trans before.path_nil
    · exact sameSearch.trans before.search_nil
    · simp only
      split <;> omega

def initialConfig : Config ParseMemory := ⟨0, urlTables.start, {}⟩

theorem scan_before_search {raw input : Bytes} (ordinary : question ∉ input) :
    BeforeSearch (scan urlTables (performAction raw) initialConfig input) := by
  apply scan_invariant
  · intro config byte member held
    apply step_before_search raw held
    rintro rfl
    exact ordinary member
  · constructor <;> decide

/-! ### Continuing a URL after a slash -/

/-- Two URLs name the same scheme, login and authority. -/
structure SameAuthority (left right : URL) : Prop where
  scheme : left.scheme = right.scheme
  user : left.user = right.user
  password : left.password = right.password
  host : left.host = right.host
  port : left.port = right.port

/-- The configuration after the slash that opens or continues the path, and
what the URL that ends there, or right before, owes to it. -/
structure PathOpened (before : Bytes) (url : URL) (config : Config ParseMemory) : Prop where
  position : config.position = before.length + 1
  state : config.state = 17
  start_le : config.memory.start ≤ before.length
  search_nil : config.memory.url.search = []
  authority : SameAuthority url config.memory.url
  stripped : stripBack slash url.path = before.drop config.memory.start
  urlSearch_nil : url.search = []

/-- The scan of a prefix, under the actions of the prefix continued by a
slash. -/
def scanBefore (before : Bytes) : Config ParseMemory :=
  scan urlTables (performAction (before ++ [slash])) initialConfig before

def scanOpened (before : Bytes) : Config ParseMemory :=
  scan urlTables (performAction (before ++ [slash])) initialConfig (before ++ [slash])

theorem scanOpened_eq_step (before : Bytes) :
    scanOpened before =
      step urlTables (performAction (before ++ [slash])) (scanBefore before) slash :=
  scan_append _ _ _

theorem scanBefore_eq (before : Bytes) :
    scanBefore before = scan urlTables (performAction before) initialConfig before :=
  scan_append_left before [slash] initialConfig rfl

theorem scanBefore_beforeSearch {before : Bytes} (ordinary : question ∉ before) :
    BeforeSearch (scanBefore before) :=
  scan_before_search ordinary

theorem scanBefore_position {before : Bytes} (alive : (scanBefore before).state ≠ 0) :
    (scanBefore before).position = before.length :=
  (scan_position alive).trans (Nat.zero_add _)

theorem scanOpened_eq {before : Bytes} (ordinary : question ∉ before)
    (opens : opensPath (scanBefore before).state = true) :
    scanOpened before =
      { position := before.length + 1
        state := 17
        memory := performAll (performAction (before ++ [slash])) before.length
          (urlTables.stepActions (scanBefore before).state slash)
          (scanBefore before).memory } := by
  have alive : (scanBefore before).state ≠ 0 := by
    intro dead
    rw [dead] at opens
    cases opens
  have toPath := (opening_table
    ⟨(scanBefore before).state, (scanBefore_beforeSearch ordinary).state_lt⟩ opens).1
  rw [scanOpened_eq_step, step_of_alive alive (by rw [toPath]; decide), toPath,
    scanBefore_position alive]

theorem parse_eq_ok_iff (raw : Bytes) (url : URL) :
    URL.parse raw = .ok url ↔
      16 ≤ (scannedURL raw).state ∧
        url = { (scannedURL raw).memory.url with
          raw := raw
          pathAndSearch := (scannedURL raw).memory.url.path ++
            (scannedURL raw).memory.url.search } := by
  unfold URL.parse
  by_cases final : (scannedURL raw).state < urlTables.firstFinal
  · rw [if_pos final]
    constructor
    · intro impossible
      cases impossible
    · intro both
      exact (Nat.not_le_of_lt final both.1).elim
  · rw [if_neg final]
    constructor
    · intro same
      exact ⟨Nat.le_of_not_lt final, (Except.ok.inj same).symm⟩
    · intro both
      rw [both.2]

theorem scannedURL_eq_finish (raw : Bytes) :
    scannedURL raw = finish urlTables (performAction raw)
      (scan urlTables (performAction raw) initialConfig raw) :=
  rfl

theorem finish_state (raw : Bytes) (config : Config ParseMemory) :
    (finish urlTables (performAction raw) config).state = config.state := by
  unfold finish
  split <;> rfl

theorem finish_in_path {raw : Bytes} {config : Config ParseMemory}
    (inPath : config.state = 17) (atEnd : config.position = raw.length) :
    (finish urlTables (performAction raw) config).memory.url =
      { config.memory.url with path := raw.drop config.memory.start } := by
  unfold finish
  rw [if_neg (by rw [inPath]; decide), inPath, atEnd]
  change { config.memory.url with path := slice raw config.memory.start raw.length } = _
  rw [slice_to_end]

theorem stripBack_drop_of_ne {raw : Bytes} (kept : raw.getLast? ≠ some slash) (start : Nat) :
    stripBack slash (raw.drop start) = raw.drop start := by
  apply stripBack_of_getLast_ne
  rw [List.getLast?_drop]
  split
  · simp
  · exact kept

theorem scanOpened_start_le {before : Bytes} (ordinary : question ∉ before)
    (opens : opensPath (scanBefore before).state = true) :
    (scanOpened before).memory.start ≤ before.length := by
  have held := scanBefore_beforeSearch ordinary
  have alive : (scanBefore before).state ≠ 0 := by
    intro dead
    rw [dead] at opens
    cases opens
  have started := held.start_le
  rw [scanBefore_position alive] at started
  rw [scanOpened_eq ordinary opens]
  exact (performAll_before_search _ (target_before_search held (by decide)).2.2.2
    _ started).2.2

theorem scanOpened_beforeSearch {before : Bytes} (ordinary : question ∉ before) :
    BeforeSearch (scanOpened before) := by
  rw [scanOpened_eq_step]
  exact step_before_search _ (scanBefore_beforeSearch ordinary) (by decide)

private theorem pathOpened_of_slash {before : Bytes} {url : URL}
    (parsed : URL.parse (before ++ [slash]) = .ok url)
    (ordinary : question ∉ before) : PathOpened before url (scanOpened before) := by
  obtain ⟨final, shape⟩ := (parse_eq_ok_iff _ _).mp parsed
  have scanned : scannedURL (before ++ [slash]) = finish urlTables
      (performAction (before ++ [slash])) (scanOpened before) := rfl
  rw [scanned, finish_state] at final
  have opens : opensPath (scanBefore before).state = true := by
    apply slash_target_table ⟨(scanBefore before).state,
      (scanBefore_beforeSearch ordinary).state_lt⟩
    have alive : (scanBefore before).state ≠ 0 := by
      intro dead
      rw [scanOpened_eq_step, step_of_dead dead, dead] at final
      omega
    rwa [scanOpened_eq_step, step_state_of_alive alive] at final
  have opened := scanOpened_eq ordinary opens
  have state : (scanOpened before).state = 17 := by rw [opened]
  have position : (scanOpened before).position = before.length + 1 := by rw [opened]
  have started := scanOpened_start_le ordinary opens
  have held := scanOpened_beforeSearch ordinary
  rw [scanned, finish_in_path state (by rw [position]; simp)] at shape
  subst shape
  constructor
  · exact position
  · exact state
  · exact started
  · exact held.search_nil
  · constructor <;> rfl
  · change stripBack slash (List.drop _ (before ++ [slash])) = _
    rw [List.drop_append_of_le_length started, stripBack_concat_sep]
  · exact held.search_nil

/-- Outside the path a slash ends the host or the port, as the end of the string
does, and then only moves the start. -/
private theorem ended_before_slash {before : Bytes} (ordinary : question ∉ before)
    (opens : opensPath (scanBefore before).state = true)
    (outside : (scanBefore before).state ≠ 17) :
    ∃ ended : ParseMemory,
      (finish urlTables (performAction before) (scanBefore before)).memory = ended ∧
        (scanOpened before).memory = { ended with start := before.length } ∧
        ended.url.path = [] ∧ ended.url.search = [] := by
  have held := scanBefore_beforeSearch ordinary
  have alive : (scanBefore before).state ≠ 0 := by
    intro dead
    rw [dead] at opens
    cases opens
  have onSlash := (opening_table ⟨(scanBefore before).state, held.state_lt⟩ opens).2
  simp only at onSlash
  rw [if_neg outside] at onSlash
  obtain ⟨action, early, ending⟩ : ∃ action, action < 10 ∧
      urlTables.finalActions (scanBefore before).state = [action] := by
    rcases final_actions_table ⟨(scanBefore before).state, held.state_lt⟩ opens outside with
      atEnd | atEnd
    · exact ⟨2, by decide, atEnd⟩
    · exact ⟨4, by decide, atEnd⟩
  have kept := performAction_of_lt_ten early before before.length (scanBefore before).memory
  refine ⟨performAction before action before.length (scanBefore before).memory, ?_, ?_,
    kept.1.trans held.path_nil, kept.2.1.trans held.search_nil⟩
  · unfold finish
    rw [if_neg alive, ending, scanBefore_position alive]
    rfl
  · rw [scanOpened_eq ordinary opens, onSlash, ending]
    change performAction (before ++ [slash]) 9 before.length
      (performAction (before ++ [slash]) action before.length (scanBefore before).memory) = _
    rw [performAction_append_left [slash] (Nat.le_refl _) action]
    rfl

private theorem memory_inside_path {before : Bytes} (ordinary : question ∉ before)
    (inside : (scanBefore before).state = 17) :
    (scanOpened before).memory = (scanBefore before).memory := by
  have opens : opensPath (scanBefore before).state = true := by
    rw [inside]
    rfl
  rw [scanOpened_eq ordinary opens, inside, stepActions_path (by decide)]
  rfl

private theorem pathOpened_of_no_slash {before : Bytes} {url : URL}
    (parsed : URL.parse before = .ok url) (ordinary : question ∉ before)
    (noSlash : before.getLast? ≠ some slash) :
    PathOpened before url (scanOpened before) := by
  obtain ⟨final, shape⟩ := (parse_eq_ok_iff _ _).mp parsed
  have scanned : scannedURL before = finish urlTables (performAction before)
      (scanBefore before) := by
    rw [scanBefore_eq]
    rfl
  rw [scanned] at final shape
  rw [finish_state] at final
  have held := scanBefore_beforeSearch ordinary
  have opens : opensPath (scanBefore before).state = true := by
    have inRange := held.state_lt
    have notStart := held.notSearchStart
    have notSearch := held.notSearch
    simp only [opensPath, Bool.or_eq_true, decide_eq_true_eq]
    omega
  have alive : (scanBefore before).state ≠ 0 := by omega
  have opened := scanOpened_eq ordinary opens
  have started := scanOpened_start_le ordinary opens
  have openedHeld := scanOpened_beforeSearch ordinary
  by_cases inPath : (scanBefore before).state = 17
  · have memory := memory_inside_path ordinary inPath
    rw [finish_in_path inPath (scanBefore_position alive)] at shape
    subst shape
    constructor
    · rw [opened]
    · rw [opened]
    · exact started
    · exact openedHeld.search_nil
    · rw [memory]
      constructor <;> rfl
    · rw [memory]
      exact stripBack_drop_of_ne noSlash _
    · exact held.search_nil
  · obtain ⟨ended, finished, memory, path_nil, search_nil⟩ :=
      ended_before_slash ordinary opens inPath
    rw [finished] at shape
    subst shape
    constructor
    · rw [opened]
    · rw [opened]
    · exact started
    · exact openedHeld.search_nil
    · rw [memory]
      constructor <;> rfl
    · rw [memory]
      change stripBack slash ended.url.path = before.drop before.length
      rw [path_nil, List.drop_length]
      rfl
    · exact search_nil

theorem pathOpened_of_parse {raw : Bytes} {url : URL} (parsed : URL.parse raw = .ok url)
    (ordinary : question ∉ raw) :
    PathOpened (stripBack slash raw) url (scanOpened (stripBack slash raw)) := by
  by_cases ends : raw.getLast? = some slash
  · obtain ⟨before, rfl⟩ := List.getLast?_eq_some_iff.mp ends
    rw [stripBack_concat_sep]
    exact pathOpened_of_slash parsed
      (fun member => ordinary (List.mem_append_left [slash] member))
  · rw [stripBack_of_getLast_ne ends]
    exact pathOpened_of_no_slash parsed ordinary ends

private theorem scan_continued (before rest : Bytes) :
    scan urlTables (performAction (before ++ slash :: rest)) initialConfig
        (before ++ slash :: rest) =
      scan urlTables (performAction (before ++ slash :: rest)) (scanOpened before) rest := by
  have split : before ++ slash :: rest = (before ++ [slash]) ++ rest := by simp
  rw [split, scan_append, scan_append_left _ _ _ rfl]
  rfl

/-- Bytes of the path class after the slash extend the path and nothing
else. -/
theorem parse_continued {raw : Bytes} {url : URL} (parsed : URL.parse raw = .ok url)
    (ordinary : question ∉ raw) {rest : Bytes}
    (legal : ∀ byte ∈ rest, isPathByte byte = true) :
    ∃ continued, URL.parse (stripBack slash raw ++ slash :: rest) = .ok continued ∧
      SameAuthority continued url ∧ continued.search = [] ∧
      continued.path = stripBack slash url.path ++ slash :: rest ∧
      continued.pathAndSearch = continued.path := by
  have opened := pathOpened_of_parse parsed ordinary
  generalize stripBack slash raw = before at opened
  have looped := @scan_of_loop _ urlTables (performAction (before ++ slash :: rest))
    (scanOpened before) rest (by rw [opened.state]; decide)
    (by
      intro byte member
      rw [opened.state]
      exact target_path (legal byte member))
    (by
      intro byte member
      rw [opened.state]
      exact stepActions_path (ne_question_of_path (legal byte member)))
  have scanned : (scannedURL (before ++ slash :: rest)).memory.url =
      { (scanOpened before).memory.url with
        path := (before ++ slash :: rest).drop (scanOpened before).memory.start } := by
    rw [scannedURL_eq_finish, scan_continued, looped]
    apply finish_in_path
    · exact opened.state
    · simp only [opened.position, List.length_append, List.length_cons]
      omega
  have final : 16 ≤ (scannedURL (before ++ slash :: rest)).state := by
    rw [scannedURL_eq_finish, finish_state, scan_continued, looped]
    change 16 ≤ (scanOpened before).state
    rw [opened.state]
    decide
  refine ⟨_, (parse_eq_ok_iff _ _).mpr ⟨final, rfl⟩, ?_, ?_, ?_, ?_⟩
  · rw [scanned]
    constructor
    · exact opened.authority.scheme.symm
    · exact opened.authority.user.symm
    · exact opened.authority.password.symm
    · exact opened.authority.host.symm
    · exact opened.authority.port.symm
  · rw [scanned]
    exact opened.search_nil
  · rw [scanned, opened.stripped]
    exact List.drop_append_of_le_length opened.start_le
  · change (scannedURL _).memory.url.path ++ (scannedURL _).memory.url.search = _
    rw [scanned]
    change _ ++ (scanOpened before).memory.url.search = _
    rw [opened.search_nil, List.append_nil]

theorem path_bytes_of_alive {raw rest : Bytes} {config : Config ParseMemory}
    (inPath : config.state = 17) (noSearch : question ∉ rest)
    (alive : (scan urlTables (performAction raw) config rest).state ≠ 0) :
    ∀ byte ∈ rest, isPathByte byte = true := by
  induction rest generalizing config with
  | nil => intro byte member; cases member
  | cons first later ih =>
      rw [scan_cons] at alive
      have configAlive : config.state ≠ 0 := by rw [inPath]; decide
      have stepState := @step_state_of_alive _ urlTables (performAction raw) _ configAlive first
      rw [inPath] at stepState
      cases legal : isPathByte first with
      | false =>
          have ordinary : first ≠ question := by
            intro same
            exact noSearch (same ▸ List.mem_cons_self)
          rw [target_path_illegal legal ordinary] at stepState
          exact (alive_of_scan_alive alive stepState).elim
      | true =>
          rw [target_path legal] at stepState
          intro byte member
          rcases List.mem_cons.mp member with same | inLater
          · rw [same]
            exact legal
          · exact ih stepState
              (fun found => noSearch (List.mem_cons_of_mem first found)) alive byte inLater

/-- A continuation without a question mark parses only if it is made of path
bytes. -/
theorem path_bytes_of_parse_continued {raw : Bytes} {url continued : URL}
    (parsed : URL.parse raw = .ok url) (ordinary : question ∉ raw) {rest : Bytes}
    (noSearch : question ∉ rest)
    (accepted : URL.parse (stripBack slash raw ++ slash :: rest) = .ok continued) :
    ∀ byte ∈ rest, isPathByte byte = true := by
  have opened := pathOpened_of_parse parsed ordinary
  have final := ((parse_eq_ok_iff _ _).mp accepted).1
  rw [scannedURL_eq_finish, finish_state, scan_continued] at final
  apply path_bytes_of_alive opened.state noSearch
  intro dead
  rw [dead] at final
  omega

end Cdnalizerd
