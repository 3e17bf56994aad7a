/-
The states of the generated URL scanner, in the words of its rules.

Each state has a few arrows, and a byte no arrow admits stops the scan.  What a
scan has read when it is in a state is a rule of its own, so the final states
accept words of the `url` rule only.  Every live state can still be completed.
-/

import Cdnalizerd.UrlGrammar

namespace Cdnalizerd

open RagelScanner Grammar
open scoped Computability

/-! ### Arrows -/

structure Arrow where
  admits : UInt8 → Bool
  target : Nat
  actions : List Nat

def only (code : UInt8) (byte : UInt8) : Bool :=
  byte == code

def urlArrows : Nat → List Arrow
  | 1 => [⟨only 'h'.toUInt8, 2, []⟩]
  | 2 => [⟨only 't'.toUInt8, 3, []⟩]
  | 3 => [⟨only 't'.toUInt8, 4, []⟩]
  | 4 => [⟨only 'p'.toUInt8, 5, []⟩]
  | 5 => [⟨only colon, 6, []⟩, ⟨only 's'.toUInt8, 15, []⟩]
  | 6 => [⟨only slash, 7, []⟩]
  | 7 => [⟨only slash, 8, []⟩]
  | 8 => [⟨isHostByte, 21, [0, 5, 1]⟩, ⟨isLoginByte, 9, [0, 5]⟩]
  | 9 => [⟨isLoginByte, 9, []⟩, ⟨only colon, 10, [6]⟩, ⟨only atSign, 12, [6]⟩]
  | 10 => [⟨isLoginByte, 11, [7]⟩]
  | 11 => [⟨isLoginByte, 11, []⟩, ⟨only atSign, 12, [8]⟩]
  | 12 => [⟨isHostByte, 16, [1]⟩]
  | 13 => [⟨isDigit, 20, [3]⟩]
  | 14 => [⟨isDigit, 22, [7, 3]⟩, ⟨isLoginByte, 11, [7]⟩]
  | 15 => [⟨only colon, 6, []⟩]
  | 16 => [⟨isHostByte, 16, []⟩, ⟨only colon, 13, [2]⟩, ⟨only slash, 17, [2, 9]⟩]
  | 17 => [⟨isPathByte, 17, []⟩, ⟨only question, 18, [10]⟩]
  | 18 => [⟨isSearchByte, 19, [11]⟩]
  | 19 => [⟨isSearchByte, 19, []⟩]
  | 20 => [⟨isDigit, 20, []⟩, ⟨only slash, 17, [4, 9]⟩]
  | 21 => [⟨isHostByte, 21, []⟩, ⟨isLoginByte, 9, []⟩, ⟨only colon, 14, [6, 2]⟩,
      ⟨only atSign, 12, [6]⟩, ⟨only slash, 17, [2, 9]⟩]
  | 22 => [⟨isDigit, 22, []⟩, ⟨isLoginByte, 11, []⟩, ⟨only atSign, 12, [8]⟩,
      ⟨only slash, 17, [4, 9]⟩]
  | _ => []

/-- Where the first arrow that admits a byte leads, and what it runs. -/
def follow (state : Nat) (byte : UInt8) : Nat × List Nat :=
  match (urlArrows state).find? fun arrow => arrow.admits byte with
  | some arrow => (arrow.target, arrow.actions)
  | none => (0, [])

/-- What the tables make of a byte. -/
def tableMove (state : Nat) (byte : UInt8) : Nat × List Nat :=
  (urlTables.target state byte, urlTables.stepActions state byte)

private theorem ascii_table : ∀ state : Fin 23, state.val ≠ 0 → ∀ index : Fin 128,
    tableMove state.val (UInt8.ofNat index.val) = follow state.val (UInt8.ofNat index.val) := by
  decide +kernel

private theorem upper_arrows_table : ∀ state : Fin 23, ∀ index : Fin 128,
    ((urlArrows state.val).all fun arrow =>
      !arrow.admits (UInt8.ofNat (128 + index.val))) = true := by
  decide +kernel

private theorem upper_move_table : ∀ state : Fin 23, state.val ≠ 0 →
    let index := urlTables.indicies.getD (urlTables.indexOffsets.getD state.val 0 +
      urlTables.singleLengths.getD state.val 0 + urlTables.rangeLengths.getD state.val 0) 0
    urlTables.transTargs.getD index 0 = 0 ∧
      urlTables.actionsAt (urlTables.transActions.getD index 0) = [] := by
  decide

private theorem keys_nonneg (index : Nat) : 0 ≤ urlTables.transKeys.getD index 0 := by
  have all : (urlTables.transKeys.all fun key => decide (0 ≤ key)) = true := by decide
  rw [List.getD_eq_getElem?_getD]
  cases found : urlTables.transKeys[index]? with
  | none => exact Int.le_refl 0
  | some key => exact of_decide_eq_true (List.all_eq_true.mp all key (List.mem_of_getElem? found))

/-- A byte from 128 on is a negative `char`, below every key. -/
private theorem tableMove_upper {state : Nat} (inRange : state < 23) (alive : state ≠ 0)
    {byte : UInt8} (upper : 128 ≤ byte.toNat) : tableMove state byte = (0, []) := by
  have negative : charValue byte < 0 := by
    have small := byte.toNat_lt
    unfold charValue
    rw [if_neg (by omega)]
    omega
  have below : ∀ index, charValue byte < urlTables.transKeys.getD index 0 :=
    fun index => Int.lt_of_lt_of_le negative (keys_nonneg index)
  have taken := urlTables.transition_of_below below state
  have moved := upper_move_table ⟨state, inRange⟩ alive
  unfold tableMove Tables.target Tables.stepActions
  rw [taken]
  exact Prod.ext moved.1 moved.2

private theorem follow_upper {state : Nat} (inRange : state < 23) {byte : UInt8}
    (upper : 128 ≤ byte.toNat) : follow state byte = (0, []) := by
  have small := byte.toNat_lt
  have refused := upper_arrows_table ⟨state, inRange⟩ ⟨byte.toNat - 128, by omega⟩
  have same : UInt8.ofNat (128 + (byte.toNat - 128)) = byte := by
    rw [Nat.add_sub_cancel' upper, UInt8.ofNat_toNat]
  simp only [same] at refused
  have none : (urlArrows state).find? (fun arrow => arrow.admits byte) = none := by
    apply List.find?_eq_none.mpr
    intro arrow member admitted
    have no := List.all_eq_true.mp refused arrow member
    rw [admitted] at no
    cases no
  unfold follow
  rw [none]

/-- The tables are the arrows. -/
theorem tableMove_eq_follow {state : Nat} (inRange : state < 23) (alive : state ≠ 0)
    (byte : UInt8) : tableMove state byte = follow state byte := by
  by_cases upper : 128 ≤ byte.toNat
  · rw [tableMove_upper inRange alive upper, follow_upper inRange upper]
  · have ascii := ascii_table ⟨state, inRange⟩ alive ⟨byte.toNat, by omega⟩
    simp only [UInt8.ofNat_toNat] at ascii
    exact ascii

theorem arrow_of_follow {state target : Nat} {byte : UInt8}
    (moved : (follow state byte).1 = target) (survives : target ≠ 0) :
    ∃ arrow ∈ urlArrows state, arrow.admits byte = true ∧ arrow.target = target := by
  unfold follow at moved
  cases found : (urlArrows state).find? fun arrow => arrow.admits byte with
  | none =>
      rw [found] at moved
      exact absurd moved.symm survives
  | some arrow =>
      rw [found] at moved
      have admitted := List.find?_some found
      exact ⟨arrow, List.mem_of_find?_eq_some found, admitted, moved⟩

/-! ### What a state has read -/

/-- Scheme, login, host and port, as the `url` rule begins. -/
def frontRule : Language UInt8 :=
  UrlRule.scheme * optional UrlRule.login * UrlRule.hostport

/-- What a scan has read when it is in a state. -/
def readRule : Nat → Language UInt8
  | 1 => 1
  | 2 => literal (text "h")
  | 3 => literal (text "ht")
  | 4 => literal (text "htt")
  | 5 => literal (text "http")
  | 6 => literal (text "http:") + literal (text "https:")
  | 7 => literal (text "http:/") + literal (text "https:/")
  | 8 => UrlRule.scheme
  | 9 => UrlRule.scheme * UrlRule.user
  | 10 => UrlRule.scheme * UrlRule.user * literal [colon]
  | 11 => UrlRule.scheme * UrlRule.user * literal [colon] * UrlRule.password
  | 12 => UrlRule.scheme * UrlRule.login
  | 13 => UrlRule.scheme * UrlRule.login * UrlRule.host * literal [colon]
  | 14 => UrlRule.scheme * UrlRule.host * literal [colon]
  | 15 => literal (text "https")
  | 16 => UrlRule.scheme * UrlRule.login * UrlRule.host
  | 17 => frontRule * (literal [slash] * UrlRule.hpath)
  | 18 => frontRule * (literal [slash] * UrlRule.hpath) * literal [question]
  | 19 => frontRule * (literal [slash] * UrlRule.hpath) * literal [question] * UrlRule.search
  | 20 => UrlRule.scheme * UrlRule.login * UrlRule.host * literal [colon] * UrlRule.port
  | 21 => UrlRule.scheme * UrlRule.host
  | 22 => UrlRule.scheme * UrlRule.host * literal [colon] * UrlRule.port
  | _ => 0

section ReadRules

variable {word : Bytes} {byte : UInt8}

theorem eq_of_only {code : UInt8} (admitted : only code byte = true) : byte = code :=
  eq_of_beq admitted

theorem snoc_mem_mul {rule last : Language UInt8} (read : word ∈ rule) (ends : [byte] ∈ last) :
    word ++ [byte] ∈ rule * last :=
  Language.append_mem_mul read ends

theorem host_mem_user (read : word ∈ UrlRule.host) : word ∈ UrlRule.user := by
  rw [UrlRule.host_eq] at read
  rw [UrlRule.user_eq]
  exact plus_mono (fun _ => isLoginByte_of_host) read

theorem port_mem_password (read : word ∈ UrlRule.port) : word ∈ UrlRule.password := by
  rw [UrlRule.password_eq]
  exact plus_mono (fun _ => isLoginByte_of_digit) read

/-! The rules that begin like the front of a URL. -/

theorem front_of_host (read : word ∈ UrlRule.scheme * UrlRule.host) : word ∈ frontRule := by
  apply mul_mono _ _ read
  · intro scheme inScheme
    exact mul_optional_of_mem inScheme
  · intro host inHost
    exact mul_optional_of_mem inHost

theorem front_of_port (read : word ∈ UrlRule.scheme * UrlRule.host * literal [colon] *
    UrlRule.port) : word ∈ frontRule := by
  rw [mul_assoc, mul_assoc] at read
  apply mul_mono _ _ read
  · intro scheme inScheme
    exact mul_optional_of_mem inScheme
  · intro hostport inHostport
    exact mul_mono (fun _ => id) (fun _ => mem_optional_of_mem) inHostport

theorem front_of_login_host (read : word ∈ UrlRule.scheme * UrlRule.login * UrlRule.host) :
    word ∈ frontRule := by
  apply mul_mono _ _ read
  · exact fun _ => mul_mono (fun _ => id) fun _ => mem_optional_of_mem
  · exact fun _ => mul_optional_of_mem

theorem front_of_login_port (read : word ∈ UrlRule.scheme * UrlRule.login * UrlRule.host *
    literal [colon] * UrlRule.port) : word ∈ frontRule := by
  rw [mul_assoc, mul_assoc] at read
  apply mul_mono _ _ read
  · exact fun _ => mul_mono (fun _ => id) fun _ => mem_optional_of_mem
  · exact fun _ => mul_mono (fun _ => id) fun _ => mem_optional_of_mem

/-! What one more byte makes of them. -/

theorem login_of_user (read : word ∈ UrlRule.scheme * UrlRule.user) :
    word ++ [atSign] ∈ UrlRule.scheme * UrlRule.login := by
  unfold UrlRule.login
  rw [← mul_assoc, ← mul_assoc]
  exact snoc_mem_mul (mul_optional_of_mem read) (mem_literal.mpr rfl)

theorem login_of_password (read : word ∈ UrlRule.scheme * UrlRule.user * literal [colon] *
    UrlRule.password) : word ++ [atSign] ∈ UrlRule.scheme * UrlRule.login := by
  unfold UrlRule.login
  rw [← mul_assoc, ← mul_assoc]
  apply snoc_mem_mul _ (mem_literal.mpr rfl)
  rw [mul_assoc] at read
  exact mul_mono (fun _ => id) (fun _ => mem_optional_of_mem) read

theorem path_of_front (read : word ∈ frontRule) :
    word ++ [slash] ∈ frontRule * (literal [slash] * UrlRule.hpath) := by
  apply snoc_mem_mul read
  have opened : [slash] ++ [] ∈ literal [slash] * UrlRule.hpath := by
    apply Language.append_mem_mul (mem_literal.mpr rfl)
    rw [UrlRule.hpath_eq]
    exact Language.nil_mem_kstar _
  exact opened

theorem path_of_path (read : word ∈ frontRule * (literal [slash] * UrlRule.hpath))
    (admitted : isPathByte byte = true) :
    word ++ [byte] ∈ frontRule * (literal [slash] * UrlRule.hpath) := by
  rw [UrlRule.hpath_eq, ← mul_assoc] at read ⊢
  exact snoc_mem_star read admitted

theorem search_of_search {front : Language UInt8} (read : word ∈ front * UrlRule.search)
    (admitted : isSearchByte byte = true) : word ++ [byte] ∈ front * UrlRule.search := by
  rw [UrlRule.search_eq] at read ⊢
  exact snoc_mem_star read admitted

theorem search_of_question {front : Language UInt8} (read : word ∈ front)
    (admitted : isSearchByte byte = true) : word ++ [byte] ∈ front * UrlRule.search := by
  apply snoc_mem_mul read
  rw [UrlRule.search_eq]
  exact mem_star_oneOf.mpr fun found present => by
    rw [List.mem_singleton.mp present]
    exact admitted

theorem user_of_user {front : Language UInt8} (read : word ∈ front * UrlRule.user)
    (admitted : isLoginByte byte = true) : word ++ [byte] ∈ front * UrlRule.user := by
  rw [UrlRule.user_eq] at read ⊢
  exact snoc_mem_plus read admitted

theorem host_of_host {front : Language UInt8} (read : word ∈ front * UrlRule.host)
    (admitted : isHostByte byte = true) : word ++ [byte] ∈ front * UrlRule.host := by
  rw [UrlRule.host_eq] at read ⊢
  exact snoc_mem_plus read admitted

theorem port_of_port {front : Language UInt8} (read : word ∈ front * UrlRule.port)
    (admitted : isDigit byte = true) : word ++ [byte] ∈ front * UrlRule.port :=
  snoc_mem_plus read admitted

theorem singleton_mem_user (admitted : isLoginByte byte = true) : [byte] ∈ UrlRule.user := by
  rw [UrlRule.user_eq]
  exact plus_of_oneOf admitted

theorem singleton_mem_host (admitted : isHostByte byte = true) : [byte] ∈ UrlRule.host := by
  rw [UrlRule.host_eq]
  exact plus_of_oneOf admitted

theorem singleton_mem_port (admitted : isDigit byte = true) : [byte] ∈ UrlRule.port :=
  plus_of_oneOf admitted

/-- A port is read as a password as long as an at sign can follow. -/
theorem password_of_port (read : word ∈ UrlRule.scheme * UrlRule.host * literal [colon] *
    UrlRule.port) : word ∈ UrlRule.scheme * UrlRule.user * literal [colon] *
      UrlRule.password := by
  apply mul_mono _ (fun _ => port_mem_password) read
  exact fun _ => mul_mono (fun _ => mul_mono (fun _ => id) fun _ => host_mem_user) fun _ => id

theorem literal_arrow {code : UInt8} {before after : Bytes} (read : word ∈ literal before)
    (admitted : only code byte = true) (same : before ++ [code] = after) :
    word ++ [byte] ∈ literal after := by
  rw [mem_literal.mp read, eq_of_only admitted, same]
  exact mem_literal.mpr rfl

theorem mark_arrow {front : Language UInt8} {code : UInt8} (read : word ∈ front)
    (admitted : only code byte = true) : word ++ [byte] ∈ front * literal [code] := by
  rw [eq_of_only admitted]
  exact snoc_mem_mul read (mem_literal.mpr rfl)

/-- Every arrow leads from what its state has read to what its target has
read. -/
theorem readRule_arrow {state : Nat} {arrow : Arrow} (member : arrow ∈ urlArrows state)
    (admitted : arrow.admits byte = true) (read : word ∈ readRule state) :
    word ++ [byte] ∈ readRule arrow.target := by
  unfold urlArrows at member
  split at member
  all_goals
    simp only [List.mem_cons, List.not_mem_nil, or_false] at member
  -- The states of the scheme.
  · obtain rfl := member
    have nothing : word ∈ literal [] := read
    exact literal_arrow nothing admitted rfl
  · obtain rfl := member
    exact literal_arrow read admitted rfl
  · obtain rfl := member
    exact literal_arrow read admitted rfl
  · obtain rfl := member
    exact literal_arrow read admitted rfl
  · rcases member with rfl | rfl
    · exact Or.inl (literal_arrow read admitted rfl)
    · exact literal_arrow read admitted rfl
  · obtain rfl := member
    rcases read with http | https
    · exact Or.inl (literal_arrow http admitted rfl)
    · exact Or.inr (literal_arrow https admitted rfl)
  · obtain rfl := member
    rcases read with http | https
    · exact Or.inl (literal_arrow http admitted rfl)
    · exact Or.inr (literal_arrow https admitted rfl)
  -- The states of the login, of a host without one and of the ports.
  · rcases member with rfl | rfl
    · exact snoc_mem_mul read (singleton_mem_host admitted)
    · exact snoc_mem_mul read (singleton_mem_user admitted)
  · rcases member with rfl | rfl | rfl
    · exact user_of_user read admitted
    · exact mark_arrow read admitted
    · rw [eq_of_only admitted]
      exact login_of_user read
  · obtain rfl := member
    exact snoc_mem_mul read (singleton_mem_user admitted)
  · rcases member with rfl | rfl
    · exact user_of_user read admitted
    · rw [eq_of_only admitted]
      exact login_of_password read
  · obtain rfl := member
    exact snoc_mem_mul read (singleton_mem_host admitted)
  · obtain rfl := member
    exact snoc_mem_mul read (singleton_mem_port admitted)
  · rcases member with rfl | rfl
    · exact snoc_mem_mul read (singleton_mem_port admitted)
    · apply snoc_mem_mul _ (singleton_mem_user admitted)
      exact mul_mono (fun _ => mul_mono (fun _ => id) fun _ => host_mem_user) (fun _ => id) read
  · obtain rfl := member
    exact Or.inr (literal_arrow read admitted rfl)
  · rcases member with rfl | rfl | rfl
    · exact host_of_host read admitted
    · exact mark_arrow read admitted
    · rw [eq_of_only admitted]
      exact path_of_front (front_of_login_host read)
  -- The states of the path and of the search.
  · rcases member with rfl | rfl
    · exact path_of_path read admitted
    · exact mark_arrow read admitted
  · obtain rfl := member
    exact search_of_question read admitted
  · obtain rfl := member
    exact search_of_search read admitted
  -- The states that end a port, and the host that may still be a user.
  · rcases member with rfl | rfl
    · exact port_of_port read admitted
    · rw [eq_of_only admitted]
      exact path_of_front (front_of_login_port read)
  · rcases member with rfl | rfl | rfl | rfl | rfl
    · exact host_of_host read admitted
    · exact user_of_user (mul_mono (fun _ => id) (fun _ => host_mem_user) read) admitted
    · exact mark_arrow read admitted
    · rw [eq_of_only admitted]
      exact login_of_user (mul_mono (fun _ => id) (fun _ => host_mem_user) read)
    · rw [eq_of_only admitted]
      exact path_of_front (front_of_host read)
  · rcases member with rfl | rfl | rfl | rfl
    · exact port_of_port read admitted
    · exact user_of_user (password_of_port read) admitted
    · rw [eq_of_only admitted]
      exact login_of_password (password_of_port read)
    · rw [eq_of_only admitted]
      exact path_of_front (front_of_port read)

theorem search_mem_url (read : word ∈ frontRule * (literal [slash] * UrlRule.hpath) *
    literal [question] * UrlRule.search) : word ∈ UrlRule.url := by
  rw [mul_assoc, mul_assoc] at read
  apply mul_mono (fun _ => id) _ read
  intro tail inTail
  apply mem_optional_of_mem
  exact mul_mono (fun _ => id) (fun _ => mem_optional_of_mem) inTail

theorem mem_url_of_final {state : Nat} (inRange : state < 23) (final : 16 ≤ state)
    (read : word ∈ readRule state) : word ∈ UrlRule.url := by
  have ofFront : word ∈ frontRule → word ∈ UrlRule.url := mul_optional_of_mem
  have cases : state = 16 ∨ state = 17 ∨ state = 18 ∨ state = 19 ∨ state = 20 ∨
      state = 21 ∨ state = 22 := by omega
  rcases cases with rfl | rfl | rfl | rfl | rfl | rfl | rfl
  · exact ofFront (front_of_login_host read)
  · apply mul_mono (fun _ => id) _ read
    exact fun path inPath => mem_optional_of_mem (mul_optional_of_mem inPath)
  · apply search_mem_url
    have searched : word ++ [] ∈ frontRule * (literal [slash] * UrlRule.hpath) *
        literal [question] * UrlRule.search := by
      apply Language.append_mem_mul read
      rw [UrlRule.search_eq]
      exact Language.nil_mem_kstar _
    rwa [List.append_nil] at searched
  · exact search_mem_url read
  · exact ofFront (front_of_login_port read)
  · exact ofFront (front_of_host read)
  · exact ofFront (front_of_port read)

end ReadRules

/-! ### Runs -/

def runArrows (state : Nat) (input : Bytes) : Nat :=
  input.foldl (fun current byte => (follow current byte).1) state

theorem runArrows_append (state : Nat) (before after : Bytes) :
    runArrows state (before ++ after) = runArrows (runArrows state before) after :=
  List.foldl_append

private theorem arrow_target_table : ∀ state : Fin 23,
    ((urlArrows state.val).all fun arrow => decide (arrow.target < 23)) = true := by
  decide

theorem follow_lt {state : Nat} (inRange : state < 23) (byte : UInt8) :
    (follow state byte).1 < 23 := by
  by_cases survives : (follow state byte).1 = 0
  · omega
  · obtain ⟨arrow, member, -, same⟩ := arrow_of_follow rfl survives
    rw [← same]
    exact of_decide_eq_true (List.all_eq_true.mp (arrow_target_table ⟨state, inRange⟩) arrow member)

theorem runArrows_lt {state : Nat} (inRange : state < 23) (input : Bytes) :
    runArrows state input < 23 := by
  induction input generalizing state with
  | nil => exact inRange
  | cons byte rest ih => exact ih (follow_lt inRange byte)

theorem scan_state {config : Config ParseMemory} (inRange : config.state < 23) (raw : Bytes)
    (input : Bytes) :
    (scan urlTables (performAction raw) config input).state = runArrows config.state input := by
  induction input generalizing config with
  | nil => rfl
  | cons byte rest ih =>
      have stepped : (step urlTables (performAction raw) config byte).state =
          (follow config.state byte).1 := by
        by_cases dead : config.state = 0
        · rw [step_of_dead dead, dead]
          rfl
        · rw [step_state_of_alive dead, ← tableMove_eq_follow inRange dead]
          rfl
      rw [scan_cons, ih (by rw [stepped]; exact follow_lt inRange byte), stepped]
      rfl

theorem mem_readRule_of_run {input : Bytes} (alive : runArrows urlTables.start input ≠ 0) :
    input ∈ readRule (runArrows urlTables.start input) := by
  induction input using List.reverseRecOn with
  | nil => exact (rfl : ([] : Bytes) = [])
  | append_singleton before byte ih =>
      rw [runArrows_append] at alive ⊢
      have beforeAlive : runArrows urlTables.start before ≠ 0 := by
        intro dead
        rw [dead] at alive
        exact alive rfl
      obtain ⟨arrow, member, admitted, same⟩ := arrow_of_follow rfl alive
      have grown := readRule_arrow member admitted (ih beforeAlive)
      rw [same] at grown
      exact grown

/-- Bytes that take a live state to a final one. -/
def completion : Nat → Bytes
  | 1 => text "http://h"
  | 2 => text "ttp://h"
  | 3 => text "tp://h"
  | 4 => text "p://h"
  | 5 => text "://h"
  | 6 => text "//h"
  | 7 => text "/h"
  | 8 => text "h"
  | 9 => text "@h"
  | 10 => text "u@h"
  | 11 => text "@h"
  | 12 => text "h"
  | 13 => text "1"
  | 14 => text "1"
  | 15 => text "://h"
  | _ => []

private theorem completion_table : ∀ state : Fin 23, state.val ≠ 0 →
    16 ≤ runArrows state.val (completion state.val) := by
  decide

theorem final_of_completed {input : Bytes} (alive : runArrows urlTables.start input ≠ 0) :
    16 ≤ runArrows urlTables.start
      (input ++ completion (runArrows urlTables.start input)) := by
  have inRange : runArrows urlTables.start input < 23 := runArrows_lt (by decide) input
  rw [runArrows_append]
  exact completion_table ⟨_, inRange⟩ alive

theorem runArrows_dead (input : Bytes) : runArrows 0 input = 0 := by
  induction input with
  | nil => rfl
  | cons byte rest ih => exact ih

theorem alive_of_final {before after : Bytes}
    (final : 16 ≤ runArrows urlTables.start (before ++ after)) :
    runArrows urlTables.start before ≠ 0 := by
  intro dead
  rw [runArrows_append, dead, runArrows_dead] at final
  omega

theorem mem_url_of_run {raw : Bytes} (final : 16 ≤ runArrows urlTables.start raw) :
    raw ∈ UrlRule.url :=
  mem_url_of_final (runArrows_lt (by decide) raw) final
    (mem_readRule_of_run (by omega))

end Cdnalizerd
