/-
What `URL::parse` accepts and what it leaves in the fields.

A scan is followed component by component.  The actions of a host and of a user
fire together until an at sign or a slash decides, and the user of a URL that
has a port and no login is left with the host.  Everything else recomposes.
-/

import Cdnalizerd.UrlStates

namespace Cdnalizerd

open RagelScanner Grammar
open scoped Computability

/-! ### Following a scan -/

/-- The scan of `raw` is in `state`, with `before` read. -/
def Reaches (raw before : Bytes) (state : Nat) (memory : ParseMemory) : Prop :=
  scan urlTables (performAction raw) initialConfig before = ⟨before.length, state, memory⟩

section Following

variable {raw before segment : Bytes} {state : Nat} {memory : ParseMemory}

theorem Reaches.step {byte : UInt8} {target : Nat} {actions : List Nat}
    (reached : Reaches raw before state memory) (inRange : state < 23) (alive : state ≠ 0)
    (followed : follow state byte = (target, actions)) (survives : target ≠ 0) :
    Reaches raw (before ++ [byte]) target
      (performAll (performAction raw) before.length actions memory) := by
  have moved := tableMove_eq_follow inRange alive byte
  rw [followed] at moved
  have targets : urlTables.target state byte = target := congrArg Prod.fst moved
  have acts : urlTables.stepActions state byte = actions := congrArg Prod.snd moved
  unfold Reaches at reached ⊢
  rw [scan_append, reached, scan_cons, step_of_alive alive (by rw [targets]; exact survives)]
  simp only [targets, acts, List.length_append, List.length_singleton]
  rfl

/-- States that the bytes of a segment do not leave, and that run no action on
them. -/
def Loops (inside : Nat → Prop) (member : UInt8 → Bool) : Prop :=
  ∀ state, inside state → state < 23 ∧ state ≠ 0 ∧
    ∀ byte, member byte = true → ∃ next, inside next ∧ follow state byte = (next, [])

theorem Reaches.loop {inside : Nat → Prop} {member : UInt8 → Bool}
    (loops : Loops inside member) (every : ∀ byte ∈ segment, member byte = true)
    (reached : Reaches raw before state memory) (here : inside state) :
    ∃ last, inside last ∧ Reaches raw (before ++ segment) last memory := by
  induction segment generalizing before state with
  | nil => exact ⟨state, here, by rwa [List.append_nil]⟩
  | cons byte rest ih =>
      obtain ⟨inRange, alive, stays⟩ := loops state here
      obtain ⟨next, nextInside, followed⟩ := stays byte (every byte List.mem_cons_self)
      have stepped := reached.step inRange alive followed (loops next nextInside).2.1
      have onRest := ih (fun later present => every later (List.mem_cons_of_mem byte present))
        stepped nextInside
      rwa [List.append_assoc] at onRest

/-- A segment that is not empty: its first byte enters the loop. -/
theorem Reaches.component {inside : Nat → Prop} {member : UInt8 → Bool}
    (entered : ParseMemory) (loops : Loops inside member) (reached : Reaches raw before state memory)
    (inRange : state < 23) (alive : state ≠ 0)
    (enters : ∀ byte, member byte = true → ∃ next actions, inside next ∧
      follow state byte = (next, actions) ∧
      performAll (performAction raw) before.length actions memory = entered)
    (nonempty : segment ≠ []) (every : ∀ byte ∈ segment, member byte = true) :
    ∃ last, inside last ∧ Reaches raw (before ++ segment) last entered := by
  obtain ⟨first, rest, rfl⟩ := List.exists_cons_of_ne_nil nonempty
  obtain ⟨next, actions, nextInside, followed, effect⟩ :=
    enters first (every first List.mem_cons_self)
  have stepped := reached.step inRange alive followed (loops next nextInside).2.1
  rw [effect] at stepped
  have onRest := stepped.loop loops
    (fun later present => every later (List.mem_cons_of_mem first present)) nextInside
  rwa [List.append_assoc] at onRest

theorem slice_segment (inside : before ++ segment <+: raw) :
    slice raw before.length (before ++ segment).length = segment := by
  obtain ⟨rest, rfl⟩ := inside
  unfold slice
  rw [List.take_left, List.drop_left]

theorem slice_start (inside : before <+: raw) : slice raw 0 before.length = before :=
  @slice_segment _ [] _ inside

end Following

/-! ### The loops of the components -/

theorem host_loops (state : Nat) (loop : state = 16 ∨ state = 21) :
    Loops (fun inside => inside = state) isHostByte := by
  rintro current rfl
  refine ⟨by omega, by omega, ?_⟩
  intro byte admitted
  refine ⟨current, rfl, ?_⟩
  rcases loop with rfl | rfl <;> simp [follow, urlArrows, admitted]

theorem port_loops (state : Nat) (loop : state = 20 ∨ state = 22) :
    Loops (fun inside => inside = state) isDigit := by
  rintro current rfl
  refine ⟨by omega, by omega, ?_⟩
  intro byte admitted
  refine ⟨current, rfl, ?_⟩
  rcases loop with rfl | rfl <;> simp [follow, urlArrows, admitted]

/-- A user is read as a host as long as it can be one. -/
theorem user_loops : Loops (fun state => state = 9 ∨ state = 21) isLoginByte := by
  rintro state (rfl | rfl)
  · refine ⟨by decide, by decide, ?_⟩
    intro byte admitted
    exact ⟨9, Or.inl rfl, by simp [follow, urlArrows, admitted]⟩
  · refine ⟨by decide, by decide, ?_⟩
    intro byte admitted
    cases hostByte : isHostByte byte with
    | true => exact ⟨21, Or.inr rfl, by simp [follow, urlArrows, hostByte]⟩
    | false => exact ⟨9, Or.inl rfl, by simp [follow, urlArrows, hostByte, admitted]⟩

theorem password_loops : Loops (fun state => state = 11 ∨ state = 22) isLoginByte := by
  rintro state (rfl | rfl)
  · refine ⟨by decide, by decide, ?_⟩
    intro byte admitted
    exact ⟨11, Or.inl rfl, by simp [follow, urlArrows, admitted]⟩
  · refine ⟨by decide, by decide, ?_⟩
    intro byte admitted
    cases digit : isDigit byte with
    | true => exact ⟨22, Or.inr rfl, by simp [follow, urlArrows, digit]⟩
    | false => exact ⟨11, Or.inl rfl, by simp [follow, urlArrows, digit, admitted]⟩

theorem path_loops : Loops (fun state => state = 17) isPathByte := by
  rintro state rfl
  refine ⟨by decide, by decide, ?_⟩
  intro byte admitted
  exact ⟨17, rfl, by simp [follow, urlArrows, admitted]⟩

theorem search_loops : Loops (fun state => state = 19) isSearchByte := by
  rintro state rfl
  refine ⟨by decide, by decide, ?_⟩
  intro byte admitted
  exact ⟨19, rfl, by simp [follow, urlArrows, admitted]⟩

/-! ### The parsed fields -/

namespace UrlParts

variable (parts : UrlParts)

def fields : URL where
  raw := parts.text
  scheme := parts.scheme
  user := (parts.login.map LoginPart.user).getD []
  password := (parts.login.bind LoginPart.password).getD []
  host := parts.host
  port := parts.port.getD []
  path := parts.path.getD []
  search := parts.search.getD []
  pathAndSearch := parts.path.getD [] ++ parts.search.getD []

def portWithoutLogin : Bool :=
  parts.login.isNone && parts.port.isSome

/-- The fields as the parser leaves them: the colon that ended a host has also
ended a user. -/
def parsed : URL :=
  { parts.fields with
    user := if parts.portWithoutLogin then parts.host else parts.fields.user }

def authority : URL :=
  { parts.parsed with
    raw := []
    path := []
    search := []
    pathAndSearch := [] }

end UrlParts

/-! ### Component by component -/

section Components

variable {raw before : Bytes}

/-- The last state of a run that stays alive and runs no action. -/
def silentRun : Nat → Bytes → Option Nat
  | state, [] => some state
  | state, byte :: rest =>
      if (follow state byte).1 = 0 then none
      else if (follow state byte).2 = [] then silentRun (follow state byte).1 rest
      else none

theorem Reaches.silent {word : Bytes} {state last : Nat} {memory : ParseMemory}
    (reached : Reaches raw before state memory) (inRange : state < 23) (alive : state ≠ 0)
    (runs : silentRun state word = some last) : Reaches raw (before ++ word) last memory := by
  induction word generalizing before state with
  | nil =>
      obtain rfl := Option.some.inj runs
      rwa [List.append_nil]
  | cons byte rest ih =>
      unfold silentRun at runs
      split at runs
      · cases runs
      · rename_i survives
        split at runs
        · rename_i silent
          have followed : follow state byte = ((follow state byte).1, []) := by
            rw [← silent]
          have stepped := reached.step inRange alive followed survives
          have onRest := ih stepped (follow_lt inRange byte) survives runs
          rwa [List.append_assoc] at onRest
        · cases runs

theorem reaches_scheme (raw : Bytes) {scheme : Bytes} (read : scheme ∈ UrlRule.scheme) :
    Reaches raw scheme 8 {} := by
  have start : Reaches raw [] 1 {} := rfl
  rcases read with rfl | rfl
  · exact start.silent (by decide) (by decide) (by decide)
  · exact start.silent (by decide) (by decide) (by decide)

/-- A host without a login, up to the byte that ends it. -/
theorem reaches_plain_host {scheme host : Bytes} (schemeRead : scheme ∈ UrlRule.scheme)
    (hostRead : host ∈ UrlRule.host) (inside : scheme ++ host <+: raw) :
    Reaches raw (scheme ++ host) 21 ⟨scheme.length, { scheme := scheme }⟩ := by
  rw [UrlRule.host_eq, mem_plus_oneOf] at hostRead
  have schemeInside : scheme <+: raw := (List.prefix_append scheme host).trans inside
  obtain ⟨last, rfl, reached⟩ := (reaches_scheme raw schemeRead).component
    ⟨scheme.length, { scheme := scheme }⟩ (host_loops 21 (Or.inr rfl)) (by decide) (by decide)
    (by
      intro byte admitted
      refine ⟨21, [0, 5, 1], rfl, by simp [follow, urlArrows, admitted], ?_⟩
      simp only [performAll, List.foldl_cons, List.foldl_nil, performAction,
        slice_start schemeInside])
    hostRead.1 hostRead.2
  exact reached

theorem reaches_user {scheme user : Bytes} (schemeRead : scheme ∈ UrlRule.scheme)
    (userRead : user ∈ UrlRule.user) (inside : scheme ++ user <+: raw) :
    ∃ state, (state = 9 ∨ state = 21) ∧
      Reaches raw (scheme ++ user) state ⟨scheme.length, { scheme := scheme }⟩ := by
  rw [UrlRule.user_eq, mem_plus_oneOf] at userRead
  have schemeInside : scheme <+: raw := (List.prefix_append scheme user).trans inside
  apply (reaches_scheme raw schemeRead).component _ user_loops (by decide) (by decide) _
    userRead.1 userRead.2
  intro byte admitted
  cases hostByte : isHostByte byte with
  | true =>
      refine ⟨21, [0, 5, 1], Or.inr rfl, by simp [follow, urlArrows, hostByte], ?_⟩
      simp only [performAll, List.foldl_cons, List.foldl_nil, performAction,
        slice_start schemeInside]
  | false =>
      refine ⟨9, [0, 5], Or.inl rfl, by simp [follow, urlArrows, hostByte, admitted], ?_⟩
      simp only [performAll, List.foldl_cons, List.foldl_nil, performAction,
        slice_start schemeInside]

/-- A password behind the colon, up to the at sign. -/
theorem reaches_password {state : Nat} {memory : ParseMemory} {password : Bytes}
    (opened : state = 10 ∨ state = 14) (passwordRead : password ∈ UrlRule.password)
    (reached : Reaches raw before state memory) :
    ∃ last, (last = 11 ∨ last = 22) ∧
      Reaches raw (before ++ password) last { memory with start := before.length } := by
  rw [UrlRule.password_eq, mem_plus_oneOf] at passwordRead
  apply reached.component _ password_loops (by omega) (by omega) _
    passwordRead.1 passwordRead.2
  intro byte admitted
  rcases opened with rfl | rfl
  · exact ⟨11, [7], Or.inl rfl, by simp [follow, urlArrows, admitted], rfl⟩
  · cases digit : isDigit byte with
    | true => exact ⟨22, [7, 3], Or.inr rfl, by simp [follow, urlArrows, digit], rfl⟩
    | false => exact ⟨11, [7], Or.inl rfl, by simp [follow, urlArrows, digit, admitted], rfl⟩

/-- A login, up to its at sign.  The host of a user that could have been one is
overwritten later. -/
theorem reaches_login {scheme : Bytes} (schemeRead : scheme ∈ UrlRule.scheme)
    (login : LoginPart) (inside : scheme ++ login.text <+: raw) :
    ∃ start leaked, Reaches raw (scheme ++ login.text) 12
      ⟨start, { scheme := scheme, user := login.user, password := login.password.getD [],
                host := leaked }⟩ := by
  obtain ⟨user, password, userRead, passwordRead⟩ := login
  have userInside : scheme ++ user <+: raw := by
    refine List.IsPrefix.trans ⟨marked [colon] password ++ [atSign], ?_⟩ inside
    simp [LoginPart.text]
  obtain ⟨state, atUser, reached⟩ := reaches_user schemeRead userRead userInside
  have userSlice := slice_segment userInside
  cases password with
  | none =>
      have ended : follow state atSign = (12, [6]) := by
        rcases atUser with rfl | rfl <;> rfl
      have stepped := reached.step (by omega) (by omega) ended (by decide)
      refine ⟨scheme.length, [], ?_⟩
      simp only [performAll, List.foldl_cons, List.foldl_nil, performAction, userSlice,
        List.append_assoc] at stepped
      simpa only [LoginPart.text, marked, List.append_nil, Option.getD_none] using stepped
  | some password =>
      have opened : ∃ next leaked, (next = 10 ∨ next = 14) ∧
          Reaches raw (scheme ++ user ++ [colon]) next
            ⟨scheme.length, { scheme := scheme, user := user, host := leaked }⟩ := by
        rcases atUser with rfl | rfl
        · have stepped := reached.step (by decide) (by decide)
            (rfl : follow 9 colon = (10, [6])) (by decide)
          simp only [performAll, List.foldl_cons, List.foldl_nil, performAction,
            userSlice] at stepped
          exact ⟨10, [], Or.inl rfl, stepped⟩
        · have stepped := reached.step (by decide) (by decide)
            (rfl : follow 21 colon = (14, [6, 2])) (by decide)
          simp only [performAll, List.foldl_cons, List.foldl_nil, performAction,
            userSlice] at stepped
          exact ⟨14, user, Or.inr rfl, stepped⟩
      obtain ⟨next, leaked, atColon, reached⟩ := opened
      obtain ⟨last, atPassword, reached⟩ :=
        reaches_password atColon (passwordRead password rfl) reached
      have ended : follow last atSign = (12, [8]) := by
        rcases atPassword with rfl | rfl <;> rfl
      have passwordInside : scheme ++ user ++ [colon] ++ password <+: raw := by
        refine List.IsPrefix.trans ⟨[atSign], ?_⟩ inside
        simp [LoginPart.text, marked]
      have stepped := reached.step (by omega) (by omega) ended (by decide)
      refine ⟨(scheme ++ user ++ [colon]).length, leaked, ?_⟩
      simp only [performAll, List.foldl_cons, List.foldl_nil, performAction,
        slice_segment passwordInside] at stepped
      simpa only [LoginPart.text, marked, List.append_assoc, Option.getD_some] using stepped

theorem reaches_login_host {memory : ParseMemory} {host : Bytes}
    (hostRead : host ∈ UrlRule.host) (reached : Reaches raw before 12 memory) :
    Reaches raw (before ++ host) 16 { memory with start := before.length } := by
  rw [UrlRule.host_eq, mem_plus_oneOf] at hostRead
  obtain ⟨last, rfl, reached⟩ := reached.component { memory with start := before.length }
    (host_loops 16 (Or.inl rfl)) (by decide) (by decide)
    (by
      intro byte admitted
      exact ⟨16, [1], rfl, by simp [follow, urlArrows, admitted], rfl⟩)
    hostRead.1 hostRead.2
  exact reached

theorem reaches_port {state : Nat} {memory : ParseMemory} {port : Bytes}
    (opened : state = 13 ∨ state = 14) (portRead : port ∈ UrlRule.port)
    (reached : Reaches raw before state memory) :
    ∃ last, (last = 20 ∨ last = 22) ∧
      Reaches raw (before ++ port) last { memory with start := before.length } := by
  have digits := mem_plus_oneOf.mp portRead
  rcases opened with rfl | rfl
  · obtain ⟨last, rfl, reached⟩ := reached.component { memory with start := before.length }
      (port_loops 20 (Or.inl rfl)) (by decide) (by decide)
      (by
        intro byte admitted
        exact ⟨20, [3], rfl, by simp [follow, urlArrows, admitted], rfl⟩)
      digits.1 digits.2
    exact ⟨20, Or.inl rfl, reached⟩
  · obtain ⟨last, rfl, reached⟩ := reached.component { memory with start := before.length }
      (port_loops 22 (Or.inr rfl)) (by decide) (by decide)
      (by
        intro byte admitted
        exact ⟨22, [7, 3], rfl, by simp [follow, urlArrows, admitted], rfl⟩)
      digits.1 digits.2
    exact ⟨22, Or.inr rfl, reached⟩

def endsAuthority (state : Nat) : Prop :=
  state = 16 ∨ state = 20 ∨ state = 21 ∨ state = 22

/-- The front of a URL read, its last component still to be assigned. -/
def FrontRead (raw : Bytes) (parts : UrlParts) : Prop :=
  ∃ state memory, endsAuthority state ∧ Reaches raw parts.front state memory ∧
    (performAll (performAction raw) parts.front.length (urlTables.finalActions state)
      memory).url = parts.authority

/-- A port ends the front, and is assigned where it ends. -/
theorem Reaches.front_port {state : Nat} {memory : ParseMemory} {port : Bytes}
    (reached : Reaches raw before state memory) (opened : state = 13 ∨ state = 14)
    (portRead : port ∈ UrlRule.port) (inside : before ++ port <+: raw) :
    ∃ last final, endsAuthority last ∧ Reaches raw (before ++ port) last final ∧
      (performAll (performAction raw) (before ++ port).length (urlTables.finalActions last)
        final).url = { memory.url with port := port } := by
  obtain ⟨last, ended, portReached⟩ := reaches_port opened portRead reached
  refine ⟨last, _, by unfold endsAuthority; omega, portReached, ?_⟩
  have assigned : urlTables.finalActions last = [4] := by
    rcases ended with rfl | rfl <;> rfl
  rw [assigned]
  change ParseMemory.url (performAction raw 4 _ _) = _
  simp only [performAction, slice_segment inside]

theorem front_read_plain (parts : UrlParts) (inside : parts.front <+: raw)
    (plain : parts.login = none) : FrontRead raw parts := by
  obtain ⟨scheme, login, host, port, path, search, schemeRead, hostRead, portRead, pathRead,
    searchRead⟩ := parts
  obtain rfl : login = none := plain
  have noLogin : scheme ++ [] ++ host = scheme ++ host := by rw [List.append_nil]
  simp only [FrontRead, UrlParts.front, UrlParts.loginText, Option.map_none, Option.getD_none,
    noLogin] at inside ⊢
  have hostInside : scheme ++ host <+: raw := (List.prefix_append _ _).trans inside
  have reached := reaches_plain_host schemeRead hostRead hostInside
  have hostSlice := slice_segment hostInside
  cases port with
  | none =>
      refine ⟨21, _, Or.inr (Or.inr (Or.inl rfl)), by rwa [marked, List.append_nil], ?_⟩
      change ParseMemory.url (performAction raw 2 _ _) = _
      simp only [marked, List.append_nil, performAction, hostSlice]
      rfl
  | some port =>
      have stepped := reached.step (by decide) (by decide)
        (rfl : follow 21 colon = (14, [6, 2])) (by decide)
      simp only [performAll, List.foldl_cons, List.foldl_nil, performAction, hostSlice] at stepped
      have joined : scheme ++ host ++ marked [colon] (some port) =
          scheme ++ host ++ [colon] ++ port := by simp [marked]
      rw [joined] at inside ⊢
      exact stepped.front_port (Or.inr rfl) (portRead port rfl) inside

theorem front_read_login (parts : UrlParts) (inside : parts.front <+: raw) (login : LoginPart)
    (present : parts.login = some login) : FrontRead raw parts := by
  obtain ⟨scheme, _, host, port, path, search, schemeRead, hostRead, portRead, pathRead,
    searchRead⟩ := parts
  obtain rfl := present
  simp only [FrontRead, UrlParts.front, UrlParts.loginText, Option.map_some,
    Option.getD_some] at inside ⊢
  have hostInside : scheme ++ login.text ++ host <+: raw :=
    (List.prefix_append _ _).trans inside
  obtain ⟨start, leaked, loginReached⟩ := reaches_login schemeRead login
    ((List.prefix_append _ _).trans hostInside)
  have reached := reaches_login_host hostRead loginReached
  have hostSlice := slice_segment hostInside
  cases port with
  | none =>
      refine ⟨16, _, Or.inl rfl, by rwa [marked, List.append_nil], ?_⟩
      change ParseMemory.url (performAction raw 2 _ _) = _
      simp only [marked, List.append_nil, performAction, hostSlice]
      rfl
  | some port =>
      have stepped := reached.step (by decide) (by decide)
        (rfl : follow 16 colon = (13, [2])) (by decide)
      simp only [performAll, List.foldl_cons, List.foldl_nil, performAction, hostSlice] at stepped
      have joined : scheme ++ login.text ++ host ++ marked [colon] (some port) =
          scheme ++ login.text ++ host ++ [colon] ++ port := by simp [marked]
      rw [joined] at inside ⊢
      exact stepped.front_port (Or.inl rfl) (portRead port rfl) inside

theorem front_read (parts : UrlParts) (inside : parts.front <+: raw) : FrontRead raw parts := by
  cases present : parts.login with
  | none => exact front_read_plain parts inside present
  | some login => exact front_read_login parts inside login present

theorem reaches_path (parts : UrlParts) {path : Bytes}
    (read : path ∈ literal [slash] * UrlRule.hpath) (inside : parts.front <+: raw) :
    Reaches raw (parts.front ++ path) 17 ⟨parts.front.length, parts.authority⟩ := by
  obtain ⟨_, isSlash, segments, inPath, rfl⟩ := Language.mem_mul.mp read
  rw [mem_literal.mp isSlash]
  rw [UrlRule.hpath_eq, mem_star_oneOf] at inPath
  obtain ⟨state, memory, ends, reached, assigned⟩ := front_read parts inside
  have opened : Reaches raw (parts.front ++ [slash]) 17
      ⟨parts.front.length, parts.authority⟩ := by
    have followed : follow state slash = (17, urlTables.finalActions state ++ [9]) := by
      rcases ends with rfl | rfl | rfl | rfl <;> rfl
    have stepped := reached.step (by unfold endsAuthority at ends; omega)
      (by unfold endsAuthority at ends; omega) followed (by decide)
    rw [performAll_concat] at stepped
    simp only [performAction, assigned] at stepped
    exact stepped
  obtain ⟨last, rfl, reached⟩ := opened.loop path_loops inPath rfl
  rwa [List.append_assoc] at reached

theorem parse_of_reaches {state : Nat} {memory : ParseMemory} (url : URL)
    (reached : Reaches raw raw state memory) (final : 16 ≤ state)
    (assigned : (performAll (performAction raw) raw.length (urlTables.finalActions state)
      memory).url = url) :
    URL.parse raw = .ok { url with
      raw := raw
      pathAndSearch := url.path ++ url.search } := by
  have finished : scannedURL raw = ⟨raw.length, state,
      performAll (performAction raw) raw.length (urlTables.finalActions state) memory⟩ := by
    rw [scannedURL_eq_finish, reached]
    unfold finish
    rw [if_neg (by change state ≠ 0; omega)]
  apply (parse_eq_ok_iff raw _).mpr
  rw [finished]
  exact ⟨final, by rw [assigned]⟩

theorem parse_of_question {memory : ParseMemory} {search : Bytes}
    (read : search ∈ UrlRule.search) (whole : before ++ search = raw)
    (reached : Reaches raw before 18 memory) :
    URL.parse raw = .ok { memory.url with
      raw := raw
      search := search
      pathAndSearch := memory.url.path ++ search } := by
  have sliced : slice raw before.length raw.length = search := by
    have inside : before ++ search <+: raw := by rw [whole]
    have found := slice_segment inside
    rwa [whole] at found
  rw [UrlRule.search_eq, mem_star_oneOf] at read
  by_cases nothing : search = []
  · rw [nothing, List.append_nil] at whole
    subst whole
    apply parse_of_reaches { memory.url with search := search } reached (by decide)
    change ParseMemory.url (performAction _ 12 _ (performAction _ 11 _ _)) = _
    simp only [performAction, sliced]
  · obtain ⟨last, rfl, ended⟩ := reached.component { memory with start := before.length }
      search_loops (by decide) (by decide)
      (by
        intro byte admitted
        exact ⟨19, [11], rfl, by simp [follow, urlArrows, admitted], rfl⟩)
      nothing read
    rw [whole] at ended
    apply parse_of_reaches { memory.url with search := search } ended (by decide)
    change ParseMemory.url (performAction _ 12 _ _) = _
    simp only [performAction, sliced]

end Components

/-- The parser accepts every word of the `url` rule, and this is what it leaves
in the fields. -/
theorem parse_text (parts : UrlParts) : URL.parse parts.text = .ok parts.parsed := by
  have frontInside : parts.front <+: parts.text := by
    unfold UrlParts.text
    rw [List.append_assoc]
    exact List.prefix_append _ _
  cases pathIs : parts.path with
  | none =>
      have searchIs : parts.search = none := by
        cases found : parts.search with
        | none => rfl
        | some search => exact absurd pathIs (parts.search_read search found).1
      have whole : parts.text = parts.front := by
        simp [UrlParts.text, pathIs, searchIs, marked]
      obtain ⟨state, memory, ends, reached, assigned⟩ := front_read parts frontInside
      rw [whole] at reached assigned ⊢
      rw [parse_of_reaches _ reached (by unfold endsAuthority at ends; omega) assigned]
      simp [UrlParts.authority, UrlParts.parsed, UrlParts.fields, whole, pathIs, searchIs]
  | some path =>
      have reached := reaches_path parts (parts.path_read path pathIs) frontInside
      have pathInside : parts.front ++ path <+: parts.text := by
        unfold UrlParts.text
        rw [pathIs]
        exact List.prefix_append _ _
      have sliced := slice_segment pathInside
      cases searchIs : parts.search with
      | none =>
          have whole : parts.text = parts.front ++ path := by
            simp [UrlParts.text, pathIs, searchIs, marked]
          rw [← whole] at reached sliced
          rw [parse_of_reaches { parts.authority with path := path } reached (by decide)
            (by
              change ParseMemory.url (performAction _ 10 _ _) = _
              simp only [performAction, sliced])]
          simp [UrlParts.authority, UrlParts.parsed, UrlParts.fields, pathIs, searchIs]
      | some search =>
          have whole : parts.front ++ path ++ [question] ++ search = parts.text := by
            simp [UrlParts.text, pathIs, searchIs, marked]
          have stepped := reached.step (by decide) (by decide)
            (rfl : follow 17 question = (18, [10])) (by decide)
          simp only [performAll, List.foldl_cons, List.foldl_nil, performAction,
            sliced] at stepped
          rw [parse_of_question (parts.search_read search searchIs).2 whole stepped]
          simp [UrlParts.authority, UrlParts.parsed, UrlParts.fields, pathIs, searchIs]

/-! ### The accepted language -/

theorem scannedURL_state (raw : Bytes) :
    (scannedURL raw).state = runArrows urlTables.start raw := by
  rw [scannedURL_eq_finish, finish_state]
  exact scan_state (by decide) raw raw

theorem final_iff_mem_url (raw : Bytes) :
    16 ≤ runArrows urlTables.start raw ↔ raw ∈ UrlRule.url := by
  constructor
  · exact mem_url_of_run
  · intro read
    obtain ⟨parts, rfl⟩ := mem_url_iff.mp read
    rw [← scannedURL_state]
    exact ((parse_eq_ok_iff _ _).mp (parse_text parts)).1

/-- A scan is alive exactly as long as what it read can be extended to a word of
the `url` rule. -/
theorem alive_iff_extends (before : Bytes) :
    runArrows urlTables.start before ≠ 0 ↔ ∃ rest, before ++ rest ∈ UrlRule.url := by
  constructor
  · intro alive
    exact ⟨_, (final_iff_mem_url _).mp (final_of_completed alive)⟩
  · rintro ⟨rest, read⟩
    exact alive_of_final ((final_iff_mem_url _).mpr read)

theorem finish_position (raw : Bytes) (config : Config ParseMemory) :
    (finish urlTables (performAction raw) config).position = config.position := by
  unfold finish
  split <;> rfl

theorem parses_iff_mem_url (raw : Bytes) :
    (∃ url, URL.parse raw = .ok url) ↔ raw ∈ UrlRule.url := by
  rw [← final_iff_mem_url, ← scannedURL_state]
  constructor
  · rintro ⟨url, parsed⟩
    exact ((parse_eq_ok_iff raw url).mp parsed).1
  · intro final
    exact ⟨_, (parse_eq_ok_iff raw _).mpr ⟨final, rfl⟩⟩

/-- The parser accepts exactly the `url` rule, and otherwise names the longest
part of its input that the rule could have continued. -/
theorem parse_accepts_url_rule (raw : Bytes) :
    ((∃ url, URL.parse raw = .ok url) ↔ raw ∈ UrlRule.url) ∧
      (raw ∉ UrlRule.url → ∃ position,
        URL.parse raw = .error (.parseError raw position) ∧
          IsGreatest {length | ∃ before after, raw = before ++ after ∧ before.length = length ∧
            ∃ rest, before ++ rest ∈ UrlRule.url} position) := by
  refine ⟨parses_iff_mem_url raw, ?_⟩
  intro refused
  have notFinal : (scannedURL raw).state < urlTables.firstFinal := by
    rw [scannedURL_state]
    exact Nat.lt_of_not_le fun final => refused ((final_iff_mem_url raw).mp final)
  refine ⟨(scannedURL raw).position, ?_, ?_⟩
  · unfold URL.parse
    rw [if_pos notFinal]
  · have greatest := @scan_position_greatest _ urlTables (performAction raw) initialConfig
      (by decide) raw
    rw [scannedURL_eq_finish, finish_position]
    have same : {length | ∃ before after, raw = before ++ after ∧ before.length = length ∧
          ∃ rest, before ++ rest ∈ UrlRule.url} =
        {length | ∃ before after, raw = before ++ after ∧
          initialConfig.position + before.length = length ∧
          (scan urlTables (performAction raw) initialConfig before).state ≠ 0} := by
      ext length
      have fromStart : ∀ before : Bytes, initialConfig.position + before.length =
          before.length := fun before => Nat.zero_add _
      simp only [Set.mem_ofPred_eq, ← alive_iff_extends, fromStart,
        @scan_state initialConfig (by decide) raw]
      rfl
    rw [same]
    exact greatest

/-! ### Recomposition -/

/-- The fields recompose the string they were parsed from, and only a login
leaves a user or a password. -/
structure Recomposed (raw : Bytes) (url : URL) : Prop where
  fields : ∃ parts : UrlParts, parts.text = raw ∧ url = parts.fields
  login_only : ∀ parts : UrlParts, parts.text = raw → parts.login = none →
    url.user = [] ∧ url.password = []
  plain : ∀ parts : UrlParts, parts.text = raw → parts.login = none → parts.search = none →
    raw = url.schemeHostPort ++ url.path

theorem host_ne_nil (parts : UrlParts) : parts.host ≠ [] := by
  have read := parts.host_read
  rw [UrlRule.host_eq] at read
  exact (mem_plus_oneOf.mp read).1

theorem port_ne_nil (parts : UrlParts) {port : Bytes} (present : parts.port = some port) :
    port ≠ [] :=
  (mem_plus_oneOf.mp (parts.port_read port present)).1

theorem text_of_plain (parts : UrlParts) (noLogin : parts.login = none)
    (noSearch : parts.search = none) :
    parts.text = parts.parsed.schemeHostPort ++ parts.parsed.path := by
  unfold UrlParts.text UrlParts.front UrlParts.loginText URL.schemeHostPort UrlParts.parsed
    UrlParts.fields
  rw [noLogin, noSearch]
  cases portIs : parts.port with
  | none => simp [marked]
  | some port => simp [marked, port_ne_nil parts portIs, colon]

/-- The fields recompose the string unless it has a port and no login. -/
theorem parse_recomposes_iff (raw : Bytes) (url : URL) (parsed : URL.parse raw = .ok url) :
    Recomposed raw url ↔
      ¬ ∃ parts : UrlParts, parts.text = raw ∧ parts.portWithoutLogin = true := by
  have asParsed : ∀ parts : UrlParts, parts.text = raw → url = parts.parsed := by
    intro parts same
    have read := parse_text parts
    rw [same, parsed] at read
    exact Except.ok.inj read
  constructor
  · rintro recomposed ⟨parts, same, misread⟩
    have noLogin : parts.login = none := by
      simp only [UrlParts.portWithoutLogin, Bool.and_eq_true, Option.isNone_iff_eq_none] at misread
      exact misread.1
    have userNil := (recomposed.login_only parts same noLogin).1
    rw [asParsed parts same, UrlParts.parsed, misread] at userNil
    exact host_ne_nil parts userNil
  · intro regular
    have asFields : ∀ parts : UrlParts, parts.text = raw → url = parts.fields := by
      intro parts same
      have ordinary : parts.portWithoutLogin ≠ true := fun misread =>
        regular ⟨parts, same, misread⟩
      rw [asParsed parts same, UrlParts.parsed, if_neg ordinary]
    constructor
    · obtain ⟨parts, same⟩ := mem_url_iff.mp ((parses_iff_mem_url raw).mp ⟨url, parsed⟩)
      exact ⟨parts, same, asFields parts same⟩
    · intro parts same noLogin
      rw [asFields parts same, UrlParts.fields, noLogin]
      exact ⟨rfl, rfl⟩
    · intro parts same noLogin noSearch
      rw [asParsed parts same, ← same]
      exact text_of_plain parts noLogin noSearch

/-- The user is not the host, so the port comes behind a login. -/
theorem parse_recomposes_fullURL : Recomposed (text "https://u:p@h:1/a?q") fullURL := by
  apply (parse_recomposes_iff (text "https://u:p@h:1/a?q") fullURL parse_fullURL).mpr
  intro misread
  obtain ⟨parts, same, withoutLogin⟩ := misread
  have read := parse_text parts
  rw [same, parse_fullURL] at read
  have fields := Except.ok.inj read
  have host : fullURL.host = parts.host := congrArg URL.host fields
  have user : fullURL.user = parts.parsed.user := congrArg URL.user fields
  unfold UrlParts.parsed at user
  rw [if_pos withoutLogin, ← host] at user
  have different : fullURL.user ≠ fullURL.host := by decide
  exact different user

def samplePortParts : UrlParts where
  scheme := text "http://"
  login := none
  host := text "h"
  port := some (text "1")
  path := none
  search := none
  scheme_read := Or.inl rfl
  host_read := by
    rw [UrlRule.host_eq]
    change [(104 : UInt8)] ∈ _
    exact plus_of_oneOf rfl
  port_read := by
    rintro word ⟨⟩
    change [(49 : UInt8)] ∈ _
    exact plus_of_oneOf rfl
  path_read := by
    rintro word ⟨⟩
  search_read := by
    rintro word ⟨⟩

/-- The URL `http://h:1` has no login, and yet its user is `h`. -/
theorem parse_port_leaves_user :
    ∃ url, URL.parse (text "http://h:1") = .ok url ∧ url.user = text "h" ∧
      ¬ Recomposed (text "http://h:1") url := by
  refine ⟨samplePortParts.parsed, parse_text samplePortParts, rfl, ?_⟩
  intro recomposed
  have userNil := (recomposed.login_only samplePortParts rfl rfl).1
  exact absurd userNil (by decide)

end Cdnalizerd
