/-
What the two login coroutines ask for, and which answer an account comes from.

Each coroutine asks for a token for one entry after the other, over a connection
of its own. An account that is there already is kept, so it matters which of the
entries of one username, and which of the two coroutines, is the first.
-/

import Cdnalizerd.Accounts
import Cdnalizerd.StartUp
import Cdnalizerd.MainProcess

namespace Cdnalizerd

open Library

/-! ### One login -/

structure TokenRequest (library : DocumentLibrary) where
  target : Bytes := text "/v2.0/tokens"
  host : Bytes := text "identity.api.rackspacecloud.com"
  contentType : Bytes := text "application/json"
  accept : Bytes := text "application/json"
  body : library.Json

/-- The credentials of an entry, as the request has them. -/
def tokenRequest (library : DocumentLibrary) (entry : ConfigEntry) : TokenRequest library where
  body :=
    let credentials := library.object [(text "username", library.string entry.username),
      (text "apiKey", library.string entry.apikey)]
    library.object [(text "auth",
      library.object [(text "RAX-KSKEY:apiKeyCredentials", credentials)])]

/-- `Rackspace rs(json::parse(res.body()))`, whatever the status of the answer. -/
def readAnswer (library : DocumentLibrary) (body : Bytes) : Except AccountFailure Rackspace :=
  match library.parse body with
  | some data => Rackspace.ofJson library data
  | none => .error .notJson

/-! ### The coroutines -/

structure Logins where
  startUp : StartUp := {}
  /-- The entries a coroutine still has to fill in, the one it asked for first. -/
  left : Nat → List ConfigEntry := fun _index => []

inductive LoginsLabel where
  /-- The answer to the request of a coroutine has been read. -/
  | answered (index : Nat) (body : Bytes)
  | other (label : StartUpLabel)

namespace Logins

variable (library : DocumentLibrary) (entries : List ConfigEntry) (assertions : Bool)

def step (state : Logins) : LoginsLabel → Option Logins
  | .answered index body =>
      match state.startUp.logins[index]?, state.left index with
      | some (.filling _usernames), _entry :: rest =>
          match readAnswer library body with
          | .ok rs =>
              (state.startUp.step entries assertions (.loggedIn index rs)).map fun startUp =>
                { startUp := startUp, left := Function.update state.left index rest }
          | .error _failure =>
              (state.startUp.step entries assertions (.failLogin index)).map fun startUp =>
                { state with startUp := startUp }
      | _, _ => none
  | .other (.loggedIn _index _rs) => none
  | .other (.connected index) =>
      (state.startUp.step entries assertions (.connected index)).map fun startUp =>
        { startUp := startUp, left := Function.update state.left index entries }
  | .other label =>
      (state.startUp.step entries assertions label).map fun startUp =>
        { state with startUp := startUp }

variable {library} in
/-- Every answer is one that the server gives to the request it is read for. -/
def Honest (server : TokenRequest library → Bytes → Prop) (state : Logins) :
    LoginsLabel → Prop
  | .answered index body =>
      ∀ entry ∈ (state.left index).head?, server (tokenRequest library entry) body
  | .other _label => True

end Logins

/-! ### What a step of the start does to the logins -/

namespace StartUp

variable {entries : List ConfigEntry} {assertions : Bool} {state next : StartUp}

theorem filling_of_set {logins : List LoginStage} {index other : Nat} {stage : LoginStage}
    {usernames : List Bytes} (different : stage ≠ .filling usernames)
    (found : (logins.set index stage)[other]? = some (.filling usernames)) :
    other ≠ index ∧ logins[other]? = some (.filling usernames) := by
  rw [List.getElem?_set] at found
  split at found
  · split at found
    · exact absurd (Option.some.inj found) different
    · cases found
  · rename_i otherIndex
    exact ⟨Ne.symm otherIndex, found⟩

/-- Only an answer brings an account, and only it and a new connection bring a
coroutine to its next request. -/
theorem quiet_of_step {label : StartUpLabel} (notConnected : ∀ index, label ≠ .connected index)
    (notLoggedIn : ∀ index rs, label ≠ .loggedIn index rs)
    (stepped : state.step entries assertions label = some next) :
    next.accounts = state.accounts ∧ ∀ (index : Nat) (usernames : List Bytes),
      next.logins[index]? = some (LoginStage.filling usernames) →
        state.logins[index]? = some (LoginStage.filling usernames) := by
  have running := running_of_step stepped
  unfold step at stepped
  rw [if_neg (by rw [running]; exact Bool.false_ne_true)] at stepped
  cases label with
  | connected index => exact absurd rfl (notConnected index)
  | loggedIn index rs => exact absurd rfl (notLoggedIn index rs)
  | beginLogin index =>
      dsimp only at stepped
      split at stepped
      · obtain rfl := Option.some.inj stepped
        exact ⟨rfl, fun _other _usernames found =>
          (filling_of_set LoginStage.noConfusion found).2⟩
      · cases stepped
  | closed index =>
      dsimp only at stepped
      split at stepped
      · obtain rfl := Option.some.inj stepped
        exact ⟨rfl, fun _other _usernames found =>
          (filling_of_set LoginStage.noConfusion found).2⟩
      · cases stepped
  | failLogin index =>
      dsimp only at stepped
      split at stepped
      · obtain rfl := Option.some.inj stepped
        exact ⟨rfl, fun _other _usernames found => found⟩
      · cases stepped
  | beginSync index =>
      dsimp only at stepped
      split at stepped
      · obtain rfl := Option.some.inj stepped
        exact ⟨rfl, fun _other _usernames found => found⟩
      · cases stepped
  | endSync index =>
      dsimp only at stepped
      split at stepped
      · obtain rfl := Option.some.inj stepped
        exact ⟨rfl, fun _other _usernames found => found⟩
      · cases stepped
  | failSync index =>
      dsimp only at stepped
      split at stepped
      · obtain rfl := Option.some.inj stepped
        exact ⟨rfl, fun _other _usernames found => found⟩
      · cases stepped
  | expire =>
      dsimp only at stepped
      split at stepped
      · obtain rfl := Option.some.inj stepped
        exact ⟨rfl, fun _other _usernames found => found⟩
      · obtain rfl := Option.some.inj stepped
        exact ⟨rfl, fun _other _usernames found => found⟩
      · cases stepped
  | resume =>
      dsimp only at stepped
      split at stepped
      · split at stepped
        · obtain rfl := Option.some.inj stepped
          exact ⟨rfl, fun _other _usernames found => found⟩
        · obtain rfl := Option.some.inj stepped
          exact ⟨rfl, fun _other _usernames found => found⟩
      · obtain rfl := Option.some.inj stepped
        exact ⟨rfl, fun _other _usernames found => found⟩
      · cases stepped

theorem fillRest_accounts (index : Nat) (usernames : List Bytes) :
    (state.fillRest index usernames).accounts = state.accounts := by
  cases usernames with
  | nil => rfl
  | cons username rest => rfl

/-- The loop goes on with what is left, and leaves the other coroutine alone. -/
theorem filling_of_fillRest {index other : Nat} {rest usernames : List Bytes}
    (found : (state.fillRest index rest).logins[other]? = some (.filling usernames)) :
    (other = index ∧ usernames = rest) ∨
      (other ≠ index ∧ state.logins[other]? = some (.filling usernames)) := by
  cases rest with
  | nil => exact Or.inr (filling_of_set LoginStage.noConfusion found)
  | cons username rest =>
      by_cases same : usernames = username :: rest
      · by_cases here : other = index
        · exact Or.inl ⟨here, same⟩
        · have kept : ((state.logins.set index (.filling (username :: rest)))[other]?) =
              some (.filling usernames) := found
          rw [List.getElem?_set_ne (Ne.symm here)] at kept
          exact Or.inr ⟨here, kept⟩
      · apply Or.inr
        apply filling_of_set _ found
        intro stages
        exact same (LoginStage.filling.inj stages).symm

theorem step_connected {index : Nat}
    (stepped : state.step entries assertions (.connected index) = some next) :
    next = state.fillRest index (entries.map ConfigEntry.username) := by
  have running := running_of_step stepped
  unfold step at stepped
  rw [if_neg (by rw [running]; exact Bool.false_ne_true)] at stepped
  dsimp only at stepped
  split at stepped
  · exact (Option.some.inj stepped).symm
  · cases stepped

theorem step_loggedIn {index : Nat} {rs : Rackspace}
    (stepped : state.step entries assertions (.loggedIn index rs) = some next) :
    ∃ username rest, state.logins[index]? = some (.filling (username :: rest)) ∧
      next = StartUp.fillRest { state with accounts := state.accounts.emplace username rs }
        index rest := by
  have running := running_of_step stepped
  unfold step at stepped
  rw [if_neg (by rw [running]; exact Bool.false_ne_true)] at stepped
  dsimp only at stepped
  split at stepped
  · rename_i username rest found
    exact ⟨username, rest, found, (Option.some.inj stepped).symm⟩
  · cases stepped

end StartUp

theorem AccountCache.emplace_eq_some {accounts : AccountCache} {username other : Bytes}
    {rs found : Rackspace} (present : accounts.emplace username rs other = some found) :
    accounts other = some found ∨
      (other = username ∧ found = rs ∧ accounts username = none) := by
  unfold AccountCache.emplace at present
  split at present
  · exact Or.inl present
  · rename_i absent
    by_cases same : other = username
    · rw [same, Function.update_self] at present
      exact Or.inr ⟨same, (Option.some.inj present).symm,
        Option.not_isSome_iff_eq_none.mp absent⟩
    · rw [Function.update_of_ne same] at present
      exact Or.inl present

theorem AccountCache.emplace_keeps {accounts : AccountCache} {username other : Bytes}
    {rs found : Rackspace} (present : accounts other = some found) :
    accounts.emplace username rs other = some found := by
  unfold AccountCache.emplace
  split
  · exact present
  · rename_i absent
    rw [Function.update_of_ne]
    · exact present
    · rintro rfl
      exact absent (by rw [present]; rfl)

/-! ### Whose answer an account comes from -/

namespace Logins

variable {library : DocumentLibrary} {entries : List ConfigEntry} {assertions : Bool}
  {server : TokenRequest library → Bytes → Prop} {state next : Logins} {label : LoginsLabel}

theorem step_cases (stepped : state.step library entries assertions label = some next) :
    (∃ index body entry rest rs, label = .answered index body ∧
      state.left index = entry :: rest ∧ readAnswer library body = .ok rs ∧
      state.startUp.step entries assertions (.loggedIn index rs) = some next.startUp ∧
      next.left = Function.update state.left index rest) ∨
    (∃ index, state.startUp.step entries assertions (.connected index) = some next.startUp ∧
      next.left = Function.update state.left index entries) ∨
    ∃ quiet, (label = .other quiet ∨ ∃ index, quiet = .failLogin index) ∧
      (∀ index, quiet ≠ .connected index) ∧ (∀ index rs, quiet ≠ .loggedIn index rs) ∧
      state.startUp.step entries assertions quiet = some next.startUp ∧
      next.left = state.left := by
  unfold step at stepped
  split at stepped
  · rename_i index body
    split at stepped
    · rename_i usernames entry rest found here
      split at stepped
      · rename_i rs read
        obtain ⟨startUp, taken, rfl⟩ := Option.map_eq_some_iff.mp stepped
        exact Or.inl ⟨index, body, entry, rest, rs, rfl, here, read, taken, rfl⟩
      · obtain ⟨startUp, taken, rfl⟩ := Option.map_eq_some_iff.mp stepped
        exact Or.inr (Or.inr ⟨.failLogin index, Or.inr ⟨index, rfl⟩,
          fun _index => StartUpLabel.noConfusion,
          fun _index _rs => StartUpLabel.noConfusion, taken, rfl⟩)
    · cases stepped
  · cases stepped
  · rename_i index
    obtain ⟨startUp, taken, rfl⟩ := Option.map_eq_some_iff.mp stepped
    exact Or.inr (Or.inl ⟨index, taken, rfl⟩)
  · rename_i quiet notLoggedIn notConnected
    obtain ⟨startUp, taken, rfl⟩ := Option.map_eq_some_iff.mp stepped
    exact Or.inr (Or.inr ⟨quiet, Or.inl rfl, fun index same => notConnected index (by rw [same]),
      fun index rs same => notLoggedIn index rs (by rw [same]), taken, rfl⟩)

def Patient (assertions : Bool) (state : Logins) : LoginsLabel → Prop
  | .answered _index _body => True
  | .other label => state.startUp.Patient assertions label

/-- A step of the logins is one of the start, and a patient one if it was. -/
theorem startUp_step (patient : state.Patient assertions label)
    (stepped : state.step library entries assertions label = some next) :
    ∃ startLabel, state.startUp.Patient assertions startLabel ∧
      state.startUp.step entries assertions startLabel = some next.startUp := by
  rcases step_cases stepped with answered | connected | quiet
  · obtain ⟨index, _body, _entry, _rest, rs, _label, _here, _read, taken, _left⟩ := answered
    exact ⟨.loggedIn index rs, trivial, taken⟩
  · obtain ⟨index, taken, _left⟩ := connected
    exact ⟨.connected index, trivial, taken⟩
  · obtain ⟨startLabel, origin, _notConnected, _notLoggedIn, taken, _left⟩ := quiet
    rcases origin with rfl | ⟨index, rfl⟩
    · exact ⟨startLabel, patient, taken⟩
    · exact ⟨.failLogin index, trivial, taken⟩

variable (library entries server) in
/-- An account read from an answer to the first entry of its username. -/
def FromFirst (username : Bytes) (rs : Rackspace) : Prop :=
  ∃ entry body, entries.find? (fun entry => entry.username = username) = some entry ∧
    server (tokenRequest library entry) body ∧ readAnswer library body = .ok rs

variable (library entries server) in
structure Sound (state : Logins) : Prop where
  left : ∀ (index : Nat) (usernames : List Bytes),
    state.startUp.logins[index]? = some (LoginStage.filling usernames) →
      usernames = (state.left index).map ConfigEntry.username ∧
        ∃ front, entries = front ++ state.left index ∧
          ∀ entry ∈ front, (state.startUp.accounts entry.username).isSome = true
  accounts : ∀ username rs, state.startUp.accounts username = some rs →
    FromFirst library entries server username rs

theorem sound_initial : Sound library entries server {} where
  left := by
    intro index usernames found
    have member := List.mem_of_getElem? found
    simp at member
  accounts := by
    intro username rs found
    cases found

/-- An account that is not there is not one of an entry passed by, so the next
one of its username is the first. -/
theorem find?_of_front {front rest : List ConfigEntry} {entry : ConfigEntry}
    {accounts : AccountCache}
    (filled : ∀ earlier ∈ front, (accounts earlier.username).isSome = true)
    (absent : accounts entry.username = none) :
    (front ++ entry :: rest).find? (fun other => other.username = entry.username) =
      some entry := by
  rw [List.find?_append, List.find?_eq_none.mpr, Option.none_or,
    List.find?_cons_of_pos (by simp)]
  intro earlier member same
  have known := filled earlier member
  rw [of_decide_eq_true same, absent] at known
  cases known

theorem Sound.answered {index : Nat} {body : Bytes} {entry : ConfigEntry}
    {rest : List ConfigEntry} {rs : Rackspace} (sound : Sound library entries server state)
    (honest : state.Honest server (.answered index body))
    (here : state.left index = entry :: rest) (read : readAnswer library body = .ok rs)
    (taken : state.startUp.step entries assertions (.loggedIn index rs) = some next.startUp)
    (left : next.left = Function.update state.left index rest) :
    Sound library entries server next := by
  obtain ⟨username, usernames, found, after⟩ := StartUp.step_loggedIn taken
  obtain ⟨names, front, split, filled⟩ := sound.left index _ found
  rw [here] at names split
  obtain ⟨rfl, rfl⟩ := List.cons.inj names
  have grown : next.startUp.accounts = state.startUp.accounts.emplace entry.username rs := by
    rw [after, StartUp.fillRest_accounts]
  constructor
  · intro other usernames stage
    rw [after] at stage
    rcases StartUp.filling_of_fillRest stage with ⟨rfl, rfl⟩ | ⟨different, before⟩
    · rw [left, Function.update_self, grown]
      refine ⟨rfl, front ++ [entry], by rw [split, List.append_cons], ?_⟩
      intro earlier member
      rcases List.mem_append.mp member with inFront | atEnd
      · exact StartUp.isSome_emplace (Or.inl (filled earlier inFront))
      · rw [List.mem_singleton.mp atEnd]
        exact StartUp.isSome_emplace (Or.inr rfl)
    · obtain ⟨otherNames, otherFront, otherSplit, otherFilled⟩ := sound.left other _ before
      rw [left, Function.update_of_ne different, grown]
      exact ⟨otherNames, otherFront, otherSplit, fun earlier member =>
        StartUp.isSome_emplace (Or.inl (otherFilled earlier member))⟩
  · intro username account present
    rw [grown] at present
    rcases AccountCache.emplace_eq_some present with before | ⟨rfl, rfl, absent⟩
    · exact sound.accounts username account before
    · refine ⟨entry, body, ?_, honest entry (by rw [here]; rfl), read⟩
      rw [split]
      exact find?_of_front filled absent

theorem Sound.connected {index : Nat} (sound : Sound library entries server state)
    (taken : state.startUp.step entries assertions (.connected index) = some next.startUp)
    (left : next.left = Function.update state.left index entries) :
    Sound library entries server next := by
  have after := StartUp.step_connected taken
  have same : next.startUp.accounts = state.startUp.accounts := by
    rw [after, StartUp.fillRest_accounts]
  constructor
  · intro other usernames stage
    rw [after] at stage
    rcases StartUp.filling_of_fillRest stage with ⟨rfl, rfl⟩ | ⟨different, before⟩
    · rw [left, Function.update_self]
      exact ⟨rfl, [], rfl, fun _entry impossible => absurd impossible List.not_mem_nil⟩
    · rw [left, Function.update_of_ne different, same]
      exact sound.left other usernames before
  · rw [same]
    exact sound.accounts

theorem Sound.step (sound : Sound library entries server state)
    (honest : state.Honest server label)
    (stepped : state.step library entries assertions label = some next) :
    Sound library entries server next := by
  rcases step_cases stepped with answered | connected | quiet
  · obtain ⟨index, body, entry, rest, rs, rfl, here, read, taken, left⟩ := answered
    exact sound.answered honest here read taken left
  · obtain ⟨index, taken, left⟩ := connected
    exact sound.connected taken left
  · obtain ⟨startLabel, _origin, notConnected, notLoggedIn, taken, left⟩ := quiet
    obtain ⟨same, stages⟩ := StartUp.quiet_of_step notConnected notLoggedIn taken
    constructor
    · intro index usernames stage
      rw [left, same]
      exact sound.left index usernames (stages index usernames stage)
    · rw [same]
      exact sound.accounts

/-- An account is never replaced. -/
theorem accounts_of_step {username : Bytes} {rs : Rackspace}
    (stepped : state.step library entries assertions label = some next)
    (known : state.startUp.accounts username = some rs) :
    next.startUp.accounts username = some rs := by
  rcases step_cases stepped with answered | connected | quiet
  · obtain ⟨index, _body, _entry, _rest, read, _label, _here, _read, taken, _left⟩ := answered
    obtain ⟨other, usernames, _found, after⟩ := StartUp.step_loggedIn taken
    rw [after, StartUp.fillRest_accounts]
    exact AccountCache.emplace_keeps known
  · obtain ⟨index, taken, _left⟩ := connected
    rw [StartUp.step_connected taken, StartUp.fillRest_accounts]
    exact known
  · obtain ⟨startLabel, _origin, notConnected, notLoggedIn, taken, _left⟩ := quiet
    rw [(StartUp.quiet_of_step notConnected notLoggedIn taken).1]
    exact known

variable (library entries assertions server) in
abbrev HonestRun : Logins → Logins → Prop :=
  Runs.Run (step library entries assertions) (Honest server)

theorem sound_of_run (run : HonestRun library entries assertions server {} state) :
    Sound library entries server state :=
  Runs.invariant_of_run run sound_initial
    (fun _before _label _after sound honest stepped => sound.step honest stepped)

theorem accounts_of_run {username : Bytes} {rs : Rackspace}
    (run : HonestRun library entries assertions server state next)
    (known : state.startUp.accounts username = some rs) :
    next.startUp.accounts username = some rs := by
  induction run with
  | refl => exact known
  | tail _earlier taken ih =>
      obtain ⟨label, _honest, stepped⟩ := taken
      exact accounts_of_step stepped ih

/-- Whichever coroutine is first, an account comes from the first entry of its
username, and it is kept. -/
theorem first_credentials_win {username : Bytes} {rs : Rackspace}
    (run : HonestRun library entries assertions server {} state)
    (onwards : HonestRun library entries assertions server state next)
    (known : state.startUp.accounts username = some rs) :
    next.startUp.accounts username = some rs ∧
      FromFirst library entries server username rs :=
  ⟨accounts_of_run onwards known, (sound_of_run run).accounts username rs known⟩

/-! Two entries of one username, and a server whose token is the key it is given. -/

def sampleEntries : List ConfigEntry :=
  [{ sampleEntry with apikey := text "first" }, { sampleEntry with apikey := text "second" }]

def sampleLibrary : DocumentLibrary :=
  Json.library sampleParse

def SampleServer (request : TokenRequest sampleLibrary) (body : Bytes) : Prop :=
  ∃ auth ∈ sampleLibrary.member? (text "auth") request.body,
    ∃ credentials ∈ sampleLibrary.member? (text "RAX-KSKEY:apiKeyCredentials") auth,
      ∃ key ∈ sampleLibrary.member? (text "apiKey") credentials,
        sampleLibrary.isString body key = true

theorem sampleServer_apikey (entry : ConfigEntry) :
    SampleServer (tokenRequest sampleLibrary entry) entry.apikey :=
  ⟨_, rfl, _, rfl, _, rfl, beq_self_eq_true entry.apikey⟩

/-- The second coroutine is the first to have an answer. -/
def sampleBegin : List LoginsLabel :=
  [.other (.beginLogin 0), .other (.connected 0), .other (.beginLogin 1), .other (.connected 1),
    .answered 1 (text "first"), .answered 1 (text "second")]

def sampleRest : List LoginsLabel :=
  [.answered 0 (text "first"), .answered 0 (text "second"), .other (.closed 0),
    .other (.closed 1), .other .resume]

theorem first_credentials_win_sample :
    ∃ (state : Logins) (rs : Rackspace), state.startUp.caller = .syncing ∧
      rs.token = text "first" ∧ state.startUp.accounts (text "u") = some rs ∧
      FromFirst sampleLibrary sampleEntries SampleServer (text "u") rs := by
  let middle := (Runs.replay (step sampleLibrary sampleEntries true) {} sampleBegin).get
    (by decide)
  let state := (Runs.replay (step sampleLibrary sampleEntries true) middle sampleRest).get
    (by decide)
  have run : HonestRun sampleLibrary sampleEntries true SampleServer {} middle := by
    apply Runs.run_of_along (Option.some_get _).symm
    refine ⟨trivial, trivial, trivial, trivial, ?_, ?_, trivial⟩
    · intro entry member
      obtain rfl := Option.some.inj member
      exact sampleServer_apikey _
    · intro entry member
      obtain rfl := Option.some.inj member
      exact sampleServer_apikey _
  have onwards : HonestRun sampleLibrary sampleEntries true SampleServer middle state := by
    apply Runs.run_of_along (Option.some_get _).symm
    refine ⟨?_, ?_, trivial, trivial, trivial, trivial⟩
    · intro entry member
      obtain rfl := Option.some.inj member
      exact sampleServer_apikey _
    · intro entry member
      obtain rfl := Option.some.inj member
      exact sampleServer_apikey _
  let rs := (middle.startUp.accounts (text "u")).get (by decide)
  have known : middle.startUp.accounts (text "u") = some rs := (Option.some_get _).symm
  have kept := first_credentials_win run onwards known
  exact ⟨state, rs, by decide, by decide, kept.1, kept.2⟩

variable (library entries assertions server) in
abbrev PatientHonestRun : Logins → Logins → Prop :=
  Runs.Run (step library entries assertions) fun state label =>
    state.Honest server label ∧ state.Patient assertions label

theorem honestRun_of_patient (run : PatientHonestRun library entries assertions server state next) :
    HonestRun library entries assertions server state next :=
  Relation.ReflTransGen.mono (fun _before _after taken =>
    taken.imp fun _label allowed => ⟨allowed.1.1, allowed.2⟩) _ _ run

theorem startUp_run (run : PatientHonestRun library entries assertions server state next) :
    StartUp.PatientRun entries assertions state.startUp next.startUp := by
  induction run with
  | refl => exact Relation.ReflTransGen.refl
  | tail _earlier taken ih =>
      obtain ⟨label, allowed, stepped⟩ := taken
      exact Relation.ReflTransGen.tail ih (startUp_step allowed.2 stepped)

/-- Behind `login` every entry finds its account, the one of the first entry of
its username. -/
theorem logged_in_as_configured {entry : ConfigEntry}
    (run : PatientHonestRun library entries assertions server {} state)
    (notIn : state.startUp.caller ≠ .loggingIn) (notWoken : state.startUp.caller ≠ .loginWoken)
    (member : entry ∈ entries) :
    ∃ rs, findAccount state.startUp.accounts entry.username = .ok rs ∧
      FromFirst library entries server entry.username rs := by
  have waited := (StartUp.sound_of_run (startUp_run run)).waitedFor
  obtain ⟨rs, known⟩ := Option.isSome_iff_exists.mp ((waited.logins notIn notWoken).2 entry member)
  refine ⟨rs, ?_, (sound_of_run (honestRun_of_patient run)).accounts entry.username rs known⟩
  unfold findAccount
  rw [known]

theorem logged_in_as_configured_sample :
    ∃ (state : Logins) (rs : Rackspace), state.startUp.caller = .syncing ∧
      findAccount state.startUp.accounts (text "u") = .ok rs ∧
      FromFirst sampleLibrary sampleEntries SampleServer (text "u") rs := by
  let state := (Runs.replay (step sampleLibrary sampleEntries true) {}
    (sampleBegin ++ sampleRest)).get (by decide)
  have run : PatientHonestRun sampleLibrary sampleEntries true SampleServer {} state := by
    apply Runs.run_of_along (Option.some_get _).symm
    have honest : ∀ entry : ConfigEntry, ∀ asked ∈ some entry,
        SampleServer (tokenRequest sampleLibrary asked) entry.apikey := by
      intro entry asked member
      obtain rfl := Option.some.inj member
      exact sampleServer_apikey entry
    exact ⟨⟨trivial, trivial⟩, ⟨trivial, trivial⟩, ⟨trivial, trivial⟩, ⟨trivial, trivial⟩,
      ⟨honest _, trivial⟩, ⟨honest _, trivial⟩, ⟨honest _, trivial⟩, ⟨honest _, trivial⟩,
      ⟨trivial, trivial⟩, ⟨trivial, trivial⟩,
      ⟨trivial, fun _woken => Or.inr (by decide)⟩, trivial⟩
  have caller : state.startUp.caller = .syncing := by decide
  obtain ⟨rs, found, first⟩ := logged_in_as_configured run
    (by rw [caller]; exact CallerStage.noConfusion)
    (by rw [caller]; exact CallerStage.noConfusion) (List.mem_cons_self)
  exact ⟨state, rs, caller, found, first⟩

end Logins

end Cdnalizerd
