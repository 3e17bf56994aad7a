/-
Logging in and the initial synchronisation, before the events are read.

Each of the two spawns its coroutines and sleeps on a timer of ten minutes.
The coroutine that brings a counter to zero cancels the timer, and the sleeper
goes on when the timer's handler is run, whatever the counter is then.
-/

import Mathlib.Data.List.TakeWhile
import Cdnalizerd.Config
import Cdnalizerd.Library.Runs

namespace Cdnalizerd

open Library

/-! ### Where everyone waits -/

/-- The coroutine of `watchForFileChanges`. -/
inductive CallerStage where
  | loggingIn
  /-- The handler of `waitForLogins` is posted. -/
  | loginWoken
  | syncing
  /-- The handler of `waitForSync` is posted. -/
  | syncWoken
  /-- `syncAllDirectories` has returned. -/
  | watching
  /-- An exception has left `syncAllDirectories`. -/
  | failed
deriving DecidableEq

inductive LoginStage where
  /-- Spawned, and not begun yet. -/
  | spawned
  | connecting
  /-- Waiting for the answer for the first of these usernames. -/
  | filling (usernames : List Bytes)
  /-- In the shutdown of the connection, behind `onDone`. -/
  | closing
  | ended
deriving DecidableEq

inductive SyncStage where
  | spawned
  | running
  | ended
deriving DecidableEq

def LoginStage.pending : LoginStage → Bool
  | .closing => false
  | .ended => false
  | _ => true

structure StartUp where
  caller : CallerStage := .loggingIn
  logins : List LoginStage := [.spawned, .spawned]
  loginWorkers : Nat := 2
  accounts : AccountCache := fun _username => none
  syncs : List SyncStage := []
  syncWorkers : Nat := 0
  /-- An exception has left `io_service::run`, or the process was aborted. -/
  halted : Bool := false

/-- `std::map::emplace` -/
def AccountCache.emplace (accounts : AccountCache) (username : Bytes) (rs : Rackspace) :
    AccountCache :=
  if (accounts username).isSome then accounts
  else Function.update accounts username (some rs)

/-! ### The steps -/

inductive StartUpLabel where
  | beginLogin (index : Nat)
  | connected (index : Nat)
  | loggedIn (index : Nat) (rs : Rackspace)
  | closed (index : Nat)
  | failLogin (index : Nat)
  | beginSync (index : Nat)
  | endSync (index : Nat)
  | failSync (index : Nat)
  | expire
  | resume

namespace StartUp

/-- The callback of `login`. It cancels a timer that only `login` waits for. -/
def onDone (state : StartUp) : StartUp :=
  let loginWorkers := state.loginWorkers - 1
  { state with
    loginWorkers := loginWorkers
    caller :=
      if loginWorkers = 0 ∧ state.caller = .loggingIn then .loginWoken else state.caller }

/-- The loop of `fillAccountCache` over the entries that are left. -/
def fillRest (state : StartUp) (index : Nat) : List Bytes → StartUp
  | [] => { state.onDone with logins := state.logins.set index .closing }
  | username :: rest =>
      { state with logins := state.logins.set index (.filling (username :: rest)) }

/-- The destructor of `CountSentry`. -/
def countDown (state : StartUp) : StartUp :=
  let syncWorkers := state.syncWorkers - 1
  { state with
    syncWorkers := syncWorkers
    caller :=
      if syncWorkers = 0 ∧ state.caller = .syncing then .syncWoken else state.caller }

/-- From the return of `login` to the timer of `syncAllDirectories`. An entry
whose account is missing ends the loop with an exception. -/
def enterSync (entries : List ConfigEntry) (state : StartUp) : StartUp :=
  let found := entries.takeWhile fun entry => (state.accounts entry.username).isSome
  { state with
    caller := if found.length = entries.length then .syncing else .failed
    syncs := List.replicate found.length .spawned }

def aborts (assertions : Bool) (state : StartUp) : Bool :=
  assertions && state.loginWorkers ≠ 0

variable (entries : List ConfigEntry) (assertions : Bool)

/-- One coroutine or one timer, up to where it waits next. -/
def step (state : StartUp) (label : StartUpLabel) : Option StartUp :=
  if state.halted then none
  else
    match label with
    | .beginLogin index =>
        if state.logins[index]? = some .spawned then
          some { state with logins := state.logins.set index .connecting }
        else none
    | .connected index =>
        if state.logins[index]? = some .connecting then
          some (state.fillRest index (entries.map ConfigEntry.username))
        else none
    | .loggedIn index rs =>
        match state.logins[index]? with
        | some (.filling (username :: rest)) =>
            let filled := { state with accounts := state.accounts.emplace username rs }
            some (filled.fillRest index rest)
        | _ => none
    | .closed index =>
        if state.logins[index]? = some .closing then
          some { state with logins := state.logins.set index .ended }
        else none
    | .failLogin index =>
        if state.logins[index]?.any LoginStage.pending then some { state with halted := true }
        else none
    | .beginSync index =>
        if state.syncs[index]? = some .spawned then
          some { state with
            syncs := state.syncs.set index .running
            syncWorkers := state.syncWorkers + 1 }
        else none
    | .endSync index =>
        if state.syncs[index]? = some .running then
          some { state.countDown with syncs := state.syncs.set index .ended }
        else none
    | .failSync index =>
        if state.syncs[index]?.any (· ≠ .ended) then some { state with halted := true }
        else none
    | .expire =>
        match state.caller with
        | .loggingIn => some { state with caller := .loginWoken }
        | .syncing => some { state with caller := .syncWoken }
        | _ => none
    | .resume =>
        match state.caller with
        | .loginWoken =>
            if state.aborts assertions then some { state with halted := true }
            else some (state.enterSync entries)
        | .syncWoken => some { state with caller := .watching }
        | _ => none

/-! ### What the callers rely on -/

def AllFilled (accounts : AccountCache) : Prop :=
  ∀ entry ∈ entries, (accounts entry.username).isSome = true

/-- The caller is out of `login` only when the login coroutines are over and
every account is there, and out of `syncAllDirectories` only when its coroutines
are over. -/
structure WaitedFor (state : StartUp) : Prop where
  logins : state.caller ≠ .loggingIn → state.caller ≠ .loginWoken →
    (∀ stage ∈ state.logins, stage = .ended) ∧ AllFilled entries state.accounts
  syncs : state.caller = .watching ∨ state.caller = .failed →
    ∀ stage ∈ state.syncs, stage = .ended

/-- The steps that release nobody early: no timer expires while a coroutine is
not over (unless an assertion is waiting for the sleeper), no coroutine brings
the counter to zero while another has not begun, and `login` does not go on
while one of its connections is being shut down. -/
def Patient (state : StartUp) : StartUpLabel → Prop
  | .expire =>
      (state.caller = .loggingIn →
        assertions = true ∨ ∀ stage ∈ state.logins, stage = .ended) ∧
      (state.caller = .syncing → ∀ stage ∈ state.syncs, stage = .ended)
  | .endSync _index => state.syncWorkers = 1 → .spawned ∉ state.syncs
  | .resume => state.caller = .loginWoken →
      state.aborts assertions = true ∨ .closing ∉ state.logins
  | _ => True

/-! ### What is true while nobody is released early -/

def Filled (accounts : AccountCache) : LoginStage → Prop
  | .spawned => True
  | .connecting => True
  | .filling usernames => ∀ entry ∈ entries,
      (accounts entry.username).isSome = true ∨ entry.username ∈ usernames
  | .closing => AllFilled entries accounts
  | .ended => AllFilled entries accounts

def CallerSound (state : StartUp) : CallerStage → Prop
  | .loggingIn => state.syncs = []
  | .loginWoken => state.syncs = [] ∧
      (assertions = true ∨ ∀ stage ∈ state.logins, stage.pending = false)
  | .syncing => ∀ stage ∈ state.logins, stage = .ended
  | .syncWoken => (∀ stage ∈ state.logins, stage = .ended) ∧
      ∀ stage ∈ state.syncs, stage = .ended
  | .watching => (∀ stage ∈ state.logins, stage = .ended) ∧
      ∀ stage ∈ state.syncs, stage = .ended
  | .failed => False

structure Sound (state : StartUp) : Prop where
  logins_ne : state.logins ≠ []
  loginWorkers : state.loginWorkers = state.logins.countP LoginStage.pending
  filled : ∀ stage ∈ state.logins, Filled entries state.accounts stage
  syncWorkers : state.syncWorkers = state.syncs.countP (· = .running)
  caller : state.CallerSound assertions state.caller

theorem sound_initial : Sound entries assertions {} where
  logins_ne := List.cons_ne_nil _ _
  loginWorkers := rfl
  filled := by
    intro stage member
    simp only [List.mem_cons, List.not_mem_nil, or_false, or_self] at member
    rw [member]
    trivial
  syncWorkers := rfl
  caller := rfl

section Kept

variable {entries assertions} {state : StartUp} {index : Nat}

theorem countP_set_add {α : Type} (counted : α → Bool) {items : List α} {old : α}
    (found : items[index]? = some old) (new : α) :
    (items.set index new).countP counted + (if counted old then 1 else 0) =
      items.countP counted + if counted new then 1 else 0 := by
  obtain ⟨inside, same⟩ := List.getElem?_eq_some_iff.mp found
  rw [List.countP_set inside, same]
  have positive : counted old = true → 0 < items.countP counted := by
    intro isCounted
    exact List.countP_pos_iff.mpr ⟨old, List.mem_of_getElem? found, isCounted⟩
  split
  · rename_i isCounted
    have some_counted := positive isCounted
    omega
  · omega

theorem mem_set_of_ne {α : Type} {items : List α} {item old : α} (member : item ∈ items)
    (found : items[index]? = some old) (different : item ≠ old) (new : α) :
    item ∈ items.set index new := by
  obtain ⟨position, atPosition⟩ := List.mem_iff_getElem?.mp member
  apply List.mem_iff_getElem?.mpr
  refine ⟨position, ?_⟩
  rw [List.getElem?_set_ne]
  · exact atPosition
  · rintro rfl
    exact different (Option.some.inj (atPosition.symm.trans found))

/-- A login coroutine that is not over is only seen before `login` returns. -/
theorem Sound.caller_of_login (sound : Sound entries assertions state) {stage : LoginStage}
    (member : stage ∈ state.logins) (unfinished : stage ≠ .ended) :
    state.caller = .loggingIn ∨ state.caller = .loginWoken := by
  have callerSound := sound.caller
  cases here : state.caller with
  | loggingIn => exact Or.inl rfl
  | loginWoken => exact Or.inr rfl
  | syncing =>
      rw [here] at callerSound
      exact absurd (callerSound stage member) unfinished
  | syncWoken =>
      rw [here] at callerSound
      exact absurd (callerSound.1 stage member) unfinished
  | watching =>
      rw [here] at callerSound
      exact absurd (callerSound.1 stage member) unfinished
  | failed =>
      rw [here] at callerSound
      exact callerSound.elim

/-- A sync coroutine that is not over is only seen while the caller sleeps. -/
theorem Sound.caller_of_sync (sound : Sound entries assertions state) {stage : SyncStage}
    (member : stage ∈ state.syncs) (unfinished : stage ≠ .ended) :
    state.caller = .syncing := by
  have callerSound := sound.caller
  cases here : state.caller with
  | syncing => rfl
  | loggingIn =>
      rw [here] at callerSound
      rw [show state.syncs = [] from callerSound] at member
      cases member
  | loginWoken =>
      rw [here] at callerSound
      rw [callerSound.1] at member
      cases member
  | syncWoken =>
      rw [here] at callerSound
      exact absurd (callerSound.2 stage member) unfinished
  | watching =>
      rw [here] at callerSound
      exact absurd (callerSound.2 stage member) unfinished
  | failed =>
      rw [here] at callerSound
      exact callerSound.elim

/-- A login coroutine that goes on without calling `onDone`. -/
theorem Sound.advanceLogin (sound : Sound entries assertions state) {old new : LoginStage}
    (found : state.logins[index]? = some old) (unfinished : old ≠ .ended)
    (samePending : new.pending = old.pending) (filled : Filled entries state.accounts new) :
    Sound entries assertions { state with logins := state.logins.set index new } where
  logins_ne := by
    rw [ne_eq, List.set_eq_nil_iff]
    exact sound.logins_ne
  loginWorkers := by
    have counted := countP_set_add LoginStage.pending found new
    rw [samePending] at counted
    have before := sound.loginWorkers
    dsimp only
    omega
  filled := by
    intro stage member
    rcases List.mem_or_eq_of_mem_set member with before | rfl
    · exact sound.filled stage before
    · exact filled
  syncWorkers := sound.syncWorkers
  caller := by
    have callerSound := sound.caller
    have member := List.mem_of_getElem? found
    dsimp only
    rcases sound.caller_of_login member unfinished with here | here
    · rw [here] at callerSound ⊢
      exact callerSound
    · rw [here] at callerSound ⊢
      refine ⟨callerSound.1, callerSound.2.imp_right ?_⟩
      intro nonePending stage setMember
      rcases List.mem_or_eq_of_mem_set setMember with before | rfl
      · exact nonePending stage before
      · rw [samePending]
        exact nonePending old member

/-- A login coroutine that calls `onDone`, and the timer it may cancel. -/
theorem Sound.leaveLogin (sound : Sound entries assertions state) {old : LoginStage}
    (found : state.logins[index]? = some old) (pending : old.pending = true)
    (filled : AllFilled entries state.accounts) :
    Sound entries assertions
      { state.onDone with logins := state.logins.set index .closing } := by
  have member := List.mem_of_getElem? found
  have unfinished : old ≠ .ended := by
    rintro rfl
    cases pending
  have counted := countP_set_add LoginStage.pending found .closing
  rw [pending, if_pos rfl, if_neg (by decide)] at counted
  have fewer : state.onDone.loginWorkers =
      (state.logins.set index .closing).countP LoginStage.pending := by
    have before := sound.loginWorkers
    change state.loginWorkers - 1 = _
    omega
  refine ⟨?_, fewer, ?_, sound.syncWorkers, ?_⟩
  · rw [ne_eq, List.set_eq_nil_iff]
    exact sound.logins_ne
  · intro stage setMember
    rcases List.mem_or_eq_of_mem_set setMember with before | rfl
    · exact sound.filled stage before
    · exact filled
  · have callerSound := sound.caller
    unfold onDone at fewer ⊢
    dsimp only at fewer ⊢
    rcases sound.caller_of_login member unfinished with here | here
    · rw [here] at callerSound ⊢
      split
      · rename_i last
        refine ⟨callerSound, Or.inr ?_⟩
        rw [last.1] at fewer
        intro stage setMember
        exact Bool.eq_false_iff.mpr (List.countP_eq_zero.mp fewer.symm stage setMember)
      · exact callerSound
    · rw [here] at callerSound ⊢
      rw [if_neg (fun both => CallerStage.noConfusion both.2)]
      refine ⟨callerSound.1, callerSound.2.imp_right ?_⟩
      intro nonePending
      rw [nonePending old member] at pending
      cases pending

theorem Sound.fillRest (sound : Sound entries assertions state) {old : LoginStage}
    (found : state.logins[index]? = some old) (pending : old.pending = true)
    {rest : List Bytes}
    (filled : Filled entries state.accounts (.filling rest)) :
    Sound entries assertions (state.fillRest index rest) := by
  cases rest with
  | nil =>
      apply sound.leaveLogin found pending
      intro entry member
      exact (filled entry member).resolve_right List.not_mem_nil
  | cons username rest =>
      have unfinished : old ≠ .ended := by
        rintro rfl
        cases pending
      exact sound.advanceLogin found unfinished pending.symm filled

theorem isSome_emplace {accounts : AccountCache} {username : Bytes} {rs : Rackspace}
    {other : Bytes} (known : (accounts other).isSome = true ∨ other = username) :
    (accounts.emplace username rs other).isSome = true := by
  unfold AccountCache.emplace
  by_cases present : (accounts username).isSome = true
  · rw [if_pos present]
    rcases known with known | rfl
    · exact known
    · exact present
  · rw [if_neg present]
    by_cases same : other = username
    · subst same
      rw [Function.update_self]
      rfl
    · rw [Function.update_of_ne same]
      exact known.resolve_right same

theorem Sound.emplace (sound : Sound entries assertions state) (username : Bytes)
    (rs : Rackspace) :
    Sound entries assertions
      { state with accounts := state.accounts.emplace username rs } where
  logins_ne := sound.logins_ne
  loginWorkers := sound.loginWorkers
  filled := by
    intro stage member
    have before := sound.filled stage member
    cases stage with
    | spawned => trivial
    | connecting => trivial
    | filling usernames =>
        intro entry inEntries
        exact (before entry inEntries).imp_left fun known => isSome_emplace (Or.inl known)
    | closing => exact fun entry inEntries => isSome_emplace (Or.inl (before entry inEntries))
    | ended => exact fun entry inEntries => isSome_emplace (Or.inl (before entry inEntries))
  syncWorkers := sound.syncWorkers
  caller := sound.caller

theorem Sound.beginSync (sound : Sound entries assertions state)
    (found : state.syncs[index]? = some .spawned) :
    Sound entries assertions { state with
      syncs := state.syncs.set index .running
      syncWorkers := state.syncWorkers + 1 } where
  logins_ne := sound.logins_ne
  loginWorkers := sound.loginWorkers
  filled := sound.filled
  syncWorkers := by
    have counted := countP_set_add (fun stage => decide (stage = SyncStage.running)) found
      .running
    have before := sound.syncWorkers
    simp only [decide_true, if_true, reduceCtorEq, decide_false, Bool.false_eq_true,
      if_false] at counted
    dsimp only
    omega
  caller := by
    have callerSound := sound.caller
    have here := sound.caller_of_sync (List.mem_of_getElem? found) (by decide)
    dsimp only
    rw [here] at callerSound ⊢
    exact callerSound

/-- A sync coroutine that is over, the last one if it brings the counter to
zero. -/
theorem Sound.endSync (sound : Sound entries assertions state)
    (found : state.syncs[index]? = some .running)
    (begun : state.syncWorkers = 1 → .spawned ∉ state.syncs) :
    Sound entries assertions
      { state.countDown with syncs := state.syncs.set index .ended } := by
  have counted := countP_set_add (fun stage => decide (stage = SyncStage.running)) found .ended
  simp only [decide_true, if_true, reduceCtorEq, decide_false, Bool.false_eq_true,
    if_false] at counted
  have before := sound.syncWorkers
  have fewer : state.countDown.syncWorkers =
      (state.syncs.set index .ended).countP (· = .running) := by
    change state.syncWorkers - 1 = _
    omega
  refine ⟨sound.logins_ne, sound.loginWorkers, sound.filled, fewer, ?_⟩
  have callerSound := sound.caller
  have here := sound.caller_of_sync (List.mem_of_getElem? found) (by decide)
  unfold countDown at fewer ⊢
  dsimp only at fewer ⊢
  rw [here] at callerSound ⊢
  split
  · rename_i last
    refine ⟨callerSound, ?_⟩
    rw [last.1] at fewer
    intro stage member
    have stopped := List.countP_eq_zero.mp fewer.symm stage member
    rcases List.mem_or_eq_of_mem_set member with old | rfl
    · cases stage with
      | ended => rfl
      | running => exact absurd (decide_eq_true rfl) stopped
      | spawned => exact absurd old (begun (by omega))
    · rfl
  · exact callerSound

theorem Sound.halted (sound : Sound entries assertions state) :
    Sound entries assertions { state with halted := true } :=
  ⟨sound.logins_ne, sound.loginWorkers, sound.filled, sound.syncWorkers, sound.caller⟩

theorem Sound.expire {next : StartUp} (sound : Sound entries assertions state)
    (patient : state.Patient assertions .expire) (running : state.halted = false)
    (stepped : state.step entries assertions .expire = some next) :
    Sound entries assertions next := by
  have callerSound := sound.caller
  unfold step at stepped
  rw [if_neg (by rw [running]; exact Bool.false_ne_true)] at stepped
  cases here : state.caller with
  | loggingIn =>
      rw [here] at callerSound
      simp only [here, Option.some.injEq] at stepped
      subst stepped
      refine ⟨sound.logins_ne, sound.loginWorkers, sound.filled, sound.syncWorkers,
        callerSound, (patient.1 here).imp_right ?_⟩
      intro allOver stage member
      rw [allOver stage member]
      rfl
  | syncing =>
      rw [here] at callerSound
      simp only [here, Option.some.injEq] at stepped
      subst stepped
      exact ⟨sound.logins_ne, sound.loginWorkers, sound.filled, sound.syncWorkers,
        callerSound, patient.2 here⟩
  | loginWoken => simp [here] at stepped
  | syncWoken => simp [here] at stepped
  | watching => simp [here] at stepped
  | failed => simp [here] at stepped

/-- Once all login coroutines are over every account is there. -/
theorem Sound.allFilled (sound : Sound entries assertions state)
    (allOver : ∀ stage ∈ state.logins, stage = .ended) : AllFilled entries state.accounts := by
  obtain ⟨first, rest, shape⟩ := List.exists_cons_of_ne_nil sound.logins_ne
  have member : first ∈ state.logins := by
    rw [shape]
    exact List.mem_cons_self
  have filled := sound.filled first member
  rw [allOver first member] at filled
  exact filled

theorem Sound.enterSync (sound : Sound entries assertions state)
    (woken : state.caller = .loginWoken) (stays : state.aborts assertions = false)
    (shutDown : .closing ∉ state.logins) :
    Sound entries assertions (state.enterSync entries) := by
  have callerSound := sound.caller
  rw [woken] at callerSound
  have left : ∀ stage ∈ state.logins, stage.pending = false := by
    rcases callerSound.2 with asserted | nonePending
    · have none : state.loginWorkers = 0 := by
        simpa [aborts, asserted] using stays
      rw [sound.loginWorkers] at none
      exact fun stage member => Bool.eq_false_iff.mpr (List.countP_eq_zero.mp none stage member)
    · exact nonePending
  have allOver : ∀ stage ∈ state.logins, stage = .ended := by
    intro stage member
    have gone := left stage member
    cases stage with
    | ended => rfl
    | closing => exact absurd member shutDown
    | spawned => cases gone
    | connecting => cases gone
    | filling usernames => cases gone
  have everyone : entries.takeWhile (fun entry => (state.accounts entry.username).isSome) =
      entries := List.takeWhile_eq_self_iff.mpr (sound.allFilled allOver)
  have none : state.syncWorkers = 0 := by
    rw [sound.syncWorkers, callerSound.1]
    rfl
  unfold StartUp.enterSync
  rw [everyone]
  dsimp only
  rw [if_pos rfl]
  refine ⟨sound.logins_ne, sound.loginWorkers, sound.filled, ?_, allOver⟩
  dsimp only
  rw [none, eq_comm, List.countP_eq_zero]
  intro stage member
  rw [List.eq_of_mem_replicate member]
  decide

theorem Sound.resume {next : StartUp} (sound : Sound entries assertions state)
    (patient : state.Patient assertions .resume) (running : state.halted = false)
    (stepped : state.step entries assertions .resume = some next) :
    Sound entries assertions next := by
  have callerSound := sound.caller
  unfold step at stepped
  rw [if_neg (by rw [running]; exact Bool.false_ne_true)] at stepped
  cases here : state.caller with
  | loginWoken =>
      simp only [here] at stepped
      split at stepped
      · obtain rfl := Option.some.inj stepped
        have haltedSound := sound.halted
        rw [here] at haltedSound
        exact haltedSound
      · rename_i stays
        obtain rfl := Option.some.inj stepped
        exact sound.enterSync here (Bool.eq_false_iff.mpr stays)
          ((patient here).resolve_left stays)
  | syncWoken =>
      rw [here] at callerSound
      simp only [here, Option.some.injEq] at stepped
      subst stepped
      exact ⟨sound.logins_ne, sound.loginWorkers, sound.filled, sound.syncWorkers, callerSound⟩
  | loggingIn => simp [here] at stepped
  | syncing => simp [here] at stepped
  | watching => simp [here] at stepped
  | failed => simp [here] at stepped

theorem running_of_step {next : StartUp} {label : StartUpLabel}
    (stepped : state.step entries assertions label = some next) : state.halted = false := by
  apply Bool.eq_false_iff.mpr
  intro halted
  unfold step at stepped
  rw [if_pos halted] at stepped
  cases stepped

theorem Sound.step {next : StartUp} {label : StartUpLabel}
    (sound : Sound entries assertions state) (patient : state.Patient assertions label)
    (stepped : state.step entries assertions label = some next) :
    Sound entries assertions next := by
  have running := running_of_step stepped
  have taken := stepped
  unfold StartUp.step at taken
  rw [if_neg (by rw [running]; exact Bool.false_ne_true)] at taken
  cases label with
  | expire => exact sound.expire patient running stepped
  | resume => exact sound.resume patient running stepped
  | beginLogin index =>
      dsimp only at taken
      split at taken
      · rename_i found
        obtain rfl := Option.some.inj taken
        exact sound.advanceLogin found LoginStage.noConfusion rfl trivial
      · cases taken
  | connected index =>
      dsimp only at taken
      split at taken
      · rename_i found
        obtain rfl := Option.some.inj taken
        apply sound.fillRest found rfl
        exact fun entry member => Or.inr (List.mem_map_of_mem member)
      · cases taken
  | loggedIn index rs =>
      dsimp only at taken
      split at taken
      · rename_i username rest found
        obtain rfl := Option.some.inj taken
        have before := sound.filled _ (List.mem_of_getElem? found)
        apply (sound.emplace username rs).fillRest found rfl
        intro entry member
        rcases before entry member with known | listed
        · exact Or.inl (isSome_emplace (Or.inl known))
        · exact (List.mem_cons.mp listed).imp_left fun same => isSome_emplace (Or.inr same)
      · cases taken
  | closed index =>
      dsimp only at taken
      split at taken
      · rename_i found
        obtain rfl := Option.some.inj taken
        have filled := sound.filled _ (List.mem_of_getElem? found)
        exact sound.advanceLogin found LoginStage.noConfusion rfl filled
      · cases taken
  | failLogin index =>
      dsimp only at taken
      split at taken
      · obtain rfl := Option.some.inj taken
        exact sound.halted
      · cases taken
  | beginSync index =>
      dsimp only at taken
      split at taken
      · rename_i found
        obtain rfl := Option.some.inj taken
        exact sound.beginSync found
      · cases taken
  | endSync index =>
      dsimp only at taken
      split at taken
      · rename_i found
        obtain rfl := Option.some.inj taken
        exact sound.endSync found patient
      · cases taken
  | failSync index =>
      dsimp only at taken
      split at taken
      · obtain rfl := Option.some.inj taken
        exact sound.halted
      · cases taken

theorem Sound.waitedFor (sound : Sound entries assertions state) :
    state.WaitedFor entries := by
  have callerSound := sound.caller
  constructor
  · intro notIn notWoken
    have allOver : ∀ stage ∈ state.logins, stage = .ended := by
      intro stage member
      by_contra unfinished
      exact (sound.caller_of_login member unfinished).elim notIn notWoken
    exact ⟨allOver, sound.allFilled allOver⟩
  · intro out stage member
    by_contra unfinished
    rw [sound.caller_of_sync member unfinished] at out
    exact out.elim CallerStage.noConfusion CallerStage.noConfusion

/-! ### Where a step that is not patient leads -/

theorem not_waitedFor_of_watching {stage : SyncStage} (out : state.caller = .watching)
    (member : stage ∈ state.syncs) (unfinished : stage ≠ .ended) :
    ¬ state.WaitedFor entries :=
  fun waited => unfinished (waited.syncs (Or.inl out) stage member)

theorem not_waitedFor_of_enterSync {stage : LoginStage} (member : stage ∈ state.logins)
    (unfinished : stage ≠ .ended) : ¬ (state.enterSync entries).WaitedFor entries := by
  intro waited
  apply unfinished
  apply (waited.logins _ _).1 stage member
  · unfold StartUp.enterSync
    dsimp only
    split <;> exact CallerStage.noConfusion
  · unfold StartUp.enterSync
    dsimp only
    split <;> exact CallerStage.noConfusion

variable (entries assertions) in
abbrev AnyRun : StartUp → StartUp → Prop :=
  Runs.Run (StartUp.step entries assertions) fun _state _label => True

theorem anyRun_resume {next : StartUp}
    (stepped : state.step entries assertions .resume = some next) :
    AnyRun entries assertions state next :=
  Relation.ReflTransGen.single ⟨.resume, trivial, stepped⟩

theorem step_resume_syncWoken (running : state.halted = false)
    (woken : state.caller = .syncWoken) :
    state.step entries assertions .resume = some { state with caller := .watching } := by
  unfold StartUp.step
  rw [if_neg (by rw [running]; exact Bool.false_ne_true)]
  simp only [woken]

theorem step_resume_loginWoken (running : state.halted = false)
    (woken : state.caller = .loginWoken) (stays : state.aborts assertions = false) :
    state.step entries assertions .resume = some (state.enterSync entries) := by
  unfold StartUp.step
  rw [if_neg (by rw [running]; exact Bool.false_ne_true)]
  simp only [woken, stays, Bool.false_eq_true, if_false]

theorem expire_releases {next : StartUp} (impatient : ¬ state.Patient assertions .expire)
    (stepped : state.step entries assertions .expire = some next) :
    ∃ later, AnyRun entries assertions next later ∧ ¬ later.WaitedFor entries := by
  have running := running_of_step stepped
  unfold step at stepped
  rw [if_neg (by rw [running]; exact Bool.false_ne_true)] at stepped
  rcases not_and_or.mp impatient with login | sync
  · obtain ⟨here, early⟩ := Classical.not_imp.mp login
    obtain ⟨unasserted, unfinished⟩ := not_or.mp early
    simp only [not_forall] at unfinished
    obtain ⟨stage, member, different⟩ := unfinished
    simp only [here, Option.some.injEq] at stepped
    subst stepped
    refine ⟨_, anyRun_resume (step_resume_loginWoken running rfl ?_),
      not_waitedFor_of_enterSync member different⟩
    unfold aborts
    rw [Bool.eq_false_iff.mpr unasserted, Bool.false_and]
  · obtain ⟨here, early⟩ := Classical.not_imp.mp sync
    simp only [not_forall] at early
    obtain ⟨stage, member, different⟩ := early
    simp only [here, Option.some.injEq] at stepped
    subst stepped
    exact ⟨_, anyRun_resume (step_resume_syncWoken running rfl),
      not_waitedFor_of_watching rfl member different⟩

theorem endSync_releases {next : StartUp} (sound : Sound entries assertions state)
    (impatient : ¬ state.Patient assertions (.endSync index))
    (stepped : state.step entries assertions (.endSync index) = some next) :
    ∃ later, AnyRun entries assertions next later ∧ ¬ later.WaitedFor entries := by
  have running := running_of_step stepped
  unfold step at stepped
  rw [if_neg (by rw [running]; exact Bool.false_ne_true)] at stepped
  dsimp only at stepped
  obtain ⟨last, early⟩ := Classical.not_imp.mp impatient
  split at stepped
  · rename_i found
    obtain rfl := Option.some.inj stepped
    have here := sound.caller_of_sync (List.mem_of_getElem? found) (by decide)
    have waiting : .spawned ∈ state.syncs.set index .ended :=
      mem_set_of_ne (not_not.mp early) found (by decide) _
    have woken : state.countDown.caller = .syncWoken := by
      unfold countDown
      dsimp only
      rw [if_pos ⟨by omega, here⟩]
    exact ⟨_, anyRun_resume (step_resume_syncWoken running woken),
      not_waitedFor_of_watching rfl waiting (by decide)⟩
  · cases stepped

theorem resume_releases {next : StartUp} (impatient : ¬ state.Patient assertions .resume)
    (stepped : state.step entries assertions .resume = some next) :
    ∃ later, AnyRun entries assertions next later ∧ ¬ later.WaitedFor entries := by
  obtain ⟨here, early⟩ := Classical.not_imp.mp impatient
  obtain ⟨stays, shuttingDown⟩ := not_or.mp early
  rw [step_resume_loginWoken (running_of_step stepped) here
    (Bool.eq_false_iff.mpr stays)] at stepped
  obtain rfl := Option.some.inj stepped
  exact ⟨_, Relation.ReflTransGen.refl,
    not_waitedFor_of_enterSync (not_not.mp shuttingDown) LoginStage.noConfusion⟩

theorem Sound.releases {next : StartUp} {label : StartUpLabel}
    (sound : Sound entries assertions state) (impatient : ¬ state.Patient assertions label)
    (stepped : state.step entries assertions label = some next) :
    ∃ later, AnyRun entries assertions next later ∧ ¬ later.WaitedFor entries := by
  cases label with
  | expire => exact expire_releases impatient stepped
  | endSync index => exact endSync_releases sound impatient stepped
  | resume => exact resume_releases impatient stepped
  | beginLogin index => exact absurd trivial impatient
  | connected index => exact absurd trivial impatient
  | loggedIn index rs => exact absurd trivial impatient
  | closed index => exact absurd trivial impatient
  | failLogin index => exact absurd trivial impatient
  | beginSync index => exact absurd trivial impatient
  | failSync index => exact absurd trivial impatient

/-! ### Whole runs -/

variable (entries assertions) in
abbrev PatientRun : StartUp → StartUp → Prop :=
  Runs.Run (StartUp.step entries assertions) fun state label => state.Patient assertions label

theorem sound_of_run (run : PatientRun entries assertions {} state) :
    Sound entries assertions state :=
  Runs.invariant_of_run run (sound_initial entries assertions)
    (fun _before _label _after sound patient stepped => sound.step patient stepped)

/-- In a run of patient steps nobody is released early, and after any other step
somebody can be. -/
theorem callers_wait (run : PatientRun entries assertions {} state) :
    state.WaitedFor entries ∧
      ∀ label next, state.step entries assertions label = some next →
        ¬ state.Patient assertions label →
          ∃ later, AnyRun entries assertions next later ∧ ¬ later.WaitedFor entries := by
  have sound := sound_of_run run
  exact ⟨sound.waitedFor, fun _label _next stepped impatient =>
    sound.releases impatient stepped⟩

end Kept

def sampleLabels : List StartUpLabel :=
  [.beginLogin 0, .connected 0, .loggedIn 0 sampleAccount, .closed 0, .beginLogin 1,
    .connected 1, .loggedIn 1 sampleAccount, .closed 1, .resume, .beginSync 0, .endSync 0,
    .resume]

theorem callers_wait_sample :
    ∃ state : StartUp, state.caller = .watching ∧ state.syncs = [.ended] ∧
      state.WaitedFor [sampleEntry] := by
  let state := (Runs.replay (step [sampleEntry] true) {} sampleLabels).get (by decide)
  have run : PatientRun [sampleEntry] true {} state := by
    apply Runs.run_of_along (Option.some_get _).symm
    exact ⟨trivial, trivial, trivial, trivial, trivial, trivial, trivial, trivial,
      fun _woken => Or.inr (by decide), trivial, fun _last => by decide,
      fun woken => absurd woken (by decide), trivial⟩
  exact ⟨state, by decide, by decide, (callers_wait run).1⟩

/-- Both logins have called `onDone`, and `login` returns while both connections
are being shut down. -/
theorem login_returns_early :
    ∃ state : StartUp, AnyRun [sampleEntry] true {} state ∧ state.caller = .syncing ∧
      state.logins = [.closing, .closing] ∧ ¬ state.WaitedFor [sampleEntry] := by
  let labels : List StartUpLabel :=
    [.beginLogin 0, .beginLogin 1, .connected 0, .connected 1, .loggedIn 0 sampleAccount,
      .loggedIn 1 sampleAccount, .resume]
  let state := (Runs.replay (step [sampleEntry] true) {} labels).get (by decide)
  have run : AnyRun [sampleEntry] true {} state :=
    Runs.run_of_replay_get _ (fun _label _member _state => trivial)
  have logins : state.logins = [.closing, .closing] := by decide
  have caller : state.caller = .syncing := by decide
  refine ⟨state, run, caller, logins, ?_⟩
  intro waited
  have allOver := (waited.logins (by rw [caller]; decide) (by rw [caller]; decide)).1 .closing
  rw [logins] at allOver
  exact LoginStage.noConfusion (allOver List.mem_cons_self)

end StartUp

end Cdnalizerd
