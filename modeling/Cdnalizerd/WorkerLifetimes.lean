/-
The lifetimes of workers and of their coroutines.

A worker is a node of its URL's list, and its coroutine holds a reference to
it.  However `doWork` is left, its objects are destroyed in the reverse order, so
`OnDoneSentry` erases the node last.  Here a coroutine is resumed whether or
not its worker is still listed, and what it does to the worker is recorded.
-/

import Cdnalizerd.WorkerFailures

namespace Cdnalizerd

open Library

/-! ### Coroutines and what they touch -/

inductive WorkerAccess where
  /-- A read or a write of the worker, by `doWork` or one of its sentries. -/
  | touched (number : Nat)
  /-- `list.erase` on the worker's node, in the list of a URL. -/
  | erased (url : Bytes) (number : Nat)
deriving DecidableEq

/-- The objects of the `try` block of `doWork` that outlive a switch point. -/
inductive ScopeObject where
  | onDoneSentry
  | stateSentry
  | connection
deriving DecidableEq

/-- Those that are complete where the coroutine waits, in the order of the block. -/
def Worker.scope (worker : Worker) : List ScopeObject :=
  match worker.point with
  | .spawned => []
  -- The constructor of the connection is not done.
  | .connecting => [.onDoneSentry, .stateSentry]
  | .running _job => [.onDoneSentry, .stateSentry, .connection]
  | .reconnecting _job => [.onDoneSentry, .stateSentry, .connection]
  | .idling => [.onDoneSentry, .stateSentry, .connection]
  -- The destructor of the connection is running.
  | .closing => [.onDoneSentry, .stateSentry]

/-- `OnDoneSentry` reads `onDone` and calls it, and the state sentry writes the state. -/
def ScopeObject.destructor (url : Bytes) (number : Nat) : ScopeObject → List WorkerAccess
  | .onDoneSentry => [.touched number, .erased url number]
  | .stateSentry => [.touched number]
  | .connection => []

/-- The block is left, so what is complete of it is destroyed in the reverse order. -/
def unwind (url : Bytes) (number : Nat) (scope : List ScopeObject) : List WorkerAccess :=
  scope.reverse.flatMap (ScopeObject.destructor url number)

/-- What a coroutine does to its worker when it is resumed. -/
def Worker.accesses (url : Bytes) (number : Nat) (worker : Worker) :
    Option Worker → List WorkerAccess
  | some _resumed => [.touched number]
  | none => unwind url number worker.scope

/-- Wherever `doWork` is left, the node is erased last. -/
theorem Worker.accesses_of_gone {worker : Worker} {fails : Bool}
    (gone : (worker.resume fails).1 = none) (url : Bytes) (number : Nat) :
    worker.accesses url number none =
      [.touched number, .touched number, .erased url number] := by
  unfold accesses scope
  cases point : worker.point with
  | spawned =>
      unfold resume at gone
      rw [point] at gone
      cases gone
  | connecting => rfl
  | running job => rfl
  | reconnecting job => rfl
  | idling => rfl
  | closing => rfl

structure Lifetimes where
  pool : Pool := {}
  /-- The coroutines that were launched, with the URL of their list. -/
  launched : List (Bytes × Nat) := []
  /-- Those that have run `onDone`. -/
  done : List Nat := []
  accesses : List WorkerAccess := []

namespace Lifetimes

/-- `getWorker`, which spawns a coroutine for a new worker. -/
def getWorker (state : Lifetimes) (url : Bytes) : Lifetimes :=
  { state with
    pool := state.pool.getWorker url
    launched :=
      if (state.pool.workers url).length < maxWorkersPerURL then
        (url, state.pool.nextWorker) :: state.launched
      else state.launched }

/-- A coroutine that has not run `onDone`. -/
def Running (state : Lifetimes) (url : Bytes) (number : Nat) : Prop :=
  (url, number) ∈ state.launched ∧ number ∉ state.done

instance (state : Lifetimes) (url : Bytes) (number : Nat) :
    Decidable (state.Running url number) :=
  inferInstanceAs (Decidable (_ ∧ _))

def step (state : Lifetimes) : PoolLabel → Option Lifetimes
  | .request url none => some (state.getWorker url)
  | .request url (some job) =>
      let given := state.getWorker url
      some { given with pool := given.pool.addJob (state.pool.picked url) job }
  | .resume url number fails =>
      if state.Running url number then
        let worker := state.pool.worker number
        let outcome := worker.resume fails
        let executed := state.pool.executed ++ outcome.2.toList
        let accesses := state.accesses ++ worker.accesses url number outcome.1
        match outcome.1 with
        | some resumed =>
            some { state with
              pool := { state.pool with
                worker := Function.update state.pool.worker number resumed
                executed := executed }
              accesses := accesses }
        | none =>
            some { state with
              pool := { state.pool with
                workers := Function.update state.pool.workers url
                  ((state.pool.workers url).erase number)
                executed := executed }
              done := number :: state.done
              accesses := accesses }
      else none

def running (state : Lifetimes) (url : Bytes) : List (Bytes × Nat) :=
  state.launched.filter fun coroutine =>
    coroutine.1 = url ∧ coroutine.2 ∉ state.done

/-! ### The invariant -/

/-- The listed workers are those whose coroutines have not run `onDone`, and
what was erased was erased once and not touched again. -/
structure Sound (state : Lifetimes) : Prop where
  owns : state.pool.OwnTickets
  launched_lt : ∀ coroutine ∈ state.launched, coroutine.2 < state.pool.nextWorker
  done_lt : ∀ number ∈ state.done, number < state.pool.nextWorker
  once : (state.launched.map Prod.snd).Nodup
  listed : ∀ url number, number ∈ state.pool.workers url ↔ state.Running url number
  bound : ∀ url, (state.pool.workers url).length ≤ maxWorkersPerURL
  erased : ∀ url number, state.accesses.count (.erased url number) =
    if (url, number) ∈ state.launched ∧ number ∈ state.done then 1 else 0
  untouched : state.accesses.Pairwise fun earlier later =>
    ∀ url number, earlier = .erased url number → later ≠ .touched number

theorem sound_empty : ({} : Lifetimes).Sound where
  owns := Pool.ownTickets_empty
  launched_lt _coroutine member := absurd member List.not_mem_nil
  done_lt _number member := absurd member List.not_mem_nil
  once := List.nodup_nil
  listed _url _number := ⟨fun member => absurd member List.not_mem_nil,
    fun running => absurd running.1 List.not_mem_nil⟩
  bound _url := Nat.zero_le _
  erased _url _number := rfl
  untouched := List.Pairwise.nil

section Steps

variable {state next : Lifetimes} {url : Bytes} {number : Nat}

theorem Sound.erased_mem (sound : state.Sound)
    (member : WorkerAccess.erased url number ∈ state.accesses) : number ∈ state.done := by
  have counted := sound.erased url number
  have positive := List.count_pos_iff.mpr member
  by_contra undone
  rw [if_neg (fun both => undone both.2)] at counted
  omega

/-- A coroutine belongs to one URL. -/
theorem Sound.url_unique (sound : state.Sound) {other : Bytes}
    (first : (url, number) ∈ state.launched) (second : (other, number) ∈ state.launched) :
    url = other :=
  congrArg Prod.fst (List.inj_on_of_nodup_map sound.once first second rfl)

theorem getWorker_length (pool : Pool) (url : Bytes)
    (bound : ∀ other, (pool.workers other).length ≤ maxWorkersPerURL) (other : Bytes) :
    ((pool.getWorker url).workers other).length ≤ maxWorkersPerURL := by
  unfold Pool.getWorker
  split
  · rename_i room
    by_cases same : other = url
    · subst same
      dsimp only
      rw [Function.update_self, List.length_cons]
      omega
    · dsimp only
      rw [Function.update_of_ne same]
      exact bound other
  · exact bound other

theorem getWorker_of_room (room : (state.pool.workers url).length < maxWorkersPerURL) :
    (state.getWorker url).launched = (url, state.pool.nextWorker) :: state.launched ∧
      (state.pool.getWorker url).workers = Function.update state.pool.workers url
        (state.pool.nextWorker :: state.pool.workers url) ∧
      (state.pool.getWorker url).nextWorker = state.pool.nextWorker + 1 := by
  unfold Lifetimes.getWorker Pool.getWorker
  rw [if_pos room, if_pos room]
  exact ⟨rfl, rfl, rfl⟩

theorem getWorker_of_full (full : ¬ (state.pool.workers url).length < maxWorkersPerURL) :
    state.getWorker url = state := by
  unfold Lifetimes.getWorker Pool.getWorker
  rw [if_neg full, if_neg full]

theorem Sound.fresh (sound : state.Sound) : state.pool.nextWorker ∉ state.done :=
  fun member => Nat.lt_irrefl _ (sound.done_lt _ member)

theorem Sound.not_launched (sound : state.Sound) :
    state.pool.nextWorker ∉ state.launched.map Prod.snd := by
  intro member
  obtain ⟨coroutine, old, same⟩ := List.mem_map.mp member
  have older := sound.launched_lt coroutine old
  omega

/-- A worker that is launched is listed, and its coroutine has not run
`onDone`. -/
theorem Sound.launch (sound : state.Sound)
    (room : (state.pool.workers url).length < maxWorkersPerURL) :
    (state.getWorker url).Sound := by
  obtain ⟨launched, workers, next⟩ := getWorker_of_room room
  constructor
  · exact @Pool.OwnTickets.step _ _ (.request url none) sound.owns rfl
  · rw [launched]
    intro coroutine member
    change coroutine.2 < (state.pool.getWorker url).nextWorker
    rw [next]
    rcases List.mem_cons.mp member with rfl | old
    · exact Nat.lt_succ_self _
    · exact Nat.lt_succ_of_lt (sound.launched_lt coroutine old)
  · intro number member
    exact Nat.lt_of_lt_of_le (sound.done_lt number member)
      (state.pool.nextWorker_le_getWorker url)
  · rw [launched, List.map_cons, List.nodup_cons]
    exact ⟨sound.not_launched, sound.once⟩
  · intro other number
    have before := sound.listed other number
    unfold Running at before ⊢
    change number ∈ (state.pool.getWorker url).workers other ↔
      (other, number) ∈ (state.getWorker url).launched ∧ number ∉ state.done
    rw [workers, launched, List.mem_cons, Prod.mk.injEq]
    by_cases same : other = url
    · subst same
      rw [Function.update_self, List.mem_cons, before]
      constructor
      · rintro (rfl | old)
        · exact ⟨Or.inl ⟨rfl, rfl⟩, sound.fresh⟩
        · exact ⟨Or.inr old.1, old.2⟩
      · rintro ⟨⟨_same, rfl⟩ | old, undone⟩
        · exact Or.inl rfl
        · exact Or.inr ⟨old, undone⟩
    · rw [Function.update_of_ne same, before]
      simp only [same, false_and, false_or]
  · exact getWorker_length state.pool url sound.bound
  · intro other number
    have before := sound.erased other number
    change state.accesses.count _ =
      if (other, number) ∈ (state.getWorker url).launched ∧ number ∈ state.done then 1 else 0
    rw [before, launched]
    apply if_congr _ rfl rfl
    rw [List.mem_cons, Prod.mk.injEq]
    constructor
    · exact fun both => ⟨Or.inr both.1, both.2⟩
    · rintro ⟨⟨_same, rfl⟩ | old, ended⟩
      · exact absurd ended sound.fresh
      · exact ⟨old, ended⟩
  · exact sound.untouched

theorem Sound.getWorker (sound : state.Sound) (url : Bytes) : (state.getWorker url).Sound := by
  by_cases room : (state.pool.workers url).length < maxWorkersPerURL
  · exact sound.launch room
  · rw [getWorker_of_full room]
    exact sound

theorem Sound.pool_step {label : PoolLabel} (sound : state.Sound)
    (stepped : state.step label = some next) : state.pool.step label = some next.pool := by
  cases label with
  | request url job =>
      cases job with
      | none =>
          obtain rfl := Option.some.inj stepped
          rfl
      | some job =>
          obtain rfl := Option.some.inj stepped
          rfl
  | resume url number fails =>
      unfold step at stepped
      unfold Pool.step
      dsimp only at stepped ⊢
      split at stepped
      · rename_i running
        rw [if_pos ((sound.listed url number).mpr running)]
        split at stepped
        · rename_i resumed outcome
          obtain rfl := Option.some.inj stepped
          rw [outcome]
        · rename_i outcome
          obtain rfl := Option.some.inj stepped
          rw [outcome]
      · cases stepped

/-- What a coroutine that is still running touches was not erased. -/
theorem Sound.untouched_append (sound : state.Sound) (running : state.Running url number)
    {accesses : List WorkerAccess} (own : accesses.Pairwise fun earlier later =>
      ∀ url number, earlier = .erased url number → later ≠ .touched number)
    (alone : ∀ other, WorkerAccess.touched other ∈ accesses → other = number) :
    (state.accesses ++ accesses).Pairwise fun earlier later =>
      ∀ url number, earlier = .erased url number → later ≠ .touched number := by
  apply List.pairwise_append.mpr
  refine ⟨sound.untouched, own, ?_⟩
  rintro earlier before later after target other rfl rfl
  obtain rfl := alone other after
  exact running.2 (sound.erased_mem before)

theorem Sound.resumed (sound : state.Sound) (running : state.Running url number)
    (resumed : Worker) (executed : List Ticket)
    (owns : Pool.OwnTickets { state.pool with
      worker := Function.update state.pool.worker number resumed
      executed := executed }) :
    Sound { state with
      pool := { state.pool with
        worker := Function.update state.pool.worker number resumed
        executed := executed }
      accesses := state.accesses ++ [.touched number] } where
  owns := owns
  launched_lt := sound.launched_lt
  done_lt := sound.done_lt
  once := sound.once
  listed := sound.listed
  bound := sound.bound
  erased other index := by
    have before := sound.erased other index
    simpa [List.count_append] using before
  untouched := by
    apply sound.untouched_append running
    · exact List.pairwise_singleton _ _
    · intro other member
      exact WorkerAccess.touched.inj (List.mem_singleton.mp member)

theorem Sound.ended (sound : state.Sound) (running : state.Running url number)
    (executed : List Ticket)
    (owns : Pool.OwnTickets { state.pool with
      workers := Function.update state.pool.workers url ((state.pool.workers url).erase number)
      executed := executed }) :
    Sound { state with
      pool := { state.pool with
        workers := Function.update state.pool.workers url
          ((state.pool.workers url).erase number)
        executed := executed }
      done := number :: state.done
      accesses := state.accesses ++
        [.touched number, .touched number, .erased url number] } where
  owns := owns
  launched_lt := sound.launched_lt
  done_lt := by
    intro other member
    rcases List.mem_cons.mp member with rfl | old
    · exact sound.launched_lt _ running.1
    · exact sound.done_lt other old
  once := sound.once
  listed other index := by
    have before := sound.listed other index
    unfold Running at before ⊢
    dsimp only
    rw [List.mem_cons, not_or]
    by_cases same : other = url
    · subst same
      rw [Function.update_self, (sound.owns.listed_once other).mem_erase_iff, before]
      exact ⟨fun both => ⟨both.2.1, both.1, both.2.2⟩, fun both => ⟨both.2.1, both.1, both.2.2⟩⟩
    · rw [Function.update_of_ne same, before]
      constructor
      · intro both
        refine ⟨both.1, ?_, both.2⟩
        rintro rfl
        exact same (sound.url_unique both.1 running.1)
      · exact fun both => ⟨both.1, both.2.2⟩
  bound other := by
    dsimp only
    by_cases same : other = url
    · subst same
      rw [Function.update_self]
      exact List.length_erase_le.trans (sound.bound other)
    · rw [Function.update_of_ne same]
      exact sound.bound other
  erased other index := by
    have before := sound.erased other index
    dsimp only
    rw [List.count_append, before]
    by_cases itself : index = number
    · subst itself
      rw [if_neg (fun both => running.2 both.2)]
      by_cases same : other = url
      · subst same
        rw [if_pos ⟨running.1, List.mem_cons_self⟩]
        simp
      · rw [if_neg (fun both => same (sound.url_unique both.1 running.1))]
        simp [Ne.symm same]
    · simp [itself, Ne.symm itself]
  untouched := by
    apply sound.untouched_append running
    · simp
    · intro other member
      simpa using member

theorem Sound.step {label : PoolLabel} (sound : state.Sound)
    (stepped : state.step label = some next) : next.Sound := by
  have owns := sound.owns.step (sound.pool_step stepped)
  cases label with
  | request url job =>
      have got := sound.getWorker url
      cases job with
      | none =>
          obtain rfl := Option.some.inj stepped
          exact got
      | some job =>
          obtain rfl := Option.some.inj stepped
          exact ⟨owns, got.launched_lt, got.done_lt, got.once, got.listed, got.bound,
            got.erased, got.untouched⟩
  | resume url number fails =>
      unfold Lifetimes.step at stepped
      dsimp only at stepped
      split at stepped
      · rename_i running
        split at stepped
        · rename_i resumed outcome
          obtain rfl := Option.some.inj stepped
          rw [outcome]
          exact sound.resumed running resumed _ owns
        · rename_i outcome
          obtain rfl := Option.some.inj stepped
          rw [outcome, Worker.accesses_of_gone outcome]
          exact sound.ended running _ owns
      · cases stepped

/-- The listed workers are as many as the coroutines that have not run
`onDone`. -/
theorem Sound.length_workers (sound : state.Sound) (url : Bytes) :
    (state.pool.workers url).length = (state.running url).length := by
  have numbers : (state.pool.workers url).Perm ((state.running url).map Prod.snd) := by
    have distinct : ((state.running url).map Prod.snd).Nodup :=
      sound.once.sublist (List.filter_sublist.map Prod.snd)
    apply (List.perm_ext_iff_of_nodup (sound.owns.listed_once url) distinct).mpr
    intro number
    rw [sound.listed url number]
    unfold Running running
    simp only [List.mem_map, List.mem_filter, decide_eq_true_eq, Prod.exists]
    constructor
    · exact fun both => ⟨url, number, ⟨both.1, rfl, both.2⟩, rfl⟩
    · rintro ⟨other, index, ⟨launched, rfl, undone⟩, rfl⟩
      exact ⟨launched, undone⟩
  rw [numbers.length_eq, List.length_map]

/-- Every interleaving of requests and coroutines, whatever fails. -/
abbrev LifetimeRun : Lifetimes → Lifetimes → Prop :=
  Runs.Run step fun _state _label => True

theorem sound_of_run (run : LifetimeRun {} state) : state.Sound :=
  Runs.invariant_of_run run sound_empty
    (fun _before _label _after sound _allowed stepped => sound.step stepped)

/-- A worker is erased once, when its coroutine runs `onDone`, from the list it
was launched into, and its coroutine does not touch it afterwards. The lists
hold as many workers as there are coroutines that have not got so far. -/
theorem workers_erased_once (run : LifetimeRun {} state) :
    (∀ url number, state.accesses.count (.erased url number) =
      if (url, number) ∈ state.launched ∧ number ∈ state.done then 1 else 0) ∧
    (∀ url number before after,
      state.accesses = before ++ .erased url number :: after →
        WorkerAccess.touched number ∉ after) ∧
    ∀ url, (state.pool.workers url).length = (state.running url).length ∧
      (state.pool.workers url).length ≤ maxWorkersPerURL := by
  have sound := sound_of_run run
  refine ⟨sound.erased, ?_, fun url => ⟨sound.length_workers url, sound.bound url⟩⟩
  intro url number before after split member
  have untouched := sound.untouched
  rw [split, List.pairwise_append] at untouched
  exact (List.pairwise_cons.mp untouched.2.1).1 _ member url number rfl rfl

end Steps

/-- A connection that cannot be made, and a second worker that stays. -/
theorem workers_erased_once_sample :
    ∃ state : Lifetimes, LifetimeRun {} state ∧ state.done = [0] ∧
      state.accesses.count (.erased (text "u") 0) = 1 ∧
      (state.pool.workers (text "u")).length = 1 := by
  let labels : List PoolLabel :=
    [.request (text "u") none, .request (text "u") none, .resume (text "u") 0 false,
      .resume (text "u") 0 true]
  let state := (Runs.replay step {} labels).get (by decide)
  have run : LifetimeRun {} state :=
    Runs.run_of_replay_get _ (fun _label _member _state => trivial)
  obtain ⟨erased, _untouched, listed⟩ := workers_erased_once run
  refine ⟨state, run, by decide, ?_, ?_⟩
  · rw [erased]
    decide
  · rw [(listed (text "u")).1]
    decide

end Lifetimes

end Cdnalizerd
