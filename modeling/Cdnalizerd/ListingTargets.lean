/-
The targets of the requests that list a container.

`doGetEntries` has no container among its parameters, and hands its extra
parameters to `getPages` where that expects one.  What `doGetPages` then puts
together ends in the prefix, unencoded, and without any extra parameters.
-/

import Cdnalizerd.ListingPages
import Cdnalizerd.UrlTargets
import Cdnalizerd.Library.QueryStrings

namespace Cdnalizerd

open Library Traced PercentCoding

/-! ### The layers above `doGetPages` -/

section Layers

variable (library : JsonLibrary) (server : ListServer)

def getPages (payload : Payload library) (baseURL : URL)
    (prefixParam container extraParams : Bytes) (rounds : Nat) : ListRun payload Bool :=
  doGetPages payload server baseURL prefixParam container extraParams rounds

/-- The pages that `doGetEntries` goes through; the last parameter of `getPages`
is left at its default. -/
def doGetEntries (baseURL : URL) (prefixParam extraParams : Bytes) (rounds : Nat) :
    ListRun (vectorOfStrings library) Bool :=
  getPages library server (vectorOfStrings library) baseURL prefixParam extraParams [] rounds

/-- The template behind `listContainer` and `detailedListContainer`. -/
def listContainerWith (rs : Rackspace) (entry : ConfigEntry) (restrictToRemoteDir : Bool)
    (extraParams : Bytes) (rounds : Nat) :
    Except Failure (ListRun (vectorOfStrings library) Bool) := do
  let baseURL ← rs.getURL entry.region entry.snet
  let prefixParam := if restrictToRemoteDir && !entry.remoteDir.isEmpty then entry.remoteDir else []
  return doGetEntries library server baseURL prefixParam extraParams rounds

def listContainer (rs : Rackspace) (entry : ConfigEntry) (extraParams : Bytes) (rounds : Nat) :
    Except Failure (ListRun (vectorOfStrings library) Bool) :=
  listContainerWith library server rs entry true extraParams rounds

end Layers

/-! ### What a target asks for -/

def ampersand : UInt8 := 38

def equalsSign : UInt8 := 61

def targetPath (target : Bytes) : Bytes :=
  target.takeWhile (· ≠ question)

def targetQuery (target : Bytes) : Bytes :=
  (target.dropWhile (· ≠ question)).drop 1

/-- Extra parameters may bring the separator that stands before them. -/
def extraParameters : Bytes → List (List Bytes)
  | [] => []
  | first :: rest =>
      parameters ampersand equalsSign (if first = ampersand then rest else first :: rest)

/-- The target is the listing of the entry's container, from a marker on. -/
structure TargetsListing (base : URL) (entry : ConfigEntry) (extraParams : Bytes)
    (marker : Option Bytes) (target : Bytes) : Prop where
  path : targetPath target = base.path ++ slash :: entry.container
  query : (parameters ampersand equalsSign (targetQuery target)).Perm
    ([[text "limit", text (toString limit)]] ++
      marker.toList.map (fun name => [text "marker", name]) ++
      [[text "prefix", entry.remoteDir]] ++ extraParameters extraParams)

def lastName (trace : List (ListAction (List Bytes))) : Option Bytes :=
  (pushedPages trace).getLast?.bind List.getLast?

/-- Every request of every run is for the listing of the entry's container. -/
def EachTargetsListing (library : JsonLibrary) (server : ListServer) (rs : Rackspace)
    (base : URL) (entry : ConfigEntry) (extraParams : Bytes) : Prop :=
  ∀ rounds run before request after,
    listContainer library server rs entry extraParams rounds = .ok run →
      run.trace = before ++ .requested request :: after →
        TargetsListing base entry extraParams (lastName before) request.target

/-- Nothing has to be named or escaped but the prefix, and that is plain. -/
structure NothingMisplaced (entry : ConfigEntry) (extraParams : Bytes) : Prop where
  container : entry.container = []
  extraParams : extraParams = []
  remoteDir : entry.remoteDir ≠ []
  ampersand : ampersand ∉ entry.remoteDir
  equalsSign : equalsSign ∉ entry.remoteDir
  plain : decode entry.remoteDir = entry.remoteDir

/-! ### The only request -/

section Requests

variable (library : JsonLibrary) {server : ListServer} {rs : Rackspace} {base : URL}
  {entry : ConfigEntry}

/-- The second lambda leaves the count at one, so one round is all there is. -/
theorem trace_of_strings (answer : ListRequest → Except ListFailure ListReply)
    (request : ListRequest) (rounds : Nat) :
    ∃ pages : List (List Bytes),
      (listRounds (vectorOfStrings library) answer request (rounds + 1)).trace =
        .requested request :: pages.map ListAction.pushed := by
  unfold listRounds
  rw [emit_bind]
  cases answer request with
  | error reason => exact ⟨[], rfl⟩
  | ok reply =>
      rw [ask_ok_bind]
      unfold takePage
      split
      · change ∃ pages : List (List Bytes), _ ::
          (pushBody (vectorOfStrings library) request.marker reply.body >>= _).trace = _
        unfold pushBody
        cases converted : (vectorOfStrings library).ofJson (library.ofString reply.body) with
        | error reason => exact ⟨[], rfl⟩
        | ok page => exact ⟨[page], rfl⟩
      · split
        · exact ⟨[], rfl⟩
        · exact ⟨[], rfl⟩

def soleRequest (base : URL) (entry : ConfigEntry) (extraParams : Bytes) : ListRequest where
  baseURL := base
  prefixParam := entry.remoteDir
  container := extraParams
  extraParams := []
  marker := []

theorem restricted_prefix (remoteDir : Bytes) :
    (if true && !remoteDir.isEmpty then remoteDir else []) = remoteDir := by
  cases remoteDir <;> rfl

theorem trace_of_listContainer (found : rs.getURL entry.region entry.snet = .ok base)
    (connected : server.connect base.host = .ok ()) (extraParams : Bytes) (rounds : Nat) :
    ∃ run, listContainer library server rs entry extraParams (rounds + 1) = .ok run ∧
      ∃ pages : List (List Bytes), run.trace =
        .requested (soleRequest base entry extraParams) :: pages.map ListAction.pushed := by
  obtain ⟨pages, trace⟩ := trace_of_strings library server.answer
    (soleRequest base entry extraParams) rounds
  refine ⟨doGetEntries library server base entry.remoteDir extraParams (rounds + 1), ?_,
    pages, ?_⟩
  · unfold listContainer listContainerWith
    rw [found, restricted_prefix]
    rfl
  · rw [← trace]
    unfold doGetEntries getPages doGetPages
    rw [connected]
    rfl

theorem requested_of_split {page : Type} {sole request : ListRequest} {pages : List page}
    {before after : List (ListAction page)}
    (split : .requested sole :: pages.map ListAction.pushed =
      before ++ .requested request :: after) :
    request = sole ∧ before = [] := by
  cases before with
  | nil =>
      injection split with head _rest
      injection head with same
      exact ⟨same.symm, rfl⟩
  | cons first others =>
      injection split with _first rest
      have member : ListAction.requested request ∈ pages.map ListAction.pushed := by
        rw [rest]
        exact List.mem_append_right others List.mem_cons_self
      obtain ⟨page, _pushed, wrong⟩ := List.mem_map.mp member
      cases wrong

theorem each_targets_iff_sole (found : rs.getURL entry.region entry.snet = .ok base)
    (connected : server.connect base.host = .ok ()) (extraParams : Bytes) :
    EachTargetsListing library server rs base entry extraParams ↔
      TargetsListing base entry extraParams none (soleRequest base entry extraParams).target := by
  constructor
  · intro each
    obtain ⟨run, listed, pages, trace⟩ :=
      trace_of_listContainer library found connected extraParams 0
    exact each 1 run [] _ _ listed trace
  · intro targets rounds run before request after listed split
    cases rounds with
    | zero =>
        unfold listContainer listContainerWith at listed
        rw [found] at listed
        obtain rfl := Except.ok.inj listed
        unfold doGetEntries getPages doGetPages at split
        rw [connected] at split
        cases List.append_ne_nil_of_right_ne_nil before (List.cons_ne_nil _ _) split.symm
    | succ rounds =>
        obtain ⟨sole, soleListed, pages, trace⟩ :=
          trace_of_listContainer library found connected extraParams rounds
        obtain rfl := Except.ok.inj (soleListed.symm.trans listed)
        obtain ⟨rfl, rfl⟩ := requested_of_split (trace.symm.trans split)
        exact targets

/-! ### When its target is right -/

/-- What `doGetPages` sends behind the question mark in the first round. -/
def sentQuery (prefixParam : Bytes) : Bytes :=
  text "limit=10001" ++
    if prefixParam ≠ [] then ampersand :: (text "prefix" ++ equalsSign :: prefixParam) else []

theorem target_of_soleRequest (extraParams : Bytes) :
    (soleRequest base entry extraParams).target =
      base.path ++ slash :: extraParams ++ question :: sentQuery entry.remoteDir := by
  have opening : text "?limit=" ++ text (toString limit) = question :: text "limit=10001" := by
    decide
  have joint : text "&prefix=" = ampersand :: (text "prefix" ++ [equalsSign]) := by
    decide
  unfold ListRequest.target soleRequest sentQuery
  rw [joint]
  simp only [ne_eq, not_true_eq_false, if_false, List.append_nil]
  rw [List.append_assoc _ (text "?limit="), opening]
  split <;> simp

theorem targetPath_append {before after : Bytes} (questionless : question ∉ before) :
    targetPath (before ++ question :: after) = before := by
  unfold targetPath
  rw [List.takeWhile_append_of_pos]
  · simp
  · intro byte member
    apply decide_eq_true
    rintro rfl
    exact questionless member

theorem targetQuery_append {before after : Bytes} (questionless : question ∉ before) :
    targetQuery (before ++ question :: after) = after := by
  unfold targetQuery
  rw [dropWhile_ne_append questionless, List.dropWhile_cons_of_neg (by simp)]
  rfl

theorem parameters_sentQuery (remoteDir : Bytes) :
    parameters ampersand equalsSign (sentQuery remoteDir) =
      [[text "limit", text (toString limit)]] ++
        if remoteDir ≠ [] then
          parameters ampersand equalsSign (text "prefix" ++ equalsSign :: remoteDir)
        else [] := by
  have limited : parameters ampersand equalsSign (text "limit=10001") =
      [[text "limit", text (toString limit)]] := by
    decide
  unfold sentQuery
  split
  · rw [parameters_append, limited]
  · rw [List.append_nil, limited]
    rfl

theorem weight_sentQuery_le (remoteDir : Bytes) :
    weight (parameters ampersand equalsSign (sentQuery remoteDir)) ≤ 20 + remoteDir.length ∧
      (remoteDir = [] →
        weight (parameters ampersand equalsSign (sentQuery remoteDir)) < 20) := by
  have limited : weight [[text "limit", text (toString limit)]] = 12 := by decide
  rw [parameters_sentQuery, weight_append, limited]
  split
  · rename_i nonempty
    refine ⟨?_, fun empty => absurd empty nonempty⟩
    have shorter := length_decode_le remoteDir
    have named : (decode (text "prefix")).length = 6 := by decide
    rw [weight_parameters (by decide) (by decide), decode_append_separator (by decide),
      List.length_append, List.length_cons, named]
    omega
  · have nothing : weight [] = 0 := rfl
    rw [nothing]
    constructor
    · omega
    · intro _empty
      omega

theorem weight_extraParameters {extraParams : Bytes} (nonempty : extraParams ≠ []) :
    ∃ cut : Bytes, weight (extraParameters extraParams) = (decode cut).length + 1 ∧
      ∀ before after, extraParams = before ++ question :: after →
        ∃ front, cut = front ++ question :: after := by
  cases extraParams with
  | nil => exact absurd rfl nonempty
  | cons first rest =>
      refine ⟨if first = ampersand then rest else first :: rest,
        weight_parameters (by decide) (by decide) _, ?_⟩
      intro before after split
      by_cases brought : first = ampersand
      · rw [if_pos brought]
        cases before with
        | nil =>
            rw [brought] at split
            exact absurd (List.cons.inj split).1 (by decide)
        | cons byte front => exact ⟨front, (List.cons.inj split).2⟩
      · rw [if_neg brought]
        exact ⟨before, split⟩

theorem weight_expected (remoteDir : Bytes) (extra : List (List Bytes)) :
    weight ([[text "limit", text (toString limit)]] ++
      (none : Option Bytes).toList.map (fun name => [text "marker", name]) ++
      [[text "prefix", remoteDir]] ++ extra) = 20 + remoteDir.length + weight extra := by
  have unmarked : weight ((none : Option Bytes).toList.map
      fun name => [text "marker", name]) = 0 := rfl
  have keys : (text "limit").length = 5 ∧ (text (toString limit)).length = 5 ∧
      (text "prefix").length = 6 := by
    decide
  rw [weight_append, weight_append, weight_append, weight_pair, weight_pair, unmarked, keys.1,
    keys.2.1, keys.2.2]
  omega

/-- No target with a question mark in the container's place is right: what the
extra parameters ask for beyond it is missing. -/
theorem not_targets_of_question (questionless : question ∉ base.path) {extraParams : Bytes}
    (member : question ∈ extraParams) :
    ¬ TargetsListing base entry extraParams none (soleRequest base entry extraParams).target := by
  intro targets
  obtain ⟨before, after, split, first⟩ := List.eq_append_cons_of_mem member
  have front : question ∉ base.path ++ slash :: before := by
    have different : question ≠ slash := by decide
    simp [questionless, first, different]
  have target : (soleRequest base entry extraParams).target =
      (base.path ++ slash :: before) ++
        question :: (after ++ question :: sentQuery entry.remoteDir) := by
    rw [target_of_soleRequest, split]
    simp
  obtain ⟨cut, extraWeight, cuts⟩ := weight_extraParameters (List.ne_nil_of_mem member)
  obtain ⟨rest, rfl⟩ := cuts before after split
  have weights := weight_perm targets.query
  rw [target, targetQuery_append front, weight_expected, extraWeight,
    weight_parameters (by decide) (by decide), decode_append_separator (by decide),
    decode_append_separator (by decide)] at weights
  have sent := (weight_sentQuery_le entry.remoteDir).1
  rw [weight_parameters (by decide) (by decide)] at sent
  simp only [List.length_append, List.length_cons] at weights
  omega

theorem targets_iff_of_no_question (questionless : question ∉ base.path) {extraParams : Bytes}
    (absent : question ∉ extraParams) :
    TargetsListing base entry extraParams none (soleRequest base entry extraParams).target ↔
      NothingMisplaced entry extraParams := by
  have front : question ∉ base.path ++ slash :: extraParams := by
    have different : question ≠ slash := by decide
    simp [questionless, absent, different]
  have pathIs : targetPath (soleRequest base entry extraParams).target =
      base.path ++ slash :: extraParams := by
    rw [target_of_soleRequest, targetPath_append front]
  have queryIs : targetQuery (soleRequest base entry extraParams).target =
      sentQuery entry.remoteDir := by
    rw [target_of_soleRequest, targetQuery_append front]
  have pair := @parameters_pair_iff ampersand equalsSign (text "prefix") entry.remoteDir
    (by decide) (by decide) (by decide) (by decide)
  constructor
  · intro ⟨path, query⟩
    rw [queryIs] at query
    have weights := weight_perm query
    rw [weight_expected] at weights
    have sent := weight_sentQuery_le entry.remoteDir
    have noExtra : extraParams = [] := by
      by_contra nonempty
      obtain ⟨cut, extraWeight, _cuts⟩ := weight_extraParameters nonempty
      omega
    have nonempty : entry.remoteDir ≠ [] := by
      intro empty
      have less := sent.2 empty
      omega
    rw [noExtra, parameters_sentQuery, if_pos nonempty] at query
    have single := List.perm_singleton.mp ((List.perm_append_left_iff _).mp query)
    obtain ⟨noAmpersand, noEquals, plain⟩ := pair.mp single
    rw [pathIs, noExtra] at path
    exact ⟨(List.cons.inj (List.append_cancel_left path)).2.symm, noExtra, nonempty, noAmpersand,
      noEquals, plain⟩
  · intro misplaced
    constructor
    · rw [pathIs, misplaced.container, misplaced.extraParams]
    · rw [queryIs, misplaced.extraParams, parameters_sentQuery, if_pos misplaced.remoteDir,
        pair.mpr ⟨misplaced.ampersand, misplaced.equalsSign, misplaced.plain⟩]
      exact List.Perm.refl _

theorem question_not_mem_of_parse {raw : Bytes} (parsed : URL.parse raw = .ok base) :
    question ∉ base.path := by
  obtain ⟨parts, rfl⟩ := mem_url_iff.mp ((parses_iff_mem_url raw).mp ⟨base, parsed⟩)
  obtain rfl := Except.ok.inj ((parse_text parts).symm.trans parsed)
  exact parts.question_not_mem_path

/-- Every listing request has the right target exactly where there is no
container to name, no extra parameter, and a prefix that needs no escape. -/
theorem listing_targets_iff (found : rs.getURL entry.region entry.snet = .ok base)
    (connected : server.connect base.host = .ok ()) (extraParams : Bytes) :
    EachTargetsListing library server rs base entry extraParams ↔
      NothingMisplaced entry extraParams := by
  have questionless := question_not_mem_of_parse (Rackspace.parse_of_getURL found)
  rw [each_targets_iff_sole library found connected]
  by_cases member : question ∈ extraParams
  · constructor
    · intro targets
      exact absurd targets (not_targets_of_question questionless member)
    · intro misplaced
      rw [misplaced.extraParams] at member
      cases member
  · exact targets_iff_of_no_question questionless member

end Requests

def unnamedContainer : ConfigEntry :=
  { sampleEntry with container := [] }

theorem listing_targets_iff_sample :
    EachTargetsListing plainJson emptyContainer.server sampleAccount sampleBase
      unnamedContainer [] := by
  have misplaced : NothingMisplaced unnamedContainer [] := by
    constructor <;> decide
  exact (listing_targets_iff plainJson (by decide) rfl []).mpr misplaced

/-- The container of a valid entry is not in the target. -/
theorem container_not_targeted :
    sampleEntry.validate = true ∧
      (soleRequest sampleBase sampleEntry []).target =
        sampleBase.path ++ text "/?limit=10001&prefix=i" ∧
      ¬ EachTargetsListing plainJson emptyContainer.server sampleAccount sampleBase
        sampleEntry [] := by
  refine ⟨by decide, by decide, ?_⟩
  intro each
  have found : sampleAccount.getURL sampleEntry.region sampleEntry.snet = .ok sampleBase := rfl
  have path := ((each_targets_iff_sole plainJson found rfl []).mp each).path
  revert path
  decide

end Cdnalizerd
