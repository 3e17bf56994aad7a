/-
What the requests of a job are made of.

A file name may hold any byte.  By the time it is part of a request it has gone
through the encoder, the joiner and the parser, and what the parser lets through
is the text of the grammar.
-/

import Cdnalizerd.DestinationStrings
import Cdnalizerd.JobAttempts
import Cdnalizerd.JobRequests
import Cdnalizerd.UrlTargets
import Cdnalizerd.WatchHandles

namespace Cdnalizerd

open Library Grammar SeparatorJoin

/-! ### The bytes of a parsed URL -/

def isTargetByte (byte : UInt8) : Bool :=
  isPathByte byte || isSearchByte byte

/-- Neither a blank nor a control byte, nothing behind ASCII, and no mark that
ends a target or begins another part of it. -/
theorem visible_of_target {byte : UInt8} (admitted : isTargetByte byte = true) :
    33 ≤ byte ∧ byte ≤ 126 ∧ byte ≠ question ∧ byte ≠ '#'.toUInt8 := by
  have table : ∀ index : Fin 256, isTargetByte (UInt8.ofNat index.val) = true →
      33 ≤ UInt8.ofNat index.val ∧ UInt8.ofNat index.val ≤ 126 ∧
        UInt8.ofNat index.val ≠ question ∧ UInt8.ofNat index.val ≠ '#'.toUInt8 := by
    decide +kernel
  obtain ⟨index, rfl⟩ := PercentCoding.exists_byte_index byte
  exact table index admitted

namespace UrlParts

variable (parts : UrlParts)

theorem path_bytes {byte : UInt8} (member : byte ∈ parts.path.getD []) :
    isTargetByte byte = true := by
  cases pathIs : parts.path with
  | none =>
      rw [pathIs] at member
      cases member
  | some path =>
      rw [pathIs] at member
      obtain ⟨_, isSlash, segments, inPath, rfl⟩ :=
        Language.mem_mul.mp (parts.path_read path pathIs)
      rw [mem_literal.mp isSlash] at member
      rw [UrlRule.hpath_eq, mem_star_oneOf] at inPath
      rcases List.mem_cons.mp member with rfl | inside
      · decide
      · exact Bool.or_eq_true_iff.mpr (Or.inl (inPath byte inside))

theorem search_bytes {byte : UInt8} (member : byte ∈ parts.search.getD []) :
    isTargetByte byte = true := by
  cases searchIs : parts.search with
  | none =>
      rw [searchIs] at member
      cases member
  | some search =>
      rw [searchIs] at member
      have read := (parts.search_read search searchIs).2
      rw [UrlRule.search_eq, mem_star_oneOf] at read
      exact Bool.or_eq_true_iff.mpr (Or.inr (read byte member))

theorem path_head {segments : Bytes} (present : parts.path = some segments) :
    segments.head? = some slash := by
  rcases parts.path_cases with ⟨absent, _noSearch⟩ | ⟨rest, same, _noQuestion⟩
  · rw [absent] at present
    cases present
  · rw [same] at present
    rw [← Option.some.inj present]
    rfl

/-- A slash behind the scheme begins the path. -/
theorem path_ne_none_of_slash (inside : slash ∈ behindScheme parts.text) :
    parts.path ≠ none := by
  intro absent
  have noSearch : parts.search = none := by
    rcases parts.path_cases with ⟨_absent, noSearch⟩ | ⟨rest, present, _noQuestion⟩
    · exact noSearch
    · rw [absent] at present
      cases present
  have empty := parts.fromPath_text
  rw [absent, noSearch] at empty
  unfold fromPath at empty
  have none := List.dropWhile_eq_nil_iff.mp empty slash inside
  exact absurd rfl (of_decide_eq_true none)

end UrlParts

/-! ### Destinations -/

section Destinations

variable {base dest : URL} {container remoteDir site : Bytes}

/-- What stands behind a name: nothing, or a slash first. -/
def Behind (behind : Bytes) : Prop :=
  behind = [] ∨ behind.head? = some slash

theorem intercalate_behind (part : Bytes) (rest : List Bytes) :
    ∃ behind, [slash].intercalate (part :: rest) = part ++ behind ∧ Behind behind ∧
      ∀ byte ∈ behind, byte = slash ∨ ∃ other ∈ rest, byte ∈ other := by
  induction rest generalizing part with
  | nil =>
      refine ⟨[], ?_, Or.inl rfl, fun _byte member => absurd member List.not_mem_nil⟩
      rw [List.intercalate_singleton, List.append_nil]
  | cons next rest ih =>
      obtain ⟨behind, joined, _begins, bytes⟩ := ih next
      refine ⟨slash :: (next ++ behind), ?_, Or.inr rfl, ?_⟩
      · rw [List.intercalate_cons_cons, joined, List.append_assoc]
        rfl
      · intro byte member
        rcases List.mem_cons.mp member with same | inside
        · exact Or.inl same
        rcases List.mem_append.mp inside with inNext | later
        · exact Or.inr ⟨next, List.mem_cons_self, inNext⟩
        · rcases bytes byte later with same | ⟨other, listed, inOther⟩
          · exact Or.inl same
          · exact Or.inr ⟨other, List.mem_cons_of_mem next listed, inOther⟩

theorem question_not_mem_copiedParts {parts : List Bytes}
    (encoded : ∀ part ∈ parts, question ∉ part) :
    ∀ part ∈ copiedParts parts, question ∉ part := by
  intro part copied
  obtain ⟨whole, kept, rfl⟩ := List.mem_map.mp copied
  have different : question ≠ slash := by decide
  rw [mem_stripSlashes_of_ne different]
  exact encoded whole (List.mem_filter.mp kept).1

def rootTail (container remoteDir : Bytes) : Bytes :=
  urlencode (stripSlashes container) ++ slash :: urlencode (stripSlashes remoteDir)

/-- Whatever the names are, those of the entry come behind the base URL, and
behind them nothing or a slash and the rest. -/
theorem destination_shape (parsed : URL.parse base.raw = .ok base)
    (named : container ≠ [] ∧ remoteDir ≠ [])
    (built : destination base container remoteDir site = .ok dest) :
    ∃ behind, Behind behind ∧ question ∉ behind ∧
      URL.parse (stripBack slash base.raw ++ slash ::
        (rootTail container remoteDir ++ behind)) = .ok dest := by
  obtain ⟨rest, rawShape⟩ := head_of_parse parsed
  have raw_ne : base.raw ≠ [] := by
    rw [rawShape]
    exact List.cons_ne_nil _ _
  have parts : (((base.append container).append remoteDir).append site).parts =
      base.raw :: urlencode container :: urlencode remoteDir :: [urlencode site] := rfl
  unfold destination URL.ofUnParsed at built
  rw [parts] at built
  by_cases alone : [slash] ∈
      base.raw :: urlencode container :: urlencode remoteDir :: [urlencode site]
  · rw [joinSlashes_slash alone] at built
    cases built
  · have copied := copiedParts_cons_of_ne_nil raw_ne
      (urlencode container :: urlencode remoteDir :: [urlencode site])
    rw [copiedParts_cons_of_ne_nil (mt (urlencode_eq_nil_iff _).mp named.1),
      copiedParts_cons_of_ne_nil (mt (urlencode_eq_nil_iff _).mp named.2),
      stripSlashes_of_parse parsed, stripSlashes_urlencode, stripSlashes_urlencode] at copied
    rw [joinSlashes_eq alone (by rw [copied]; exact List.cons_ne_nil _ _), copied] at built
    obtain ⟨behind, joined, begins, bytes⟩ := intercalate_behind
      (urlencode (stripSlashes remoteDir)) (copiedParts [urlencode site])
    rw [List.intercalate_cons_cons, List.intercalate_cons_cons, joined, List.append_assoc,
      List.append_assoc] at built
    refine ⟨behind, begins, ?_, ?_⟩
    · intro inside
      rcases bytes question inside with wrong | ⟨part, copiedPart, inPart⟩
      · exact absurd wrong (by decide)
      · apply question_not_mem_copiedParts _ part copiedPart inPart
        intro whole listed
        rw [List.mem_singleton.mp listed]
        exact question_not_mem_urlencode site
    · unfold rootTail
      rw [List.append_assoc]
      exact built

theorem stripBack_append {front back : Bytes} (nonempty : back ≠ []) :
    stripBack slash (front ++ back) = front ++ stripBack slash back := by
  unfold stripBack
  rw [List.getLast?_append_of_ne_nil front nonempty]
  split
  · exact List.dropLast_append_of_ne_nil nonempty
  · rfl

/-- The slash behind the base URL is behind its scheme. -/
theorem slash_behind_scheme (parsed : URL.parse base.raw = .ok base) (tail : Bytes) :
    slash ∈ behindScheme (stripBack slash base.raw ++ slash :: tail) := by
  obtain ⟨parts, text⟩ := mem_url_iff.mp ((parses_iff_mem_url base.raw).mp ⟨base, parsed⟩)
  have split : base.raw = parts.scheme ++ (parts.loginText ++ (parts.host ++
      (marked [colon] parts.port ++ (parts.path.getD [] ++ marked [question] parts.search)))) := by
    rw [← text]
    simp only [UrlParts.text, UrlParts.front, List.append_assoc]
  have rest_ne : parts.loginText ++ (parts.host ++ (marked [colon] parts.port ++
      (parts.path.getD [] ++ marked [question] parts.search))) ≠ [] := by
    intro empty
    exact host_ne_nil parts
      (List.append_eq_nil_iff.mp (List.append_eq_nil_iff.mp empty).2).1
  rw [split, stripBack_append rest_ne, List.append_assoc,
    UrlParts.behindScheme_scheme parts.scheme_read]
  exact List.mem_append_right _ List.mem_cons_self

/-- A destination of an accepted base URL has a path and a host of the right
bytes. -/
theorem destination_parts (parsed : URL.parse base.raw = .ok base)
    (named : container ≠ [] ∧ remoteDir ≠ [])
    (built : destination base container remoteDir site = .ok dest) :
    ∃ parts : UrlParts, dest = parts.parsed ∧ parts.path ≠ none := by
  obtain ⟨_behind, _begins, _questionless, accepted⟩ :=
    destination_shape parsed named built
  have raw := parse_raw accepted
  obtain ⟨parts, text⟩ := mem_url_iff.mp ((parses_iff_mem_url _).mp ⟨dest, accepted⟩)
  rw [← text] at accepted
  refine ⟨parts, Except.ok.inj (accepted.symm.trans (parse_text parts)), ?_⟩
  apply parts.path_ne_none_of_slash
  rw [text]
  exact slash_behind_scheme parsed _

end Destinations

/-! ### Every request that is queued for -/

/-- A request line that is one line, whatever it was put together from: the target
holds neither blanks nor control bytes, and begins no query and no fragment. -/
structure CleanRequest (request : HttpRequest) : Prop where
  target_head : request.target.head? = some slash
  target_bytes : ∀ byte ∈ request.target,
    33 ≤ byte ∧ byte ≤ 126 ∧ byte ≠ question ∧ byte ≠ '#'.toUInt8
  host_ne_nil : request.host ≠ []
  host_bytes : ∀ byte ∈ request.host, isHostByte byte = true
  etag : ∀ etag, request.etag = some etag → IsDigestText etag

theorem clean_of_parts (parts : UrlParts) (present : parts.path ≠ none) {source token : Bytes}
    {request : HttpRequest} (sent : SentFor source parts.parsed token request) :
    CleanRequest request := by
  obtain ⟨path, pathIs⟩ := Option.ne_none_iff_exists'.mp present
  have head : parts.parsed.path.head? = some slash := by
    change (parts.path.getD []).head? = some slash
    rw [pathIs]
    exact parts.path_head pathIs
  have joined : parts.parsed.pathAndSearch = parts.parsed.path ++ parts.search.getD [] := rfl
  have hostRead := parts.host_read
  rw [UrlRule.host_eq, mem_plus_oneOf] at hostRead
  cases sent with
  | put size digested =>
      refine ⟨?_, ?_, hostRead.1, hostRead.2, fun etag same => Option.some.inj same ▸ digested⟩
      · change parts.parsed.pathAndSearch.head? = some slash
        rw [joined, List.head?_append, head]
        rfl
      · intro byte member
        change byte ∈ parts.parsed.pathAndSearch at member
        rw [joined] at member
        rcases List.mem_append.mp member with inPath | inSearch
        · exact visible_of_target (parts.path_bytes inPath)
        · exact visible_of_target (parts.search_bytes inSearch)
  | head =>
      exact ⟨head, fun byte member => visible_of_target (parts.path_bytes member), hostRead.1,
        hostRead.2, fun etag impossible => by cases impossible⟩
  | delete =>
      exact ⟨head, fun byte member => visible_of_target (parts.path_bytes member), hostRead.1,
        hostRead.2, fun etag impossible => by cases impossible⟩

section Queued

variable {rs : Rackspace} {entry : ConfigEntry} {job : Job}

/-- A job whose URL was put together from an endpoint and one configuration
entry. -/
def BuiltFor (rs : Rackspace) (entry : ConfigEntry) (job : Job) : Prop :=
  ∃ base site, rs.getURL entry.region entry.snet = .ok base ∧
    destination base entry.container entry.remoteDir site = .ok job.destination

theorem clean_of_built (valid : entry.validate = true) (built : BuiltFor rs entry job)
    {token : Bytes} {around : AttemptSurroundings} {request : HttpRequest}
    (sent : Observation.sent request ∈ (job.go token around).trace) : CleanRequest request := by
  obtain ⟨base, site, found, joined⟩ := built
  obtain ⟨parts, same, present⟩ := destination_parts (Rackspace.parse_of_getURL found)
    (ConfigEntry.names_ne_nil_of_validate valid) joined
  have sentFor := sentFor_of_job sent
  rw [same] at sentFor
  exact clean_of_parts parts present sentFor

theorem built_of_sync {around : SyncSurroundings}
    (member : Request.addJob job ∈ (syncOneConfigEntry around rs entry).trace) :
    BuiltFor rs entry job := by
  have requested := member
  unfold syncOneConfigEntry syncWith at member
  obtain ⟨base, found, afterURL⟩ := Traced.mem_ask_bind_iff.mp member
  obtain ⟨_unit, connected, afterConnect⟩ := Traced.mem_ask_bind_iff.mp afterURL
  obtain ⟨listed, enumerated, later⟩ := Traced.mem_ask_bind_iff.mp afterConnect
  split at later
  · cases later
  · rename_i nonempty
    rw [sync_eq_syncFiles found connected enumerated nonempty] at requested
    rcases mem_syncFiles_iff.mp requested with walked | ⟨state, _walked, _ended, left⟩
    · obtain ⟨file, _fileMember, remote, _remoteMember, inBody⟩ := TwoCursors.mem_run walked
      obtain ⟨_regular, _filled, relative, _located, queued⟩ := mem_mergeBody inBody
      exact ⟨base, slash :: relative, found, destination_of_queued queued⟩
    · obtain ⟨file, _fileMember, inBody⟩ := Traced.mem_each left
      rcases mem_uploadLeftOver inBody with wrong | ⟨relative, _located, queued⟩
      · cases wrong
      · exact ⟨base, relative, found, destination_of_queued queued⟩

end Queued

/-! ### The jobs of the event loop -/

namespace Daemon

variable {tree : LocalTree} {kernel : Bytes → Except Nat Nat} {entries : List ConfigEntry}
  {daemon next : Daemon} {entry : ConfigEntry} {path : Bytes} {accounts : AccountCache}
  {around : EventSurroundings} {event : Event} {located : Located} {job : Job}

/-- Every watch has its entry, and the entry is one of the configuration. -/
structure ConfiguredFrom (entries : List ConfigEntry) (daemon : Daemon) : Prop where
  aligned : daemon.Aligned
  known : ∀ handle entry, daemon.watchToConfig handle = some entry → entry ∈ entries

theorem ConfiguredFrom.watchNewDirectory (configured : ConfiguredFrom entries daemon)
    (member : entry ∈ entries)
    (returned : (watchNewDirectory kernel entry daemon path).result = .ok next) :
    ConfiguredFrom entries next := by
  refine ⟨configured.aligned.watchNewDirectory returned, ?_⟩
  unfold Cdnalizerd.watchNewDirectory at returned
  split at returned
  · rw [← Except.ok.inj returned]
    exact configured.known
  · obtain ⟨outcome, _added, entered⟩ := Traced.bind_result_eq_ok_iff.mp returned
    rw [← Except.ok.inj entered]
    intro handle other found
    by_cases same : handle = outcome.2
    · dsimp only at found
      rw [same, Function.update_self] at found
      exact Option.some.inj found ▸ member
    · dsimp only at found
      rw [Function.update_of_ne same] at found
      exact configured.known handle other found

theorem ConfiguredFrom.watchIfDirectory (configured : ConfiguredFrom entries daemon)
    (member : entry ∈ entries)
    (returned : (watchIfDirectory tree kernel entry daemon path).result = .ok next) :
    ConfiguredFrom entries next := by
  obtain ⟨directory, _asked, later⟩ := Traced.bind_result_eq_ok_iff.mp returned
  cases directory with
  | true => exact configured.watchNewDirectory member later
  | false =>
      rw [← Except.ok.inj later]
      exact configured

theorem ConfiguredFrom.recursivelyWatchDirectory (configured : ConfiguredFrom entries daemon)
    (member : entry ∈ entries)
    (returned : (recursivelyWatchDirectory tree kernel daemon entry).result = .ok next) :
    ConfiguredFrom entries next := by
  obtain ⟨rooted, root, afterRoot⟩ := Traced.bind_result_eq_ok_iff.mp returned
  obtain ⟨found, _listed, below⟩ := Traced.bind_result_eq_ok_iff.mp afterRoot
  exact Traced.foldlM_invariant
    (fun _path _current _next kept => kept.watchIfDirectory member)
    (configured.watchNewDirectory member root) below

theorem configuredFrom_of_createINotifyWatches
    (returned : (createINotifyWatches tree kernel entries).result = .ok daemon) :
    ConfiguredFrom entries daemon := by
  have initially : ConfiguredFrom entries {} :=
    ⟨aligned_initial, fun _handle _entry found => by cases found⟩
  exact @Traced.foldlM_rule Failure WatchAction ConfigEntry Daemon
    (fun _done current _performed => ConfiguredFrom entries current) _ _ _
    (fun _done _entry _current _performed _next member kept returned =>
      kept.recursivelyWatchDirectory member returned) {} [] initially returned

/-- The entry, the account and the endpoint of every event that is dispatched. -/
theorem ConfiguredFrom.locate (configured : ConfiguredFrom entries daemon)
    (returned : (locate accounts around daemon event).result = .ok (next, located)) :
    next = daemon ∧ located.entry ∈ entries ∧
      ∃ rs, accounts located.entry.username = some rs ∧
        rs.getURL located.entry.region located.entry.snet = .ok located.url := by
  obtain ⟨same, entry, found⟩ := configured.aligned.locate returned
  obtain ⟨path, _watched, afterPath⟩ := Traced.bind_result_eq_ok_iff.mp returned
  obtain ⟨rs, login, afterLogin⟩ := Traced.bind_result_eq_ok_iff.mp afterPath
  obtain ⟨url, endpoint, afterURL⟩ := Traced.bind_result_eq_ok_iff.mp afterLogin
  obtain ⟨_unit, _emitted, afterWorker⟩ := Traced.bind_result_eq_ok_iff.mp afterURL
  obtain ⟨relative, _taken, done⟩ := Traced.bind_result_eq_ok_iff.mp afterWorker
  have entryIs : daemon.entryOf event.wd = entry := by
    unfold entryOf
    rw [found, Option.getD_some]
  rw [Traced.ask_result, findAccount_eq_ok_iff] at login
  rw [Traced.ask_result] at endpoint
  rw [← (Prod.mk.inj (Except.ok.inj done)).2]
  dsimp only
  rw [entryIs] at login endpoint ⊢
  exact ⟨same, configured.known event.wd entry found, rs, login, endpoint⟩

theorem ConfiguredFrom.dispatch (configured : ConfiguredFrom entries daemon)
    (member : located.entry ∈ entries)
    (returned : (dispatch around daemon event located).result = .ok next) :
    ConfiguredFrom entries next := by
  refine ⟨configured.aligned.dispatch returned, ?_⟩
  have unchanged {computation : Watching Unit}
      (ran : (computation >>= fun _done => pure daemon).result = .ok next) :
      ∀ handle entry, next.watchToConfig handle = some entry → entry ∈ entries := by
    obtain ⟨_unit, _ran, done⟩ := Traced.bind_result_eq_ok_iff.mp ran
    rw [← Except.ok.inj done]
    exact configured.known
  unfold Cdnalizerd.dispatch at returned
  split at returned
  · exact unchanged returned
  split at returned
  · obtain ⟨inotify, _removed, done⟩ := Traced.bind_result_eq_ok_iff.mp returned
    rw [← Except.ok.inj done]
    intro handle entry found
    dsimp only at found
    by_cases same : handle = event.wd
    · rw [same, Function.update_self] at found
      cases found
    · rw [Function.update_of_ne same] at found
      exact configured.known handle entry found
  split at returned
  · exact unchanged returned
  split at returned
  · split at returned
    · exact (configured.watchNewDirectory member returned).known
    · rw [← Except.ok.inj returned]
      exact configured.known
  · rw [← Except.ok.inj returned]
    exact configured.known

theorem ConfiguredFrom.handleEvent (configured : ConfiguredFrom entries daemon)
    (returned : (handleEvent accounts around daemon event).result = .ok next) :
    ConfiguredFrom entries next := by
  obtain ⟨⟨same, located⟩, found, done⟩ := Traced.bind_result_eq_ok_iff.mp returned
  obtain ⟨rfl, member, _account⟩ := configured.locate found
  exact configured.dispatch member done

theorem request_not_mem_addWatch {request : Request} {inotify : Inotify} {mask : UInt32} :
    WatchAction.request request ∉ (inotify.addWatch kernel path mask).trace := by
  unfold Inotify.addWatch
  intro member
  split at member
  · cases member
  obtain ⟨number, _answered, later⟩ := Traced.mem_ask_bind_iff.mp member
  rcases Traced.mem_emit_bind_iff.mp later with wrong | later
  · cases wrong
  split at later
  · rcases Traced.mem_emit_bind_iff.mp later with wrong | wrong
    · cases wrong
    · cases wrong
  · cases later

theorem request_not_mem_watchNewDirectory {request : Request} :
    WatchAction.request request ∉ (watchNewDirectory kernel entry daemon path).trace := by
  unfold Cdnalizerd.watchNewDirectory
  intro member
  split at member
  · cases member
  · rcases Traced.mem_bind_iff.mp member with wrong | ⟨_outcome, _added, wrong⟩
    · exact request_not_mem_addWatch wrong
    · cases wrong

theorem request_not_mem_removeWatch {request : Request} {inotify : Inotify} {handle : Int} :
    WatchAction.request request ∉ (inotify.removeWatch handle).trace := by
  unfold Inotify.removeWatch
  intro member
  split at member
  · rcases Traced.mem_emit_bind_iff.mp member with wrong | wrong
    · cases wrong
    · cases wrong
  · cases member

/-- The branches of an event ask for nothing but a job for the file's destination. -/
theorem job_of_dispatch {request : Request}
    (member : WatchAction.request request ∈ (dispatch around daemon event located).trace) :
    ∃ job, request = .addJob job ∧ located.destination = .ok job.destination := by
  unfold Cdnalizerd.dispatch at member
  split at member
  · rcases Traced.mem_bind_iff.mp member with closed | ⟨_unit, _ran, wrong⟩
    · exact job_of_closed closed
    · cases wrong
  split at member
  · rcases Traced.mem_bind_iff.mp member with wrong | ⟨_inotify, _removed, wrong⟩
    · exact (request_not_mem_removeWatch wrong).elim
    · cases wrong
  split at member
  · rcases Traced.mem_bind_iff.mp member with deleted | ⟨_unit, _ran, wrong⟩
    · exact job_of_deleted deleted
    · cases wrong
  split at member
  · split at member
    · exact (request_not_mem_watchNewDirectory member).elim
    · cases member
  · cases member

theorem destination_of_dispatch
    (member : WatchAction.request (.addJob job) ∈ (dispatch around daemon event located).trace) :
    located.destination = .ok job.destination := by
  obtain ⟨queued, same, built⟩ := job_of_dispatch member
  exact Request.addJob.inj same ▸ built

theorem addJob_not_mem_locate :
    WatchAction.request (.addJob job) ∉ (locate accounts around daemon event).trace := by
  intro member
  obtain ⟨watched, _found, afterPath⟩ := Traced.mem_ask_bind_iff.mp member
  obtain ⟨rs, _login, afterLogin⟩ := Traced.mem_ask_bind_iff.mp afterPath
  obtain ⟨url, _endpoint, afterURL⟩ := Traced.mem_ask_bind_iff.mp afterLogin
  rcases Traced.mem_emit_bind_iff.mp afterURL with wrong | later
  · cases wrong
  · obtain ⟨relative, _taken, wrong⟩ := Traced.mem_ask_bind_iff.mp later
    cases wrong

/-- A job of the event loop is built for an entry of the configuration, with the
account of the entry's user. -/
theorem ConfiguredFrom.built (configured : ConfiguredFrom entries daemon)
    (member : WatchAction.request (.addJob job) ∈
      (Cdnalizerd.handleEvent accounts around daemon event).trace) :
    ∃ entry ∈ entries, ∃ rs, accounts entry.username = some rs ∧ BuiltFor rs entry job := by
  rcases Traced.mem_bind_iff.mp member with wrong | ⟨⟨same, located⟩, found, dispatched⟩
  · exact (addJob_not_mem_locate wrong).elim
  · obtain ⟨_same, known, rs, login, endpoint⟩ := configured.locate found
    exact ⟨located.entry, known, rs, login, located.url, located.localRelativePath, endpoint,
      destination_of_dispatch dispatched⟩

theorem ConfiguredFrom.built_of_watchLoop (configured : ConfiguredFrom entries daemon)
    {delivered : List Delivery}
    (member : WatchAction.request (.addJob job) ∈ (watchLoop accounts daemon delivered).trace) :
    ∃ entry ∈ entries, ∃ rs, accounts entry.username = some rs ∧ BuiltFor rs entry job := by
  obtain ⟨delivery, _delivered, current, kept, inside⟩ :=
    Traced.mem_foldlM (fun _delivery _current _next kept => kept.handleEvent) configured member
  exact kept.built inside

end Daemon

/-! ### All jobs -/

/-- A job that the synchronisation of an entry queues, or the event loop behind
the watches that were set up. -/
inductive QueuedBy (accounts : AccountCache) (entries : List ConfigEntry) (job : Job) : Prop where
  | sync {around : SyncSurroundings} {entry : ConfigEntry} {rs : Rackspace}
      (configured : entry ∈ entries) (login : accounts entry.username = some rs)
      (queued : Request.addJob job ∈ (syncOneConfigEntry around rs entry).trace)
  | watch {tree : LocalTree} {kernel : Bytes → Except Nat Nat} {start : Daemon}
      {delivered : List Delivery}
      (setUp : (createINotifyWatches tree kernel entries).result = .ok start)
      (queued : WatchAction.request (.addJob job) ∈ (watchLoop accounts start delivered).trace)

theorem built_of_queued {accounts : AccountCache} {entries : List ConfigEntry} {job : Job}
    (queued : QueuedBy accounts entries job) :
    ∃ entry ∈ entries, ∃ rs, accounts entry.username = some rs ∧ BuiltFor rs entry job := by
  cases queued with
  | sync configured login queued => exact ⟨_, configured, _, login, built_of_sync queued⟩
  | watch setUp queued =>
      exact (Daemon.configuredFrom_of_createINotifyWatches setUp).built_of_watchLoop queued

/-- Whatever the files are called and whatever the servers and the file system
answer, a request begins its target with a slash, and the target and the host
hold no byte that could end them. -/
theorem requests_clean {accounts : AccountCache} {entries : List ConfigEntry} {job : Job}
    (valid : ∀ entry ∈ entries, entry.validate = true)
    (queued : QueuedBy accounts entries job) {token : Bytes} {around : AttemptSurroundings}
    {request : HttpRequest} (sent : Observation.sent request ∈ (job.go token around).trace) :
    CleanRequest request := by
  obtain ⟨entry, member, rs, _login, built⟩ := built_of_queued queued
  exact clean_of_built (valid entry member) built sent

/-- A file whose name would end the request line and add a header. -/
def splittingFile : SyncSurroundings :=
  sampleSurroundings [(text "/d/a HTTP/1.1\r\nX: y", some (1, 1))] (by decide) []

theorem requests_clean_sample :
    ∃ request : HttpRequest,
      request.target = text "/v1/c/i/a%20HTTP/1.1%0D%0AX:%20y" ∧ CleanRequest request := by
  let job : Job := .upload (text "/d/a HTTP/1.1\r\nX: y") { sampleBase with
    raw := text "https://h/v1/c/i/a%20HTTP/1.1%0D%0AX:%20y"
    path := text "/v1/c/i/a%20HTTP/1.1%0D%0AX:%20y"
    pathAndSearch := text "/v1/c/i/a%20HTTP/1.1%0D%0AX:%20y" }
  have queued : QueuedBy sampleAccounts [sampleEntry] job :=
    .sync List.mem_cons_self rfl
      (by decide +kernel : Request.addJob job ∈
        (syncOneConfigEntry splittingFile sampleAccount sampleEntry).trace)
  have sent : Observation.sent (putRequest job.source job.destination (text "t")
      (hexString (Vector.replicate 16 0)) 3) ∈ (job.go (text "t") calmSurroundings).trace := by
    decide
  have clean := requests_clean (fun entry member => by
    rw [List.mem_singleton.mp member]
    decide) queued sent
  exact ⟨_, rfl, clean⟩

end Cdnalizerd
