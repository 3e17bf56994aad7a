/-
The string a destination is parsed from.

Percent coding loses nothing and writes printable bytes only.  The joiner
writes a slash behind every string that is not empty and takes the last one
away, so a string that consists of slashes shows in the result.
-/

import Cdnalizerd.FileNames
import Cdnalizerd.MainProcess
import Cdnalizerd.SyncJobs

namespace Cdnalizerd

open Library SeparatorJoin

/-! ### The bytes of an encoded path -/

def hash : UInt8 := 35

/-- A printable ASCII byte that opens neither a search nor a fragment and is no
space. -/
def isAddressByte (byte : UInt8) : Bool :=
  32 < byte && byte < 127 && byte ≠ question && byte ≠ hash

private theorem literal_address_table : ∀ index : Fin 256,
    isLiteral (UInt8.ofNat index.val) = true →
      isAddressByte (UInt8.ofNat index.val) = true := by
  decide +kernel

private theorem digit_address_table : ∀ index : Fin 256,
    PercentCoding.isUpperDigit (UInt8.ofNat index.val) = true →
      isAddressByte (UInt8.ofNat index.val) = true := by
  decide +kernel

theorem isAddressByte_of_encoded {bytes : Bytes}
    (encoded : PercentCoding.Encoded isLiteral bytes) :
    ∀ byte ∈ bytes, isAddressByte byte = true := by
  apply encoded.forall_mem
  · intro byte kept
    obtain ⟨index, rfl⟩ := PercentCoding.exists_byte_index byte
    exact literal_address_table index kept
  · decide
  · intro digit upper
    obtain ⟨index, rfl⟩ := PercentCoding.exists_byte_index digit
    exact digit_address_table index upper

theorem urlencode_reversible :
    Function.Injective urlencode ∧
      ∀ path, PercentCoding.decode (urlencode path) = path ∧
        PercentCoding.Encoded isLiteral (urlencode path) ∧
        ∀ byte ∈ urlencode path,
          byte ≠ question ∧ byte ≠ hash ∧ 32 < byte ∧ byte < 127 := by
  refine ⟨urlencode_injective, ?_⟩
  intro path
  have encoded : PercentCoding.Encoded isLiteral (urlencode path) := by
    rw [urlencode_eq_encode]
    exact PercentCoding.encoded_encode isLiteral path
  refine ⟨?_, encoded, ?_⟩
  · rw [urlencode_eq_encode]
    exact PercentCoding.decode_encode percent_not_literal path
  · intro byte member
    have address := isAddressByte_of_encoded encoded byte member
    simp only [isAddressByte, Bool.and_eq_true, decide_eq_true_eq] at address
    exact ⟨address.1.2, address.2, address.1.1.1, address.1.1.2⟩

/-! ### The joined string -/

def joinedParts (strings : List Bytes) : List Bytes :=
  (strings.map stripSlashes).filter (· ≠ [])

theorem joinedParts_eq (strings : List Bytes) :
    joinedParts strings = (copiedParts strings).filter (· ≠ []) := by
  induction strings with
  | nil => rfl
  | cons s rest ih =>
      by_cases empty : s = []
      · subst empty
        exact ih
      · unfold joinedParts at ih ⊢
        rw [copiedParts_cons_of_ne_nil empty, List.map_cons, List.filter_cons,
          List.filter_cons, ih]

section Joined

variable {strings : List Bytes}

theorem slashes_of_strip_eq_nil {s : Bytes} (nonempty : s ≠ []) (different : s ≠ [slash])
    (gone : stripSlashes s = []) : s = [slash, slash] := by
  rcases (strip_eq_nil_iff s).mp gone with empty | alone | both
  · exact (nonempty empty).elim
  · exact (different alone).elim
  · exact both

theorem nil_mem_copiedParts_iff (proper : [slash] ∉ strings) :
    [] ∈ copiedParts strings ↔ [slash, slash] ∈ strings := by
  unfold copiedParts
  constructor
  · intro member
    obtain ⟨s, present, gone⟩ := List.mem_map.mp member
    obtain ⟨inStrings, nonempty⟩ := List.mem_filter.mp present
    have different : s ≠ [slash] := by
      rintro rfl
      exact proper inStrings
    rwa [← slashes_of_strip_eq_nil (of_decide_eq_true nonempty) different gone]
  · intro member
    exact List.mem_map.mpr ⟨_, List.mem_filter.mpr ⟨member, by simp⟩, by decide⟩

theorem copiedParts_eq_nil_alone_iff (proper : [slash] ∉ strings) :
    copiedParts strings = [[]] ↔ strings.filter (· ≠ []) = [[slash, slash]] := by
  unfold copiedParts
  constructor
  · intro alone
    obtain ⟨s, kept, gone⟩ := List.map_eq_singleton_iff.mp alone
    have present : s ∈ strings.filter (· ≠ []) := by
      rw [kept]
      exact List.mem_singleton_self s
    obtain ⟨inStrings, nonempty⟩ := List.mem_filter.mp present
    have different : s ≠ [slash] := by
      rintro rfl
      exact proper inStrings
    rw [kept, slashes_of_strip_eq_nil (of_decide_eq_true nonempty) different gone]
  · intro alone
    rw [alone]
    decide

theorem copiedParts_ne_nil {part : Bytes} (member : part ∈ strings) (nonempty : part ≠ []) :
    copiedParts strings ≠ [] := by
  unfold copiedParts
  rw [ne_eq, List.map_eq_nil_iff]
  exact List.ne_nil_of_mem (List.mem_filter.mpr ⟨member, decide_eq_true nonempty⟩)

theorem joinSlashes_single_iff (present : ∃ part ∈ strings, part ≠ [] ∧ part ≠ [slash]) :
    joinSlashes strings = .ok ([slash].intercalate (joinedParts strings)) ↔
      [slash] ∉ strings ∧
        ([slash, slash] ∈ strings → strings.filter (· ≠ []) = [[slash, slash]]) := by
  obtain ⟨part, member, nonempty, _different⟩ := present
  by_cases proper : [slash] ∈ strings
  · rw [joinSlashes_slash proper]
    simp [proper]
  · have copied := copiedParts_ne_nil member nonempty
    rw [joinSlashes_eq proper copied, joinedParts_eq, Except.ok.injEq,
      intercalate_eq_filter_iff copied, nil_mem_copiedParts_iff proper,
      copiedParts_eq_nil_alone_iff proper]
    exact (and_iff_right proper).symm

theorem joinSlashes_single_iff_sample :
    joinSlashes [text "https://h/v1", text "c/", [], text "/d"] =
        .ok ([slash].intercalate (joinedParts [text "https://h/v1", text "c/", [], text "/d"])) ↔
      [slash] ∉ [text "https://h/v1", text "c/", [], text "/d"] ∧
        ([slash, slash] ∈ [text "https://h/v1", text "c/", [], text "/d"] →
          [text "https://h/v1", text "c/", [], text "/d"].filter (· ≠ []) =
            [[slash, slash]]) :=
  joinSlashes_single_iff ⟨text "/d", by decide, by decide, by decide⟩

/-- The remote directory of the second site in the example configuration. -/
theorem root_directory_not_joined :
    (∃ part ∈ [text "https://h/v1", text "c", text "/", text "a"],
      part ≠ [] ∧ part ≠ [slash]) ∧
      joinSlashes [text "https://h/v1", text "c", text "/", text "a"] =
        .error .undefinedBehaviour ∧
      ¬ joinSlashes [text "https://h/v1", text "c", text "/", text "a"] =
        .ok ([slash].intercalate
          (joinedParts [text "https://h/v1", text "c", text "/", text "a"])) := by
  have broken : joinSlashes [text "https://h/v1", text "c", text "/", text "a"] =
      .error .undefinedBehaviour := rfl
  refine ⟨⟨text "a", by decide, by decide, by decide⟩, broken, ?_⟩
  rw [broken]
  intro wrong
  cases wrong

end Joined

/-! ### One object for one file -/

def URL.Constructed (url : URL) : Prop :=
  url = {} ∨ URL.parse url.raw = .ok url

theorem URL.raw_ne_slash {url : URL} (constructed : url.Constructed) : url.raw ≠ [slash] := by
  rcases constructed with rfl | parsed
  · decide
  · obtain ⟨rest, shape⟩ := head_of_parse parsed
    rw [shape]
    intro same
    exact absurd (List.cons.inj same).1 (by decide)

def destinationString (base : URL) (container remoteDir relativePath : Bytes) :
    Except Failure Bytes :=
  joinSlashes (((base.append container).append remoteDir).append relativePath).parts

theorem destination_eq_string (base : URL) (container remoteDir relativePath : Bytes) :
    destination base container remoteDir relativePath =
      destinationString base container remoteDir relativePath >>= URL.parse := rfl

def frontParts (base : URL) (container remoteDir : Bytes) : List Bytes :=
  copiedParts [base.raw, urlencode container, urlencode remoteDir]

section OneObject

variable {base : URL} {container remoteDir : Bytes}

theorem destinationString_eq (constructed : base.Constructed) {relativePath : Bytes}
    (proper : ProperParts container remoteDir relativePath) :
    destinationString base container remoteDir relativePath =
      .ok ([slash].intercalate
        (frontParts base container remoteDir ++ [urlencode (stripSlashes relativePath)])) := by
  have parts : (((base.append container).append remoteDir).append relativePath).parts =
      [base.raw, urlencode container, urlencode remoteDir] ++ [urlencode relativePath] := rfl
  have noSlash : [slash] ∉
      [base.raw, urlencode container, urlencode remoteDir] ++ [urlencode relativePath] := by
    intro member
    simp only [List.mem_append, List.mem_cons, List.not_mem_nil, or_false] at member
    rcases member with (same | same | same) | same
    · exact URL.raw_ne_slash constructed same.symm
    · exact proper.container_ne_slash ((urlencode_eq_slash_iff _).mp same.symm)
    · exact proper.remoteDir_ne_slash ((urlencode_eq_slash_iff _).mp same.symm)
    · exact proper.relativePath_ne_slash ((urlencode_eq_slash_iff _).mp same.symm)
  have nonempty : urlencode relativePath ≠ [] :=
    mt (urlencode_eq_nil_iff _).mp proper.relativePath_ne_nil
  have copied : copiedParts
      ([base.raw, urlencode container, urlencode remoteDir] ++ [urlencode relativePath]) =
      frontParts base container remoteDir ++ [urlencode (stripSlashes relativePath)] := by
    rw [copiedParts_append, copiedParts_cons_of_ne_nil nonempty, stripSlashes_urlencode]
    rfl
  unfold destinationString
  rw [parts, joinSlashes_eq noSlash (by rw [copied]; simp), copied]

theorem stripSlashes_of_proper {names : Bytes} (proper : FileSetting.ProperRelative names) :
    stripSlashes names = names :=
  stripSlashes_of_ends_ne proper.head_ne proper.last_ne

theorem stripSlashes_slash_cons {names : Bytes} (proper : FileSetting.ProperRelative names) :
    stripSlashes (slash :: names) = names := by
  have last : (slash :: names).getLast? ≠ some slash := by
    rw [List.getLast?_cons_of_ne_nil proper.nonempty]
    exact proper.last_ne
  unfold stripSlashes
  rw [stripBack_of_getLast_ne last]
  rfl

structure ProperNames (container remoteDir : Bytes) : Prop where
  container_ne_nil : container ≠ []
  remoteDir_ne_nil : remoteDir ≠ []
  container_ne_slash : container ≠ [slash]
  remoteDir_ne_slash : remoteDir ≠ [slash]

theorem ProperNames.parts {relativePath : Bytes} (proper : ProperNames container remoteDir)
    (nonempty : relativePath ≠ []) (different : relativePath ≠ [slash]) :
    ProperParts container remoteDir relativePath where
  container_ne_nil := proper.container_ne_nil
  remoteDir_ne_nil := proper.remoteDir_ne_nil
  relativePath_ne_nil := nonempty
  container_ne_slash := proper.container_ne_slash
  remoteDir_ne_slash := proper.remoteDir_ne_slash
  relativePath_ne_slash := different

theorem destinationString_of_proper (constructed : base.Constructed)
    (proper : ProperNames container remoteDir) {names : Bytes}
    (relative : FileSetting.ProperRelative names) :
    destinationString base container remoteDir names =
      .ok ((frontParts base container remoteDir).flatMap (fun part => part ++ [slash]) ++
        urlencode names) := by
  have different : names ≠ [slash] := by
    rintro rfl
    exact relative.head_ne rfl
  rw [destinationString_eq constructed (proper.parts relative.nonempty different),
    intercalate_concat, stripSlashes_of_proper relative]

theorem destinationString_slash_cons (constructed : base.Constructed)
    (proper : ProperNames container remoteDir) {names : Bytes}
    (relative : FileSetting.ProperRelative names) :
    destinationString base container remoteDir (slash :: names) =
      destinationString base container remoteDir names := by
  have different : slash :: names ≠ [slash] := by
    intro same
    exact relative.nonempty (List.cons.inj same).2
  rw [destinationString_of_proper constructed proper relative,
    destinationString_eq constructed (proper.parts (List.cons_ne_nil slash names) different),
    intercalate_concat, stripSlashes_slash_cons relative]

theorem destinationString_injective (constructed : base.Constructed)
    (proper : ProperNames container remoteDir) {left right : Bytes}
    (leftRelative : FileSetting.ProperRelative left)
    (rightRelative : FileSetting.ProperRelative right)
    (same : destinationString base container remoteDir left =
      destinationString base container remoteDir right) : left = right := by
  rw [destinationString_of_proper constructed proper leftRelative,
    destinationString_of_proper constructed proper rightRelative] at same
  exact urlencode_injective (List.append_cancel_left (Except.ok.inj same))

end OneObject

/-! ### The four places that build a destination -/

section Places

variable {base : URL} {entry : ConfigEntry} {localFile relative : Bytes} {job : Job}

theorem destination_of_queued {localRelativePath : Bytes}
    (member : Request.addJob job ∈
      (queueUpload base entry localFile localRelativePath).trace) :
    destination base entry.container entry.remoteDir localRelativePath =
      .ok job.destination := by
  obtain ⟨_wanted, dest, built, same⟩ := mem_queueUpload_iff.mp member
  rw [Request.addJob.inj same]
  exact built

theorem job_of_emitted {located : Located} {build : URL → Job} {request : Request}
    (builds : ∀ dest, (build dest).destination = dest)
    (member : WatchAction.request request ∈ (Traced.ask located.destination >>=
      fun dest => Traced.emit (.request (.addJob (build dest))) : Watching Unit).trace) :
    ∃ job, request = .addJob job ∧ located.destination = .ok job.destination := by
  obtain ⟨dest, built, queued⟩ := Traced.mem_ask_bind_iff.mp member
  have same := WatchAction.request.inj (List.mem_singleton.mp queued)
  exact ⟨build dest, same, by rw [builds, built]⟩

/-- A closed file asks for nothing but a job for its destination. -/
theorem job_of_closed {around : EventSurroundings} {located : Located} {request : Request}
    (member : WatchAction.request request ∈ (handleClosed around located).trace) :
    ∃ job, request = .addJob job ∧ located.destination = .ok job.destination := by
  unfold handleClosed at member
  obtain ⟨size, _measured, later⟩ := Traced.mem_ask_bind_iff.mp member
  split at later
  · split at later
    · cases later
    · exact job_of_emitted (fun _dest => rfl) later
  · cases later

theorem job_of_deleted {event : Event} {located : Located} {request : Request}
    (member : WatchAction.request request ∈ (handleDeleted event located).trace) :
    ∃ job, request = .addJob job ∧ located.destination = .ok job.destination := by
  unfold handleDeleted at member
  split at member
  · cases member
  · split at member
    · cases member
    · exact job_of_emitted (fun _dest => rfl) member

/-- Every job that is queued for one file, wherever it is queued, goes to the
destination of the file's relative path. -/
structure OneDestination (base : URL) (entry : ConfigEntry) (localFile relative : Bytes) :
    Prop where
  merged : ∀ around remote job, around.tree.relative localFile entry.localDir = .ok relative →
    Request.addJob job ∈ (mergeBody around base entry localFile remote).trace →
      destination base entry.container entry.remoteDir relative = .ok job.destination
  leftOver : ∀ around job, around.tree.relative localFile entry.localDir = .ok relative →
    Request.addJob job ∈ (uploadLeftOver around base entry localFile).trace →
      destination base entry.container entry.remoteDir relative = .ok job.destination
  closed : ∀ around job, WatchAction.request (.addJob job) ∈
      (handleClosed around ⟨entry, base, localFile, relative⟩).trace →
    destination base entry.container entry.remoteDir relative = .ok job.destination
  deleted : ∀ event job, WatchAction.request (.addJob job) ∈
      (handleDeleted event ⟨entry, base, localFile, relative⟩).trace →
    destination base entry.container entry.remoteDir relative = .ok job.destination

theorem one_destination (constructed : base.Constructed)
    (proper : ProperNames entry.container entry.remoteDir)
    (properRelative : FileSetting.ProperRelative relative) :
    OneDestination base entry localFile relative where
  merged around remote job located member := by
    obtain ⟨_regular, _filled, found, locatedAgain, queued⟩ := mem_mergeBody member
    obtain rfl := Except.ok.inj (located.symm.trans locatedAgain)
    have slashed := destination_of_queued queued
    rwa [destination_eq_string, destinationString_slash_cons constructed proper
      properRelative, ← destination_eq_string] at slashed
  leftOver around job located member := by
    rcases mem_uploadLeftOver member with wrong | ⟨found, locatedAgain, queued⟩
    · cases wrong
    · obtain rfl := Except.ok.inj (located.symm.trans locatedAgain)
      exact destination_of_queued queued
  closed _around job member := by
    obtain ⟨queued, same, built⟩ := job_of_closed member
    exact Request.addJob.inj same ▸ built
  deleted _event job member := by
    obtain ⟨queued, same, built⟩ := job_of_deleted member
    exact Request.addJob.inj same ▸ built

theorem destinations_one_to_one (constructed : base.Constructed)
    (proper : ProperNames entry.container entry.remoteDir) :
    (∀ names, FileSetting.ProperRelative names →
      (∃ joined, destinationString base entry.container entry.remoteDir names = .ok joined ∧
        destinationString base entry.container entry.remoteDir (slash :: names) =
          .ok joined) ∧
        ∀ path, OneDestination base entry path names) ∧
      ∀ left right, FileSetting.ProperRelative left → FileSetting.ProperRelative right →
        destinationString base entry.container entry.remoteDir left =
          destinationString base entry.container entry.remoteDir right → left = right := by
  constructor
  · intro names relative
    have joined := destinationString_of_proper constructed proper relative
    refine ⟨⟨_, joined, ?_⟩, fun _path => one_destination constructed proper relative⟩
    rw [destinationString_slash_cons constructed proper relative, joined]
  · intro left right leftRelative rightRelative same
    exact destinationString_injective constructed proper leftRelative rightRelative same

theorem destinations_one_to_one_sample :
    (∀ names, FileSetting.ProperRelative names →
      (∃ joined, destinationString sampleBase sampleEntry.container sampleEntry.remoteDir
          names = .ok joined ∧
        destinationString sampleBase sampleEntry.container sampleEntry.remoteDir
          (slash :: names) = .ok joined) ∧
        ∀ path, OneDestination sampleBase sampleEntry path names) ∧
      ∀ left right, FileSetting.ProperRelative left → FileSetting.ProperRelative right →
        destinationString sampleBase sampleEntry.container sampleEntry.remoteDir left =
          destinationString sampleBase sampleEntry.container sampleEntry.remoteDir right →
        left = right := by
  have constructed : sampleBase.Constructed := Or.inr parse_sampleBase
  have proper : ProperNames sampleEntry.container sampleEntry.remoteDir := by
    constructor <;> decide
  exact destinations_one_to_one constructed proper

end Places

end Cdnalizerd
