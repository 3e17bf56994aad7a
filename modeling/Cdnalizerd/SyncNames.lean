/-
The names files are uploaded under and the names the walk looks for.

A file is uploaded under its URL's path behind the container.  The next walk
finds it again if stripping `remote_dir` from that name leaves a slash and the
relative path.
-/

import Cdnalizerd.Config
import Cdnalizerd.UrlDestination

namespace Cdnalizerd

def objectsPath (base : URL) (container : Bytes) : Bytes :=
  SeparatorJoin.stripBack slash base.path ++ slash ::
    (urlencode (stripSlashes container) ++ [slash])

def NamesObject (url base : URL) (container name : Bytes) : Prop :=
  ∃ encoded, url.path = objectsPath base container ++ encoded ∧
    PercentCoding.decode encoded = name

theorem namesObject_iff {url base : URL} {container remoteDir relativePath : Bytes}
    (addresses : Addresses url base container remoteDir relativePath) (name : Bytes) :
    NamesObject url base container name ↔
      name = stripSlashes remoteDir ++ slash :: stripSlashes relativePath := by
  have path : url.path = objectsPath base container ++
      (urlencode (stripSlashes remoteDir) ++ slash ::
        urlencode (stripSlashes relativePath)) := by
    rw [addresses.path, destinationTail, objectsPath]
    simp only [List.append_assoc, List.cons_append, List.nil_append]
  have decoded : PercentCoding.decode (urlencode (stripSlashes remoteDir) ++ slash ::
      urlencode (stripSlashes relativePath)) =
      stripSlashes remoteDir ++ slash :: stripSlashes relativePath := by
    simp only [urlencode_eq_encode, PercentCoding.decode_encode_append percent_not_literal,
      PercentCoding.decode_cons_of_ne_percent slash_separator.1,
      PercentCoding.decode_encode percent_not_literal]
  constructor
  · rintro ⟨encoded, split, named⟩
    rw [path] at split
    rw [← named, ← List.append_cancel_left split, decoded]
  · intro named
    exact ⟨_, path, by rw [decoded, named]⟩

/-- Whenever the URL of an upload comes out, the object it addresses is the one
the walk takes for the file.  An undefined URL addresses anything. -/
def RecognisedAt (base : URL) (entry : ConfigEntry) (relative localRelativePath : Bytes) :
    Prop :=
  match destination base entry.container entry.remoteDir localRelativePath with
  | .ok url => ∀ name, NamesObject url base entry.container name →
      unJoinPaths entry.remoteDir name = slash :: relative
  | .error .undefinedBehaviour => False
  | .error _reason => True

/-- The walk builds the URL from the relative path behind a slash, the left-over
loop and the event loop from the relative path itself. -/
def UploadRecognised (base : URL) (entry : ConfigEntry) (relative : Bytes) : Prop :=
  RecognisedAt base entry relative (slash :: relative) ∧
    RecognisedAt base entry relative relative

theorem recognisedAt_of_built {base url : URL} {entry : ConfigEntry} {relative site : Bytes}
    (built : destination base entry.container entry.remoteDir site = .ok url) :
    RecognisedAt base entry relative site ↔
      ∀ name, NamesObject url base entry.container name →
        unJoinPaths entry.remoteDir name = slash :: relative := by
  unfold RecognisedAt
  rw [built]

theorem stripSlashes_eq_self_iff {part : Bytes} (nonempty : part ≠ []) :
    stripSlashes part = part ↔ part.head? ≠ some slash ∧ part.getLast? ≠ some slash := by
  constructor
  · intro same
    have positive := List.length_pos_iff.mpr nonempty
    have back : part.getLast? ≠ some slash := by
      intro last
      have shorter : (stripSlashes part).length ≤ part.dropLast.length := by
        unfold stripSlashes SeparatorJoin.stripBack
        rw [if_pos last]
        exact (SeparatorJoin.stripFront_sublist _).length_le
      rw [same, List.length_dropLast] at shorter
      omega
    refine ⟨?_, back⟩
    intro first
    have shorter : (stripSlashes part).length = part.length - 1 := by
      unfold stripSlashes SeparatorJoin.stripFront
      rw [SeparatorJoin.stripBack_of_getLast_ne back, if_pos first, List.length_tail]
    rw [same] at shorter
    omega
  · intro ⟨front, back⟩
    exact stripSlashes_of_ends_ne front back

/-- A destination of proper parts is built, or a tilde stops the parser. -/
theorem destination_cases {raw : Bytes} {base : URL} (parsed : URL.parse raw = .ok base)
    (ordinary : question ∉ raw) {container remoteDir relativePath : Bytes}
    (proper : ProperParts container remoteDir relativePath) :
    (∃ url, destination base container remoteDir relativePath = .ok url ∧
        (tilde ∉ container ∧ tilde ∉ remoteDir ∧ tilde ∉ relativePath) ∧
        Addresses url base container remoteDir relativePath) ∨
      ¬ (tilde ∉ container ∧ tilde ∉ remoteDir ∧ tilde ∉ relativePath) ∧
        ∃ text position, destination base container remoteDir relativePath =
          .error (.parseError text position) := by
  cases built : destination base container remoteDir relativePath with
  | ok url =>
      obtain ⟨_proper, clean, addresses⟩ := clean_of_destination parsed ordinary
        proper.container_ne_nil proper.remoteDir_ne_nil proper.relativePath_ne_nil built
      exact Or.inl ⟨url, rfl, clean, addresses⟩
  | error reason =>
      right
      constructor
      · intro clean
        obtain ⟨url, accepted, _addresses⟩ :=
          destination_of_no_tilde parsed ordinary proper clean
        rw [built] at accepted
        cases accepted
      · rw [destination_eq_parse parsed proper] at built
        unfold URL.parse at built
        dsimp only at built
        split at built
        · exact ⟨_, _, by rw [← Except.error.inj built]⟩
        · cases built

/-- One upload site, where the path it hands over has the relative path between
its slashes. -/
theorem recognisedAt_iff {base : URL} {entry : ConfigEntry} {relative site : Bytes}
    (parsed : URL.parse base.raw = .ok base) (ordinary : question ∉ base.raw)
    (valid : entry.validate = true) (site_ne : site ≠ []) (site_ne_slash : site ≠ [slash])
    (stripped : stripSlashes site = relative) :
    RecognisedAt base entry relative site ↔
      entry.container ≠ [slash] ∧ entry.remoteDir ≠ [slash] ∧
        (entry.remoteDir.head? ≠ some slash ∧ entry.remoteDir.getLast? ≠ some slash ∨
          tilde ∈ entry.container ∨ tilde ∈ entry.remoteDir ∨ tilde ∈ relative) := by
  obtain ⟨container_ne, remoteDir_ne⟩ := ConfigEntry.names_ne_nil_of_validate valid
  have site_tilde : tilde ∈ site ↔ tilde ∈ relative := by
    rw [← stripped]
    exact (mem_stripSlashes_of_ne (by decide) site).symm
  by_cases alone : entry.container = [slash] ∨ entry.remoteDir = [slash]
  · have undefined := destination_slash base
      (alone.imp_right (fun remoteAlone => Or.inl remoteAlone) :
        entry.container = [slash] ∨ entry.remoteDir = [slash] ∨ site = [slash])
    unfold RecognisedAt
    rw [undefined]
    constructor
    · intro impossible
      exact impossible.elim
    · intro ⟨containerProper, remoteProper, _named⟩
      rcases alone with containerAlone | remoteAlone
      · exact containerProper containerAlone
      · exact remoteProper remoteAlone
  · obtain ⟨containerProper, remoteProper⟩ := not_or.mp alone
    have proper : ProperParts entry.container entry.remoteDir site :=
      ⟨container_ne, remoteDir_ne, site_ne, containerProper, remoteProper, site_ne_slash⟩
    rcases destination_cases parsed ordinary proper with
      ⟨url, built, clean, addresses⟩ | ⟨dirty, raw, position, failed⟩
    · rw [recognisedAt_of_built built]
      have unescaped : ¬ (tilde ∈ entry.container ∨ tilde ∈ entry.remoteDir ∨
          tilde ∈ relative) := by
        rw [← site_tilde]
        simp only [not_or]
        exact clean
      have named (name : Bytes) : NamesObject url base entry.container name ↔
          name = stripSlashes entry.remoteDir ++ slash :: relative := by
        rw [namesObject_iff addresses, stripped]
      have recognised : (∀ name, NamesObject url base entry.container name →
          unJoinPaths entry.remoteDir name = slash :: relative) ↔
          stripSlashes entry.remoteDir = entry.remoteDir := by
        simp only [named, forall_eq]
        rw [unJoinPaths_eq_iff (List.cons_ne_nil slash relative)]
        exact List.append_left_inj _
      rw [recognised, stripSlashes_eq_self_iff remoteDir_ne]
      constructor
      · intro plain
        exact ⟨containerProper, remoteProper, Or.inl plain⟩
      · intro ⟨_container, _remoteDir, reason⟩
        exact reason.resolve_right unescaped
    · unfold RecognisedAt
      rw [failed]
      constructor
      · intro _trivial
        refine ⟨containerProper, remoteProper, Or.inr ?_⟩
        by_contra unescaped
        rw [← site_tilde] at unescaped
        simp only [not_or] at unescaped
        exact dirty unescaped
      · intro _condition
        exact True.intro

theorem stripSlashes_cons_slash {relative : Bytes} (nonempty : relative ≠ [])
    (back : relative.getLast? ≠ some slash) : stripSlashes (slash :: relative) = relative := by
  have last : (slash :: relative).getLast? ≠ some slash := by
    rw [List.getLast?_cons_of_ne_nil nonempty]
    exact back
  unfold stripSlashes
  rw [SeparatorJoin.stripBack_of_getLast_ne last]
  exact if_pos rfl

theorem upload_recognised_iff {rs : Rackspace} {base : URL} {entry : ConfigEntry}
    (found : rs.getURL entry.region entry.snet = .ok base) (ordinary : question ∉ base.raw)
    (valid : entry.validate = true) {relative : Bytes} (nonempty : relative ≠ [])
    (front : relative.head? ≠ some slash) (back : relative.getLast? ≠ some slash) :
    UploadRecognised base entry relative ↔
      entry.container ≠ [slash] ∧ entry.remoteDir ≠ [slash] ∧
        (entry.remoteDir.head? ≠ some slash ∧ entry.remoteDir.getLast? ≠ some slash ∨
          tilde ∈ entry.container ∨ tilde ∈ entry.remoteDir ∨ tilde ∈ relative) := by
  have parsed := Rackspace.parse_of_getURL found
  have inWalk := recognisedAt_iff parsed ordinary valid (List.cons_ne_nil slash relative)
    (by simpa using nonempty) (stripSlashes_cons_slash nonempty back)
  have elsewhere := recognisedAt_iff parsed ordinary valid nonempty
    (by rintro rfl; exact front rfl) (stripSlashes_of_ends_ne front back)
  unfold UploadRecognised
  rw [inWalk, elsewhere, and_self_iff]

def imagesEntry : ConfigEntry where
  username := text "u"
  apikey := text "k"
  region := text "r"
  container := text "c"
  localDir := text "/d"
  remoteDir := text "/images/"

theorem upload_recognised_iff_sample :
    UploadRecognised sampleBase { imagesEntry with remoteDir := text "images" }
      (text "a.png") :=
  have found : sampleAccount.getURL (text "r") false = .ok sampleBase := rfl
  (upload_recognised_iff found (by decide) (by decide) (by decide) (by decide)
    (by decide)).mpr (by decide)

/-- The object is named `images/a.png`, which does not begin with `/images/`. -/
theorem images_upload_not_recognised :
    imagesEntry.validate = true ∧ ¬ UploadRecognised sampleBase imagesEntry (text "a.png") := by
  have built : destination sampleBase imagesEntry.container imagesEntry.remoteDir
      (text "a.png") = .ok { sampleBase with
        raw := text "https://h/v1/c/images/a.png"
        path := text "/v1/c/images/a.png"
        pathAndSearch := text "/v1/c/images/a.png" } := by
    decide
  refine ⟨by decide, ?_⟩
  intro ⟨_inWalk, elsewhere⟩
  have found := (recognisedAt_of_built built).mp elsewhere (text "images/a.png")
    ⟨text "images/a.png", by decide, by decide⟩
  exact absurd found (by decide)

end Cdnalizerd
