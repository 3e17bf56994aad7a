/-
Where a destination stays.

Whatever the names of an entry and of a file are, the URL that is put together
from them has the authority of the endpoint.  Its path stays below the remote
directory of the entry, as long as the endpoint has no search.
-/

import Cdnalizerd.RequestLines

namespace Cdnalizerd

open Library Grammar SeparatorJoin

/-! ### A URL with more behind it -/

namespace UrlParts

variable (parts : UrlParts)

def authorityText : Bytes :=
  parts.loginText ++ parts.host ++ marked [colon] parts.port

theorem authorityText_ne_nil : parts.authorityText ≠ [] := by
  intro empty
  unfold authorityText at empty
  exact host_ne_nil parts
    (List.append_eq_nil_iff.mp (List.append_eq_nil_iff.mp empty).1).2

theorem text_eq : parts.text = parts.scheme ++ (parts.authorityText ++ fromPath parts.text) := by
  rw [parts.fromPath_text]
  simp only [text, front, authorityText, List.append_assoc]

theorem stripBack_authorityText : stripBack slash parts.authorityText = parts.authorityText := by
  apply stripBack_of_getLast_ne
  intro last
  exact parts.slash_not_mem_authority (List.mem_of_getLast? last)

/-- Only the end of the path can lose its slash. -/
theorem stripBack_text : stripBack slash parts.text =
    parts.scheme ++ (parts.authorityText ++ stripBack slash (fromPath parts.text)) := by
  rw [parts.text_eq, stripBack_append (List.append_ne_nil_of_left_ne_nil
    parts.authorityText_ne_nil _), ← parts.text_eq]
  by_cases empty : fromPath parts.text = []
  · rw [empty, List.append_nil, parts.stripBack_authorityText]
    exact congrArg _ (List.append_nil _).symm
  · rw [stripBack_append empty]

/-- The part from the path on is empty or begins with its slash. -/
theorem behind_fromPath : Behind (fromPath parts.text) := by
  rw [parts.fromPath_text]
  rcases parts.path_cases with ⟨noPath, noSearch⟩ | ⟨segments, pathIs, _questionless⟩
  · left
    rw [noPath, noSearch]
    rfl
  · right
    rw [pathIs]
    rfl

section Extended

variable {parts} {other : UrlParts} {tail : Bytes}

theorem dropWhile_slash {front : Bytes} (begins : Behind front) :
    (stripBack slash front ++ slash :: tail).dropWhile (· ≠ slash) =
      stripBack slash front ++ slash :: tail := by
  cases shape : stripBack slash front with
  | nil => rfl
  | cons first rest =>
      have kept : (stripBack slash front).head? = some slash := by
        rcases begins with rfl | head
        · cases shape
        · cases front with
          | nil => cases head
          | cons opening others =>
              obtain rfl : opening = slash := Option.some.inj head
              unfold stripBack at shape ⊢
              split at shape
              · rename_i last
                rw [if_pos last]
                cases others with
                | nil => cases shape
                | cons second more => rfl
              · rename_i last
                rw [if_neg last]
                rfl
      rw [shape] at kept
      obtain rfl : first = slash := Option.some.inj kept
      rfl

variable (extended : other.text = stripBack slash parts.text ++ slash :: tail)

include extended

theorem other_text : other.text =
    parts.scheme ++ (parts.authorityText ++
      (stripBack slash (fromPath parts.text) ++ slash :: tail)) := by
  rw [extended, parts.stripBack_text, List.append_assoc, List.append_assoc]

/-- The path goes on where it ended. -/
theorem fromPath_extended :
    fromPath other.text = stripBack slash (fromPath parts.text) ++ slash :: tail := by
  rw [other_text extended]
  change (behindScheme _).dropWhile (· ≠ slash) = _
  rw [behindScheme_scheme parts.scheme_read,
    @dropWhile_ne_append _ parts.authorityText _ parts.slash_not_mem_authority]
  exact dropWhile_slash parts.behind_fromPath

/-- What the parser makes of the authority is not affected by what stands behind
it. -/
theorem sameAuthority_extended : SameAuthority other.parsed parts.parsed := by
  let swapped : UrlParts := { parts with
    path := other.path
    search := other.search
    path_read := other.path_read
    search_read := other.search_read }
  have sameText : swapped.text = other.text := by
    have shape := swapped.fromPath_text
    rw [other_text extended, ← fromPath_extended extended, other.fromPath_text]
    simp only [swapped, text, front, authorityText, loginText, List.append_assoc]
  have accepted := parse_text swapped
  rw [sameText] at accepted
  have same : swapped.parsed = other.parsed :=
    Except.ok.inj (accepted.symm.trans (parse_text other))
  rw [← same]
  exact ⟨rfl, rfl, rfl, rfl, rfl⟩

theorem path_extended (noSearch : parts.search = none) (ordinary : question ∉ tail) :
    other.parsed.path = stripBack slash parts.parsed.path ++ slash :: tail ∧
      other.parsed.search = [] ∧ other.parsed.pathAndSearch = other.parsed.path := by
  have continued := fromPath_extended extended
  have questionless : question ∉ fromPath other.text := by
    rw [continued, parts.fromPath_text, noSearch]
    intro inside
    rcases List.mem_append.mp inside with inPath | behind
    · have different : question ≠ slash := by decide
      rw [mem_stripBack_of_ne different] at inPath
      rcases List.mem_append.mp inPath with wrong | wrong
      · exact parts.question_not_mem_path wrong
      · cases wrong
    · rcases List.mem_cons.mp behind with wrong | wrong
      · exact absurd wrong (by decide)
      · exact ordinary wrong
  have searchless : other.search = none := by
    by_contra present
    exact questionless (other.question_mem_fromPath_iff.mpr present)
  have whole : other.path.getD [] = stripBack slash (parts.path.getD []) ++ slash :: tail := by
    rw [other.fromPath_text, parts.fromPath_text, searchless, noSearch] at continued
    simpa only [marked, List.append_nil] using continued
  refine ⟨whole, ?_, ?_⟩
  · change other.search.getD [] = []
    rw [searchless]
    rfl
  · change other.path.getD [] ++ other.search.getD [] = other.path.getD []
    rw [searchless]
    exact List.append_nil _

end Extended

end UrlParts

/-! ### Destinations -/

/-- The path itself, or a path behind it. -/
def Below (front path : Bytes) : Prop :=
  ∃ behind, path = front ++ behind ∧ Behind behind

theorem below_iff {front path : Bytes} :
    Below front path ↔ front <+: path ∧ Behind (path.drop front.length) := by
  constructor
  · rintro ⟨behind, rfl, begins⟩
    rw [List.drop_left]
    exact ⟨List.prefix_append front behind, begins⟩
  · rintro ⟨⟨behind, rfl⟩, begins⟩
    rw [List.drop_left] at begins
    exact ⟨behind, rfl, begins⟩

instance (behind : Bytes) : Decidable (Behind behind) :=
  inferInstanceAs (Decidable (behind = [] ∨ behind.head? = some slash))

instance (front path : Bytes) : Decidable (Below front path) :=
  decidable_of_iff _ below_iff.symm

/-- The path at an endpoint that the objects of an entry are behind. -/
def objectRoot (base : URL) (container remoteDir : Bytes) : Bytes :=
  stripBack slash base.path ++ slash :: rootTail container remoteDir

theorem fromPath_subset (raw : Bytes) : fromPath raw ⊆ raw :=
  ((List.dropWhile_sublist _).trans
    ((List.drop_sublist 2 _).trans (List.dropWhile_sublist _))).subset

section Destinations

variable {base dest : URL} {container remoteDir site : Bytes}

theorem question_not_mem_rootTail (container remoteDir : Bytes) :
    question ∉ rootTail container remoteDir := by
  have different : question ≠ slash := by decide
  simp [rootTail, question_not_mem_urlencode, different]

theorem destination_sameAuthority (parsed : URL.parse base.raw = .ok base)
    (named : container ≠ [] ∧ remoteDir ≠ [])
    (built : destination base container remoteDir site = .ok dest) :
    SameAuthority dest base := by
  obtain ⟨behind, _begins, _questionless, accepted⟩ := destination_shape parsed named built
  obtain ⟨parts, text⟩ := mem_url_iff.mp ((parses_iff_mem_url base.raw).mp ⟨base, parsed⟩)
  obtain ⟨other, otherText⟩ := mem_url_iff.mp ((parses_iff_mem_url _).mp ⟨dest, accepted⟩)
  rw [← text] at parsed
  rw [← otherText] at accepted
  rw [← Except.ok.inj ((parse_text other).symm.trans accepted),
    ← Except.ok.inj ((parse_text parts).symm.trans parsed)]
  apply UrlParts.sameAuthority_extended
  rw [otherText, text]

theorem destination_below (parsed : URL.parse base.raw = .ok base)
    (ordinary : question ∉ fromPath base.raw) (named : container ≠ [] ∧ remoteDir ≠ [])
    (built : destination base container remoteDir site = .ok dest) :
    Below (objectRoot base container remoteDir) dest.path ∧ dest.pathAndSearch = dest.path := by
  obtain ⟨behind, begins, questionless, accepted⟩ := destination_shape parsed named built
  obtain ⟨parts, text⟩ := mem_url_iff.mp ((parses_iff_mem_url base.raw).mp ⟨base, parsed⟩)
  obtain ⟨other, otherText⟩ := mem_url_iff.mp ((parses_iff_mem_url _).mp ⟨dest, accepted⟩)
  have extended : other.text = stripBack slash parts.text ++ slash ::
      (rootTail container remoteDir ++ behind) := by
    rw [otherText, text]
  rw [← text] at parsed ordinary
  rw [← otherText] at accepted
  rw [← Except.ok.inj ((parse_text other).symm.trans accepted),
    ← Except.ok.inj ((parse_text parts).symm.trans parsed)]
  rw [parts.question_mem_fromPath_iff, not_not] at ordinary
  have clean : question ∉ rootTail container remoteDir ++ behind := by
    rw [List.mem_append, not_or]
    exact ⟨question_not_mem_rootTail _ _, questionless⟩
  obtain ⟨path, _searchless, joined⟩ := UrlParts.path_extended extended ordinary clean
  refine ⟨⟨behind, ?_, begins⟩, joined⟩
  rw [path]
  unfold objectRoot
  rw [List.append_assoc, List.cons_append]

end Destinations

end Cdnalizerd
