/-
The targets of the requests that one URL is used for.

A `PUT` goes to `pathAndSearch`, a `HEAD` and a `DELETE` to `path`.  The parser
cuts path and search out without the question mark between them, so the two
put together again are the end of the URL only where there was no search.
-/

import Cdnalizerd.JobRequests
import Cdnalizerd.UrlFields

namespace Cdnalizerd

open Library Grammar

/-! ### The end of a URL -/

def behindScheme (raw : Bytes) : Bytes :=
  (raw.dropWhile (· ≠ slash)).drop 2

def fromPath (raw : Bytes) : Bytes :=
  (behindScheme raw).dropWhile (· ≠ slash)

def literalSearch (raw : Bytes) : Bytes :=
  (fromPath raw).dropWhile (· ≠ question)

theorem dropWhile_ne_append {separator : UInt8} {before after : Bytes}
    (absent : separator ∉ before) :
    (before ++ after).dropWhile (· ≠ separator) = after.dropWhile (· ≠ separator) := by
  apply List.dropWhile_append_of_pos
  intro byte member
  apply decide_eq_true
  rintro rfl
  exact absent member

namespace UrlParts

variable (parts : UrlParts)

theorem behindScheme_scheme {scheme : Bytes} (read : scheme ∈ UrlRule.scheme) (rest : Bytes) :
    behindScheme (scheme ++ rest) = rest := by
  rcases read with rfl | rfl <;> rfl

theorem slash_not_mem_login (login : LoginPart) : slash ∉ login.text := by
  have absent : isLoginByte slash = false := by decide
  have userRead := login.user_read
  rw [UrlRule.user_eq, mem_plus_oneOf] at userRead
  intro member
  simp only [LoginPart.text, List.mem_append, List.mem_singleton] at member
  rcases member with (inUser | inPassword) | atSign
  · exact absurd (userRead.2 slash inUser) (by rw [absent]; exact Bool.false_ne_true)
  · cases passwordIs : login.password with
    | none =>
        rw [passwordIs] at inPassword
        cases inPassword
    | some password =>
        have passwordRead := login.password_read password passwordIs
        rw [UrlRule.password_eq, mem_plus_oneOf] at passwordRead
        rw [passwordIs] at inPassword
        rcases List.mem_append.mp inPassword with colonIs | inside
        · exact absurd (List.mem_singleton.mp colonIs) (by decide)
        · exact absurd (passwordRead.2 slash inside) (by rw [absent]; exact Bool.false_ne_true)
  · exact absurd atSign (by decide)

theorem slash_not_mem_host : slash ∉ parts.host := by
  have read := parts.host_read
  rw [UrlRule.host_eq, mem_plus_oneOf] at read
  intro member
  exact absurd (read.2 slash member) (by decide)

theorem slash_not_mem_port : slash ∉ marked [colon] parts.port := by
  cases portIs : parts.port with
  | none => simp [marked]
  | some port =>
      have digits := mem_plus_oneOf.mp (parts.port_read port portIs)
      intro member
      rcases List.mem_append.mp member with colonIs | inside
      · exact absurd (List.mem_singleton.mp colonIs) (by decide)
      · exact absurd (digits.2 slash inside) (by decide)

theorem slash_not_mem_authority :
    slash ∉ parts.loginText ++ parts.host ++ marked [colon] parts.port := by
  simp only [List.mem_append, not_or]
  refine ⟨⟨?_, parts.slash_not_mem_host⟩, parts.slash_not_mem_port⟩
  unfold loginText
  cases parts.login with
  | none => simp
  | some login => exact slash_not_mem_login login

theorem path_cases : (parts.path = none ∧ parts.search = none) ∨
    ∃ segments, parts.path = some (slash :: segments) ∧ question ∉ slash :: segments := by
  cases pathIs : parts.path with
  | none =>
      left
      refine ⟨rfl, ?_⟩
      cases searchIs : parts.search with
      | none => rfl
      | some search => exact absurd pathIs (parts.search_read search searchIs).1
  | some path =>
      right
      obtain ⟨_, isSlash, segments, inPath, rfl⟩ :=
        Language.mem_mul.mp (parts.path_read path pathIs)
      rw [UrlRule.hpath_eq, mem_star_oneOf] at inPath
      rw [mem_literal.mp isSlash]
      refine ⟨segments, rfl, ?_⟩
      intro member
      rcases List.mem_cons.mp member with wrong | inside
      · exact absurd wrong (by decide)
      · exact absurd (inPath question inside) (by decide)

theorem fromPath_text :
    fromPath parts.text = parts.path.getD [] ++ marked [question] parts.search := by
  have split : parts.text = parts.scheme ++
      ((parts.loginText ++ parts.host ++ marked [colon] parts.port) ++
        (parts.path.getD [] ++ marked [question] parts.search)) := by
    simp only [text, front, List.append_assoc]
  unfold fromPath
  rw [split, behindScheme_scheme parts.scheme_read,
    dropWhile_ne_append parts.slash_not_mem_authority]
  rcases parts.path_cases with ⟨noPath, noSearch⟩ | ⟨segments, pathIs, _questionless⟩
  · rw [noPath, noSearch]
    rfl
  · rw [pathIs]
    rfl

theorem question_not_mem_path : question ∉ parts.path.getD [] := by
  rcases parts.path_cases with ⟨noPath, _noSearch⟩ | ⟨segments, pathIs, questionless⟩
  · rw [noPath]
    simp
  · rw [pathIs]
    exact questionless

theorem question_mem_fromPath_iff : question ∈ fromPath parts.text ↔ parts.search ≠ none := by
  rw [parts.fromPath_text, List.mem_append]
  cases searchIs : parts.search with
  | none => simpa [marked] using parts.question_not_mem_path
  | some search => simp [marked]

theorem literalSearch_text : literalSearch parts.text = marked [question] parts.search := by
  unfold literalSearch
  rw [parts.fromPath_text, dropWhile_ne_append parts.question_not_mem_path]
  cases parts.search with
  | none => rfl
  | some search => rfl

end UrlParts

/-! ### The requests of a job -/

def HasTarget (dest : URL) (request : HttpRequest) : Prop :=
  request.target = if request.verb = .put then dest.pathAndSearch else dest.path

/-- Every request of a job has the target of its verb. -/
theorem target_of_job {job : Job} {token : Bytes} {around : AttemptSurroundings}
    {request : HttpRequest}
    (member : Observation.sent request ∈ (job.go token around).trace) :
    HasTarget job.destination request := by
  cases sentFor_of_job member with
  | put size digested => rfl
  | head => rfl
  | delete => rfl

/-! ### When the targets agree -/

/-- The targets for one URL: `pathAndSearch` is the end of the URL, and a `PUT`
differs from the other requests by the literal search only. -/
structure TargetsAgree (raw : Bytes) (url : URL) : Prop where
  pathAndSearch : url.pathAndSearch = fromPath raw
  requests : ∀ job token around request, Job.destination job = url →
    Observation.sent request ∈ (job.go token around).trace →
      request.target = if request.verb = .put then url.path ++ literalSearch raw else url.path

theorem targets_agree_iff {raw : Bytes} {url : URL} (parsed : URL.parse raw = .ok url) :
    TargetsAgree raw url ↔ question ∉ fromPath raw := by
  obtain ⟨parts, rfl⟩ := mem_url_iff.mp ((parses_iff_mem_url raw).mp ⟨url, parsed⟩)
  obtain rfl := Except.ok.inj ((parse_text parts).symm.trans parsed)
  have target : parts.parsed.pathAndSearch = parts.path.getD [] ++ parts.search.getD [] := rfl
  rw [parts.question_mem_fromPath_iff, not_not]
  constructor
  · intro agree
    have same := agree.pathAndSearch
    rw [target, parts.fromPath_text] at same
    cases searchIs : parts.search with
    | none => rfl
    | some search =>
        rw [searchIs] at same
        have lengths := congrArg List.length (List.append_cancel_left same)
        simp [marked] at lengths
  · intro noSearch
    have joined : parts.parsed.pathAndSearch = fromPath parts.text := by
      rw [target, parts.fromPath_text, noSearch]
      rfl
    refine ⟨joined, ?_⟩
    intro job token around request forURL member
    have given := target_of_job member
    unfold HasTarget at given
    rw [given, forURL, parts.literalSearch_text, noSearch]
    split
    · rw [target, noSearch]
      rfl
    · rfl

def searchlessURL : URL :=
  { fullURL with
    raw := text "https://u:p@h:1/a"
    search := []
    pathAndSearch := text "/a" }

theorem parse_searchlessURL : URL.parse (text "https://u:p@h:1/a") = .ok searchlessURL := by
  decide

/-- A login and a port do no harm, and a search does. -/
theorem targets_agree_iff_sample :
    TargetsAgree (text "https://u:p@h:1/a") searchlessURL ∧
      ¬ TargetsAgree (text "https://u:p@h:1/a?q") fullURL :=
  ⟨(targets_agree_iff parse_searchlessURL).mpr (by decide),
    fun agree => absurd ((targets_agree_iff parse_fullURL).mp agree) (by decide)⟩

/-- The URL `http://h/p?q` is put to `/pq`. -/
theorem search_joined_without_mark :
    ∃ url, URL.parse (text "http://h/p?q") = .ok url ∧ url.pathAndSearch = text "/pq" ∧
      fromPath (text "http://h/p?q") = text "/p?q" ∧
      ¬ TargetsAgree (text "http://h/p?q") url := by
  refine ⟨_, rfl, rfl, rfl, ?_⟩
  intro agree
  have same := agree.pathAndSearch
  revert same
  decide

end Cdnalizerd
