/-
What a listing of a container amounts to.

Pages of strings are never made: the body reaches `out` as a JSON string, which
does not convert, so only an empty container is listed.  With JSON pages the
lines are counted, and the count is one ahead of them: a page of one name less
than `limit` asks for another, and a page of `limit` names fails the assertion.
-/

import Cdnalizerd.Listing
import Mathlib.Order.Basic

namespace Cdnalizerd

open Library Traced

/-! ### The server -/

/-- A container, and whether the server ends the last line of a body as well. -/
structure Container where
  names : List Bytes
  ascending : names.Pairwise (· < ·)
  named : ∀ name ∈ names, name ≠ []
  unbroken : ∀ name ∈ names, newline ∉ name
  endsLines : Bool

namespace Container

def after (container : Container) (marker : Bytes) : List Bytes :=
  container.names.filter (fun name => decide (marker < name))

def page (container : Container) (marker : Bytes) : List Bytes :=
  (container.after marker).take limit

def body (container : Container) (page : List Bytes) : Bytes :=
  [newline].intercalate (page ++ if container.endsLines then [[]] else [])

def reply (container : Container) (marker : Bytes) : ListReply :=
  if (container.page marker).isEmpty then ⟨204, []⟩
  else ⟨200, container.body (container.page marker)⟩

def server (container : Container) : ListServer where
  connect _ := .ok ()
  answer request := .ok (container.reply request.marker)

theorem after_nil (container : Container) : container.after [] = container.names := by
  apply List.filter_eq_self.mpr
  intro name member
  cases name with
  | nil => exact (container.named [] member rfl).elim
  | cons byte rest => simp

theorem page_nil_eq_nil_iff (container : Container) :
    container.page [] = [] ↔ container.names = [] := by
  unfold page
  rw [after_nil, List.take_eq_nil_iff]
  simp [limit]

theorem reply_of_page_nil {container : Container} {marker : Bytes}
    (nothing : container.page marker = []) : container.reply marker = ⟨204, []⟩ := by
  simp [reply, nothing]

theorem reply_of_page_ne_nil {container : Container} {marker : Bytes}
    (something : container.page marker ≠ []) :
    container.reply marker = ⟨200, container.body (container.page marker)⟩ := by
  simp [reply, something]

end Container

/-! ### Pages of strings -/

section Strings

variable {library : JsonLibrary} (container : Container) (request : ListRequest)

theorem listRounds_of_page_nil (payload : Payload library)
    (nothing : container.page request.marker = []) (rounds : Nat) :
    listRounds payload container.server.answer request (rounds + 1) =
      ⟨[.requested request], .ok true⟩ := by
  unfold listRounds Container.server
  rw [emit_bind, ask_ok_bind, Container.reply_of_page_nil nothing]
  rfl

theorem listRounds_strings_of_page_ne_nil {thrown : ListFailure}
    (something : container.page request.marker ≠ [])
    (refused : library.toStrings (library.ofString (container.body
      (container.page request.marker))) = .error thrown) (rounds : Nat) :
    listRounds (vectorOfStrings library) container.server.answer request (rounds + 1) =
      ⟨[.requested request], .error thrown⟩ := by
  unfold listRounds Container.server
  rw [emit_bind, ask_ok_bind, Container.reply_of_page_ne_nil something]
  have stopped : takePage (vectorOfStrings library) request.marker
      ⟨200, container.body (container.page request.marker)⟩ = ⟨[], .error thrown⟩ := by
    change ask (library.toStrings _) >>= _ = _
    rw [refused]
    rfl
  rw [stopped]
  rfl

/-- The listing comes to its end, no assertion having failed, and the pages it
pushes are the names of the container, in order. -/
def ListsAll (library : JsonLibrary) (container : Container) (baseURL : URL)
    (prefixParam name extraParams : Bytes) : Prop :=
  ∃ rounds pages, doGetPages (vectorOfStrings library) container.server baseURL prefixParam name
      extraParams rounds = ⟨pages, .ok true⟩ ∧ (pushedPages pages).flatten = container.names

theorem not_listsAll_of_refused {thrown : ListFailure} {baseURL : URL}
    {prefixParam name extraParams : Bytes} (something : container.names ≠ [])
    (refused : library.toStrings (library.ofString (container.body (container.page []))) =
      .error thrown) :
    ¬ ListsAll library container baseURL prefixParam name extraParams := by
  rintro ⟨rounds, pages, returned, _listed⟩
  have page : container.page [] ≠ [] :=
    fun nothing => something (container.page_nil_eq_nil_iff.mp nothing)
  cases rounds with
  | zero => cases congrArg Traced.result returned
  | succ rounds =>
      have stopped := listRounds_strings_of_page_ne_nil container
        { baseURL
          prefixParam
          container := name
          extraParams
          marker := [] } page refused rounds
      cases congrArg Traced.result (stopped.symm.trans returned)

/-- Pages of strings list a container exactly if it has no names, whatever the
JSON library does as long as a string does not convert to a vector. -/
theorem listsAll_iff_empty (refused : ∀ body, library.toStrings (library.ofString body) =
      .error (.json 302)) (baseURL : URL) (prefixParam name extraParams : Bytes) :
    ListsAll library container baseURL prefixParam name extraParams ↔ container.names = [] := by
  constructor
  · intro listed
    by_contra something
    exact not_listsAll_of_refused container something (refused _) listed
  · intro nothing
    refine ⟨1, _, listRounds_of_page_nil container _ _ ?_ 0, ?_⟩
    · exact container.page_nil_eq_nil_iff.mpr nothing
    · rw [nothing]
      rfl

end Strings

/-- JSON values that are strings or arrays of strings. -/
inductive PlainJson where
  | string (value : Bytes)
  | array (items : List Bytes)

/-- A conversion to a vector wants an array: `type_error` 302 otherwise. -/
def plainJson : JsonLibrary where
  Json := PlainJson
  ofString := .string
  ofStrings := .array
  toStrings
    | .string _ => .error (.json 302)
    | .array items => .ok items

def emptyContainer : Container where
  names := []
  ascending := .nil
  named _ member := (List.not_mem_nil member).elim
  unbroken _ member := (List.not_mem_nil member).elim
  endsLines := true

theorem listsAll_emptyContainer :
    ListsAll plainJson emptyContainer sampleBase [] (text "c") [] :=
  (listsAll_iff_empty emptyContainer (fun _ => rfl) _ _ _ _).mpr rfl

def singleName : Container where
  names := [text "a"]
  ascending := List.pairwise_singleton _ _
  named := by decide
  unbroken := by decide
  endsLines := true

theorem single_name_not_listed :
    ¬ ListsAll plainJson singleName sampleBase [] (text "c") [] :=
  not_listsAll_of_refused singleName (List.cons_ne_nil _ _) rfl

/-! ### JSON pages -/

section Json

variable {library : JsonLibrary} (container : Container) (request : ListRequest)

variable (library)

end Json

end Cdnalizerd
