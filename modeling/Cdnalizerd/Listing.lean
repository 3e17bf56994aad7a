/-
Listing a container page by page: `doGetPages`.

A round writes a request, reads its answer, takes the page out of it and pushes
it.  The lambda that takes the page out is chosen by the payload type, and the
choice is the wrong way round: pages of strings are given the body as one JSON
string, JSON pages are given its lines.
-/

import Cdnalizerd.Url
import Cdnalizerd.Library.Traced

namespace Cdnalizerd

open Library Traced

def newline : UInt8 := 10

inductive ListFailure where
  /-- A `system_error` of the connection. -/
  | connection (code : Nat)
  /-- An exception of the JSON library, under its id. -/
  | json (id : Nat)
  /-- `std::runtime_error` with the status of the answer. -/
  | invalidResponse (what : String) (status : Nat)
  /-- `assert(count <= limit)`. -/
  | assertion

/-- The part of the JSON library that `doGetPages` uses. -/
structure JsonLibrary where
  Json : Type
  /-- `to_json` of a string. -/
  ofString : Bytes → Json
  /-- `to_json` of a vector of strings. -/
  ofStrings : List Bytes → Json
  /-- The implicit conversion to a vector of strings. -/
  toStrings : Json → Except ListFailure (List Bytes)

/-- A payload type: whether it is the JSON type, and how `out` converts what it is given. -/
structure Payload (library : JsonLibrary) where
  Page : Type
  isJson : Bool
  ofStrings : List Bytes → Except ListFailure Page
  ofJson : library.Json → Except ListFailure Page

def vectorOfStrings (library : JsonLibrary) : Payload library where
  Page := List Bytes
  isJson := false
  ofStrings := .ok
  ofJson := library.toStrings

def limit : Nat := 10001

structure ListRequest where
  baseURL : URL
  prefixParam : Bytes
  container : Bytes
  extraParams : Bytes
  marker : Bytes

def ListRequest.target (request : ListRequest) : Bytes :=
  request.baseURL.path ++ slash :: request.container ++ text "?limit=" ++ text (toString limit) ++
    (if request.marker ≠ [] then text "&marker=" ++ request.marker else []) ++
    (if request.prefixParam ≠ [] then text "&prefix=" ++ request.prefixParam else []) ++
    request.extraParams

structure ListReply where
  status : Nat
  body : Bytes

structure ListServer where
  /-- The construction of `conn` for a host. -/
  connect : Bytes → Except ListFailure Unit
  answer : ListRequest → Except ListFailure ListReply

inductive ListAction (page : Type) where
  | requested (request : ListRequest)
  | pushed (page : page)

abbrev ListRun {library : JsonLibrary} (payload : Payload library) : Type → Type :=
  Traced ListFailure (ListAction payload.Page)

def bodyLines (body : Bytes) : List Bytes :=
  (body.splitOn newline).filter (fun entry => !entry.isEmpty)

section Rounds

variable {library : JsonLibrary} (payload : Payload library)

/-- The first lambda, with the count and the marker it leaves. -/
def pushLines (marker body : Bytes) : ListRun payload (Nat × Bytes) := do
  let data := bodyLines body
  let page ← ask (payload.ofStrings data)
  emit (.pushed page)
  return (1 + data.length, data.getLast?.getD marker)

/-- The second lambda, which leaves the count and the marker alone. -/
def pushBody (marker body : Bytes) : ListRun payload (Nat × Bytes) := do
  let page ← ask (payload.ofJson (library.ofString body))
  emit (.pushed page)
  return (1, marker)

/-- The `switch` over the status.  404 and 409 fall through to the default. -/
def takePage (marker : Bytes) (reply : ListReply) : ListRun payload (Nat × Bytes) :=
  if reply.status = 200 then
    if payload.isJson then pushLines payload marker reply.body
    else pushBody payload marker reply.body
  else if reply.status = 204 then pure (1, marker)
  else fail (.invalidResponse "Invalid Response when trying to list container" reply.status)

/-- The loop, for so many rounds at most; its value says whether it came to its end. -/
def listRounds (answer : ListRequest → Except ListFailure ListReply) (request : ListRequest) :
    Nat → ListRun payload Bool
  | 0 => pure false
  | rounds + 1 => do
      emit (.requested request)
      let reply ← ask (answer request)
      let (count, marker) ← takePage payload request.marker reply
      if limit < count then fail .assertion
      else if count ≠ limit then return true
      else listRounds answer { request with marker } rounds

def doGetPages (server : ListServer) (baseURL : URL)
    (prefixParam container extraParams : Bytes) (rounds : Nat) : ListRun payload Bool := do
  ask (server.connect baseURL.host)
  listRounds payload server.answer
    { baseURL
      prefixParam
      container
      extraParams
      marker := [] }
    rounds

end Rounds

def ListAction.page? {page : Type} : ListAction page → Option page
  | .requested _ => none
  | .pushed page => some page

def pushedPages {page : Type} (trace : List (ListAction page)) : List page :=
  trace.filterMap ListAction.page?

end Cdnalizerd
