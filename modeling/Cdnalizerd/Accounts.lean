/-
The account that the constructor of `Rackspace` reads off a login answer.

The answer is a document of the JSON library.  Its subscripts come in two kinds:
the one of a document that may be changed adds the member it does not find, and
the one of a constant document has the member as its precondition.
-/

import Cdnalizerd.UrlDestination
import Cdnalizerd.Config
import Cdnalizerd.Library.Assignments

namespace Cdnalizerd

open Library Assignments

/-! ### Documents -/

inductive AccountFailure where
  /-- `json::parse_error` -/
  | notJson
  /-- `json::type_error`, with its number. -/
  | typeError (id : Nat)
  /-- A fatal log message. -/
  | aborted
  | failure (reason : Failure)
deriving DecidableEq

/-- The part of the JSON library that the logins use. -/
structure DocumentLibrary where
  Json : Type
  null : Json
  string : Bytes → Json
  object : List (Bytes × Json) → Json
  /-- `json::parse`, which may throw. -/
  parse : Bytes → Option Json
  /-- `find`: the member that is in the document. -/
  member? : Bytes → Json → Option Json
  /-- The subscript of a document that may be changed. -/
  subscript : Bytes → Json → Except AccountFailure Json
  constSubscript : Bytes → Json → Except AccountFailure Json
  /-- The implicit conversion to `std::string`. -/
  toStdString : Json → Except AccountFailure Bytes
  /-- What a range-based `for` goes through. -/
  elements : Json → List Json
  /-- The comparison with a literal. -/
  isString : Bytes → Json → Bool

namespace DocumentLibrary

variable (library : DocumentLibrary)

def readString (key : Bytes) (json : library.Json) : Except AccountFailure Bytes := do
  let member ← library.constSubscript key json
  library.toStdString member

/-- What the library documents of these operations. -/
structure Documented : Prop where
  /-- What is found or added is returned, and what is added is `null`. -/
  subscript : ∀ {key : Bytes} {json found : library.Json}, found ≠ library.null →
    (library.subscript key json = .ok found ↔ library.member? key json = some found)
  /-- Without the member there is nothing it may return. -/
  constSubscript : ∀ {key : Bytes} {json found : library.Json},
    library.constSubscript key json = .ok found ↔ library.member? key json = some found
  toStdString : ∀ {json : library.Json} {value : Bytes},
    library.toStdString json = .ok value ↔ json = library.string value
  isString : ∀ {json : library.Json} {value : Bytes},
    library.isString value json = true ↔ json = library.string value
  member_null : ∀ key, library.member? key library.null = none
  elements_null : library.elements library.null = []
  string_ne_null : ∀ value, library.string value ≠ library.null

variable {library}

theorem Documented.readString (documented : library.Documented) {key value : Bytes}
    {json : library.Json} :
    library.readString key json = .ok value ↔
      library.member? key json = some (library.string value) := by
  unfold DocumentLibrary.readString
  rw [bind_eq_ok_iff]
  constructor
  · intro returned
    obtain ⟨found, subscripted, isText⟩ := returned
    rw [documented.toStdString] at isText
    exact isText ▸ documented.constSubscript.mp subscripted
  · intro present
    exact ⟨_, documented.constSubscript.mpr present, documented.toStdString.mpr rfl⟩

theorem Documented.ne_null (documented : library.Documented) {json found : library.Json}
    {key : Bytes} (present : library.member? key json = some found) : json ≠ library.null := by
  rintro rfl
  rw [documented.member_null] at present
  cases present

end DocumentLibrary

/-! ### The constructor -/

namespace Rackspace

abbrev ParsedURL := { url : URL // URL.parse url.raw = .ok url }

/-- `URL(std::string)` -/
def urlOf (raw : Bytes) : Except AccountFailure ParsedURL :=
  match parsed : URL.parse raw with
  | .ok url => .ok ⟨url, (parse_raw parsed).symm ▸ parsed⟩
  | .error reason => .error (.failure reason)

def setPublicURL (rs : Rackspace) (region : Bytes) (url : ParsedURL) : Rackspace :=
  { rs with
    cloudFilesPublicURLs := Function.update rs.cloudFilesPublicURLs region (some url.val)
    publicParsed := by
      intro other known found
      by_cases same : other = region
      · rw [same, Function.update_self] at found
        exact Option.some.inj found ▸ url.property
      · rw [Function.update_of_ne same] at found
        exact rs.publicParsed other known found }

def setPrivateURL (rs : Rackspace) (region : Bytes) (url : ParsedURL) : Rackspace :=
  { rs with
    cloudFilesPrivateURLs := Function.update rs.cloudFilesPrivateURLs region (some url.val)
    privateParsed := by
      intro other known found
      by_cases same : other = region
      · rw [same, Function.update_self] at found
        exact Option.some.inj found ▸ url.property
      · rw [Function.update_of_ne same] at found
        exact rs.privateParsed other known found }

theorem parsed_of_none (_region : Bytes) (url : URL) (found : none = some url) :
    URL.parse url.raw = .ok url := by
  cases found

def withToken (token : Bytes) : Rackspace where
  token := token
  cloudFilesPublicURLs _region := none
  cloudFilesPrivateURLs _region := none
  publicParsed := parsed_of_none
  privateParsed := parsed_of_none

section Constructor

variable (library : DocumentLibrary)

/-- `data["access"]["token"]["id"]` -/
def readToken (data : library.Json) : Except AccountFailure Bytes := do
  let access ← library.subscript (text "access") data
  let token ← library.subscript (text "token") access
  let id ← library.subscript (text "id") token
  library.toStdString id

/-- The loop over the catalog, and the check behind it. -/
def findCloudFiles : List library.Json → Except AccountFailure library.Json
  | [] => .error .aborted
  | entry :: rest => do
      let name ← library.constSubscript (text "name") entry
      if library.isString (text "cloudFiles") name then .ok entry else findCloudFiles rest

/-- The loop body of the endpoints: the right side of an assignment comes first. -/
def addEndpoint (rs : Rackspace) (ep : library.Json) : Except AccountFailure Rackspace := do
  let publicText ← library.readString (text "publicURL") ep
  let publicURL ← urlOf publicText
  let publicRegion ← library.readString (text "region") ep
  let internalText ← library.readString (text "internalURL") ep
  let internalURL ← urlOf internalText
  let internalRegion ← library.readString (text "region") ep
  .ok ((rs.setPublicURL publicRegion publicURL).setPrivateURL internalRegion internalURL)

/-- `Rackspace(json &&data)` -/
def ofJson (data : library.Json) : Except AccountFailure Rackspace := do
  let token ← readToken library data
  let access ← library.subscript (text "access") data
  let catalog ← library.subscript (text "serviceCatalog") access
  let cloudFiles ← findCloudFiles library (library.elements catalog)
  let endpoints ← library.constSubscript (text "endpoints") cloudFiles
  (library.elements endpoints).foldlM (addEndpoint library) (withToken token)

end Constructor

end Rackspace

/-! ### What an answer says -/

structure Endpoint where
  region : Bytes
  publicURL : Rackspace.ParsedURL
  internalURL : Rackspace.ParsedURL

def Endpoint.url (endpoint : Endpoint) (snet : Bool) : URL :=
  if snet then endpoint.internalURL.val else endpoint.publicURL.val

namespace DocumentLibrary

variable (library : DocumentLibrary)

structure GivesEndpoint (ep : library.Json) (endpoint : Endpoint) : Prop where
  region : library.member? (text "region") ep = some (library.string endpoint.region)
  publicURL :
    library.member? (text "publicURL") ep = some (library.string endpoint.publicURL.val.raw)
  internalURL :
    library.member? (text "internalURL") ep = some (library.string endpoint.internalURL.val.raw)

/-- The first item of the catalog with this name, behind items that all have
another. -/
inductive FirstNamed (name : Bytes) : List library.Json → library.Json → Prop where
  | here {entry : library.Json} (rest : List library.Json)
      (named : library.member? (text "name") entry = some (library.string name)) :
      FirstNamed name (entry :: rest) entry
  | behind {entry found other : library.Json} {rest : List library.Json}
      (named : library.member? (text "name") entry = some other)
      (different : other ≠ library.string name) (later : FirstNamed name rest found) :
      FirstNamed name (entry :: rest) found

structure Describes (data : library.Json) (token : Bytes) (endpoints : List Endpoint) :
    Prop where
  token : ∃ access tokenOf, library.member? (text "access") data = some access ∧
    library.member? (text "token") access = some tokenOf ∧
    library.member? (text "id") tokenOf = some (library.string token)
  catalog : ∃ access catalog cloudFiles eps,
    library.member? (text "access") data = some access ∧
    library.member? (text "serviceCatalog") access = some catalog ∧
    library.FirstNamed (text "cloudFiles") (library.elements catalog) cloudFiles ∧
    library.member? (text "endpoints") cloudFiles = some eps ∧
    List.Forall₂ library.GivesEndpoint (library.elements eps) endpoints

end DocumentLibrary

namespace Rackspace

theorem urlOf_eq_ok_iff {raw : Bytes} {url : ParsedURL} :
    urlOf raw = .ok url ↔ raw = url.val.raw := by
  constructor
  · intro built
    unfold urlOf at built
    split at built
    · rename_i parsedURL parsed
      obtain rfl := Except.ok.inj built
      exact (parse_raw parsed).symm
    · cases built
  · rintro rfl
    unfold urlOf
    split
    · rename_i parsedURL parsed
      exact congrArg Except.ok (Subtype.ext (Except.ok.inj (parsed.symm.trans url.property)))
    · rename_i reason failed
      exact absurd (failed.symm.trans url.property) nofun

def setEndpoint (rs : Rackspace) (endpoint : Endpoint) : Rackspace :=
  (rs.setPublicURL endpoint.region endpoint.publicURL).setPrivateURL endpoint.region
    endpoint.internalURL

section Documents

variable {library : DocumentLibrary}

theorem addEndpoint_eq_ok_iff (documented : library.Documented) (rs : Rackspace)
    (ep : library.Json) (next : Rackspace) :
    addEndpoint library rs ep = .ok next ↔
      ∃ endpoint, library.GivesEndpoint ep endpoint ∧ rs.setEndpoint endpoint = next := by
  unfold addEndpoint
  constructor
  · intro returned
    obtain ⟨publicText, readPublic, afterPublic⟩ := bind_eq_ok_iff.mp returned
    obtain ⟨publicURL, builtPublic, afterURL⟩ := bind_eq_ok_iff.mp afterPublic
    obtain ⟨region, readRegion, afterRegion⟩ := bind_eq_ok_iff.mp afterURL
    obtain ⟨internalText, readInternal, afterInternal⟩ := bind_eq_ok_iff.mp afterRegion
    obtain ⟨internalURL, builtInternal, afterBoth⟩ := bind_eq_ok_iff.mp afterInternal
    obtain ⟨again, readAgain, assigned⟩ := bind_eq_ok_iff.mp afterBoth
    obtain rfl := Except.ok.inj (readRegion.symm.trans readAgain)
    obtain rfl := urlOf_eq_ok_iff.mp builtPublic
    obtain rfl := urlOf_eq_ok_iff.mp builtInternal
    exact ⟨⟨region, publicURL, internalURL⟩,
      ⟨documented.readString.mp readRegion, documented.readString.mp readPublic,
        documented.readString.mp readInternal⟩, Except.ok.inj assigned⟩
  · intro given
    obtain ⟨endpoint, gives, rfl⟩ := given
    have region := documented.readString.mpr gives.region
    exact bind_eq_ok_iff.mpr ⟨_, documented.readString.mpr gives.publicURL,
      bind_eq_ok_iff.mpr ⟨_, urlOf_eq_ok_iff.mpr rfl, bind_eq_ok_iff.mpr ⟨_, region,
        bind_eq_ok_iff.mpr ⟨_, documented.readString.mpr gives.internalURL,
          bind_eq_ok_iff.mpr ⟨_, urlOf_eq_ok_iff.mpr rfl,
            bind_eq_ok_iff.mpr ⟨_, region, rfl⟩⟩⟩⟩⟩⟩

theorem findCloudFiles_eq_ok_iff (documented : library.Documented)
    {catalog : List library.Json} {cloudFiles : library.Json} :
    findCloudFiles library catalog = .ok cloudFiles ↔
      library.FirstNamed (text "cloudFiles") catalog cloudFiles := by
  induction catalog with
  | nil =>
      constructor
      · intro impossible
        cases impossible
      · intro impossible
        cases impossible
  | cons entry rest ih =>
      unfold findCloudFiles
      rw [bind_eq_ok_iff]
      constructor
      · intro returned
        obtain ⟨name, subscripted, chosen⟩ := returned
        have present := documented.constSubscript.mp subscripted
        split at chosen
        · rename_i named
          obtain rfl := Except.ok.inj chosen
          exact .here rest (documented.isString.mp named ▸ present)
        · rename_i different
          exact .behind present (fun named => different (documented.isString.mpr named))
            (ih.mp chosen)
      · intro first
        cases first with
        | here _rest named =>
            exact ⟨_, documented.constSubscript.mpr named,
              if_pos (documented.isString.mpr rfl)⟩
        | behind named different later =>
            refine ⟨_, documented.constSubscript.mpr named, ?_⟩
            rw [if_neg (fun same => different (documented.isString.mp same))]
            exact ih.mpr later

theorem readToken_eq_ok_iff (documented : library.Documented) {data : library.Json}
    {token : Bytes} :
    readToken library data = .ok token ↔
      ∃ access tokenOf, library.member? (text "access") data = some access ∧
        library.member? (text "token") access = some tokenOf ∧
        library.member? (text "id") tokenOf = some (library.string token) := by
  unfold readToken
  constructor
  · intro returned
    obtain ⟨access, readAccess, afterAccess⟩ := bind_eq_ok_iff.mp returned
    obtain ⟨tokenOf, readTokenOf, afterToken⟩ := bind_eq_ok_iff.mp afterAccess
    obtain ⟨id, readId, isText⟩ := bind_eq_ok_iff.mp afterToken
    rw [documented.toStdString] at isText
    subst isText
    -- What has a member that is not null was not added on the way.
    have idPresent := (documented.subscript (documented.string_ne_null token)).mp readId
    have tokenPresent :=
      (documented.subscript (documented.ne_null idPresent)).mp readTokenOf
    have accessPresent :=
      (documented.subscript (documented.ne_null tokenPresent)).mp readAccess
    exact ⟨access, tokenOf, accessPresent, tokenPresent, idPresent⟩
  · intro present
    obtain ⟨access, tokenOf, accessPresent, tokenPresent, idPresent⟩ := present
    have readAccess :=
      (documented.subscript (documented.ne_null tokenPresent)).mpr accessPresent
    have readTokenOf :=
      (documented.subscript (documented.ne_null idPresent)).mpr tokenPresent
    have readId := (documented.subscript (documented.string_ne_null token)).mpr idPresent
    exact bind_eq_ok_iff.mpr ⟨_, readAccess, bind_eq_ok_iff.mpr ⟨_, readTokenOf,
      bind_eq_ok_iff.mpr ⟨_, readId, documented.toStdString.mpr rfl⟩⟩⟩

end Documents

/-! ### Acceptance and lookup -/

def endpointFor (endpoints : List Endpoint) (region : Bytes) (snet : Bool) :
    Except Failure URL :=
  match endpoints.reverse.find? (fun endpoint => endpoint.region = region) with
  | some endpoint => .ok (endpoint.url snet)
  | none => .error .outOfRange

theorem foldl_setEndpoint_public (endpoints : List Endpoint) (rs : Rackspace) :
    (endpoints.foldl setEndpoint rs).cloudFilesPublicURLs =
      endpoints.foldl (fun (filled : Bytes → Option URL) endpoint =>
        Function.update filled endpoint.region (some endpoint.publicURL.val))
        rs.cloudFilesPublicURLs :=
  (List.foldl_hom Rackspace.cloudFilesPublicURLs (fun _rs _endpoint => rfl)).symm

theorem foldl_setEndpoint_private (endpoints : List Endpoint) (rs : Rackspace) :
    (endpoints.foldl setEndpoint rs).cloudFilesPrivateURLs =
      endpoints.foldl (fun (filled : Bytes → Option URL) endpoint =>
        Function.update filled endpoint.region (some endpoint.internalURL.val))
        rs.cloudFilesPrivateURLs :=
  (List.foldl_hom Rackspace.cloudFilesPrivateURLs (fun _rs _endpoint => rfl)).symm

theorem foldl_setEndpoint_token (endpoints : List Endpoint) (rs : Rackspace) :
    (endpoints.foldl setEndpoint rs).token = rs.token := by
  induction endpoints generalizing rs with
  | nil => rfl
  | cons endpoint rest ih => exact ih (rs.setEndpoint endpoint)

theorem getURL_foldl_setEndpoint (endpoints : List Endpoint) (token region : Bytes)
    (snet : Bool) :
    (endpoints.foldl setEndpoint (withToken token)).getURL region snet =
      endpointFor endpoints region snet := by
  unfold getURL endpointFor Endpoint.url
  rw [foldl_setEndpoint_public, foldl_setEndpoint_private]
  cases snet with
  | true =>
      dsimp only [if_true]
      rw [if_pos rfl, foldl_update]
      cases endpoints.reverse.find? (fun endpoint => endpoint.region = region) with
      | some endpoint => rfl
      | none => rfl
  | false =>
      rw [if_neg Bool.false_ne_true]
      dsimp only
      rw [foldl_update]
      cases endpoints.reverse.find? (fun endpoint => endpoint.region = region) with
      | some endpoint => rfl
      | none => rfl

theorem publicURL_eq_toOption (rs : Rackspace) (region : Bytes) :
    rs.cloudFilesPublicURLs region = (rs.getURL region false).toOption := by
  unfold getURL
  rw [if_neg Bool.false_ne_true]
  dsimp only
  cases rs.cloudFilesPublicURLs region with
  | none => rfl
  | some url => rfl

theorem privateURL_eq_toOption (rs : Rackspace) (region : Bytes) :
    rs.cloudFilesPrivateURLs region = (rs.getURL region true).toOption := by
  unfold getURL
  rw [if_pos rfl]
  dsimp only
  cases rs.cloudFilesPrivateURLs region with
  | none => rfl
  | some url => rfl

/-- An account is its token and what `getURL` says. -/
theorem eq_of_getURL {rs other : Rackspace} (sameToken : rs.token = other.token)
    (sameURLs : ∀ region snet, rs.getURL region snet = other.getURL region snet) :
    rs = other := by
  have publicSame : rs.cloudFilesPublicURLs = other.cloudFilesPublicURLs := by
    funext region
    rw [publicURL_eq_toOption, publicURL_eq_toOption, sameURLs]
  have privateSame : rs.cloudFilesPrivateURLs = other.cloudFilesPrivateURLs := by
    funext region
    rw [privateURL_eq_toOption, privateURL_eq_toOption, sameURLs]
  cases rs
  cases other
  simp only at sameToken publicSame privateSame
  subst sameToken publicSame privateSame
  rfl

/-- An answer is accepted exactly if it has a token and, under the first item of
the catalog that is named `cloudFiles`, endpoints whose addresses all parse. The
address of a region is then the one given last. -/
theorem ofJson_eq_ok_iff {library : DocumentLibrary} (documented : library.Documented)
    {data : library.Json} {rs : Rackspace} :
    ofJson library data = .ok rs ↔
      ∃ endpoints, library.Describes data rs.token endpoints ∧
        ∀ region snet, rs.getURL region snet = endpointFor endpoints region snet := by
  unfold ofJson
  constructor
  · intro returned
    obtain ⟨token, hasToken, afterToken⟩ := bind_eq_ok_iff.mp returned
    obtain ⟨access, readAccess, afterAccess⟩ := bind_eq_ok_iff.mp afterToken
    obtain ⟨catalog, readCatalog, afterCatalog⟩ := bind_eq_ok_iff.mp afterAccess
    obtain ⟨cloudFiles, chosen, afterChoice⟩ := bind_eq_ok_iff.mp afterCatalog
    obtain ⟨eps, readEps, looped⟩ := bind_eq_ok_iff.mp afterChoice
    obtain ⟨endpoints, given, rfl⟩ := (foldlM_eq_ok_iff (addEndpoint_eq_ok_iff documented)).mp looped
    have first := (findCloudFiles_eq_ok_iff documented).mp chosen
    have catalogThere : catalog ≠ library.null := by
      rintro rfl
      rw [documented.elements_null] at first
      cases first
    have catalogPresent := (documented.subscript catalogThere).mp readCatalog
    have accessPresent :=
      (documented.subscript (documented.ne_null catalogPresent)).mp readAccess
    have epsPresent := documented.constSubscript.mp readEps
    refine ⟨endpoints, ⟨?_, access, catalog, cloudFiles, eps, accessPresent, catalogPresent,
      first, epsPresent, given⟩, getURL_foldl_setEndpoint endpoints token⟩
    rw [foldl_setEndpoint_token]
    exact (readToken_eq_ok_iff documented).mp hasToken
  · intro described
    obtain ⟨endpoints, describes, urls⟩ := described
    obtain ⟨access, catalog, cloudFiles, eps, accessPresent, catalogPresent, first, epsPresent,
      given⟩ := describes.catalog
    have catalogThere : catalog ≠ library.null := by
      rintro rfl
      rw [documented.elements_null] at first
      cases first
    have readCatalog := (documented.subscript catalogThere).mpr catalogPresent
    have readAccess :=
      (documented.subscript (documented.ne_null catalogPresent)).mpr accessPresent
    have built : endpoints.foldl setEndpoint (withToken rs.token) = rs := by
      apply eq_of_getURL
      · exact foldl_setEndpoint_token endpoints (withToken rs.token)
      · intro region snet
        rw [getURL_foldl_setEndpoint, urls]
    exact bind_eq_ok_iff.mpr ⟨_, (readToken_eq_ok_iff documented).mpr describes.token,
      bind_eq_ok_iff.mpr ⟨_, readAccess, bind_eq_ok_iff.mpr ⟨_, readCatalog,
        bind_eq_ok_iff.mpr ⟨_, (findCloudFiles_eq_ok_iff documented).mpr first,
          bind_eq_ok_iff.mpr ⟨_, documented.constSubscript.mpr epsPresent,
            (foldlM_eq_ok_iff (addEndpoint_eq_ok_iff documented)).mpr ⟨_, given, built⟩⟩⟩⟩⟩⟩

end Rackspace

/-! ### Documents as values -/

/-- A document of a library without numbers. -/
inductive Json where
  | null
  | string (value : Bytes)
  | array (items : List Json)
  | object (members : List (Bytes × Json))

namespace Json

def member? (key : Bytes) : Json → Option Json
  | .object members => members.lookup key
  | _ => none

/-- `null` becomes an object, and what is added to an object is `null`. -/
def subscript (key : Bytes) : Json → Except AccountFailure Json
  | .null => .ok .null
  | .object members => .ok ((members.lookup key).getD .null)
  | _ => .error (.typeError 305)

def constSubscript (key : Bytes) : Json → Except AccountFailure Json
  | .object members =>
      match members.lookup key with
      | some member => .ok member
      | none => .error (.failure .undefinedBehaviour)
  | _ => .error (.typeError 305)

def toStdString : Json → Except AccountFailure Bytes
  | .string value => .ok value
  | _ => .error (.typeError 302)

def elements : Json → List Json
  | .null => []
  | .array items => items
  | .object members => members.map Prod.snd
  | other => [other]

def isString (value : Bytes) : Json → Bool
  | .string found => found == value
  | _ => false

def library (parse : Bytes → Option Json) : DocumentLibrary where
  Json := Json
  null := .null
  string := .string
  object := .object
  parse := parse
  member? := member?
  subscript := subscript
  constSubscript := constSubscript
  toStdString := toStdString
  elements := elements
  isString := isString

theorem subscript_eq_ok_iff {key : Bytes} {json found : Json} (nonNull : found ≠ .null) :
    json.subscript key = .ok found ↔ json.member? key = some found := by
  cases json with
  | object members =>
      simp only [subscript, member?, Except.ok.injEq]
      cases members.lookup key with
      | none => simpa using nonNull.symm
      | some member => simp
  | null => simpa [subscript, member?] using nonNull.symm
  | string value => simp [subscript, member?]
  | array items => simp [subscript, member?]

theorem constSubscript_eq_ok_iff {key : Bytes} {json found : Json} :
    json.constSubscript key = .ok found ↔ json.member? key = some found := by
  cases json with
  | object members =>
      simp only [constSubscript, member?]
      cases members.lookup key with
      | none => simp
      | some member => simp
  | null => simp [constSubscript, member?]
  | string value => simp [constSubscript, member?]
  | array items => simp [constSubscript, member?]

theorem toStdString_eq_ok_iff {json : Json} {value : Bytes} :
    json.toStdString = .ok value ↔ json = .string value := by
  cases json <;> simp [toStdString]

theorem isString_eq_true_iff {json : Json} {value : Bytes} :
    json.isString value = true ↔ json = .string value := by
  cases json <;> simp [isString]

theorem documented (parse : Bytes → Option Json) : (library parse).Documented where
  subscript := subscript_eq_ok_iff
  constSubscript := constSubscript_eq_ok_iff
  toStdString := toStdString_eq_ok_iff
  isString := isString_eq_true_iff
  member_null _key := rfl
  elements_null := rfl
  string_ne_null _value := Json.noConfusion

end Json

/-- A catalog with a service before `cloudFiles`, which has two endpoints for one
region. -/
def sampleAnswer (token : Bytes) : Json :=
  let endpoint (url : String) : Json := .object
    [(text "internalURL", .string (text url)), (text "publicURL", .string (text url)),
      (text "region", .string (text "r"))]
  .object [(text "access", .object
    [(text "serviceCatalog", .array
      [.object [(text "endpoints", .array []), (text "name", .string (text "cloudDNS"))],
        .object
          [(text "endpoints", .array [endpoint "https://g/v1", endpoint "https://h/v1"]),
            (text "name", .string (text "cloudFiles"))]]),
      (text "token", .object [(text "id", .string token)])])]

def sampleParse (body : Bytes) : Option Json :=
  some (sampleAnswer body)

theorem Rackspace.ofJson_eq_ok_iff_sample :
    ∃ rs endpoints, (Json.library sampleParse).Describes (sampleAnswer (text "t")) rs.token
        endpoints ∧
      Rackspace.getURL rs (text "r") false = Rackspace.endpointFor endpoints (text "r") false := by
  cases built : Rackspace.ofJson (Json.library sampleParse) (sampleAnswer (text "t")) with
  | ok rs =>
      obtain ⟨endpoints, described, urls⟩ :=
        (Rackspace.ofJson_eq_ok_iff (Json.documented sampleParse)).mp built
      exact ⟨rs, endpoints, described, urls _ _⟩
  | error failure =>
      have accepted : (Rackspace.ofJson (Json.library sampleParse)
          (sampleAnswer (text "t"))).toOption.isSome = true := by
        decide
      rw [built] at accepted
      cases accepted

end Cdnalizerd
