/-
The configuration, the accounts and the local files as the processes see them.
-/

import Mathlib.Data.List.Nodup
import Cdnalizerd.Url

namespace Cdnalizerd

/-! ### Configuration entries -/

/-- A regular expression is known by the strings it is found in. -/
structure Regex where
  search : Bytes → Bool

/-- A mapping from a local folder to a remote location. -/
structure ConfigEntry where
  username : Bytes := []
  apikey : Bytes := []
  region : Bytes := []
  container : Bytes := []
  snet : Bool := false
  move : Bool := false
  localDir : Bytes := []
  remoteDir : Bytes := []
  filesToIgnore : List Regex := []
  directoriesToIgnore : List Regex := []

namespace ConfigEntry

def shouldIgnoreDirectory (entry : ConfigEntry) (dirName : Bytes) : Bool :=
  entry.directoriesToIgnore.any fun regex => regex.search dirName

def shouldIgnoreFile (entry : ConfigEntry) (fileName : Bytes) : Bool :=
  entry.shouldIgnoreDirectory fileName ||
    entry.filesToIgnore.any fun regex => regex.search fileName

def validate (entry : ConfigEntry) : Bool :=
  !entry.username.isEmpty && !entry.apikey.isEmpty && !entry.region.isEmpty &&
    !entry.container.isEmpty && !entry.localDir.isEmpty && !entry.remoteDir.isEmpty

theorem names_ne_nil_of_validate {entry : ConfigEntry} (valid : entry.validate = true) :
    entry.container ≠ [] ∧ entry.remoteDir ≠ [] := by
  simp only [validate, Bool.and_eq_true, Bool.not_eq_true', List.isEmpty_eq_false_iff] at valid
  exact ⟨valid.1.1.2, valid.2⟩

end ConfigEntry

/-- What is left of `extra` behind the prefix `base`, and nothing where `base`
is no prefix of it. -/
def unJoinPaths (base extra : Bytes) : Bytes :=
  if base <+: extra then extra.drop base.length else []

theorem unJoinPaths_append (base rest : Bytes) : unJoinPaths base (base ++ rest) = rest := by
  unfold unJoinPaths
  rw [if_pos (List.prefix_append base rest), List.drop_left]

/-- Only a name that starts with the base leaves something over. -/
theorem unJoinPaths_eq_iff {base extra rest : Bytes} (nonempty : rest ≠ []) :
    unJoinPaths base extra = rest ↔ extra = base ++ rest := by
  constructor
  · intro left
    unfold unJoinPaths at left
    split at left
    · rename_i isPrefixed
      obtain ⟨behind, split⟩ := isPrefixed
      rw [← split, List.drop_left] at left
      rw [← split, left]
    · exact absurd left.symm nonempty
  · intro split
    rw [split, unJoinPaths_append]

/-! ### Accounts -/

/-- A login: the token, and the endpoint of every region. Each endpoint went
through the parser when the login was read. -/
structure Rackspace where
  token : Bytes
  cloudFilesPublicURLs : Bytes → Option URL
  cloudFilesPrivateURLs : Bytes → Option URL
  publicParsed : ∀ region url, cloudFilesPublicURLs region = some url →
    URL.parse url.raw = .ok url
  privateParsed : ∀ region url, cloudFilesPrivateURLs region = some url →
    URL.parse url.raw = .ok url

def Rackspace.getURL (rs : Rackspace) (region : Bytes) (snet : Bool) : Except Failure URL :=
  let urls := if snet then rs.cloudFilesPrivateURLs else rs.cloudFilesPublicURLs
  match urls region with
  | some url => .ok url
  | none => .error .outOfRange

theorem Rackspace.parse_of_getURL {rs : Rackspace} {region : Bytes} {snet : Bool} {url : URL}
    (found : rs.getURL region snet = .ok url) : URL.parse url.raw = .ok url := by
  unfold getURL at found
  cases snet with
  | true =>
      cases entry : rs.cloudFilesPrivateURLs region with
      | none => simp [entry] at found
      | some endpoint =>
          simp only [if_true, entry, Except.ok.injEq] at found
          exact found ▸ rs.privateParsed region endpoint entry
  | false =>
      cases entry : rs.cloudFilesPublicURLs region with
      | none => simp [entry] at found
      | some endpoint =>
          simp only [Bool.false_eq_true, if_false, entry, Except.ok.injEq] at found
          exact found ▸ rs.publicParsed region endpoint entry

def sampleAccount : Rackspace where
  token := text "t"
  cloudFilesPublicURLs region := if region = text "r" then some sampleBase else none
  cloudFilesPrivateURLs _region := none
  publicParsed := by
    intro region url found
    split at found
    · exact Option.some.inj found ▸ parse_sampleBase
    · cases found
  privateParsed := by
    intro region url found
    cases found

abbrev AccountCache := Bytes → Option Rackspace

def sampleEntry : ConfigEntry where
  username := text "u"
  apikey := text "k"
  region := text "r"
  container := text "c"
  localDir := text "/d"
  remoteDir := text "i"

def neighbourEntry : ConfigEntry :=
  { sampleEntry with localDir := text "/e", remoteDir := text "j" }

def sampleAccounts : AccountCache := fun username =>
  if username = text "u" then some sampleAccount else none

/-! ### Jobs -/

/-- What a job will do, as `makeUploadJob`, `makeConditionalUploadJob` and
`makeRemoteDeleteJob` build it. -/
inductive Job where
  | upload (source : Bytes) (dest : URL)
  | conditionalUpload (source : Bytes) (dest : URL)
  | remoteDelete (dest : URL)
deriving DecidableEq

def Job.destination : Job → URL
  | .upload _source dest => dest
  | .conditionalUpload _source dest => dest
  | .remoteDelete dest => dest

def Job.source : Job → Bytes
  | .upload source _dest => source
  | .conditionalUpload source _dest => source
  | .remoteDelete _dest => []

/-- What a process asks of the worker manager: a worker for a URL, and a job
for the worker it was given last. -/
inductive Request where
  | getWorker (url : Bytes)
  | addJob (job : Job)
deriving DecidableEq

/-! ### Local files -/

/-- The elements a path is compared by: the root, then the names. -/
def pathElements (path : Bytes) : List Bytes :=
  let names := (path.splitOn slash).filter (· ≠ [])
  if path.head? = some slash then [slash] :: names else names

/-- The local tree while nothing changes it, through `boost::filesystem`.  Every
query may throw.  A tree never lists one path twice. -/
structure LocalTree where
  recursiveEntries : Bytes → Except Failure (List Bytes)
  isDirectory : Bytes → Except Failure Bool
  fileSize : Bytes → Except Failure Nat
  /-- In seconds since the epoch. -/
  lastWriteTime : Bytes → Except Failure Int
  relative : Bytes → Bytes → Except Failure Bytes
  entriesDistinct : ∀ root listed, recursiveEntries root = .ok listed →
    (listed.map pathElements).Nodup

theorem LocalTree.nodup_of_entries {tree : LocalTree} {root : Bytes} {listed : List Bytes}
    (enumerated : tree.recursiveEntries root = .ok listed) : listed.Nodup :=
  (tree.entriesDistinct root listed enumerated).of_map

theorem LocalTree.pathElements_injOn {tree : LocalTree} {root : Bytes} {listed : List Bytes}
    (enumerated : tree.recursiveEntries root = .ok listed) {left right : Bytes}
    (leftListed : left ∈ listed) (rightListed : right ∈ listed)
    (same : pathElements left = pathElements right) : left = right :=
  List.inj_on_of_nodup_map (tree.entriesDistinct root listed enumerated) leftListed
    rightListed same

def LocalTree.ofEntries (entries : List (Bytes × Option (Nat × Int)))
    (distinct : ((entries.map Prod.fst).map pathElements).Nodup) : LocalTree where
  recursiveEntries _root := .ok (entries.map Prod.fst)
  isDirectory path := .ok (entries.lookup path = some none)
  fileSize path :=
    match entries.lookup path with
    | some (some (size, _written)) => .ok size
    | _ => .error (.systemError 2)
  lastWriteTime path :=
    match entries.lookup path with
    | some (some (_size, written)) => .ok written
    | _ => .error (.systemError 2)
  relative path base := .ok (path.drop (base.length + 1))
  entriesDistinct := by
    intro _root listed enumerated
    exact Except.ok.inj enumerated ▸ distinct

end Cdnalizerd
