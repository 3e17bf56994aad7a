/-
Reading the configuration, one entry from each file.

A file that cannot be read, or lacks something, is logged and left out.  The
property trees, the parsers of the file formats and those of regular expressions
belong to the surroundings, and so does what is in memory that is never written.
-/

import Cdnalizerd.ConfigEntries
import Cdnalizerd.Library.Stateful

namespace Cdnalizerd

open Library SortedByKey

/-! ### Property trees -/

inductive ReadError where
  /-- The file is not in its format. -/
  | parser (what : Bytes)
  /-- `ptree_bad_path`. -/
  | badPath (key : Bytes)
  | regexError (code : Nat)
  | configError (error : ConfigError)

/-- What the reader uses of its libraries. -/
structure ReaderLibraries where
  /-- `ptree` -/
  Tree : Type
  /-- The tree that no parser has filled. -/
  empty : Tree
  /-- `get<std::string>` -/
  get : Tree → String → Except ReadError Bytes
  /-- `get` of a flag, with its default. -/
  getFlag : Tree → String → Bool → Bool
  getChildOptional : Tree → String → Option Tree
  /-- The subtrees that a range-based `for` goes through. -/
  subtrees : Tree → List Tree
  /-- `get_value<std::string>` -/
  getValue : Tree → Bytes
  /-- The constructor of `std::regex`, with the code of its exception. -/
  regex : Bytes → Except Nat Regex

/-- What the libraries document of these operations. -/
structure ReaderLibraries.Documented (libraries : ReaderLibraries) : Prop where
  /-- `get` throws exactly where there is no subtree. -/
  get : ∀ {tree : libraries.Tree} {key : String} {value : Bytes},
    libraries.get tree key = .ok value ↔
      ∃ child, libraries.getChildOptional tree key = some child ∧
        libraries.getValue child = value
  empty : ∀ key, libraries.getChildOptional libraries.empty key = none

def ReaderLibraries.values (libraries : ReaderLibraries) (tree : libraries.Tree) (key : String) :
    List Bytes :=
  match libraries.getChildOptional tree key with
  | some list => (libraries.subtrees list).map libraries.getValue
  | none => []

/-! ### Reading one tree -/

section Trees

variable (libraries : ReaderLibraries)

def compileAll : List Bytes → Except ReadError (List Regex)
  | [] => .ok []
  | pattern :: patterns => do
      let regex ← (libraries.regex pattern).mapError .regexError
      let regexes ← compileAll patterns
      return regex :: regexes

/-- `config.addEntry`, which throws before it changes anything. -/
def addToConfig (entry : ConfigEntry) : Stateful Entries ReadError Unit :=
  fun config =>
    match config.addEntry entry with
    | .ok next => (.ok (), next)
    | .error thrown => (.error (.configError thrown), config)

/-- The flag `move` of the local entry is never written. -/
def parseTree (move : Bool) (pt : libraries.Tree) : Stateful Entries ReadError Unit := do
  let username ← Stateful.ask (libraries.get pt "username")
  let apikey ← Stateful.ask (libraries.get pt "apikey")
  let region ← Stateful.ask (libraries.get pt "region")
  let container ← Stateful.ask (libraries.get pt "container")
  let localDir ← Stateful.ask (libraries.get pt "local_dir")
  let remoteDir ← Stateful.ask (libraries.get pt "remote_dir")
  let snet := libraries.getFlag pt "snet" false
  let filesToIgnore ← Stateful.ask (compileAll libraries (libraries.values pt "files-to-ignore"))
  let directoriesToIgnore ←
    Stateful.ask (compileAll libraries (libraries.values pt "directories-to-ignore"))
  addToConfig {
    username := username
    apikey := apikey
    region := region
    container := container
    snet := snet
    move := move
    localDir := localDir
    remoteDir := remoteDir
    filesToIgnore := filesToIgnore
    directoriesToIgnore := directoriesToIgnore }

end Trees

/-! ### Reading files -/

inductive Format where
  | ini | json | xml | info

def toLower (byte : UInt8) : UInt8 :=
  if 65 ≤ byte ∧ byte ≤ 90 then byte + 32 else byte

def iendsWith (input test : Bytes) : Bool :=
  (test.map toLower).isSuffixOf (input.map toLower)

def formatOf (filename : Bytes) : Option Format :=
  if iendsWith filename (text ".ini") then some .ini
  else if iendsWith filename (text ".json") then some .json
  else if iendsWith filename (text ".xml") then some .xml
  else if iendsWith filename (text ".info") then some .info
  else none

structure ConfigFile (libraries : ReaderLibraries) where
  filename : Bytes
  /-- What the parser of a format makes of the file. -/
  parsed : Format → Except ReadError libraries.Tree
  /-- What the memory of the flag `move` holds while the file is read. -/
  move : Bool

section Files

variable (libraries : ReaderLibraries)

/-- A file without a format leaves the tree empty. -/
def ConfigFile.tree (file : ConfigFile libraries) : Except ReadError libraries.Tree :=
  match formatOf file.filename with
  | some format => file.parsed format
  | none => .ok libraries.empty

def readFile (file : ConfigFile libraries) : Stateful Entries ReadError Unit :=
  Stateful.catchWith
    (do
      let pt ← Stateful.ask (file.tree libraries)
      parseTree libraries file.move pt)
    (fun _logged => pure ())

def readFiles : List (ConfigFile libraries) → Stateful Entries ReadError Unit
  | [] => pure ()
  | file :: files => do
      readFile libraries file
      readFiles files

structure ConfigPath (libraries : ReaderLibraries) where
  isDirectory : Except ReadError Bool
  /-- The files of the directory in the order the iterator comes to them. -/
  files : List (ConfigFile libraries)
  /-- How the iterator ends. -/
  ending : Except ReadError Unit
  /-- The file that is read where there is no directory. -/
  itself : ConfigFile libraries

/-- The `try` block of `readConfig`. -/
def readPath (path : ConfigPath libraries) : Stateful Entries ReadError Unit := do
  let directory ← Stateful.ask path.isDirectory
  if directory then do
    readFiles libraries path.files
    Stateful.ask path.ending
  else readFile libraries path.itself

def readConfig (path : ConfigPath libraries) : Except ReadError Entries :=
  let read := readPath libraries path Entries.empty
  read.1.map (fun _returned => read.2)

end Files

/-! ### Well-formed trees -/

def requiredKeys : List String :=
  ["username", "apikey", "region", "container", "local_dir", "remote_dir"]

namespace ReaderLibraries

variable (libraries : ReaderLibraries)

def value (tree : libraries.Tree) (key : String) : Bytes :=
  (libraries.get tree key).toOption.getD []

def Present (tree : libraries.Tree) (key : String) : Prop :=
  ∃ value, libraries.get tree key = .ok value ∧ value ≠ []

def Compiles (patterns : List Bytes) : Prop :=
  ∀ pattern ∈ patterns, ∃ regex, libraries.regex pattern = .ok regex

def regexes (patterns : List Bytes) : List Regex :=
  patterns.filterMap (fun pattern => (libraries.regex pattern).toOption)

variable {libraries}

theorem get_of_present {tree : libraries.Tree} {key : String}
    (present : libraries.Present tree key) :
    libraries.get tree key = .ok (libraries.value tree key) ∧ libraries.value tree key ≠ [] := by
  obtain ⟨found, returned, nonempty⟩ := present
  unfold value
  rw [returned]
  exact ⟨rfl, nonempty⟩

/-- The key is there, and a value with it. -/
theorem Documented.present_iff (documented : libraries.Documented) {tree : libraries.Tree}
    {key : String} :
    libraries.Present tree key ↔
      ∃ child, libraries.getChildOptional tree key = some child ∧
        libraries.getValue child ≠ [] := by
  constructor
  · intro present
    obtain ⟨found, returned, nonempty⟩ := present
    obtain ⟨child, there, rfl⟩ := documented.get.mp returned
    exact ⟨child, there, nonempty⟩
  · intro present
    obtain ⟨child, there, nonempty⟩ := present
    exact ⟨_, documented.get.mpr ⟨child, there, rfl⟩, nonempty⟩

end ReaderLibraries

section Trees

variable (libraries : ReaderLibraries)

/-- Every required key is there with a value, and every pattern is valid. -/
structure WellFormed (tree : libraries.Tree) : Prop where
  keys : ∀ key ∈ requiredKeys, libraries.Present tree key
  files : libraries.Compiles (libraries.values tree "files-to-ignore")
  directories : libraries.Compiles (libraries.values tree "directories-to-ignore")

def entryOf (move : Bool) (tree : libraries.Tree) : ConfigEntry where
  username := libraries.value tree "username"
  apikey := libraries.value tree "apikey"
  region := libraries.value tree "region"
  container := libraries.value tree "container"
  snet := libraries.getFlag tree "snet" false
  move := move
  localDir := libraries.value tree "local_dir"
  remoteDir := libraries.value tree "remote_dir"
  filesToIgnore := libraries.regexes (libraries.values tree "files-to-ignore")
  directoriesToIgnore := libraries.regexes (libraries.values tree "directories-to-ignore")

variable {libraries}

theorem compileAll_of_compiles {patterns : List Bytes} (valid : libraries.Compiles patterns) :
    compileAll libraries patterns = .ok (libraries.regexes patterns) := by
  induction patterns with
  | nil => rfl
  | cons pattern patterns ih =>
      obtain ⟨regex, compiled⟩ := valid pattern List.mem_cons_self
      have rest := ih (fun other member => valid other (List.mem_cons_of_mem pattern member))
      unfold compileAll ReaderLibraries.regexes
      rw [compiled, rest, List.filterMap_cons_some (by rw [compiled]; rfl)]
      rfl

theorem compiles_of_compileAll {patterns : List Bytes} {compiled : List Regex}
    (returned : compileAll libraries patterns = .ok compiled) : libraries.Compiles patterns := by
  induction patterns generalizing compiled with
  | nil =>
      intro pattern impossible
      cases impossible
  | cons first patterns ih =>
      unfold compileAll at returned
      cases here : libraries.regex first with
      | error code =>
          rw [here] at returned
          cases returned
      | ok regex =>
          rw [here] at returned
          cases later : compileAll libraries patterns with
          | error thrown =>
              rw [later] at returned
              cases returned
          | ok regexes =>
              intro pattern member
              rcases List.mem_cons.mp member with rfl | inRest
              · exact ⟨regex, here⟩
              · exact ih later pattern inRest

variable {move : Bool} {tree : libraries.Tree} {config next : Entries}

theorem WellFormed.validate (good : WellFormed libraries tree) (move : Bool) :
    (entryOf libraries move tree).validate = true := by
  have filled (key : String) (required : key ∈ requiredKeys) : libraries.value tree key ≠ [] :=
    (ReaderLibraries.get_of_present (good.keys key required)).2
  simp [ConfigEntry.validate, entryOf, filled "username" (by decide),
    filled "apikey" (by decide), filled "region" (by decide), filled "container" (by decide),
    filled "local_dir" (by decide), filled "remote_dir" (by decide)]

theorem parseTree_of_wellFormed (good : WellFormed libraries tree)
    (added : config.addEntry (entryOf libraries move tree) = .ok next) :
    parseTree libraries move tree config = (.ok (), next) := by
  have got (key : String) (required : key ∈ requiredKeys) :
      libraries.get tree key = .ok (libraries.value tree key) :=
    (ReaderLibraries.get_of_present (good.keys key required)).1
  unfold parseTree
  rw [got "username" (by decide), got "apikey" (by decide), got "region" (by decide),
    got "container" (by decide), got "local_dir" (by decide), got "remote_dir" (by decide),
    compileAll_of_compiles good.files, compileAll_of_compiles good.directories]
  change addToConfig (entryOf libraries move tree) config = _
  unfold addToConfig
  rw [added]

theorem addToConfig_returned {entry : ConfigEntry}
    (returned : addToConfig entry config = (.ok (), next)) : config.addEntry entry = .ok next := by
  unfold addToConfig at returned
  cases added : config.addEntry entry with
  | error thrown =>
      rw [added] at returned
      cases returned
  | ok more =>
      rw [added] at returned
      rw [(Prod.mk.inj returned).2]

theorem wellFormed_of_parseTree
    (returned : parseTree libraries move tree config = (.ok (), next)) :
    WellFormed libraries tree := by
  unfold parseTree at returned
  obtain ⟨username, gotUsername, afterUsername⟩ := Stateful.ask_bind_eq_ok_iff.mp returned
  obtain ⟨apikey, gotApikey, afterApikey⟩ := Stateful.ask_bind_eq_ok_iff.mp afterUsername
  obtain ⟨region, gotRegion, afterRegion⟩ := Stateful.ask_bind_eq_ok_iff.mp afterApikey
  obtain ⟨container, gotContainer, afterContainer⟩ := Stateful.ask_bind_eq_ok_iff.mp afterRegion
  obtain ⟨localDir, gotLocal, afterLocal⟩ := Stateful.ask_bind_eq_ok_iff.mp afterContainer
  obtain ⟨remoteDir, gotRemote, afterRemote⟩ := Stateful.ask_bind_eq_ok_iff.mp afterLocal
  obtain ⟨files, compiledFiles, afterFiles⟩ := Stateful.ask_bind_eq_ok_iff.mp afterRemote
  obtain ⟨directories, compiled, added⟩ := Stateful.ask_bind_eq_ok_iff.mp afterFiles
  -- That the values are not empty is only checked when the entry is added.
  have valid := (Entries.addEntry_eq_ok_iff.mp (addToConfig_returned added)).1
  simp only [ConfigEntry.validate, Bool.and_eq_true, Bool.not_eq_true',
    List.isEmpty_eq_false_iff] at valid
  obtain ⟨⟨⟨⟨⟨username_ne, apikey_ne⟩, region_ne⟩, container_ne⟩, local_ne⟩, remote_ne⟩ := valid
  refine ⟨?_, compiles_of_compileAll compiledFiles, compiles_of_compileAll compiled⟩
  simp only [requiredKeys, List.forall_mem_cons, List.not_mem_nil, false_implies, implies_true,
    and_true]
  exact ⟨⟨_, gotUsername, username_ne⟩,
    ⟨_, gotApikey, apikey_ne⟩,
    ⟨_, gotRegion, region_ne⟩,
    ⟨_, gotContainer, container_ne⟩,
    ⟨_, gotLocal, local_ne⟩,
    ⟨_, gotRemote, remote_ne⟩⟩

theorem atomic_addToConfig (entry : ConfigEntry) : Stateful.Atomic (addToConfig entry) := by
  intro config thrown next failed
  unfold addToConfig at failed
  cases added : config.addEntry entry with
  | ok more =>
      rw [added] at failed
      cases failed
  | error error =>
      rw [added] at failed
      exact (Prod.mk.inj failed).2.symm

/-- At whatever point a tree fails, the configuration is left as it was. -/
theorem atomic_parseTree (move : Bool) (tree : libraries.Tree) :
    Stateful.Atomic (parseTree libraries move tree) := by
  unfold parseTree
  repeat
    apply Stateful.atomic_ask_bind
    intro _value
  exact atomic_addToConfig _

end Trees

/-! ### Deciding what is well formed -/

instance instDecidablePresent (libraries : ReaderLibraries) (tree : libraries.Tree)
    (key : String) : Decidable (libraries.Present tree key) :=
  match returned : libraries.get tree key with
  | .ok value => decidable_of_iff (value ≠ []) (by simp [ReaderLibraries.Present, returned])
  | .error _thrown => isFalse (by simp [ReaderLibraries.Present, returned])

instance instDecidableCompiles (libraries : ReaderLibraries) (patterns : List Bytes) :
    Decidable (libraries.Compiles patterns) :=
  @List.decidableBAll _ _ (fun pattern =>
    match compiled : libraries.regex pattern with
    | .ok regex => isTrue ⟨regex, compiled⟩
    | .error _code => isFalse (by simp [compiled])) patterns

instance instDecidableWellFormed (libraries : ReaderLibraries) (tree : libraries.Tree) :
    Decidable (WellFormed libraries tree) :=
  decidable_of_iff
    ((∀ key ∈ requiredKeys, libraries.Present tree key) ∧
      libraries.Compiles (libraries.values tree "files-to-ignore") ∧
      libraries.Compiles (libraries.values tree "directories-to-ignore"))
    ⟨fun all => ⟨all.1, all.2.1, all.2.2⟩, fun good => ⟨good.keys, good.files, good.directories⟩⟩

def ConfigFile.entry? (libraries : ReaderLibraries) (file : ConfigFile libraries) :
    Option ConfigEntry :=
  match file.tree libraries with
  | .ok tree =>
      if WellFormed libraries tree then some (entryOf libraries file.move tree) else none
  | .error _thrown => none

/-! ### Sequences of files -/

section Files

variable {libraries : ReaderLibraries} {file : ConfigFile libraries}

theorem entry_eq_some_iff {entry : ConfigEntry} :
    file.entry? libraries = some entry ↔
      ∃ tree, file.tree libraries = .ok tree ∧ WellFormed libraries tree ∧
        entryOf libraries file.move tree = entry := by
  unfold ConfigFile.entry?
  cases file.tree libraries with
  | error thrown => simp
  | ok tree => simp

theorem validate_of_entry {entry : ConfigEntry} (yielded : file.entry? libraries = some entry) :
    entry.validate = true := by
  obtain ⟨tree, _parsed, good, rfl⟩ := entry_eq_some_iff.mp yielded
  exact good.validate file.move

theorem readFile_of_some {entry : ConfigEntry} (yielded : file.entry? libraries = some entry)
    (config : Entries) : readFile libraries file config = (.ok (), config.afterAddEntry entry) := by
  obtain ⟨next, added⟩ := config.addEntry_of_validate (validate_of_entry yielded)
  obtain ⟨tree, parsed, good, rfl⟩ := entry_eq_some_iff.mp yielded
  rw [Entries.afterAddEntry_of_ok added]
  unfold readFile
  rw [parsed]
  exact Stateful.catchWith_of_ok (parseTree_of_wellFormed good added) _

/-- The format comes from the extension of the name alone. -/
theorem entry_of_no_format (documented : libraries.Documented)
    (unknown : formatOf file.filename = none) : file.entry? libraries = none := by
  cases yielded : file.entry? libraries with
  | none => rfl
  | some entry =>
      obtain ⟨tree, parsed, good, _same⟩ := entry_eq_some_iff.mp yielded
      unfold ConfigFile.tree at parsed
      rw [unknown] at parsed
      obtain rfl := Except.ok.inj parsed
      obtain ⟨child, there, _nonempty⟩ := documented.present_iff.mp
        (good.keys "username" (by decide))
      rw [documented.empty] at there
      cases there

/-- A file that yields no entry changes nothing, wherever the reading fails. -/
theorem readFile_of_none (refused : file.entry? libraries = none) (config : Entries) :
    readFile libraries file config = (.ok (), config) := by
  have failed : ∃ thrown, (Stateful.ask (file.tree libraries) >>= parseTree libraries file.move) config =
      (.error thrown, config) := by
    cases parsed : file.tree libraries with
    | error thrown => exact ⟨thrown, rfl⟩
    | ok tree =>
        rcases ran : parseTree libraries file.move tree config with ⟨answer, next⟩
        cases answer with
        | ok _unit =>
            have yielded := entry_eq_some_iff.mpr ⟨tree, parsed, wellFormed_of_parseTree ran, rfl⟩
            rw [refused] at yielded
            cases yielded
        | error thrown =>
            obtain rfl := atomic_parseTree file.move tree config thrown next ran
            exact ⟨thrown, ran⟩
  obtain ⟨thrown, failed⟩ := failed
  exact Stateful.catchWith_of_error failed _

/-- The entries of the files that yield one, added in turn. -/
theorem readFiles_eq (files : List (ConfigFile libraries)) (config : Entries) :
    readFiles libraries files config =
      (.ok (), (files.filterMap (ConfigFile.entry? libraries)).foldl Entries.afterAddEntry
        config) := by
  induction files generalizing config with
  | nil => rfl
  | cons file files ih =>
      unfold readFiles
      cases yielded : file.entry? libraries with
      | none =>
          rw [Stateful.bind_of_ok (readFile_of_none yielded config), ih,
            List.filterMap_cons_none yielded]
      | some entry =>
          rw [Stateful.bind_of_ok (readFile_of_some yielded config), ih,
            List.filterMap_cons_some yielded, List.foldl_cons]

theorem perm_of_readFiles {files : List (ConfigFile libraries)} {config : Entries}
    (read : readFiles libraries files Entries.empty = (.ok (), config)) :
    config.entries.Perm (files.filterMap (ConfigFile.entry? libraries)) := by
  rw [readFiles_eq] at read
  rw [← (Prod.mk.inj read).2]
  have valid : ∀ entry ∈ files.filterMap (ConfigFile.entry? libraries),
      entry.validate = true := by
    intro entry member
    obtain ⟨file, _listed, yielded⟩ := List.mem_filterMap.mp member
    exact validate_of_entry yielded
  have added := Entries.perm_of_calls valid Entries.empty
  rwa [Entries.entries_empty, List.append_nil] at added

/-! ### The order of the files -/

/-- An entry apart from the flag that is never read. -/
def ConfigEntry.withoutMove (entry : ConfigEntry) : ConfigEntry :=
  { entry with move := false }

def ConfigFile.withoutMove (file : ConfigFile libraries) : ConfigFile libraries :=
  { file with move := false }

theorem entry_withoutMove (file : ConfigFile libraries) :
    file.withoutMove.entry? libraries = (file.entry? libraries).map ConfigEntry.withoutMove := by
  change (match file.tree libraries with
    | .ok tree => if WellFormed libraries tree then some (entryOf libraries false tree) else none
    | .error _thrown => none) = _
  unfold ConfigFile.entry?
  cases file.tree libraries with
  | error thrown => rfl
  | ok tree =>
      dsimp only
      split
      · rfl
      · rfl

theorem filterMap_withoutMove (files : List (ConfigFile libraries)) :
    (files.map ConfigFile.withoutMove).filterMap (ConfigFile.entry? libraries) =
      (files.filterMap (ConfigFile.entry? libraries)).map ConfigEntry.withoutMove := by
  rw [List.filterMap_map, List.map_filterMap]
  exact congrArg (fun entry => files.filterMap entry) (funext entry_withoutMove)

def DistinctDirs (libraries : ReaderLibraries) (files : List (ConfigFile libraries)) : Prop :=
  ((files.filterMap (ConfigFile.entry? libraries)).map ConfigEntry.localDir).Nodup

variable {files reordered : List (ConfigFile libraries)} {config other : Entries}

theorem DistinctDirs.of_read (distinct : DistinctDirs libraries files)
    (read : readFiles libraries files Entries.empty = (.ok (), config)) :
    (config.entries.map ConfigEntry.localDir).Nodup :=
  ((perm_of_readFiles read).map ConfigEntry.localDir).nodup_iff.mpr distinct

theorem same_of_reordered (distinct : DistinctDirs libraries files)
    (read : readFiles libraries files Entries.empty = (.ok (), config))
    (permuted : reordered.Perm files)
    (readAgain : readFiles libraries reordered Entries.empty = (.ok (), other)) :
    other = config := by
  apply Entries.eq_of_entries
  apply Eq.symm
  apply eq_of_perm _ (distinct.of_read read) config.sorted other.sorted
  have same := permuted.filterMap (ConfigFile.entry? libraries)
  exact ((perm_of_readFiles read).trans same.symm).trans (perm_of_readFiles readAgain).symm

/-- Where only the unread flags are other ones, so is only the flag of each entry. -/
theorem same_fields_of_reordered (distinct : DistinctDirs libraries files)
    (read : readFiles libraries files Entries.empty = (.ok (), config))
    (permuted : (reordered.map ConfigFile.withoutMove).Perm (files.map ConfigFile.withoutMove))
    (readAgain : readFiles libraries reordered Entries.empty = (.ok (), other)) :
    other.entries.map ConfigEntry.withoutMove = config.entries.map ConfigEntry.withoutMove := by
  have same := permuted.filterMap (ConfigFile.entry? libraries)
  rw [filterMap_withoutMove, filterMap_withoutMove] at same
  have here := (perm_of_readFiles read).map ConfigEntry.withoutMove
  have there := (perm_of_readFiles readAgain).map ConfigEntry.withoutMove
  have sorted (built : Entries) :
      SortedBy ConfigEntry.localDir (built.entries.map ConfigEntry.withoutMove) :=
    List.pairwise_map.mpr built.sorted
  apply Eq.symm
  apply eq_of_perm ((here.trans same.symm).trans there.symm) _ (sorted config) (sorted other)
  rw [List.map_map]
  exact distinct.of_read read

theorem readConfig_of_reordered (distinct : DistinctDirs libraries files)
    (permuted : reordered.Perm files) (path : ConfigPath libraries) :
    readConfig libraries { path with files := reordered } =
      readConfig libraries { path with files := files } := by
  have same := same_of_reordered distinct (readFiles_eq files Entries.empty) permuted
    (readFiles_eq reordered Entries.empty)
  have paths : readPath libraries { path with files := reordered } Entries.empty =
      readPath libraries { path with files := files } Entries.empty := by
    unfold readPath
    cases path.isDirectory with
    | error thrown => rfl
    | ok directory =>
        cases directory with
        | false => rfl
        | true =>
            change (readFiles libraries reordered >>= fun _read => Stateful.ask path.ending)
                Entries.empty =
              (readFiles libraries files >>= fun _read => Stateful.ask path.ending) Entries.empty
            rw [Stateful.bind_of_ok (readFiles_eq reordered Entries.empty),
              Stateful.bind_of_ok (readFiles_eq files Entries.empty), same]
  unfold readConfig
  rw [paths]

/-- The configuration after any files: the entries of the well-formed trees, one for
each file, in the order of their local directories.  A file whose tree fails changes
nothing, and different local directories leave nothing to the order of the files. -/
theorem configuration_after_files (libraries : ReaderLibraries)
    (files : List (ConfigFile libraries)) :
    (∃ config, readFiles libraries files Entries.empty = (.ok (), config) ∧
      config.entries.Perm (files.filterMap (ConfigFile.entry? libraries)) ∧
      SortedBy ConfigEntry.localDir config.entries) ∧
    (∀ file config, file.entry? libraries = none →
      readFile libraries file config = (.ok (), config)) ∧
    ∀ reordered config other, DistinctDirs libraries files →
      readFiles libraries files Entries.empty = (.ok (), config) →
      readFiles libraries reordered Entries.empty = (.ok (), other) →
        (reordered.Perm files → other = config ∧ ∀ path : ConfigPath libraries,
          readConfig libraries { path with files := reordered } =
            readConfig libraries { path with files := files }) ∧
        ((reordered.map ConfigFile.withoutMove).Perm (files.map ConfigFile.withoutMove) →
          other.entries.map ConfigEntry.withoutMove =
            config.entries.map ConfigEntry.withoutMove) := by
  refine ⟨?_, ?_, ?_⟩
  · have read := @readFiles_eq libraries files Entries.empty
    exact ⟨_, read, perm_of_readFiles read, Entries.sorted _⟩
  · intro file config refused
    exact readFile_of_none refused config
  · intro reordered config other distinct read readAgain
    constructor
    · intro permuted
      exact ⟨same_of_reordered distinct read permuted readAgain,
        readConfig_of_reordered distinct permuted⟩
    · intro permuted
      exact same_fields_of_reordered distinct read permuted readAgain

inductive PropertyTree where
  | node (data : Bytes) (children : List (Bytes × PropertyTree))

namespace PropertyTree

def data : PropertyTree → Bytes
  | .node data _children => data

def children : PropertyTree → List (Bytes × PropertyTree)
  | .node _data children => children

/-- The first subtree under a key without dots. -/
def child? (tree : PropertyTree) (key : String) : Option PropertyTree :=
  (tree.children.find? (fun child => child.1 = text key)).map Prod.snd

def get (tree : PropertyTree) (key : String) : Except ReadError Bytes :=
  match tree.child? key with
  | some child => .ok child.data
  | none => .error (.badPath (text key))

def getFlag (tree : PropertyTree) (key : String) (default : Bool) : Bool :=
  match tree.child? key with
  | some child =>
      if child.data = text "true" then true
      else if child.data = text "false" then false
      else default
  | none => default

end PropertyTree

def sampleLibraries : ReaderLibraries where
  Tree := PropertyTree
  empty := .node [] []
  get := PropertyTree.get
  getFlag := PropertyTree.getFlag
  getChildOptional := PropertyTree.child?
  subtrees tree := tree.children.map Prod.snd
  getValue := PropertyTree.data
  regex pattern :=
    if pattern = text "[" then .error 4
    else .ok ⟨fun name => name.any (fun letter => pattern = [letter])⟩

theorem documented_sampleLibraries : sampleLibraries.Documented where
  get := by
    intro tree key value
    change PropertyTree.get tree key = .ok value ↔
      ∃ child, PropertyTree.child? tree key = some child ∧ child.data = value
    unfold PropertyTree.get
    cases PropertyTree.child? tree key with
    | none => simp
    | some child => simp
  empty _key := rfl

def sampleFile (localDir pattern : String) : ConfigFile sampleLibraries where
  filename := text "cdn.INI"
  parsed _format :=
    let leaf (key value : String) := (text key, PropertyTree.node (text value) [])
    .ok (.node [] [leaf "username" "u", leaf "apikey" "k", leaf "region" "r",
      leaf "container" "c", leaf "local_dir" localDir, leaf "remote_dir" "i",
      (text "files-to-ignore", .node [] [leaf "file" pattern])])
  move := false

def plainFile : ConfigFile sampleLibraries :=
  { sampleFile "/e" "x" with filename := text "cdnalizerd.conf" }

example : plainFile.entry? sampleLibraries = none :=
  entry_of_no_format documented_sampleLibraries (by decide)

def sampleFiles : List (ConfigFile sampleLibraries) :=
  [sampleFile "/b" "x", sampleFile "/c" "[", sampleFile "" "x", sampleFile "/a" "y", plainFile]

theorem configuration_after_files_sample :
    ∃ config, readFiles sampleLibraries sampleFiles Entries.empty = (.ok (), config) ∧
      readFiles sampleLibraries sampleFiles.reverse Entries.empty = (.ok (), config) := by
  have distinct : DistinctDirs sampleLibraries sampleFiles := by
    unfold DistinctDirs
    decide
  have read := @readFiles_eq sampleLibraries sampleFiles Entries.empty
  have readAgain := @readFiles_eq sampleLibraries sampleFiles.reverse Entries.empty
  have same := ((configuration_after_files sampleLibraries sampleFiles).2.2 _ _ _ distinct read
    readAgain).1 sampleFiles.reverse_perm
  exact ⟨_, read, same.1 ▸ readAgain⟩

end Files

end Cdnalizerd
