/-
The destination of an upload: base URL, container, remote directory and
relative path, encoded, joined with slashes and parsed.

`urlencode` leaves the tilde literal and the path grammar has no tilde, and
`joinSlashes` strips at most one slash from each end of a part.  These two
facts decide exactly when the destination addresses the joined path.
-/

import Cdnalizerd.UrlScan

namespace Cdnalizerd

open RagelScanner SeparatorJoin

/-! ### The encoder -/

def isLiteral (byte : UInt8) : Bool :=
  isAlphanumeric byte || legalPunctuation.contains byte

theorem urlencode_eq_encode (path : Bytes) :
    urlencode path = PercentCoding.encode isLiteral path := by
  unfold urlencode PercentCoding.encode
  congr 1
  funext byte
  unfold PercentCoding.encodeByte isLiteral
  cases isAlphanumeric byte with
  | true => rfl
  | false =>
      rw [Bool.false_or, if_neg Bool.false_ne_true]
      by_cases literal : byte ∈ legalPunctuation
      · rw [if_pos literal, if_pos (List.contains_iff_mem.mpr literal)]
      · rw [if_neg literal, if_neg (fun found => literal (List.contains_iff_mem.mp found))]
        rfl

theorem percent_not_literal : isLiteral PercentCoding.percent = false := by
  decide

theorem urlencode_append (left right : Bytes) :
    urlencode (left ++ right) = urlencode left ++ urlencode right := by
  simp only [urlencode_eq_encode, PercentCoding.encode_append]

theorem urlencode_injective : Function.Injective urlencode := by
  intro left right same
  rw [urlencode_eq_encode, urlencode_eq_encode] at same
  exact PercentCoding.encode_injective percent_not_literal same

theorem urlencode_eq_nil_iff (path : Bytes) : urlencode path = [] ↔ path = [] := by
  rw [urlencode_eq_encode]
  exact PercentCoding.encode_eq_nil_iff isLiteral path

theorem urlencode_slash : urlencode [slash] = [slash] := by
  decide

theorem slash_separator : PercentCoding.Separator slash := by
  decide

private theorem encodeByte_table : ∀ index : Fin 256,
    (UInt8.ofNat index.val ≠ slash →
      slash ∉ PercentCoding.encodeByte isLiteral (UInt8.ofNat index.val)) ∧
    question ∉ PercentCoding.encodeByte isLiteral (UInt8.ofNat index.val) ∧
    (UInt8.ofNat index.val ≠ tilde →
      (PercentCoding.encodeByte isLiteral (UInt8.ofNat index.val)).all isPathByte = true) := by
  decide +kernel

theorem encodeByte_spec (byte : UInt8) :
    (byte ≠ slash → slash ∉ PercentCoding.encodeByte isLiteral byte) ∧
      question ∉ PercentCoding.encodeByte isLiteral byte ∧
      (byte ≠ tilde → ∀ code ∈ PercentCoding.encodeByte isLiteral byte,
        isPathByte code = true) := by
  obtain ⟨index, rfl⟩ := PercentCoding.exists_byte_index byte
  obtain ⟨slashless, questionless, legal⟩ := encodeByte_table index
  exact ⟨slashless, questionless, fun ordinary => List.all_eq_true.mp (legal ordinary)⟩

theorem question_not_mem_urlencode (path : Bytes) : question ∉ urlencode path := by
  rw [urlencode_eq_encode]
  intro member
  obtain ⟨byte, _present, inCode⟩ := List.mem_flatMap.mp member
  exact (encodeByte_spec byte).2.1 inCode

/-- What `urlencode` writes is legal in a path exactly when no tilde went in. -/
theorem urlencode_legal_iff (path : Bytes) :
    (∀ code ∈ urlencode path, isPathByte code = true) ↔ tilde ∉ path := by
  rw [urlencode_eq_encode]
  constructor
  · intro legal member
    have inCode : tilde ∈ PercentCoding.encode isLiteral path :=
      List.mem_flatMap.mpr ⟨tilde, member, by decide⟩
    have impossible := legal tilde inCode
    revert impossible
    decide
  · intro absent code member
    obtain ⟨byte, present, inCode⟩ := List.mem_flatMap.mp member
    apply (encodeByte_spec byte).2.2 _ code inCode
    rintro rfl
    exact absent present

/-! ### Stripping one slash from each end -/

def stripSlashes (s : Bytes) : Bytes :=
  stripFront slash (stripBack slash s)

theorem stripBack_urlencode (path : Bytes) :
    stripBack slash (urlencode path) = urlencode (stripBack slash path) := by
  induction path using List.reverseRecOn with
  | nil => rfl
  | append_singleton before byte _ih =>
      by_cases same : byte = slash
      · subst same
        rw [urlencode_append, urlencode_slash, stripBack_concat_sep, stripBack_concat_sep]
      · have kept : (before ++ [byte]).getLast? ≠ some slash := by simp [same]
        rw [stripBack_of_getLast_ne kept, urlencode_append]
        apply stripBack_of_getLast_ne
        intro last
        have nonempty : urlencode [byte] ≠ [] := by simp [urlencode_eq_nil_iff]
        rw [List.getLast?_append_of_ne_nil _ nonempty] at last
        have member := List.mem_of_getLast? last
        rw [urlencode_eq_encode] at member
        obtain ⟨other, present, inCode⟩ := List.mem_flatMap.mp member
        rw [List.mem_singleton.mp present] at inCode
        exact (encodeByte_spec byte).1 same inCode

theorem stripFront_urlencode (path : Bytes) :
    stripFront slash (urlencode path) = urlencode (stripFront slash path) := by
  cases path with
  | nil => rfl
  | cons byte rest =>
      have split : byte :: rest = [byte] ++ rest := rfl
      by_cases same : byte = slash
      · subst same
        rw [split, urlencode_append, urlencode_slash]
        rfl
      · have kept : stripFront slash (byte :: rest) = byte :: rest := by
          simp [stripFront, same]
        rw [kept]
        unfold stripFront
        rw [if_neg]
        intro first
        rw [split, urlencode_append] at first
        have nonempty : urlencode [byte] ≠ [] := by simp [urlencode_eq_nil_iff]
        rw [List.head?_append_of_ne_nil _ nonempty] at first
        have member := List.mem_of_mem_head? first
        rw [urlencode_eq_encode] at member
        obtain ⟨other, present, inCode⟩ := List.mem_flatMap.mp member
        rw [List.mem_singleton.mp present] at inCode
        exact (encodeByte_spec byte).1 same inCode

theorem stripSlashes_urlencode (path : Bytes) :
    stripSlashes (urlencode path) = urlencode (stripSlashes path) := by
  unfold stripSlashes
  rw [stripBack_urlencode, stripFront_urlencode]

theorem urlencode_eq_slash_iff (path : Bytes) : urlencode path = [slash] ↔ path = [slash] := by
  constructor
  · intro same
    rw [← urlencode_slash] at same
    exact urlencode_injective same
  · rintro rfl
    exact urlencode_slash

/-! ### The slash joiner -/

/-- The range `joinSlashes` copies out of one string is the string stripped. -/
theorem copied_range {s : Bytes} (nonempty : s ≠ []) (proper : s ≠ [slash]) :
    copyBegin s ≤ copyEnd s ∧ slice s (copyBegin s) (copyEnd s) = stripSlashes s := by
  cases s with
  | nil => exact (nonempty rfl).elim
  | cons first rest =>
      cases rest with
      | nil =>
          have different : first ≠ slash := fun same => proper (by rw [same])
          simp [copyBegin, copyEnd, stripSlashes, stripFront, stripBack, slice, different]
      | cons second rest =>
          have dropped : (first :: second :: rest).dropLast =
              first :: (second :: rest).dropLast := rfl
          unfold copyBegin copyEnd stripSlashes stripBack stripFront slice
          by_cases front : first = slash
          · by_cases back : (first :: second :: rest).getLast? = some slash
            · rw [if_pos back, if_pos back, dropped, front]
              simp [List.dropLast_eq_take]
            · rw [if_neg back, if_neg back, front]
              simp
          · by_cases back : (first :: second :: rest).getLast? = some slash
            · rw [if_pos back, if_pos back, dropped]
              simp [List.dropLast_eq_take, front]
            · rw [if_neg back, if_neg back]
              simp [front]

/-- What the loop of `joinSlashes` copies, string by string. -/
def copiedParts (strings : List Bytes) : List Bytes :=
  (strings.filter (· ≠ [])).map stripSlashes

theorem copiedParts_cons_nil (strings : List Bytes) :
    copiedParts ([] :: strings) = copiedParts strings := rfl

theorem copiedParts_cons_of_ne_nil {s : Bytes} (nonempty : s ≠ []) (strings : List Bytes) :
    copiedParts (s :: strings) = stripSlashes s :: copiedParts strings := by
  unfold copiedParts
  rw [List.filter_cons_of_pos (by simpa using nonempty), List.map_cons]

theorem copiedParts_append (front back : List Bytes) :
    copiedParts (front ++ back) = copiedParts front ++ copiedParts back := by
  unfold copiedParts
  rw [List.filter_append, List.map_append]

theorem joinSlashesFrom_eq {strings : List Bytes} (proper : [slash] ∉ strings)
    (result : Bytes) :
    joinSlashesFrom result strings =
      .ok (result ++ (copiedParts strings).flatMap (fun part => part ++ [slash])) := by
  induction strings generalizing result with
  | nil =>
      rw [joinSlashesFrom]
      exact congrArg Except.ok (List.append_nil result).symm
  | cons s rest ih =>
      obtain ⟨different, restProper⟩ := not_or.mp (mt List.mem_cons.mpr proper)
      by_cases empty : s = []
      · subst empty
        rw [joinSlashesFrom, if_pos rfl, ih restProper, copiedParts_cons_nil]
      · obtain ⟨ordered, copied⟩ := copied_range empty (fun same => different same.symm)
        rw [joinSlashesFrom, if_neg empty, if_neg (Nat.not_lt.mpr ordered), copied,
          ih restProper, copiedParts_cons_of_ne_nil empty]
        simp only [List.flatMap_cons, List.append_assoc]

/-- A string that is a slash alone makes the copied range end before it
begins. -/
theorem joinSlashesFrom_slash {strings : List Bytes} (present : [slash] ∈ strings)
    (result : Bytes) : joinSlashesFrom result strings = .error .undefinedBehaviour := by
  induction strings generalizing result with
  | nil => cases present
  | cons s rest ih =>
      by_cases same : s = [slash]
      · subst same
        rfl
      · have later := (List.mem_cons.mp present).resolve_left (fun equal => same equal.symm)
        rw [joinSlashesFrom]
        split
        · exact ih later result
        · split
          · rfl
          · exact ih later _

theorem joinSlashes_of_from {strings : List Bytes} {joined : Bytes}
    (looped : joinSlashesFrom [] strings = .ok (joined ++ [slash])) :
    joinSlashes strings = .ok joined := by
  unfold joinSlashes
  rw [looped]
  change (if joined ++ [slash] = [] then _ else Except.ok (joined ++ [slash]).dropLast) = _
  rw [if_neg (by simp), List.dropLast_concat]

theorem joinSlashes_eq {strings : List Bytes} (proper : [slash] ∉ strings)
    (copied : copiedParts strings ≠ []) :
    joinSlashes strings = .ok ([slash].intercalate (copiedParts strings)) := by
  apply joinSlashes_of_from
  rw [joinSlashesFrom_eq proper, flatMap_concat_separator copied, List.nil_append]

theorem joinSlashes_slash {strings : List Bytes} (present : [slash] ∈ strings) :
    joinSlashes strings = .error .undefinedBehaviour := by
  unfold joinSlashes
  rw [joinSlashesFrom_slash present]
  rfl

/-! ### Destinations -/

private theorem start_table : ∀ index : Fin 256,
    urlTables.target 1 (UInt8.ofNat index.val) ≠ 0 → UInt8.ofNat index.val = 104 := by
  decide +kernel

theorem head_of_parse {raw : Bytes} {url : URL} (parsed : URL.parse raw = .ok url) :
    ∃ rest, raw = 104 :: rest := by
  have final := ((parse_eq_ok_iff _ _).mp parsed).1
  rw [scannedURL_eq_finish, finish_state] at final
  cases raw with
  | nil =>
      change 16 ≤ 1 at final
      omega
  | cons byte rest =>
      have stepAlive : (step urlTables (performAction (byte :: rest)) initialConfig byte).state
          ≠ 0 := by
        intro dead
        rw [scan_cons, scan_of_dead dead, dead] at final
        omega
      rw [step_state_of_alive (by decide)] at stepAlive
      obtain ⟨index, rfl⟩ := PercentCoding.exists_byte_index byte
      exact ⟨rest, by rw [start_table index stepAlive]⟩

theorem parse_raw {raw : Bytes} {url : URL} (parsed : URL.parse raw = .ok url) :
    url.raw = raw := by
  rw [((parse_eq_ok_iff _ _).mp parsed).2]

theorem stripSlashes_of_parse {raw : Bytes} {url : URL} (parsed : URL.parse raw = .ok url) :
    stripSlashes raw = stripBack slash raw := by
  obtain ⟨rest, rfl⟩ := head_of_parse parsed
  unfold stripSlashes stripFront
  rw [if_neg]
  intro first
  unfold stripBack at first
  split at first
  · cases rest with
    | nil => cases first
    | cons second tail =>
        have shape : ((104 : UInt8) :: second :: tail).dropLast =
            104 :: (second :: tail).dropLast := rfl
        rw [shape] at first
        exact absurd (Option.some.inj first) (by decide)
  · exact absurd (Option.some.inj first) (by decide)

def destinationTail (container remoteDir relativePath : Bytes) : Bytes :=
  urlencode (stripSlashes container) ++ slash ::
    (urlencode (stripSlashes remoteDir) ++ slash :: urlencode (stripSlashes relativePath))

structure ProperParts (container remoteDir relativePath : Bytes) : Prop where
  container_ne_nil : container ≠ []
  remoteDir_ne_nil : remoteDir ≠ []
  relativePath_ne_nil : relativePath ≠ []
  container_ne_slash : container ≠ [slash]
  remoteDir_ne_slash : remoteDir ≠ [slash]
  relativePath_ne_slash : relativePath ≠ [slash]

theorem destination_eq_parse {raw : Bytes} {base : URL} (parsed : URL.parse raw = .ok base)
    {container remoteDir relativePath : Bytes}
    (proper : ProperParts container remoteDir relativePath) :
    destination base container remoteDir relativePath =
      URL.parse (stripBack slash raw ++ slash ::
        destinationTail container remoteDir relativePath) := by
  obtain ⟨rest, rawShape⟩ := head_of_parse parsed
  have rawProper : raw ≠ [] ∧ raw ≠ [slash] := by
    rw [rawShape]
    exact ⟨by simp, fun same => absurd (List.cons.inj same).1 (by decide)⟩
  have parts : ((base.append container).append remoteDir |>.append relativePath).parts =
      [raw, urlencode container, urlencode remoteDir, urlencode relativePath] := by
    rw [← parse_raw parsed]
    rfl
  have noSlash : [slash] ∉
      [raw, urlencode container, urlencode remoteDir, urlencode relativePath] := by
    simp only [List.mem_cons, List.not_mem_nil, or_false, not_or, eq_comm (a := [slash]),
      urlencode_eq_slash_iff]
    exact ⟨rawProper.2, proper.container_ne_slash, proper.remoteDir_ne_slash,
      proper.relativePath_ne_slash⟩
  have copied : copiedParts
      [raw, urlencode container, urlencode remoteDir, urlencode relativePath] =
      [stripBack slash raw, urlencode (stripSlashes container),
        urlencode (stripSlashes remoteDir), urlencode (stripSlashes relativePath)] := by
    rw [copiedParts_cons_of_ne_nil rawProper.1,
      copiedParts_cons_of_ne_nil (mt (urlencode_eq_nil_iff _).mp proper.container_ne_nil),
      copiedParts_cons_of_ne_nil (mt (urlencode_eq_nil_iff _).mp proper.remoteDir_ne_nil),
      copiedParts_cons_of_ne_nil (mt (urlencode_eq_nil_iff _).mp proper.relativePath_ne_nil),
      stripSlashes_of_parse parsed, stripSlashes_urlencode, stripSlashes_urlencode,
      stripSlashes_urlencode]
    rfl
  have joined : joinSlashes (((base.append container).append remoteDir).append
      relativePath).parts =
      .ok (stripBack slash raw ++ slash ::
        destinationTail container remoteDir relativePath) := by
    rw [parts, joinSlashes_eq noSlash (by rw [copied]; simp), copied]
    simp [destinationTail]
  unfold destination URL.ofUnParsed
  rw [joined]
  rfl

theorem destination_slash (base : URL) {container remoteDir relativePath : Bytes}
    (alone : container = [slash] ∨ remoteDir = [slash] ∨ relativePath = [slash]) :
    destination base container remoteDir relativePath = .error .undefinedBehaviour := by
  have present : [slash] ∈ (((base.append container).append remoteDir).append
      relativePath).parts := by
    change [slash] ∈ [base.raw, urlencode container, urlencode remoteDir,
      urlencode relativePath]
    rcases alone with rfl | rfl | rfl <;> simp [urlencode_slash]
  unfold destination URL.ofUnParsed
  rw [joinSlashes_slash present]
  rfl

theorem mem_stripSlashes_of_ne {byte : UInt8} (different : byte ≠ slash) (s : Bytes) :
    byte ∈ stripSlashes s ↔ byte ∈ s :=
  (mem_stripFront_of_ne different _).trans (mem_stripBack_of_ne different s)

theorem tail_legal_iff (container remoteDir relativePath : Bytes) :
    (∀ byte ∈ destinationTail container remoteDir relativePath, isPathByte byte = true) ↔
      tilde ∉ container ∧ tilde ∉ remoteDir ∧ tilde ∉ relativePath := by
  have slashLegal : isPathByte slash = true := by decide
  have different : tilde ≠ slash := by decide
  simp only [destinationTail, List.forall_mem_append, List.forall_mem_cons, slashLegal,
    true_and, urlencode_legal_iff, mem_stripSlashes_of_ne different]

theorem question_not_mem_tail (container remoteDir relativePath : Bytes) :
    question ∉ destinationTail container remoteDir relativePath := by
  have different : question ≠ slash := by decide
  simp [destinationTail, question_not_mem_urlencode, different]

/-- What a destination has from its base URL and what from its parts. -/
structure Addresses (url base : URL) (container remoteDir relativePath : Bytes) : Prop where
  authority : SameAuthority url base
  search_nil : url.search = []
  path : url.path = stripBack slash base.path ++ slash ::
    destinationTail container remoteDir relativePath
  pathAndSearch : url.pathAndSearch = url.path

theorem destination_of_no_tilde {raw : Bytes} {base : URL}
    (parsed : URL.parse raw = .ok base) (ordinary : question ∉ raw)
    {container remoteDir relativePath : Bytes}
    (proper : ProperParts container remoteDir relativePath)
    (clean : tilde ∉ container ∧ tilde ∉ remoteDir ∧ tilde ∉ relativePath) :
    ∃ url, destination base container remoteDir relativePath = .ok url ∧
      Addresses url base container remoteDir relativePath := by
  obtain ⟨url, accepted, authority, search_nil, path, pathAndSearch⟩ :=
    parse_continued parsed ordinary ((tail_legal_iff _ _ _).mpr clean)
  rw [destination_eq_parse parsed proper]
  exact ⟨url, accepted, authority, search_nil, path, pathAndSearch⟩

theorem clean_of_destination {raw : Bytes} {base url : URL}
    (parsed : URL.parse raw = .ok base) (ordinary : question ∉ raw)
    {container remoteDir relativePath : Bytes}
    (container_ne : container ≠ []) (remoteDir_ne : remoteDir ≠ [])
    (relativePath_ne : relativePath ≠ [])
    (built : destination base container remoteDir relativePath = .ok url) :
    ProperParts container remoteDir relativePath ∧
      (tilde ∉ container ∧ tilde ∉ remoteDir ∧ tilde ∉ relativePath) ∧
      Addresses url base container remoteDir relativePath := by
  have proper : ProperParts container remoteDir relativePath := by
    constructor
    · exact container_ne
    · exact remoteDir_ne
    · exact relativePath_ne
    · intro alone
      rw [destination_slash base (Or.inl alone)] at built
      cases built
    · intro alone
      rw [destination_slash base (Or.inr (Or.inl alone))] at built
      cases built
    · intro alone
      rw [destination_slash base (Or.inr (Or.inr alone))] at built
      cases built
  have clean : tilde ∉ container ∧ tilde ∉ remoteDir ∧ tilde ∉ relativePath := by
    apply (tail_legal_iff _ _ _).mp
    rw [destination_eq_parse parsed proper] at built
    exact path_bytes_of_parse_continued parsed ordinary
      (question_not_mem_tail container remoteDir relativePath) built
  obtain ⟨other, builtOther, addresses⟩ :=
    destination_of_no_tilde parsed ordinary proper clean
  rw [built] at builtOther
  exact ⟨proper, clean, Except.ok.inj builtOther ▸ addresses⟩

/-- The path of a destination decodes to its parts, each stripped of one slash
at either end. -/
theorem decode_path {url base : URL} {container remoteDir relativePath : Bytes}
    (addresses : Addresses url base container remoteDir relativePath) :
    PercentCoding.decode url.path =
      PercentCoding.decode (stripBack slash base.path) ++ slash ::
        (stripSlashes container ++ slash ::
          (stripSlashes remoteDir ++ slash :: stripSlashes relativePath)) := by
  rw [addresses.path, PercentCoding.decode_append_separator slash_separator, destinationTail]
  simp only [urlencode_eq_encode, PercentCoding.decode_encode_append percent_not_literal,
    PercentCoding.decode_cons_of_ne_percent slash_separator.1,
    PercentCoding.decode_encode percent_not_literal]

/-! ### When the destination is the joined path -/

/-- The destination exists, differs from its base in the path only, and its
path decodes to the four parts with a single slash at each joint. -/
def DestinationFaithful (base : URL) (container remoteDir relativePath : Bytes) : Prop :=
  ∃ url, destination base container remoteDir relativePath = .ok url ∧
    SameAuthority url base ∧ url.search = [] ∧
    PercentCoding.decode url.path =
      joinAll slash base.path [container, remoteDir, relativePath]

def SingleSlashes (part : Bytes) : Prop :=
  trim slash part ≠ [] ∧ stripSlashes part = trim slash part

instance (part : Bytes) : Decidable (SingleSlashes part) :=
  inferInstanceAs (Decidable (_ ∧ _))

def PlainPath (path : Bytes) : Prop :=
  PercentCoding.decode path = path ∧ stripBack slash path = trimRight slash path

instance (path : Bytes) : Decidable (PlainPath path) :=
  inferInstanceAs (Decidable (_ ∧ _))

theorem decode_append_slashes (bytes : Bytes) {slashes : Bytes}
    (all : ∀ byte ∈ slashes, byte = slash) :
    PercentCoding.decode (bytes ++ slashes) = PercentCoding.decode bytes ++ slashes := by
  have alone : ∀ later : Bytes, (∀ byte ∈ later, byte = slash) →
      PercentCoding.decode later = later := by
    intro later
    induction later with
    | nil => intro _all; rfl
    | cons byte rest ih =>
        intro every
        rw [every byte List.mem_cons_self,
          PercentCoding.decode_cons_of_ne_percent slash_separator.1,
          ih (fun other member => every other (List.mem_cons_of_mem byte member))]
  cases slashes with
  | nil => rw [List.append_nil, List.append_nil]
  | cons byte rest =>
      rw [all byte List.mem_cons_self,
        PercentCoding.decode_append_separator slash_separator,
        alone rest (fun other member => all other (List.mem_cons_of_mem byte member))]

/-- Decoding leaves a path alone exactly when it leaves the path without its
last slashes alone. -/
theorem decode_eq_self_iff_trimRight (path : Bytes) :
    PercentCoding.decode path = path ↔
      PercentCoding.decode (trimRight slash path) = trimRight slash path := by
  obtain ⟨slashes, split, all⟩ := @trimRight_append_separators _ _ slash path
  have decoded := decode_append_slashes (trimRight slash path) all
  rw [← split] at decoded
  rw [decoded]
  constructor
  · intro same
    exact List.append_cancel_right (same.trans split)
  · intro same
    rw [same]
    exact split.symm

theorem stripSlashes_of_ends_ne {part : Bytes} (front : part.head? ≠ some slash)
    (back : part.getLast? ≠ some slash) : stripSlashes part = part := by
  unfold stripSlashes
  rw [stripBack_of_getLast_ne back]
  exact if_neg front

theorem trimLeft_of_head_ne {part : Bytes} (front : part.head? ≠ some slash) :
    trimLeft slash part = part := by
  cases part with
  | nil => rfl
  | cons byte rest =>
      apply trimLeft_cons_of_ne
      intro same
      exact front (by rw [same]; rfl)

theorem ne_slash_of_singleSlashes {part : Bytes} (single : SingleSlashes part) :
    part ≠ [slash] := by
  rintro rfl
  exact single.1 (by decide)

theorem ne_nil_of_singleSlashes {part : Bytes} (single : SingleSlashes part) :
    part ≠ [] := by
  rintro rfl
  exact single.1 rfl

/-- The joined path is reached when nothing is escaped by mistake and no joint
holds two slashes. -/
theorem destination_faithful_of_single {raw : Bytes} {base : URL}
    (parsed : URL.parse raw = .ok base) (ordinary : question ∉ raw)
    {container remoteDir relativePath : Bytes} (nonempty : relativePath ≠ [])
    (front : relativePath.head? ≠ some slash) (back : relativePath.getLast? ≠ some slash)
    (clean : tilde ∉ container ∧ tilde ∉ remoteDir ∧ tilde ∉ relativePath)
    (containerSingle : SingleSlashes container) (remoteDirSingle : SingleSlashes remoteDir)
    (plain : PlainPath base.path) :
    DestinationFaithful base container remoteDir relativePath := by
  have proper : ProperParts container remoteDir relativePath := by
    constructor
    · exact ne_nil_of_singleSlashes containerSingle
    · exact ne_nil_of_singleSlashes remoteDirSingle
    · exact nonempty
    · exact ne_slash_of_singleSlashes containerSingle
    · exact ne_slash_of_singleSlashes remoteDirSingle
    · rintro rfl
      exact front rfl
  obtain ⟨url, built, addresses⟩ := destination_of_no_tilde parsed ordinary proper clean
  refine ⟨url, built, addresses.authority, addresses.search_nil, ?_⟩
  rw [decode_path addresses, joinAll_three containerSingle.1 remoteDirSingle.1,
    containerSingle.2, remoteDirSingle.2, plain.2,
    (decode_eq_self_iff_trimRight base.path).mp plain.1,
    stripSlashes_of_ends_ne front back, trimLeft_of_head_ne front]

/-- A destination that is the joined path satisfies every condition: the
decoded base path is plain by its first slash, and the lengths leave no slash
over. -/
theorem single_of_destination_faithful {raw : Bytes} {base : URL}
    (parsed : URL.parse raw = .ok base) (ordinary : question ∉ raw)
    {container remoteDir relativePath : Bytes} (container_ne : container ≠ [])
    (remoteDir_ne : remoteDir ≠ []) (relativePath_ne : relativePath ≠ [])
    (front : relativePath.head? ≠ some slash) (back : relativePath.getLast? ≠ some slash)
    (faithful : DestinationFaithful base container remoteDir relativePath) :
    (tilde ∉ container ∧ tilde ∉ remoteDir ∧ tilde ∉ relativePath) ∧
      SingleSlashes container ∧ SingleSlashes remoteDir ∧ PlainPath base.path := by
  obtain ⟨url, built, _authority, _search, decoded⟩ := faithful
  obtain ⟨_proper, clean, addresses⟩ := clean_of_destination parsed ordinary container_ne
    remoteDir_ne relativePath_ne built
  refine ⟨clean, ?_⟩
  rw [decode_path addresses, stripSlashes_of_ends_ne front back] at decoded
  obtain ⟨⟨rest, continues⟩, bound⟩ :=
    @joinAll_three_bound _ _ slash base.path container remoteDir relativePath
  rw [trimLeft_of_head_ne front] at bound
  obtain ⟨slashes, split, all⟩ :=
    @trimRight_append_separators _ _ slash (stripBack slash base.path)
  rw [trimRight_stripBack] at split
  have decodedBase := decode_append_slashes (trimRight slash base.path) all
  rw [← split] at decodedBase
  have plainTrimmed : PercentCoding.decode (trimRight slash base.path) =
      trimRight slash base.path := by
    rw [decodedBase, continues] at decoded
    cases slashes with
    | nil =>
        rw [List.append_nil] at decoded
        exact PercentCoding.decode_eq_self_of_append_eq slash_separator _ _ _ decoded
    | cons first others =>
        rw [all first List.mem_cons_self, List.append_assoc] at decoded
        exact PercentCoding.decode_eq_self_of_append_eq slash_separator _ _ _ decoded
  have lengths := congrArg List.length decoded
  rw [decodedBase, plainTrimmed, ← split] at lengths
  simp only [List.length_append, List.length_cons] at lengths
  have baseShort := @trimRight_sublist _ _ slash (stripBack slash base.path)
  rw [trimRight_stripBack] at baseShort
  have containerShort : (trim slash container).Sublist (stripSlashes container) :=
    trim_strip_sublist container
  have remoteDirShort : (trim slash remoteDir).Sublist (stripSlashes remoteDir) :=
    trim_strip_sublist remoteDir
  have baseLength := baseShort.length_le
  have containerLength := containerShort.length_le
  have remoteDirLength := remoteDirShort.length_le
  by_cases containerGone : trim slash container = []
  · rw [if_pos containerGone] at bound
    omega
  · by_cases remoteDirGone : trim slash remoteDir = []
    · rw [if_neg containerGone, if_pos remoteDirGone] at bound
      omega
    · rw [if_neg containerGone, if_neg remoteDirGone] at bound
      refine ⟨⟨containerGone, ?_⟩, ⟨remoteDirGone, ?_⟩, ?_, ?_⟩
      · exact (containerShort.eq_of_length (by omega)).symm
      · exact (remoteDirShort.eq_of_length (by omega)).symm
      · exact (decode_eq_self_iff_trimRight base.path).mpr plainTrimmed
      · exact (baseShort.eq_of_length (by omega)).symm

theorem destination_faithful_iff {raw : Bytes} {base : URL}
    (parsed : URL.parse raw = .ok base) (ordinary : question ∉ raw)
    {container remoteDir relativePath : Bytes} (container_ne : container ≠ [])
    (remoteDir_ne : remoteDir ≠ []) (relativePath_ne : relativePath ≠ [])
    (front : relativePath.head? ≠ some slash) (back : relativePath.getLast? ≠ some slash) :
    DestinationFaithful base container remoteDir relativePath ↔
      (tilde ∉ container ∧ tilde ∉ remoteDir ∧ tilde ∉ relativePath) ∧
        SingleSlashes container ∧ SingleSlashes remoteDir ∧ PlainPath base.path := by
  constructor
  · exact single_of_destination_faithful parsed ordinary container_ne remoteDir_ne
      relativePath_ne front back
  · intro ⟨clean, containerSingle, remoteDirSingle, plain⟩
    exact destination_faithful_of_single parsed ordinary relativePath_ne front back clean
      containerSingle remoteDirSingle plain

theorem destination_faithful_iff_sample :
    DestinationFaithful sampleBase (text "c") (text "/images/") (text "a b") ↔
      (tilde ∉ text "c" ∧ tilde ∉ text "/images/" ∧ tilde ∉ text "a b") ∧
        SingleSlashes (text "c") ∧ SingleSlashes (text "/images/") ∧
        PlainPath sampleBase.path :=
  destination_faithful_iff parse_sampleBase (by decide) (by decide) (by decide) (by decide)
    (by decide) (by decide)

/-- A backup file's name stops the parser at its tilde. -/
theorem backup_destination_not_faithful :
    URL.parse (text "https://h/v1") = .ok sampleBase ∧ question ∉ text "https://h/v1" ∧
      destination sampleBase (text "c") (text "d") (text "a~") =
        .error (.parseError (text "https://h/v1/c/d/a~") 18) ∧
      ¬ DestinationFaithful sampleBase (text "c") (text "d") (text "a~") := by
  have rejected : destination sampleBase (text "c") (text "d") (text "a~") =
      .error (.parseError (text "https://h/v1/c/d/a~") 18) := by
    decide
  refine ⟨parse_sampleBase, by decide, rejected, ?_⟩
  intro ⟨url, built, _rest⟩
  rw [rejected] at built
  cases built

end Cdnalizerd
