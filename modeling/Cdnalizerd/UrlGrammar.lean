/-
The rules of `url.rl` as languages.

The rules keep their names; the actions are left to the scanner.  A URL of the
`url` rule is given by its components, and a structure holds these with the
rules they were read by.
-/

import Cdnalizerd.UrlScan
import Cdnalizerd.Library.Grammar

namespace Cdnalizerd

open Grammar
open scoped Computability

def colon : UInt8 := 58

def atSign : UInt8 := 64

/-! ### Byte classes -/

def isAlpha (byte : UInt8) : Bool :=
  (97 ≤ byte && byte ≤ 122) || (65 ≤ byte && byte ≤ 90)

def isDigit (byte : UInt8) : Bool :=
  48 ≤ byte && byte ≤ 57

def isUchar (byte : UInt8) : Bool :=
  isAlpha byte || isDigit byte || (text "$-_.+").contains byte ||
    (text "!*'(),").contains byte || byte == 37

def isLoginByte (byte : UInt8) : Bool :=
  isUchar byte || (text ";?&=").contains byte

def isHostByte (byte : UInt8) : Bool :=
  isAlpha byte || isDigit byte || isDigit byte || (text "-.").contains byte

def isSearchByte (byte : UInt8) : Bool :=
  isUchar byte || (text ";:@&=").contains byte

private theorem isPathByte_table : ∀ index : Fin 256,
    isPathByte (UInt8.ofNat index.val) =
      (isSearchByte (UInt8.ofNat index.val) || UInt8.ofNat index.val == slash) := by
  decide +kernel

theorem isPathByte_eq (byte : UInt8) :
    isPathByte byte = (isSearchByte byte || byte == slash) := by
  obtain ⟨index, rfl⟩ := PercentCoding.exists_byte_index byte
  exact isPathByte_table index

private theorem host_login_table : ∀ index : Fin 256,
    isHostByte (UInt8.ofNat index.val) = true → isLoginByte (UInt8.ofNat index.val) = true := by
  decide +kernel

theorem isLoginByte_of_host {byte : UInt8} (admitted : isHostByte byte = true) :
    isLoginByte byte = true := by
  obtain ⟨index, rfl⟩ := PercentCoding.exists_byte_index byte
  exact host_login_table index admitted

theorem isLoginByte_of_digit {byte : UInt8} (admitted : isDigit byte = true) :
    isLoginByte byte = true := by
  unfold isLoginByte isUchar
  rw [admitted, Bool.or_true]
  rfl

/-! ### The rules -/

namespace UrlRule

def alpha : Language UInt8 := oneOf isAlpha

def digit : Language UInt8 := oneOf isDigit

def alnum : Language UInt8 := alpha + digit

def safe : Language UInt8 := oneOf (text "$-_.+").contains

def extra : Language UInt8 := oneOf (text "!*'(),").contains

def escape : Language UInt8 := literal (text "%")

def unreserved : Language UInt8 := alpha + digit + safe + extra

def uchar : Language UInt8 := unreserved + escape

def digits : Language UInt8 := plus digit

def port : Language UInt8 := digits

def hostname : Language UInt8 := plus (alnum + digit + oneOf (text "-.").contains)

def host : Language UInt8 := hostname

def hostport : Language UInt8 := host * optional (literal (text ":") * port)

def user : Language UInt8 := plus (uchar + oneOf (text ";?&=").contains)

def password : Language UInt8 := plus (uchar + oneOf (text ";?&=").contains)

def login : Language UInt8 :=
  user * optional (literal (text ":") * password) * literal (text "@")

def hsegment : Language UInt8 := (uchar + oneOf (text ";:@&=").contains)∗

def hpath : Language UInt8 := hsegment * (literal (text "/") * hsegment)∗

def search : Language UInt8 := (uchar + oneOf (text ";:@&=").contains)∗

def scheme : Language UInt8 := literal (text "http://") + literal (text "https://")

def url : Language UInt8 :=
  scheme * optional login * hostport *
    optional (literal (text "/") * hpath * optional (literal (text "?") * search))

theorem uchar_eq : uchar = oneOf isUchar := by
  unfold uchar unreserved escape alpha digit safe extra
  rw [oneOf_add_oneOf, oneOf_add_oneOf, oneOf_add_oneOf]
  change _ + literal [37] = _
  rw [literal_singleton, oneOf_add_oneOf]
  rfl

theorem user_eq : user = plus (oneOf isLoginByte) := by
  unfold user
  rw [uchar_eq, oneOf_add_oneOf]
  rfl

theorem password_eq : password = plus (oneOf isLoginByte) :=
  user_eq

theorem host_eq : host = plus (oneOf isHostByte) := by
  unfold host hostname alnum alpha digit
  rw [oneOf_add_oneOf, oneOf_add_oneOf, oneOf_add_oneOf]
  rfl

theorem search_eq : search = (oneOf isSearchByte)∗ := by
  unfold search
  rw [uchar_eq, oneOf_add_oneOf]
  rfl

theorem hpath_eq : hpath = (oneOf isPathByte)∗ := by
  ext word
  have segment : hsegment = (oneOf isSearchByte)∗ := search_eq
  unfold hpath
  rw [segment]
  change word ∈ _ * (literal [slash] * _)∗ ↔ _
  rw [mem_segments, mem_star_oneOf]
  simp only [isPathByte_eq]

end UrlRule

/-! ### The components of a URL -/

structure LoginPart where
  user : Bytes
  password : Option Bytes
  user_read : user ∈ UrlRule.user
  password_read : ∀ word, password = some word → word ∈ UrlRule.password

def LoginPart.text (login : LoginPart) : Bytes :=
  login.user ++ marked [colon] login.password ++ [atSign]

structure UrlParts where
  scheme : Bytes
  login : Option LoginPart
  host : Bytes
  port : Option Bytes
  path : Option Bytes
  search : Option Bytes
  scheme_read : scheme ∈ UrlRule.scheme
  host_read : host ∈ UrlRule.host
  port_read : ∀ word, port = some word → word ∈ UrlRule.port
  path_read : ∀ word, path = some word → word ∈ literal [slash] * UrlRule.hpath
  search_read : ∀ word, search = some word → path ≠ none ∧ word ∈ UrlRule.search

namespace UrlParts

variable (parts : UrlParts)

def loginText : Bytes := (parts.login.map LoginPart.text).getD []

def front : Bytes := parts.scheme ++ parts.loginText ++ parts.host ++ marked [colon] parts.port

def text : Bytes := parts.front ++ parts.path.getD [] ++ marked [question] parts.search

end UrlParts

theorem mem_login_iff {word : Bytes} :
    word ∈ UrlRule.login ↔ ∃ login : LoginPart, login.text = word := by
  constructor
  · intro read
    obtain ⟨_, ⟨user, inUser, rest, inRest, rfl⟩, last, isAt, rfl⟩ := read
    obtain ⟨password, inPassword, rfl⟩ := mem_optional_marked.mp inRest
    exact ⟨⟨user, password, inUser, inPassword⟩, by rw [mem_literal.mp isAt]; rfl⟩
  · rintro ⟨login, rfl⟩
    apply Language.append_mem_mul _ (mem_literal.mpr rfl)
    apply Language.append_mem_mul login.user_read
    exact mem_optional_marked.mpr ⟨login.password, login.password_read, rfl⟩

theorem mem_optional_login_iff {word : Bytes} :
    word ∈ optional UrlRule.login ↔
      ∃ login : Option LoginPart, (login.map LoginPart.text).getD [] = word := by
  rw [mem_optional, mem_login_iff]
  constructor
  · rintro (absent | ⟨login, same⟩)
    · exact ⟨none, absent.symm⟩
    · exact ⟨some login, same⟩
  · rintro ⟨login, rfl⟩
    cases login with
    | none => exact Or.inl rfl
    | some login => exact Or.inr ⟨login, rfl⟩

private theorem mem_tail_iff {word : Bytes} :
    word ∈ optional (literal [slash] * UrlRule.hpath *
        optional (literal [question] * UrlRule.search)) ↔
      ∃ path search : Option Bytes,
        (∀ read, path = some read → read ∈ literal [slash] * UrlRule.hpath) ∧
        (∀ read, search = some read → path ≠ none ∧ read ∈ UrlRule.search) ∧
        path.getD [] ++ marked [question] search = word := by
  constructor
  · rintro (absent | ⟨path, inPath, rest, inRest, rfl⟩)
    · refine ⟨none, none, ?_, ?_, absent.symm⟩
      · rintro read ⟨⟩
      · rintro read ⟨⟩
    · obtain ⟨search, inSearch, rfl⟩ := mem_optional_marked.mp inRest
      refine ⟨some path, search, ?_, ?_, rfl⟩
      · rintro read ⟨⟩
        exact inPath
      · intro read found
        exact ⟨Option.some_ne_none path, inSearch read found⟩
  · rintro ⟨path, search, inPath, inSearch, rfl⟩
    cases path with
    | none =>
        cases search with
        | none => exact nil_mem_optional _
        | some read => exact absurd rfl (inSearch read rfl).1
    | some path =>
        apply mem_optional_of_mem
        apply Language.append_mem_mul (inPath path rfl)
        exact mem_optional_marked.mpr ⟨search, fun read found => (inSearch read found).2, rfl⟩

/-- The `url` rule reads exactly the texts of its components. -/
theorem mem_url_iff {raw : Bytes} :
    raw ∈ UrlRule.url ↔ ∃ parts : UrlParts, parts.text = raw := by
  constructor
  · intro read
    obtain ⟨_, ⟨_, ⟨scheme, inScheme, _, inLogin, rfl⟩, _, ⟨host, inHost, _, inPort, rfl⟩, rfl⟩,
      tail, inTail, rfl⟩ := read
    obtain ⟨login, rfl⟩ := mem_optional_login_iff.mp inLogin
    obtain ⟨port, portRead, rfl⟩ := mem_optional_marked.mp inPort
    obtain ⟨path, search, pathRead, searchRead, rfl⟩ := mem_tail_iff.mp inTail
    refine ⟨⟨scheme, login, host, port, path, search, inScheme, inHost, portRead, pathRead,
      searchRead⟩, ?_⟩
    simp only [UrlParts.text, UrlParts.front, UrlParts.loginText, List.append_assoc]
    rfl
  · rintro ⟨parts, rfl⟩
    have hostport : parts.host ++ marked [colon] parts.port ∈ UrlRule.hostport :=
      Language.append_mem_mul parts.host_read
        (mem_optional_marked.mpr ⟨parts.port, parts.port_read, rfl⟩)
    have tail := mem_tail_iff.mpr
      ⟨parts.path, parts.search, parts.path_read, parts.search_read, rfl⟩
    have whole := Language.append_mem_mul (Language.append_mem_mul (Language.append_mem_mul
      parts.scheme_read (mem_optional_login_iff.mpr ⟨parts.login, rfl⟩)) hostport) tail
    simp only [UrlParts.text, UrlParts.front, UrlParts.loginText, List.append_assoc] at whole ⊢
    exact whole

end Cdnalizerd
