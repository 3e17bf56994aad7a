/-
URLs: the generated parser, the percent encoder and the slash joiner.

The tables are those of `url_parser.hpp`, and `URL.parse` is the scanner they
drive with the actions of `url_actions.rl`.  `operator/` encodes one more part;
constructing a URL from the parts joins them with single slashes and parses the
result.
-/

import Cdnalizerd.Basic
import Cdnalizerd.Library.RagelScanner

namespace Cdnalizerd

open RagelScanner

structure URL where
  raw : Bytes := []
  scheme : Bytes := []
  user : Bytes := []
  password : Bytes := []
  host : Bytes := []
  port : Bytes := []
  path : Bytes := []
  search : Bytes := []
  pathAndSearch : Bytes := []
deriving DecidableEq

def URL.schemeHostPort (url : URL) : Bytes :=
  if url.port = [] then url.scheme ++ url.host
  else url.scheme ++ url.host ++ [58] ++ url.port

/-! ### The generated tables -/

def urlActions : List Nat :=
  [0, 1, 1, 1, 2, 1, 3, 1,
   4, 1, 6, 1, 7, 1, 8, 1,
   10, 1, 11, 1, 12, 2, 0, 5,
   2, 2, 9, 2, 4, 9, 2, 6,
   2, 2, 7, 3, 2, 11, 12, 3,
   0, 5, 1]

def urlTransKeys : List Int :=
  [104, 116, 116, 112, 58, 115, 47, 47,
   33, 59, 61, 63, 95, 36, 44, 45,
   46, 48, 57, 65, 90, 97, 122, 33,
   58, 61, 64, 95, 36, 46, 48, 59,
   63, 90, 97, 122, 33, 59, 61, 63,
   95, 36, 46, 48, 57, 65, 90, 97,
   122, 33, 59, 61, 64, 95, 36, 46,
   48, 57, 63, 90, 97, 122, 45, 46,
   48, 57, 65, 90, 97, 122, 48, 57,
   33, 59, 61, 63, 95, 36, 46, 48,
   57, 65, 90, 97, 122, 58, 47, 58,
   45, 57, 65, 90, 97, 122, 33, 61,
   63, 95, 36, 59, 64, 90, 97, 122,
   33, 61, 95, 36, 46, 48, 59, 64,
   90, 97, 122, 33, 61, 95, 36, 46,
   48, 59, 64, 90, 97, 122, 47, 48,
   57, 33, 47, 58, 59, 61, 63, 64,
   95, 36, 44, 45, 57, 65, 90, 97,
   122, 33, 47, 59, 61, 64, 95, 36,
   46, 48, 57, 63, 90, 97, 122, 0]

def urlIndicies : List Nat :=
  [0, 1, 2, 1, 3, 1, 4, 1,
   5, 6, 1, 7, 1, 8, 1, 9,
   9, 9, 9, 9, 9, 10, 10, 10,
   10, 1, 11, 12, 11, 13, 11, 11,
   11, 11, 11, 1, 14, 14, 14, 14,
   14, 14, 14, 14, 14, 1, 15, 15,
   15, 16, 15, 15, 15, 15, 15, 1,
   17, 17, 17, 17, 1, 18, 1, 14,
   14, 14, 14, 14, 14, 19, 14, 14,
   1, 5, 1, 21, 22, 20, 20, 20,
   1, 23, 23, 24, 23, 23, 23, 23,
   1, 25, 25, 25, 25, 25, 25, 25,
   1, 26, 26, 26, 26, 26, 26, 26,
   1, 27, 28, 1, 11, 21, 30, 11,
   11, 11, 13, 11, 11, 29, 29, 29,
   1, 15, 27, 15, 15, 16, 15, 15,
   31, 15, 15, 1, 0]

def urlTables : Tables where
  actions := urlActions
  keyOffsets :=
    [0, 0, 1, 2, 3, 4, 6, 7,
     8, 23, 36, 49, 62, 70, 72, 85,
     86, 94, 104, 115, 126, 129, 145]
  transKeys := urlTransKeys
  singleLengths :=
    [0, 1, 1, 1, 1, 2, 1, 1,
     5, 5, 5, 5, 0, 0, 5, 1,
     2, 4, 3, 3, 1, 8, 6]
  rangeLengths :=
    [0, 0, 0, 0, 0, 0, 0, 0,
     5, 4, 4, 4, 4, 1, 4, 0,
     3, 3, 4, 4, 1, 4, 4]
  indexOffsets :=
    [0, 0, 2, 4, 6, 8, 11, 13,
     15, 26, 36, 46, 56, 61, 63, 73,
     75, 81, 89, 97, 105, 108, 121]
  indicies := urlIndicies
  transTargs :=
    [2, 0, 3, 4, 5, 6, 15, 7,
     8, 9, 21, 9, 10, 12, 11, 11,
     12, 16, 20, 22, 16, 17, 13, 17,
     18, 19, 19, 17, 20, 21, 14, 22]
  transActions :=
    [0, 0, 0, 0, 0, 0, 0, 0,
     0, 21, 39, 0, 9, 9, 11, 0,
     13, 1, 5, 33, 0, 24, 3, 0,
     15, 17, 0, 27, 0, 0, 30, 0]
  eofActions :=
    [0, 0, 0, 0, 0, 0, 0, 0,
     0, 0, 0, 0, 0, 0, 0, 0,
     3, 15, 36, 19, 7, 3, 7]
  start := 1
  firstFinal := 16

/-! ### The actions of `url_actions.rl` -/

/-- What the actions work on: the `start` iterator and the URL's fields. -/
structure ParseMemory where
  start : Nat := 0
  url : URL := {}
deriving DecidableEq

/-- `std::string(start, p)` for two positions in `raw`. -/
def slice (raw : Bytes) (start p : Nat) : Bytes :=
  (raw.take p).drop start

/-- The actions under the numbers Ragel gave them.  The six that open a
component only move `start`; numbers seven and eleven are two of them. -/
def performAction (raw : Bytes) (action p : Nat) (memory : ParseMemory) : ParseMemory :=
  let component := slice raw memory.start p
  match action with
  | 0 => { memory with url := { memory.url with scheme := component } }
  | 1 => { memory with start := p }
  | 2 => { memory with url := { memory.url with host := component } }
  | 3 => { memory with start := p }
  | 4 => { memory with url := { memory.url with port := component } }
  | 5 => { memory with start := p }
  | 6 => { memory with url := { memory.url with user := component } }
  | 7 => { memory with start := p }
  | 8 => { memory with url := { memory.url with password := component } }
  | 9 => { memory with start := p }
  | 10 => { memory with url := { memory.url with path := component } }
  | 11 => { memory with start := p }
  | 12 => { memory with url := { memory.url with search := component } }
  | _ => memory

/-- The scanner halted on `raw`, its end-of-input actions included. -/
def scannedURL (raw : Bytes) : Config ParseMemory :=
  exec urlTables (performAction raw) {} raw

/-- `URL::parse`, on a URL whose other fields are still empty. -/
def URL.parse (raw : Bytes) : Except Failure URL :=
  let halted := scannedURL raw
  if halted.state < urlTables.firstFinal then
    .error (.parseError raw halted.position)
  else
    let url := halted.memory.url
    .ok { url with raw := raw, pathAndSearch := url.path ++ url.search }

/-! ### Building a URL from parts -/

def copyBegin (s : Bytes) : Nat :=
  if s.head? = some slash then 1 else 0

def copyEnd (s : Bytes) : Nat :=
  if s.getLast? = some slash then s.length - 1 else s.length

/-- The loop of `joinSlashes`.  Copying a range that ends before it begins is
undefined. -/
def joinSlashesFrom (result : Bytes) : List Bytes → Except Failure Bytes
  | [] => .ok result
  | s :: strings =>
      if s = [] then joinSlashesFrom result strings
      else if copyEnd s < copyBegin s then .error .undefinedBehaviour
      else joinSlashesFrom (result ++ slice s (copyBegin s) (copyEnd s) ++ [slash]) strings

/-- Erasing the last byte of an empty result is undefined. -/
def joinSlashes (strings : List Bytes) : Except Failure Bytes := do
  let result ← joinSlashesFrom [] strings
  if result = [] then .error .undefinedBehaviour else .ok result.dropLast

def legalPunctuation : Bytes :=
  ['.', '-', '_', '~', '!', '$', '&', '\'', '(', ')', '*', '+', ',', ';', '=', ':',
   '/', '@'].map Char.toUInt8

def isAlphanumeric (byte : UInt8) : Bool :=
  (97 ≤ byte && byte ≤ 122) || (65 ≤ byte && byte ≤ 90) || (48 ≤ byte && byte ≤ 57)

def hexChar (nibble : UInt8) : UInt8 :=
  if nibble ≤ 9 then 48 + nibble else 65 + nibble - 10

def urlencode (path : Bytes) : Bytes :=
  path.flatMap fun byte =>
    if isAlphanumeric byte then [byte]
    else if byte ∈ legalPunctuation then [byte]
    else [37, hexChar (byte >>> 4), hexChar (byte &&& 15)]

structure UnParsedURL where
  parts : List Bytes
deriving DecidableEq

/-- `operator/` on a URL. -/
def URL.append (url : URL) (s : Bytes) : UnParsedURL :=
  ⟨[url.raw, urlencode s]⟩

/-- `operator/` on parts that are not parsed yet. -/
def UnParsedURL.append (url : UnParsedURL) (s : Bytes) : UnParsedURL :=
  ⟨url.parts ++ [urlencode s]⟩

def URL.ofUnParsed (url : UnParsedURL) : Except Failure URL := do
  URL.parse (← joinSlashes url.parts)

/-- `URL(base / container / remote_dir / relativePath)`. -/
def destination (base : URL) (container remoteDir relativePath : Bytes) :
    Except Failure URL :=
  URL.ofUnParsed (((base.append container).append remoteDir).append relativePath)

def sampleBase : URL where
  raw := text "https://h/v1"
  scheme := text "https://"
  host := text "h"
  path := text "/v1"
  pathAndSearch := text "/v1"

theorem parse_sampleBase : URL.parse (text "https://h/v1") = .ok sampleBase := by
  decide

def fullURL : URL where
  raw := text "https://u:p@h:1/a?q"
  scheme := text "https://"
  user := text "u"
  password := text "p"
  host := text "h"
  port := text "1"
  path := text "/a"
  search := text "q"
  pathAndSearch := text "/aq"

theorem parse_fullURL : URL.parse (text "https://u:p@h:1/a?q") = .ok fullURL := by
  decide

end Cdnalizerd
