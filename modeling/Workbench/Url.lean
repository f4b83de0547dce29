import Workbench.Url.Host

/-!
# URLs

`Url.parse` reads an absolute URL and brings it to its normal form: the scheme and the host in
lower case, no port where it is the default of the scheme, no dot segments, and whatever a part may
not show percent encoded. `Url.text` writes it.

The well-known schemes always have a host, however many slashes stand before it, and take a
backslash for a slash. Any other URL has a host only behind two slashes; without a slash its path is
opaque.
-/
namespace Workbench

structure Url.Authority where
  username : String
  password : Option String
  host : Url.Host
  port : Option Nat
  deriving DecidableEq, Repr

inductive Url.Path
  | opaque_ (text : String)
  | segments (names : List String)
  deriving DecidableEq, Repr

structure Url where
  scheme : String
  authority : Option Url.Authority
  path : Url.Path
  query : Option String
  fragment : Option String
  deriving DecidableEq, Repr

open Text (splitOn)

namespace Url

/-! ## Schemes -/

inductive SchemeKind
  /-- A well-known scheme with hosts. -/
  | special
  | file
  | other
  deriving DecidableEq

def schemeKind (scheme : String) : SchemeKind :=
  if ["http", "https", "ws", "wss", "ftp"].contains scheme then .special
  else if scheme = "file" then .file
  else .other

def defaultPort (scheme : String) : Option Nat :=
  if scheme = "http" ∨ scheme = "ws" then some 80
  else if scheme = "https" ∨ scheme = "wss" then some 443
  else if scheme = "ftp" then some 21
  else none

def isSchemeChar (c : Char) : Bool := c.isAlphanum || c == '+' || c == '-' || c == '.'

/-- The scheme in lower case and what follows its colon. -/
def scheme? (cs : List Char) : Option (String × List Char) :=
  let (name, rest) := cs.span isSchemeChar
  match rest with
  | ':' :: rest =>
    if name.head?.any Char.isAlpha then some (String.ofList (name.map Char.toLower), rest) else none
  | _ => none

/-! ## Authorities -/

/-- What ends the authority. -/
def endsAuthority (kind : SchemeKind) (c : Char) : Bool :=
  c == '/' || c == '?' || c == '#' || (kind != .other && c == '\\')

/-- The part before the last `@`, if there is one, and the part behind it. -/
def splitUserinfo (cs : List Char) : Option (List Char) × List Char :=
  let (host, before) := cs.reverse.span (· != '@')
  match before with
  | [] => (none, cs)
  | _ :: info => (some info.reverse, host.reverse)

/-- Host and port, which are separated by the first colon outside brackets. -/
def splitPort (inBrackets : Bool) : List Char → List Char × Option (List Char)
  | [] => ([], none)
  | c :: cs =>
    if c = ':' ∧ ¬inBrackets then ([], some cs)
    else
      let (host, port) := splitPort (if c = '[' then true else if c = ']' then false else inBrackets) cs
      (c :: host, port)

/-- A port, of which nothing remains where it is missing or the default. -/
def parsePort (scheme : String) (digits : List Char) : Except UrlError (Option Nat) :=
  if digits = [] then .ok none
  else if digits.all Char.isDigit ∧ Nat.ofDigitChars 10 digits 0 < 65536 then
    let port := Nat.ofDigitChars 10 digits 0
    .ok (if some port = defaultPort scheme then none else some port)
  else .error .badPort

def parseUserinfo (info : List Char) : String × Option String :=
  let (name, password) := info.span (· != ':')
  let password := password.drop 1
  (percentEncode Encoded.userinfo name,
    if password = [] then none else some (percentEncode Encoded.userinfo password))

def parseAuthority (scheme : String) (cs : List Char) : Except UrlError Authority := do
  let kind := schemeKind scheme
  let (info, hostPort) := splitUserinfo cs
  let (hostText, port) := splitPort false hostPort
  if hostText = [] ∧ (kind = .special ∨ info.isSome ∨ port.isSome) then throw .emptyHost
  let host ← if kind = .other then Host.parseOpaque hostText else Host.parse hostText
  let (username, password) := parseUserinfo (info.getD [])
  return ⟨username, password, host, ← parsePort scheme (port.getD [])⟩

/-! ## Paths -/

/-- A segment up to case, where `%2e` is a dot. -/
def plainSegment : List Char → List Char
  | '%' :: '2' :: 'e' :: rest => '.' :: plainSegment rest
  | '%' :: '2' :: 'E' :: rest => '.' :: plainSegment rest
  | c :: rest => c :: plainSegment rest
  | [] => []

/-- Resolves the dot segments of a path, given the segments before in reverse. -/
def resolve (before : List String) : List (List Char) → List String
  | [] => before.reverse
  | s :: rest =>
    let isLast := rest.isEmpty
    if plainSegment s = ['.', '.'] then
      resolve (if isLast then "" :: before.tail else before.tail) rest
    else if plainSegment s = ['.'] then
      resolve (if isLast then "" :: before else before) rest
    else resolve (percentEncode Encoded.path s :: before) rest

/-- The segments of a path behind its first slash. -/
def parseSegments (kind : SchemeKind) (cs : List Char) : List String :=
  let cs := if kind = .other then cs else cs.map fun c => if c = '\\' then '/' else c
  resolve [] (splitOn '/' cs)

/-- The path behind an authority. -/
def pathAfterAuthority (kind : SchemeKind) (cs : List Char) : Path :=
  match cs with
  | [] => .segments (if kind = .other then [] else [""])
  | _ :: rest => .segments (parseSegments kind rest)

def Path.text : Path → String
  | .opaque_ t => t
  | .segments names => String.join (names.map ("/" ++ ·))

/-! ## Whole URLs -/

/-- The query and the fragment, each with the character that announces it. -/
def parseTail (kind : SchemeKind) (cs : List Char) : Option String × Option String :=
  let (query, fragment) := cs.span (· != '#')
  let set := if kind = .other then Encoded.query else Encoded.specialQuery
  (match query with
    | [] => none
    | _ :: q => some (percentEncode set q),
   match fragment with
    | [] => none
    | _ :: f => some (percentEncode Encoded.fragment f))

def isSlash (c : Char) : Bool := c == '/' || c == '\\'

/-- Authority and path of a URL of a well-known scheme or behind two slashes. -/
def parseHier (scheme : String) (cs : List Char) : Except UrlError (Option Authority × Path) := do
  let kind := schemeKind scheme
  let (authority, path) := cs.span (!endsAuthority kind ·)
  return (some (← parseAuthority scheme authority), pathAfterAuthority kind path)

/-- Authority and path of a file: no host unless one is named between slashes. -/
def parseFile (cs : List Char) : Except UrlError (Option Authority × Path) := do
  match cs with
  | a :: b :: rest =>
    if isSlash a && isSlash b then
      let (hostText, path) := rest.span (!endsAuthority .file ·)
      let host ← if hostText = [] then pure (Host.domain "") else Host.parse hostText
      let host := if host = .domain "localhost" then .domain "" else host
      return (some ⟨"", none, host, none⟩, pathAfterAuthority .file path)
    else return (some ⟨"", none, .domain "", none⟩, .segments (parseSegments .file (skipSlash cs)))
  | _ => return (some ⟨"", none, .domain "", none⟩, .segments (parseSegments .file (skipSlash cs)))
where
  skipSlash (cs : List Char) : List Char :=
    match cs with
    | c :: rest => if isSlash c then rest else cs
    | [] => []

/-- Authority and path, which follow the scheme. -/
def parseBody (scheme : String) (cs : List Char) : Except UrlError (Option Authority × Path) :=
  match schemeKind scheme, cs with
  | .special, _ => parseHier scheme (cs.dropWhile isSlash)
  | .file, _ => parseFile cs
  | .other, '/' :: '/' :: rest => parseHier scheme rest
  | .other, '/' :: rest => .ok (none, .segments (parseSegments .other rest))
  | .other, _ => .ok (none, .opaque_ (percentEncode Encoded.controls cs))

/-- The characters of a text that count: none of the controls and blanks around it, and no line
ends or tabs. -/
def significant (s : String) : List Char :=
  (Text.dropEnd (·.toNat ≤ 0x20) (s.toList.dropWhile (·.toNat ≤ 0x20))).filter fun c =>
    c != '\t' && c != '\n' && c != '\r'

/-- The URL that a text is. -/
def parse (s : String) : Except UrlError Url :=
  match scheme? (significant s) with
  | none => .error .noScheme
  | some (scheme, rest) => do
    let (body, tail) := rest.span fun c => c != '?' && c != '#'
    let (authority, path) ← parseBody scheme body
    let (query, fragment) :=
      match tail with
      | '?' :: _ => parseTail (schemeKind scheme) tail
      | _ => (none, (parseTail (schemeKind scheme) tail).2)
    return ⟨scheme, authority, path, query, fragment⟩

def Authority.text (a : Authority) : String :=
  let credentials :=
    if a.username = "" ∧ a.password = none then ""
    else a.username ++ (a.password.elim "" (":" ++ ·)) ++ "@"
  credentials ++ a.host.text ++ a.port.elim "" fun p => s!":{p}"

def text (u : Url) : String :=
  let front :=
    match u.authority, u.path with
    | some a, _ => "//" ++ a.text
    | none, .segments ("" :: _ :: _) => "/."
    | none, _ => ""
  u.scheme ++ ":" ++ front ++ u.path.text ++ u.query.elim "" ("?" ++ ·) ++
    u.fragment.elim "" ("#" ++ ·)

/-- The URL names a host. -/
def hasHost (u : Url) : Bool :=
  u.authority.any (·.host != .domain "")

/-- The URL without user name and password. -/
def withoutCredentials (u : Url) : Url :=
  { u with authority := u.authority.map fun a => { a with username := "", password := none } }

end Url

end Workbench
