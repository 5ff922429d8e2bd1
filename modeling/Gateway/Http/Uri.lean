import Gateway.Text.Cut

/-!
# Gateway.Http.Uri — request targets

The target of a client's request: a path with an optional query (`/a?b`), an absolute form with
scheme and authority, an authority alone (`host:80`), or `*`. A fragment is dropped. `Uri.read`
refuses what is none of these; the refusals come in the order in which the text is read: scheme,
authority, path, query.
-/

set_option autoImplicit false

namespace Gateway

/-- Why a text is no request target. -/
inductive UriError
  | empty
  | tooLong
  | invalidCharacter
  | invalidAuthority
  | invalidFormat
  | schemeTooLong
  | schemeMissing
  | pathWithoutSlash
  deriving DecidableEq, Repr

/-- The wording of a refusal. -/
def UriError.message : UriError → String
  | .empty => "empty string"
  | .tooLong => "uri too long"
  | .invalidCharacter => "invalid uri character"
  | .invalidAuthority => "invalid authority"
  | .invalidFormat => "invalid format"
  | .schemeTooLong => "scheme too long"
  | .schemeMissing => "scheme missing"
  | .pathWithoutSlash => "path does not start with slash"

/-- A path with an optional query, as one text. The empty path reads as `/`. -/
structure PathAndQuery where
  text : String
  deriving DecidableEq, Repr

namespace PathAndQuery

/-- A character of a path. What a path must percent-encode is refused, except for quotes and
braces, which are common, and for characters outside ASCII. -/
def isPathChar (c : Char) : Bool :=
  let n := c.toNat
  n == 0x21 || n == 0x22 || (0x24 ≤ n && n ≤ 0x3B) || n == 0x3D || (0x40 ≤ n && n ≤ 0x5F)
    || (0x61 ≤ n && n ≤ 0x7E) || 0x80 ≤ n

/-- A character of a query. -/
def isQueryChar (c : Char) : Bool :=
  let n := c.toNat
  n == 0x21 || (0x24 ≤ n && n ≤ 0x3B) || n == 0x3D || (0x3F ≤ n && n ≤ 0x7E) || 0x80 ≤ n

/-- The most bytes that a target may have. -/
def byteLimit : Nat := 65534

/-- Reads a path and query, without the fragment. -/
def read (s : String) : Except UriError PathAndQuery :=
  let (target, _) := cutAt '#' s.toList
  let (path, query) := cutAt '?' target
  if s.isEmpty then .error .empty
  else if byteLimit < s.utf8ByteSize then .error .tooLong
  else if !path.all isPathChar then .error .invalidCharacter
  else if !(query.getD []).all isQueryChar then .error .invalidCharacter
  else if path.head?.any (· ≠ '/') ∧ target ≠ ['*'] then .error .pathWithoutSlash
  else .ok ⟨String.ofList target⟩

/-- The path, which is never empty. -/
def path (p : PathAndQuery) : String :=
  let before := (cutText '?' p.text).1
  if before.isEmpty then "/" else before

/-- The query, without its question mark. -/
def query (p : PathAndQuery) : Option String := (cutText '?' p.text).2

/-- The text, with `/` for the empty one. -/
def display (p : PathAndQuery) : String := if p.text.isEmpty then "/" else p.text

end PathAndQuery

/-- A request target. -/
structure Uri where
  scheme : Option String
  authority : Option String
  target : PathAndQuery
  deriving DecidableEq, Repr

namespace Uri

/-- A character of an authority, or one of those that end it. -/
def isAuthorityChar (c : Char) : Bool :=
  c.isAlphanum || "!#$&'()*+,-./:;=?@[]_~".toList.contains c

/-- What has been seen of an authority. -/
structure AuthorityScan where
  colons : Nat := 0
  openBracket : Bool := false
  closeBracket : Bool := false
  percent : Bool := false
  /-- Whether the last character read was an at sign. -/
  afterAt : Bool := false

/-- One more character of an authority. -/
def AuthorityScan.step (s : AuthorityScan) (c : Char) : Except UriError AuthorityScan :=
  let s := { s with afterAt := false }
  if c = ':' then
    if 8 ≤ s.colons then .error .invalidAuthority else .ok { s with colons := s.colons + 1 }
  else if c = '[' then
    if s.percent || s.openBracket then .error .invalidAuthority
    else .ok { s with openBracket := true }
  else if c = ']' then
    if !s.openBracket || s.closeBracket then .error .invalidAuthority
    else .ok { s with closeBracket := true, colons := 0, percent := false }
  else if c = '@' then .ok { s with afterAt := true, colons := 0, percent := false }
  else if c = '%' then .ok { s with percent := true }
  else if isAuthorityChar c then .ok s
  else .error .invalidCharacter

/-- Whether the authority read is complete: brackets match, at most one colon stands behind the
host, a host follows the user, and only the user holds percent signs. -/
def AuthorityScan.complete (s : AuthorityScan) : Bool :=
  s.openBracket == s.closeBracket && s.colons ≤ 1 && !s.afterAt && !s.percent

/-- The authority at the front of a text that is not empty, and what follows it. -/
def readAuthority (cs : List Char) : Except UriError (List Char × List Char) := do
  if cs.isEmpty then throw .empty
  let inside := fun c => c ≠ '/' && c ≠ '?' && c ≠ '#'
  let scan ← (cs.takeWhile inside).foldlM AuthorityScan.step {}
  if scan.complete then return (cs.takeWhile inside, cs.dropWhile inside)
  else throw .invalidAuthority

/-- A character of a scheme. -/
def isSchemeChar (c : Char) : Bool := c.isAlphanum || "+-.~".toList.contains c

/-- The scheme at the front of a text, and what follows its `://`. The two schemes of the web are
known in any case. -/
def readScheme (cs : List Char) : Except UriError (Option (String × List Char)) :=
  let name := cs.takeWhile isSchemeChar
  match cs.dropWhile isSchemeChar with
  | ':' :: '/' :: '/' :: rest =>
    let lower := lowerAscii (String.ofList name)
    if lower = "http" ∨ lower = "https" then .ok (some (lower, rest))
    else if cs.length ≤ 3 then .ok none
    else if 64 < name.length then .error .schemeTooLong
    else .ok (some (String.ofList name, rest))
  | _ => .ok none

/-- Reads an absolute form or an authority alone. -/
def readFull (cs : List Char) : Except UriError Uri := do
  match ← readScheme cs with
  | none =>
    let (authority, rest) ← readAuthority cs
    if rest.isEmpty then return ⟨none, some (String.ofList authority), ⟨""⟩⟩
    else throw .invalidFormat
  | some (scheme, cs) =>
    let (authority, rest) ← readAuthority cs
    if authority.isEmpty then throw .invalidFormat
    let target ← if rest.isEmpty then pure ⟨""⟩ else PathAndQuery.read (String.ofList rest)
    return ⟨some scheme, some (String.ofList authority), target⟩

/-- Reads a request target. -/
def read (s : String) : Except UriError Uri :=
  match s.toList with
  | [] => .error .empty
  | ['*'] => .ok ⟨none, none, ⟨"*"⟩⟩
  | '/' :: _ => (PathAndQuery.read s).map (⟨none, none, ·⟩)
  | [c] => do
    let (authority, rest) ← readAuthority [c]
    if rest.isEmpty then return ⟨none, some (String.ofList authority), ⟨""⟩⟩
    else throw .invalidCharacter
  | cs => if PathAndQuery.byteLimit < s.utf8ByteSize then .error .tooLong else readFull cs

/-- The path: empty for an authority alone. -/
def path (u : Uri) : String :=
  if u.target.text.isEmpty && u.scheme.isNone then "" else u.target.path

/-- The query, without its question mark. -/
def query (u : Uri) : Option String := u.target.query

/-- Path and query as one text, `/` for an authority alone. -/
def pathAndQuery (u : Uri) : String :=
  if u.scheme.isSome || u.authority.isNone then u.target.display else "/"

/-- The whole target as text. -/
def display (u : Uri) : String :=
  (u.scheme.map (· ++ "://")).getD "" ++ u.authority.getD "" ++ u.path
    ++ (u.query.map ("?" ++ ·)).getD ""

/-- The same target with another path and query. An authority alone cannot take one. -/
def withTarget (u : Uri) (target : PathAndQuery) : Except UriError Uri :=
  if u.scheme.isNone && u.authority.isSome then .error .schemeMissing
  else .ok { u with target }

end Uri

end Gateway
