import Gateway.Http.Host
import Gateway.Text.Blank

/-!
# Gateway.Http.Url — absolute urls

Reads an absolute url as browsers do, and writes it in its normal form: schemes and hosts in lower
case, no number after the host that the scheme implies, no dot segments, and what must not stand
in a part percent-encoded. Urls of the web and of files are lenient: a backslash serves for a
slash. A segment such as `C:` names a drive; what is above it cannot be reached from below.
-/

set_option autoImplicit false

namespace Gateway

/-- The part of a url that says where: a user with a password perhaps, a host, and a number. The
name of the user and the host are empty if there is none, the password is not. -/
structure Authority where
  username : String := ""
  password : Option String := none
  host : Host
  portNumber : Option Nat := none
  deriving DecidableEq, Repr

def Authority.text (a : Authority) : String :=
  let password := (a.password.map (":" ++ ·)).getD ""
  (if a.username.isEmpty && a.password.isNone then "" else a.username ++ password ++ "@")
    ++ a.host.text ++ (a.portNumber.map fun n => ":" ++ toString n).getD ""

/-- An absolute url. Without an authority, a path that does not begin with a slash is kept as it
is. -/
structure Url where
  scheme : String
  authority : Option Authority
  path : String
  query : Option String
  fragment : Option String
  deriving DecidableEq, Repr

namespace Url

/-- The schemes of the web, each with the number that it implies after the host. -/
def impliedNumbers : List (String × Nat) := [("http", 80), ("https", 443), ("ws", 80), ("wss", 443),
  ("ftp", 21)]

/-! ## Paths -/

/-- A slash, or a backslash where that serves for one. -/
def isSlash (lenient : Bool) (c : Char) : Bool := c == '/' || (lenient && c == '\\')

/-- Whether a text is a letter and a colon or bar, and nothing or a backslash after it. -/
def isDrive : List Char → Bool
  | letter :: sign :: rest =>
    letter.isAlpha && (sign == ':' || sign == '|') && rest.head?.all (· = '\\')
  | _ => false

/-- Whether a segment is no more than a drive. -/
def isDriveOnly (segment : List Char) : Bool := segment.length == 2 && isDrive segment

/-- Whether a segment stands for the place it is in. -/
def isDot (segment : String) : Bool := [".", "%2e"].contains (lowerAscii segment)

/-- Whether a segment stands for the place above. -/
def isDotDot (segment : String) : Bool :=
  ["..", ".%2e", "%2e.", "%2e%2e"].contains (lowerAscii segment)

/-- The path one place above. There is no place above a drive. -/
def above (path : List String) : List String :=
  if path.getLast?.any fun segment => isDrive segment.toList then path else path.dropLast

/-- A segment as it is written. The drive that a file path begins with has a colon. -/
def segmentText (file : Bool) (path : List String) (segment : String) : String :=
  if file && path.isEmpty && isDriveOnly segment.toList then
    String.ofList (segment.toList.take 1) ++ ":"
  else percentEncode Escape.inPath segment

/-- Follows the segments of a path. A dot segment at the end leaves a slash there. -/
def followSegments (file : Bool) (path : List String) : List String → List String
  | [] => path
  | segment :: rest =>
    let slash := if rest.isEmpty then [""] else []
    if isDotDot segment then followSegments file (above path ++ slash) rest
    else if isDot segment then followSegments file (path ++ slash) rest
    else followSegments file (path ++ [segmentText file path segment]) rest

/-- The normal form of the segments behind the slash at the root. -/
def normalSegments (lenient file : Bool) (cs : List Char) : List String :=
  let cs := cs.map fun c => if isSlash lenient c then '/' else c
  followSegments file [] ((splitAt '/' cs).map String.ofList)

def pathText (segments : List String) : String := "/" ++ "/".intercalate segments

/-- What follows the slash at the root of a path. -/
def afterRoot (lenient : Bool) : List Char → List Char
  | [] => []
  | c :: cs => if isSlash lenient c then cs else c :: cs

/-- The normal form of the path behind an authority. Only a url of the web always has one. -/
def normalPath (web : Bool) (cs : List Char) : String :=
  if cs.isEmpty && !web then "" else pathText (normalSegments web false (afterRoot web cs))

/-! ## Reading -/

/-- Cuts path, query and fragment apart. -/
def cutTail (cs : List Char) : List Char × Option (List Char) × Option (List Char) :=
  let (front, fragment) := cutAt '#' cs
  let (path, query) := cutAt '?' front
  (path, query, fragment)

/-- The scheme of a text, in lower case, and what follows its colon. -/
def readScheme? (cs : List Char) : Option (String × List Char) :=
  let isPart := fun (c : Char) => c.isAlphanum || c == '+' || c == '-' || c == '.'
  match cs.dropWhile isPart with
  | ':' :: rest =>
    let name := cs.takeWhile isPart
    if name.head?.any Char.isAlpha then some (lowerAscii (String.ofList name), rest) else none
  | _ => none

/-- Cuts a host from the number after it. A colon within brackets belongs to the host. -/
def cutNumber (inside : Bool) : List Char → List Char × Option (List Char)
  | [] => ([], none)
  | c :: cs =>
    if c = ':' ∧ !inside then ([], some cs)
    else (cutNumber ((inside || c = '[') && c ≠ ']') cs).map (c :: ·) id

/-- Reads the number after a host, and what follows a backslash. The number that the scheme
implies is none. -/
def readNumber (scheme : String) : Option (List Char) →
    Except UrlError (Option Nat × List Char)
  | none => .ok (none, [])
  | some cs => do
    let digits := cs.takeWhile isDigit
    let rest := cs.dropWhile isDigit
    if 65535 < digitsNat digits || !rest.head?.all (· = '\\') then throw .portNumber
    else if digits.isEmpty || impliedNumbers.lookup scheme = some (digitsNat digits) then
      return (none, rest)
    else return (some (digitsNat digits), rest)

/-- Cuts a text at the last at sign: the user, and the host with its number. -/
def cutUser (cs : List Char) : Option (List Char) × List Char :=
  let host := (cs.reverse.takeWhile (· ≠ '@')).reverse
  if host.length < cs.length then (some (cs.take (cs.length - host.length - 1)), host)
  else (none, cs)

/-- The name and the password of a user. An empty password is none. -/
def readUser (cs : List Char) : String × Option String :=
  let (name, password) := cutAt ':' cs
  let written := fun cs => percentEncode Escape.inUser (String.ofList cs)
  (written name, (password.filter (!·.isEmpty)).map written)

/-- Reads an authority, and what follows a backslash in it. `atEnd` tells that nothing follows the
authority. Whoever names a user or a number names a host. -/
def readAuthority (web atEnd : Bool) (scheme : String) (cs : List Char) :
    Except UrlError (Authority × List Char) := do
  let (user, rest) := cutUser cs
  if user = some [] ∧ rest = [] ∧ !atEnd then throw .emptyHost
  let (host, number) := cutNumber false rest
  if host.isEmpty && web then throw .emptyHost
  let host ← if web then Host.read host else Host.readOther host
  if host = .name "" ∧ number.isSome then throw .emptyHost
  let (portNumber, rest) ← readNumber scheme number
  let (username, password) := readUser (user.getD [])
  if host = .name "" ∧ (!username.isEmpty ∨ password.isSome) then throw .emptyHost
  return ({ username, password, host, portNumber }, rest)

/-- Makes a url of its parts; query and fragment are written in their normal form. -/
def assemble (lenient : Bool) (scheme : String) (authority : Option Authority) (path : String)
    (query fragment : Option (List Char)) : Url where
  scheme
  authority
  path
  query := query.map fun q => percentEncode (Escape.inQuery lenient) (String.ofList q)
  fragment := fragment.map fun f => percentEncode Escape.inFragment (String.ofList f)

/-- Whether a character belongs to the authority at the front of a text. -/
def isInside (lenient : Bool) (c : Char) : Bool := !isSlash lenient c && c != '?' && c != '#'

/-- Reads what follows the scheme and the slashes of a url with an authority. -/
def readHierarchical (web : Bool) (scheme : String) (cs : List Char) : Except UrlError Url := do
  let after := cs.dropWhile (isInside web)
  let (authority, rest) ← readAuthority web after.isEmpty scheme (cs.takeWhile (isInside web))
  let (path, query, fragment) := cutTail (rest ++ after)
  return assemble web scheme (some authority) (normalPath web path) query fragment

/-- The url of a file. Slashes at the front of its path count as one, and a path that begins with a
drive has no host. -/
def fileUrl (host : Host) (cs : List Char) : Url :=
  let (path, query, fragment) := cutTail cs
  let segments := normalSegments true true path
  let hasDrive := segments.head?.any fun segment => isDriveOnly segment.toList
  assemble true "file" (some { host := if hasDrive then .name "" else host })
    (pathText (segments.dropWhile (·.isEmpty))) query fragment

/-- Reads what follows the scheme of the url of a file. A drive is no host, and the local host is
none. -/
def readFile (cs : List Char) : Except UrlError Url := do
  let slashes := (cs.take 2).takeWhile (isSlash true)
  if slashes.length < 2 then return fileUrl (.name "") (cs.drop slashes.length)
  let cs := cs.drop 2
  let name := cs.takeWhile (isInside true)
  if name.isEmpty || isDriveOnly name then return fileUrl (.name "") cs
  let host ← Host.read name
  let after := cs.dropWhile (isInside true)
  if host = .name "localhost" then return fileUrl (.name "") after
  return fileUrl host (afterRoot true after)

/-- Reads what follows the scheme of any other url. -/
def readOther (scheme : String) (cs : List Char) : Except UrlError Url :=
  match cs with
  | '/' :: '/' :: rest => readHierarchical false scheme rest
  | cs =>
    let (path, query, fragment) := cutTail cs
    let path := match path with
      | '/' :: rest => pathText (normalSegments false false rest)
      | path => percentEncode Escape.anywhere (String.ofList path)
    .ok (assemble false scheme none path query fragment)

/-- What is left of a text when blanks and controls at its ends, tabs and line ends are dropped. -/
def cleaned (s : String) : List Char :=
  (trimBoth (fun c => c.toNat ≤ 0x20) s).toList.filter fun c => c != '\t' && c != '\n' && c != '\r'

/-- Reads an absolute url. -/
def read (s : String) : Except UrlError Url :=
  match readScheme? (cleaned s) with
  | none => .error .noBase
  | some (scheme, rest) =>
    if (impliedNumbers.lookup scheme).isSome then
      readHierarchical true scheme (rest.dropWhile (isSlash true))
    else if scheme = "file" then readFile rest
    else readOther scheme rest

/-! ## Writing -/

/-- The url as text. A path that would read as an authority has a dot segment in front. -/
def display (u : Url) : String :=
  let front := match u.authority with
    | some authority => "//" ++ authority.text
    | none => if beginsWith "//" u.path then "/." else ""
  u.scheme ++ ":" ++ front ++ u.path ++ (u.query.map ("?" ++ ·)).getD ""
    ++ (u.fragment.map ("#" ++ ·)).getD ""

/-- Whether requests can be sent to a url. -/
def isHttp (u : Url) : Bool := u.scheme == "http" || u.scheme == "https"

/-- The text that a name or a password stands for, if it stands for one. -/
def plainText? (s : String) : Option String := Utf8.decode? (Form.percentDecode (Utf8.encode s))

/-- The url without the user, whose name and password travel in a header field. A user whose name
stands for no text, or who has neither a name nor a password that stands for one, stays. -/
def withoutUser (u : Url) : Url :=
  { u with authority := u.authority.map fun a =>
      let named := !a.username.isEmpty || (a.password.bind plainText?).isSome
      if (plainText? a.username).isSome && named then { a with username := "", password := none }
      else a }

end Url

end Gateway
