import Vitals.Http.Percent
import Vitals.Web.Address

/-!
# URLs

A URL is read leniently and kept in its usual form: blanks around it and line ends in it do not
count, scheme and host are in small letters, the port of the scheme is left out, points in the
path are resolved, and what may not stand in a part is percent-encoded.

The schemes of the web are read more leniently than others: a backslash counts as a slash, any
number of slashes may stand before the host, and a host of numbers is an IPv4 address.
-/

namespace Vitals.Http

open Text

/-- The path of a URL: segments, each behind a slash, or a text without structure. -/
inductive Path where
  | segments (segments : List String)
  | plain (text : String)
  deriving DecidableEq, Repr

/-- A URL, its parts in their usual form. -/
structure Url where
  scheme : String
  /-- The name and the password of a user. -/
  user : Option String
  host : Option String
  port : Option Nat
  path : Path
  query : Option String
  fragment : Option String
  deriving DecidableEq, Repr

namespace Url

def renderPath : Path → String
  | .plain text => text
  | .segments segments => String.join (segments.map ("/" ++ ·))

def render (url : Url) : String :=
  let authority :=
    match url.host with
    | some host =>
        "//" ++ (url.user.map (· ++ "@")).getD "" ++ host
          ++ (url.port.map fun port => ":" ++ toString port).getD ""
    | none => if url.scheme = "file" then "//" else ""
  url.scheme ++ ":" ++ authority ++ renderPath url.path
    ++ (url.query.map ("?" ++ ·)).getD "" ++ (url.fragment.map ("#" ++ ·)).getD ""

/-! ## Schemes -/

/-- The port that a scheme of the web has of its own. -/
def webPort? : String → Option Nat
  | "http" | "ws" => some 80
  | "https" | "wss" => some 443
  | "ftp" => some 21
  | _ => none

/-- A scheme that is read leniently. -/
def isWebScheme (scheme : String) : Bool := (webPort? scheme).isSome || scheme == "file"

/-- A character of a scheme behind the first one. -/
def isSchemeChar (c : Char) : Bool := c.isAlphanum || c == '+' || c == '-' || c == '.'

/-- The scheme of a text and what follows its colon. -/
def scheme? (chars : List Char) : Option (String × List Char) :=
  let scheme := chars.takeWhile isSchemeChar
  match chars.dropWhile isSchemeChar with
  | ':' :: rest =>
      if scheme.head?.any Char.isAlpha then
        some (String.ofList (scheme.map Char.toLower), rest)
      else none
  | _ => none

/-! ## Hosts -/

/-- A character that no host may hold. -/
def isForbiddenInHost (c : Char) : Bool :=
  ['\x00', '\t', '\n', '\r', ' ', '#', '/', ':', '<', '>', '?', '@', '[', '\\', ']', '^',
    '|'].contains c

/-- A character that no host of the web may hold. -/
def isForbiddenInDomain (c : Char) : Bool :=
  isForbiddenInHost c || c.toNat ≤ 0x1F || c == '%' || c == '\x7f'

/-- The parts of a text between the characters that have a property. -/
def splitAt (separates : Char → Bool) : List Char → List (List Char)
  | [] => [[]]
  | c :: rest =>
      if separates c then [] :: splitAt separates rest
      else match splitAt separates rest with
        | [] => [[c]]
        | part :: parts => (c :: part) :: parts

/-- A part of an IPv4 address, in decimal, octal behind a zero, or hexadecimal behind `0x`. -/
def ipv4Part? (chars : List Char) : Option Nat :=
  match chars with
  | [] => none
  | '0' :: 'x' :: digits | '0' :: 'X' :: digits => ofHexDigits? digits
  | '0' :: digit :: digits =>
      if (digit :: digits).all fun c => '0' ≤ c && c ≤ '7' then
        some ((digit :: digits).foldl (fun value c => value * 8 + (c.toNat - '0'.toNat)) 0)
      else none
  | digits => if digits.all isDigit then some (ofDigits digits) else none

/-- The labels of a domain without an empty one at the end. -/
def labels (domain : List Char) : List (List Char) :=
  let labels := splitAt (· == '.') domain
  if labels.getLast? = some [] ∧ 1 < labels.length then labels.dropLast else labels

/-- The last label of a domain is a number, so the domain must be an IPv4 address. -/
def endsInNumber (domain : List Char) : Bool :=
  match (labels domain).getLast? with
  | some label => !label.isEmpty && (label.all isDigit || (ipv4Part? label).isSome)
  | none => false

/-- The number of an IPv4 address: the last part fills the octets that are left. -/
def ipv4Number? : List Nat → Nat → Option Nat
  | [], _ => none
  | [last], octets => if last < Nat.pow 256 octets then some last else none
  | part :: rest, octets => do
      if 255 < part then none
      let others ← ipv4Number? rest (octets - 1)
      return part * Nat.pow 256 (octets - 1) + others

/-- An IPv4 address in its usual form. -/
def ipv4? (domain : List Char) : Option String := do
  let parts ← (labels domain).mapM ipv4Part?
  if 4 < parts.length then none
  let number ← ipv4Number? parts 4
  return ".".intercalate
    ([number / 16777216, number / 65536 % 256, number / 256 % 256, number % 256].map toString)

/-- The host of a URL in its usual form. -/
def host? (web : Bool) (chars : List Char) : Option String := do
  match chars with
  | '[' :: rest =>
      if rest.getLast? ≠ some ']' then none
      let groups ← Web.Host.allGroups.all? rest.dropLast
      return "[" ++ Web.Host.compressGroups groups ++ "]"
  | chars =>
      if web then
        let domain := (← percentDecode? chars).toLower.toList
        if domain.isEmpty ∨ domain.any isForbiddenInDomain then none
        if endsInNumber domain then ipv4? domain else return String.ofList domain
      else if chars.any isForbiddenInHost then none
      else return percentEncode isControl chars

/-! ## Authorities -/

/-- The part of an authority that names a user, and the rest behind the last `@`. -/
def splitUser (chars : List Char) : Option (List Char) × List Char :=
  match splitAt (· == '@') chars with
  | [] | [_] => (none, chars)
  | parts => (some (['@'].intercalate parts.dropLast), parts.getLastD [])

/-- The name and the password of a user in their usual form. -/
def renderUser (chars : List Char) : Option String :=
  let name := percentEncode encodedInUser (chars.takeWhile (· != ':'))
  let password := percentEncode encodedInUser ((chars.dropWhile (· != ':')).drop 1)
  if name = "" ∧ password = "" then none
  else if password = "" then some name
  else some (name ++ ":" ++ password)

def splitPort (chars : List Char) : List Char × List Char :=
  let host :=
    if chars.head? = some '[' then
      chars.takeWhile (· != ']') ++ (chars.dropWhile (· != ']')).take 1
    else chars.takeWhile (· != ':')
  (host, chars.drop host.length)

/-- The port behind a host: nothing, a colon, or a colon and a number of 16 bits. The port of the
scheme counts as none. -/
def port? (scheme : String) (chars : List Char) : Option (Option Nat) :=
  match chars with
  | [] | [':'] => some none
  | ':' :: digits =>
      let number := ofDigits digits
      if digits.all isDigit ∧ number < UInt16.size then
        some (if webPort? scheme = some number then none else some number)
      else none
  | _ => none

/-! ## Paths -/

/-- A segment that stands for the same place: a point, which may be encoded. -/
def isSinglePoint (chars : List Char) : Bool :=
  [".", "%2e"].contains (String.ofList (chars.map Char.toLower))

/-- A segment that leads one level up: two points, which may be encoded. -/
def isDoublePoint (chars : List Char) : Bool :=
  ["..", ".%2e", "%2e.", "%2e%2e"].contains (String.ofList (chars.map Char.toLower))

/-- The segments of a path behind some segments, the last of them first; points are resolved. -/
def resolve (stack : List String) : List (List Char) → List String
  | [] => stack.reverse
  | part :: rest =>
      let last := rest.isEmpty
      if isDoublePoint part then
        resolve (if last then "" :: stack.drop 1 else stack.drop 1) rest
      else if isSinglePoint part then resolve (if last then "" :: stack else stack) rest
      else resolve (percentEncode encodedInPath part :: stack) rest

/-- A slash, or a backslash in a URL of the web. -/
def isSlash (web : Bool) (c : Char) : Bool := c == '/' || (web && c == '\\')

/-- The path of a text that starts with a slash, or is empty. -/
def pathOf (web : Bool) (chars : List Char) : Path :=
  match chars with
  | [] => .segments (if web then [""] else [])
  | c :: rest =>
      .segments (resolve [] (splitAt (isSlash web) (if isSlash web c then rest else chars)))

/-! ## Whole URLs -/

/-- A text that is cut into its part before a query and a fragment, its query and its fragment. -/
structure Cut where
  front : List Char
  query : Option (List Char)
  fragment : Option (List Char)

/-- The part before a character, and the part behind it if there is one. -/
def cutAt (separator : Char) (chars : List Char) : List Char × Option (List Char) :=
  let front := chars.takeWhile (· != separator)
  match chars.drop front.length with
  | [] => (front, none)
  | _ :: rest => (front, some rest)

/-- A text cut at its first `#` and, before it, at its first `?`. -/
def Cut.ofChars (chars : List Char) : Cut :=
  let (front, fragment) := cutAt '#' chars
  let (front, query) := cutAt '?' front
  ⟨front, query, fragment⟩

/-- The query and the fragment of a text in their usual form. -/
def withEnd (url : Url) (web : Bool) (cut : Cut) : Url :=
  { url with
    query := cut.query.map
      (percentEncode (if web then encodedInWebQuery else encodedInQuery))
    fragment := cut.fragment.map (percentEncode encodedInFragment) }

/-- The URL of a scheme, an authority with the path behind it, and an end. -/
def ofAuthority? (scheme : String) (web : Bool) (cut : Cut) (chars : List Char) : Option Url := do
  let authority := chars.takeWhile fun c => !isSlash web c
  let path := chars.drop authority.length
  let (user, rest) := splitUser authority
  let (host, port) := splitPort rest
  let port ← port? scheme port
  if host.isEmpty ∧ (web ∨ user.isSome ∨ port.isSome) then none
  let host ← if host.isEmpty then some none else (host? web host).map some
  let url : Url := ⟨scheme, user.bind renderUser, host, port, pathOf web path, none, none⟩
  return url.withEnd web cut

/-- The URL of a file: its host may be missing, and the host of this machine counts as none. -/
def ofFile? (cut : Cut) (chars : List Char) : Option Url := do
  match chars with
  | a :: b :: rest =>
      if isSlash true a ∧ isSlash true b then
        let name := rest.takeWhile fun c => !isSlash true c
        let host ← if name.isEmpty then some none else (host? true name).map some
        let host := if host = some "localhost" then none else host
        let path := pathOf true (rest.drop name.length)
        return ({ scheme := "file", user := none, host, port := none, path, query := none,
                  fragment := none } : Url).withEnd true cut
      else return hostless
  | _ => return hostless
where
  /-- The URL of a path alone. -/
  hostless : Url :=
    ({ scheme := "file", user := none, host := none, port := none, path := pathOf true chars,
       query := none, fragment := none } : Url).withEnd true cut

/-- The URL of a scheme and what follows its colon. -/
def ofScheme? (scheme : String) (chars : List Char) : Option Url :=
  let cut := Cut.ofChars chars
  if scheme = "file" then ofFile? cut cut.front
  else if isWebScheme scheme then
    ofAuthority? scheme true cut (cut.front.dropWhile (isSlash true))
  else
    match cut.front with
    | '/' :: '/' :: rest => ofAuthority? scheme false cut rest
    | '/' :: rest =>
        some (({ scheme, user := none, host := none, port := none,
                 path := pathOf false ('/' :: rest), query := none,
                 fragment := none } : Url).withEnd false cut)
    | front =>
        some (({ scheme, user := none, host := none, port := none,
                 path := .plain (percentEncode isControl front), query := none,
                 fragment := none } : Url).withEnd false cut)

/-- A text without control characters and spaces around it, and without tabs and line ends. -/
def trim (text : String) : List Char :=
  let isEdge (c : Char) : Bool := c.toNat ≤ 0x20
  let chars := ((text.toList.dropWhile isEdge).reverse.dropWhile isEdge).reverse
  chars.filter fun c => c != '\t' && c != '\n' && c != '\r'

def read? (text : String) : Option Url := do
  let (scheme, rest) ← scheme? (trim text)
  ofScheme? scheme rest

def segments (url : Url) : List String :=
  match url.path with
  | .segments segments => segments
  | .plain _ => []

/-- The URL that a text writes as seen from a URL of the web. -/
def join? (base : Url) (text : String) : Option Url :=
  let chars := trim text
  match scheme? chars with
  | some (scheme, rest) => ofScheme? scheme rest
  | none =>
      let cut := Cut.ofChars chars
      let here := { base with fragment := none }
      match cut.front with
      | [] =>
          let query := if cut.query.isSome then (here.withEnd true cut).query else base.query
          some { (here.withEnd true cut) with query }
      | [c] =>
          if isSlash true c then some ({ here with path := pathOf true [c] }.withEnd true cut)
          else some (relative here cut)
      | a :: b :: rest =>
          if isSlash true a ∧ isSlash true b then
            ofAuthority? base.scheme true cut (rest.dropWhile (isSlash true))
          else if isSlash true a then
            some ({ here with path := pathOf true (a :: b :: rest) }.withEnd true cut)
          else some (relative here cut)
where
  /-- The URL of a path that starts beside the last segment of another one. -/
  relative (here : Url) (cut : Cut) : Url :=
    let path := resolve (here.segments.dropLast.reverse) (splitAt (isSlash true) cut.front)
    { here with path := .segments path }.withEnd true cut

end Url

end Vitals.Http
