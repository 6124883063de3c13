import Vitals.Http.Url
import Vitals.Text.Base64

/-!
# Requests and redirects

A client sends a request into a network and follows the redirects it gets, up to a limit. The
network is a function of the requests so far, so it can answer the same request differently the
second time. How a client reads a redirect is a function too, `Redirects`: a client knows it of its
own, and all that is relied on here is what `Redirects.Lawful` says. The one that is at work is
`redirect?`.
-/

namespace Vitals.Http

/-- A request. Names of headers are in small letters. -/
structure Request where
  method : String
  url : Url
  headers : List (String × String)
  deriving DecidableEq, Repr

structure Response where
  code : Nat
  headers : List (String × String)
  deriving DecidableEq, Repr

/-- The first value of a header; case does not count in its name. -/
def Response.header? (response : Response) (name : String) : Option String :=
  (response.headers.find? fun header => header.1.toLower == name).map Prod.snd

/-- What becomes of a request. -/
inductive Answer where
  | response (response : Response)
  /-- Nobody accepts the connection. -/
  | refused
  /-- The connection ends without a response. -/
  | closed
  /-- Nothing ever comes. -/
  | silent
  deriving DecidableEq, Repr, Inhabited

/-- What becomes of a request, and the milliseconds until then. -/
structure Reply where
  answer : Answer
  delay : Nat
  deriving DecidableEq, Repr

/-- How a network replies to a request behind earlier ones. -/
abbrev Network := List Request → Request → Reply

/-- The network that accepts no connection. -/
def Network.offline : Network := fun _ _ => ⟨.refused, 0⟩

/-- The network of which a record is known: the requests that were made one after another, and the
reply to the last of them. All else it leaves unanswered. -/
def Network.ofRecord (record : List (List Request × Reply)) : Network := fun earlier request =>
  (record.lookup (earlier ++ [request])).getD ⟨.silent, 0⟩

/-- Why there is no response. -/
inductive Failure where
  /-- The request cannot be sent; its URL is told if it is one. -/
  | unsendable (url : Option Url)
  | refused
  | closed
  | tooManyRedirects (url : Url)
  deriving DecidableEq, Repr

def Failure.message : Failure → String
  | .unsendable none => "Request failed: builder error"
  | .unsendable (some url) => "Request failed: builder error for url (" ++ url.render ++ ")"
  | .refused => "Connection refused"
  | .closed => "Invalid request"
  | .tooManyRedirects url =>
      "Request failed: error following redirect for url (" ++ url.render ++ ")"

inductive Ending where
  | response (response : Response)
  | failure (failure : Failure)
  | never
  deriving DecidableEq, Repr

/-- What a client and a network said to each other, and the milliseconds it took. -/
structure Exchange where
  requests : List Request
  ending : Ending
  elapsed : Nat
  deriving DecidableEq, Repr

/-- A client follows this many redirects unless it is told otherwise. -/
def redirectLimit : Nat := 10

/-- The method of the request behind a redirect. -/
def redirectedMethod (code : Nat) (method : String) : String :=
  if code = 303 then if method = "HEAD" then "HEAD" else "GET"
  else if (code = 301 ∨ code = 302) ∧ method = "POST" then "GET"
  else method

/-- Headers that are not shown to another server. -/
def privateHeaders : List String :=
  ["authorization", "cookie", "cookie2", "proxy-authorization", "www-authenticate"]

def sameServer (left right : Url) : Bool :=
  left.scheme == right.scheme && left.host == right.host && left.port == right.port

/-- The headers of the request behind a redirect from one URL to another. -/
def redirectedHeaders (source target : Url) (headers : List (String × String)) :
    List (String × String) :=
  let kept := headers.filter fun header =>
    header.1 != "referer" && (sameServer source target || !privateHeaders.contains header.1)
  if source.scheme = "https" ∧ target.scheme = "http" then kept
  else kept ++ [("referer", { source with user := none, fragment := none }.render)]

/-- How a client reads the response to a request: the request that it makes in the place of that
one, if the response is a redirect it can follow. -/
abbrev Redirects := Request → Response → Option Request

/-- The codes of responses that send a client elsewhere. -/
def redirectCodes : List Nat := [301, 302, 303, 307, 308]

/-- What is known of the redirects of any client: they have one of five codes and name a location.
-/
structure Redirects.Lawful (redirects : Redirects) : Prop where
  code {request : Request} {response : Response} {next : Request}
    (asks : redirects request response = some next) : response.code ∈ redirectCodes
  location {request : Request} {response : Response} {next : Request}
    (asks : redirects request response = some next) :
    ∃ location, response.header? "location" = some location

/-- The request that a response asks for in the place of another one. A location counts only if
nothing is left to encode in it. -/
def redirect? : Redirects := fun request response => do
  if response.code ∉ redirectCodes then none
  let location ← response.header? "location"
  if !isEncoded location.toList then none
  let target ← request.url.join? location
  let target := { target with fragment := target.fragment <|> request.url.fragment }
  return ⟨redirectedMethod response.code request.method, target,
    redirectedHeaders request.url target request.headers⟩

/-- A client and the network that it is in. -/
structure Client where
  redirects : Redirects
  network : Network

namespace Client

/-- The client at work in a network. -/
def atWork (network : Network) : Client := ⟨redirect?, network⟩

def offline : Client := atWork .offline

/-- The client whose exchanges are on record. -/
def ofRecord (record : List (List Request × Reply)) : Client := atWork (.ofRecord record)

/-- The exchange that continues with a request after some requests and milliseconds, when `left`
more redirects may be followed. -/
def follow (client : Client) (left : Nat) (earlier : List Request) (elapsed : Nat)
    (request : Request) : Exchange :=
  let requests := earlier ++ [request]
  let reply := client.network earlier request
  let elapsed := elapsed + reply.delay
  match reply.answer with
  | .refused => ⟨requests, .failure .refused, elapsed⟩
  | .closed => ⟨requests, .failure .closed, elapsed⟩
  | .silent => ⟨requests, .never, elapsed⟩
  | .response response =>
      match client.redirects request response with
      | none => ⟨requests, .response response, elapsed⟩
      | some next =>
          match left with
          | 0 => ⟨requests, .failure (.tooManyRedirects request.url), elapsed⟩
          | left + 1 =>
              if ["http", "https"].contains next.url.scheme then
                follow client left requests elapsed next
              else ⟨requests, .failure (.unsendable (some next.url)), elapsed⟩

/-- The whole exchange about a request. -/
def send (client : Client) (request : Request) : Exchange :=
  client.follow redirectLimit [] 0 request

end Client

/-! ## Requests from texts -/

/-- A character of a token: a letter, a digit or one of some signs of ASCII. -/
def isTokenChar (c : Char) : Bool :=
  c.isAlphanum || ['!', '#', '$', '%', '&', '\'', '*', '+', '-', '.', '^', '_', '\x60', '|',
    '~'].contains c

/-- A text that can be a method or the name of a header. -/
def isToken (text : String) : Bool := text ≠ "" && text.toList.all isTokenChar

/-- A text that can be the value of a header: no control characters but tabs. -/
def isHeaderValue (text : String) : Bool :=
  text.toList.all fun c => (0x20 ≤ c.toNat && c != '\x7f') || c == '\t'

/-- The name and the password that a URL tells, as a header. -/
def Url.credentials? (url : Url) : Option (String × String) := do
  let user := (← url.user).toList
  let name ← percentDecode? (user.takeWhile (· != ':'))
  let password ← percentDecode? ((user.dropWhile (· != ':')).drop 1)
  return ("authorization", "Basic " ++ Text.base64 (name ++ ":" ++ password).toUTF8)

/-- A host that a request can name. -/
def isSendableHost (host : String) : Bool :=
  !host.toList.any ['"', '\x60', '\x7b', '\x7d'].contains

/-- The request that texts describe, or why it cannot be sent: no URL, a URL without a host, a bad
header, a scheme other than those of HTTP, or an odd host, whichever comes first. A name and a
password in the URL become a header. -/
def Request.ofTexts (method url : String) (headers : List (String × String)) :
    Except Failure Request :=
  match Url.read? url with
  | none => .error (.unsendable none)
  | some url =>
      let target := { url with user := none }
      if url.host.isNone then .error (.unsendable (some url))
      else if !headers.all fun header => isToken header.1 && isHeaderValue header.2 then
        .error (.unsendable none)
      else if url.scheme ∉ ["http", "https"] ∨ !url.host.all isSendableHost then
        .error (.unsendable (some target))
      else .ok ⟨method, target,
        url.credentials?.toList ++ headers.map fun header => (header.1.toLower, header.2)⟩

end Vitals.Http
