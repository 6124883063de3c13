import Vitals.Http.Client

/-!
# Messages on a connection

A message has a head of lines, a blank line, and a body. A client writes the head of a request and
reads the head of the response; bodies do not matter to it. Lines end in a carriage return and a
line feed.
-/

namespace Vitals.Http

def lineEnd : String := "\r\n"

/-- The lines of the head of a message, and the body; `none` while the head is not complete. -/
def splitHead? (message : String) : Option (List String × String) :=
  let blankLine := lineEnd ++ lineEnd
  match message.splitOn blankLine with
  | head :: body :: rest => some (head.splitOn lineEnd, blankLine.intercalate (body :: rest))
  | _ => none

def trimmed (chars : List Char) : String :=
  String.ofList (Text.dropBlanks (Text.dropBlanks chars).reverse).reverse

/-- The header that a line writes: a name, a colon and a value. -/
def headerOf? (line : String) : Option (String × String) :=
  let name := line.toList.takeWhile (· != ':')
  match line.toList.drop name.length with
  | ':' :: value => some (String.ofList name, trimmed value)
  | _ => none

def renderHead (lines : List String) : String :=
  String.join (lines.map (· ++ lineEnd)) ++ lineEnd

/-- The host of a URL, and the port if it is not the one of the scheme. -/
def Url.authority (url : Url) : String :=
  url.host.getD "" ++ (url.port.map fun port => ":" ++ toString port).getD ""

def Url.serverPort (url : Url) : Nat := (url.port <|> Url.webPort? url.scheme).getD 80

/-- What a URL asks its server for. -/
def Url.resource (url : Url) : String :=
  Url.renderPath url.path ++ (url.query.map ("?" ++ ·)).getD ""

/-- The text of a request; the server is to close the connection behind the response. -/
def Request.render (request : Request) : String :=
  let own := request.headers.map fun header => header.1 ++ ": " ++ header.2
  let host := if request.headers.any (·.1 == "host") then []
    else ["host: " ++ request.url.authority]
  let length := if ["POST", "PUT", "PATCH"].contains request.method then ["content-length: 0"]
    else []
  renderHead <|
    (request.method ++ " " ++ request.url.resource ++ " HTTP/1.1") :: host ++ own ++ length
      ++ ["connection: close"]

/-- The response whose head consists of some lines. -/
def Response.ofLines? : List String → Option Response
  | [] => none
  | statusLine :: headers =>
      match statusLine.splitOn " " with
      | version :: code :: _ => do
          if !"HTTP/1.".toList.isPrefixOf version.toList then none
          if code.length ≠ 3 then none
          return ⟨← code.toNat?, headers.filterMap headerOf?⟩
      | _ => none

/-- What is known of a response when some text has come. -/
inductive Arrival where
  | incomplete
  | malformed
  | complete (response : Response)
  deriving DecidableEq, Repr

/-- What is known when some text has come; at most `notices` responses in front of the one that
counts only say that it will come. -/
def Arrival.ofText (message : String) : Nat → Arrival
  | 0 => .malformed
  | notices + 1 =>
      match splitHead? message with
      | none => .incomplete
      | some (lines, body) =>
          match Response.ofLines? lines with
          | none => .malformed
          | some response =>
              if response.code < 200 ∧ response.code ≠ 101 then ofText body notices
              else .complete response

end Vitals.Http
