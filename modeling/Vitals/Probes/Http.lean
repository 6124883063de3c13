import Vitals.Config.Basic
import Vitals.Http.Client
import Vitals.Http.Status
import Vitals.Text.Capital

/-!
# HTTP probes

An HTTP probe sends one request and looks at the status code of the response that it gets in the
end, behind all redirects.
-/

namespace Vitals.Config.HttpCheck

/-- The method of the request, in capitals; `none` if no request can have it. -/
def requestMethod? (check : HttpCheck) : Option String :=
  let method := Text.capitals check.method
  if Http.isToken method then some method else none

def commonHeaders : List (String × String) :=
  [("accept", "*/*"), ("user-agent", programName ++ "/" ++ programVersion)]

/-- The headers of the request; those of the probe take the place of common ones. -/
def requestHeaders (check : HttpCheck) : List (String × String) :=
  let own := check.headers.map fun header => header.1.toLower
  commonHeaders.filter (fun header => !own.contains header.1) ++ check.headers

/-- The request, or why it cannot be sent. -/
def request (check : HttpCheck) (method : String) : Except Http.Failure Http.Request :=
  Http.Request.ofTexts method check.url check.requestHeaders

def exchange (check : HttpCheck) (client : Http.Client) (method : String) : Http.Exchange :=
  match check.request method with
  | .ok request => client.send request
  | .error failure => ⟨[], .failure failure, 0⟩

/-- The result that a response gives: healthy if its code is expected. -/
def resultOf (check : HttpCheck) (name : String) (response : Http.Response) : Result :=
  let result :=
    if check.expectedCodes.any (·.toNat == response.code) then Result.healthy name
    else
      .unhealthy name ("HTTP " ++ toString response.code ++ " " ++ Http.phrase response.code)
  let result := (result.withDetail "status_code" (.ofNat response.code)).withDetail "url"
    (.text check.url)
  match response.header? "server" with
  | some server =>
      if server.toList.all fun c => (0x20 ≤ c.toNat && c.toNat < 0x7F) || c == '\t' then
        result.withDetail "server" (.text server)
      else result
  | none => result

def behaviour (check : HttpCheck) (client : Http.Client) (name method : String) : Behaviour :=
  let exchange := check.exchange client method
  match exchange.ending with
  | .response response => .ends exchange.elapsed (.returned (check.resultOf name response))
  | .failure failure => .ends exchange.elapsed (.failed failure.message [])
  | .never => .hangs

end Vitals.Config.HttpCheck
