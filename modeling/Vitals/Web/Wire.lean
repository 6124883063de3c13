import Vitals.Data.Json
import Vitals.Http.Status
import Vitals.Http.Wire
import Vitals.Web.Router

/-!
# Requests and answers of a service on a connection

The first line of a request tells its method and its target. An answer carries its tree as a JSON
text, and the connection ends behind it.
-/

namespace Vitals.Web

/-- The request at the beginning of a text; `none` while its head is not complete, and a request
that nothing answers if its first line is none. -/
def Request.ofText? (message : String) : Option Request := do
  let (lines, _) ← Http.splitHead? message
  match (lines.headD "").splitOn " " with
  | [method, target, _] => return ⟨method, target⟩
  | _ => return ⟨"", ""⟩

def Response.render (response : Response) : String :=
  let body := (response.body.map Json.render).getD ""
  let headers := response.headers ++
    [("content-length", toString body.utf8ByteSize), ("connection", "close")]
  Http.renderHead
    (("HTTP/1.1 " ++ toString response.code ++ " " ++ Http.phrase response.code)
      :: headers.map fun header => header.1 ++ ": " ++ header.2)
    ++ body

end Vitals.Web
