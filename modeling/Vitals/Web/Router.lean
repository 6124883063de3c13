import Vitals.Registry.Basic

/-!
# The HTTP view of a registry

Four resources: the full report, the sign of life, the readiness report and, if it is exposed,
what the scheduler keeps. `Route.ofRequest` decides from method and path alone what a request
asks for. `Plan.ofRoute` answers at once what needs no probe; the two reports wait for an inquiry.
Every answer allows requests from all origins, and a preflight request is answered without looking
at the path.
-/

namespace Vitals.Web

inductive Resource where
  | health
  | live
  | ready
  | cached
  deriving DecidableEq, Repr

namespace Resource

def path : Resource → String
  | .health => "/health"
  | .live => "/health/live"
  | .ready => "/health/ready"
  | .cached => "/health/cached"

def ofPath? (exposeCached : Bool) (path : String) : Option Resource :=
  if path = "/health" then some .health
  else if path = "/health/live" then some .live
  else if path = "/health/ready" then some .ready
  else if path = "/health/cached" ∧ exposeCached then some .cached
  else none

end Resource

/-- A request, as far as the router looks at it. -/
structure Request where
  method : String
  target : String
  deriving DecidableEq, Repr

namespace Request

/-- The authority and the path of a target behind its scheme. -/
def afterScheme : List Char → Option (List Char)
  | ':' :: '/' :: '/' :: rest => some rest
  | '/' :: _ | [] => none
  | _ :: rest => afterScheme rest

/-- The path of a target: no scheme, no authority, no query and no fragment. -/
def path (request : Request) : String :=
  let chars := request.target.toList.takeWhile fun c => c != '?' && c != '#'
  match chars with
  | '/' :: _ => String.ofList chars
  | _ =>
      match afterScheme chars with
      | some rest =>
          let path := rest.dropWhile (· != '/')
          if path.isEmpty then "/" else String.ofList path
      | none => String.ofList chars

end Request

inductive Route where
  /-- Whether cross-origin requests are allowed, with the resource at the path. -/
  | preflight (resource : Option Resource)
  /-- A resource, with its body or without. -/
  | read (resource : Resource) (withBody : Bool)
  /-- A resource, but not by this method. -/
  | refused
  | missing
  deriving DecidableEq, Repr

namespace Route

def ofRequest (exposeCached : Bool) (request : Request) : Route :=
  let resource := Resource.ofPath? exposeCached request.path
  if request.method = "OPTIONS" then .preflight resource
  else match resource with
    | none => .missing
    | some resource =>
        if request.method = "GET" then .read resource true
        else if request.method = "HEAD" then .read resource false
        else .refused

end Route

structure Response where
  code : Nat
  headers : List (String × String)
  body : Option Value

namespace Response

/-- The header that tells which methods a resource knows. -/
def allow : String × String := ("allow", "GET,HEAD")

/-- The headers of every answer but the one to a preflight request. -/
def crossOrigin : List (String × String) :=
  [("access-control-allow-origin", "*"), ("access-control-expose-headers", "*")]

/-- The headers of an answer to a preflight request. -/
def preflight : List (String × String) :=
  [("access-control-allow-origin", "*"), ("access-control-allow-methods", "*"),
    ("access-control-allow-headers", "*")]

/-- An answer that carries a tree, or would carry it. -/
def json (code : Nat) (withBody : Bool) (body : Value) : Response :=
  ⟨code, ("content-type", "application/json") :: crossOrigin,
    if withBody then some body else none⟩

end Response

/-- The results that the scheduler keeps, by name. -/
def cachedValue (registry : Registry) : Value :=
  .table (registry.scheduler.latest.map fun entry => (entry.1, entry.2.toValue))

/-- How a request is answered: at once, or with the report of an inquiry. -/
inductive Plan where
  | respond (response : Response)
  | inquire (question : Question) (response : Report → Response)

namespace Plan

/-- The answer that carries a report, or would carry it; the verdict decides its code. -/
def ofReport (withBody : Bool) (report : Report) : Response :=
  .json report.status.httpCode withBody report.toValue

/-- How a registry answers a request. -/
def ofRoute (registry : Registry) : Route → Plan
  | .preflight resource =>
      .respond
        ⟨200, Response.preflight ++ (if resource.isSome then [Response.allow] else []), none⟩
  | .read .health withBody | .read .ready withBody => .inquire .all (ofReport withBody)
  | .read .live withBody => .respond (.json 200 withBody registry.liveness.toValue)
  | .read .cached withBody => .respond (.json 200 withBody (cachedValue registry))
  | .refused => .respond ⟨405, Response.allow :: Response.crossOrigin, none⟩
  | .missing => .respond ⟨404, Response.crossOrigin, none⟩

end Plan

end Vitals.Web
