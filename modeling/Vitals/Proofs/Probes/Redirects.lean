import Mathlib.Data.List.Basic
import Vitals.Proofs.Config.Enrolment

/-!
# Redirects and expected codes

A client follows redirects one after the other, so an exchange that ends in a response is a chain:
each response but the last one asks for another request, and the last one asks for none.

An HTTP probe sees only the last response of the chain. Whether an expected code is taken for
healthy therefore hangs on what the server adds to it: a code that asks for no other request is
honoured whatever the rest of the network does, and a redirect is honoured only where its chain
leads back to the same code. All this holds of any lawful reading of redirects.
-/

namespace Vitals

namespace Http

/-! ## Chains of redirects -/

/-- Behind earlier requests, a request of a client leads to a response over a number of redirects.
-/
inductive Leads (client : Client) : List Request → Request → ℕ → Response → Prop
  | stop {earlier request response}
      (answered : (client.network earlier request).answer = .response response)
      (final : client.redirects request response = none) : Leads client earlier request 0 response
  | hop {earlier request redirect next hops response}
      (answered : (client.network earlier request).answer = .response redirect)
      (asks : client.redirects request redirect = some next)
      (sendable : next.url.scheme ∈ ["http", "https"])
      (leads : Leads client (earlier ++ [request]) next hops response) :
      Leads client earlier request (hops + 1) response

variable {client : Client} {earlier : List Request} {request : Request}

theorem follow_of_final {response : Response} (left elapsed : ℕ)
    (answered : (client.network earlier request).answer = .response response)
    (final : client.redirects request response = none) :
    (client.follow left earlier elapsed request).ending = .response response := by
  cases left <;> simp [Client.follow, answered, final]

theorem follow_of_redirect {redirect : Response} {next : Request} (left elapsed : ℕ)
    (answered : (client.network earlier request).answer = .response redirect)
    (asks : client.redirects request redirect = some next)
    (sendable : next.url.scheme ∈ ["http", "https"]) :
    (client.follow (left + 1) earlier elapsed request).ending =
      (client.follow left (earlier ++ [request])
        (elapsed + (client.network earlier request).delay) next).ending := by
  have known : ["http", "https"].contains next.url.scheme = true := by simpa using sendable
  rw [Client.follow]
  simp only [answered, asks, known, if_true]

/-- A chain that ends in a response begins with a response. -/
theorem leads_of_follow {left elapsed : ℕ} {response : Response}
    (ends : (client.follow left earlier elapsed request).ending = .response response) :
    ∃ hops ≤ left, Leads client earlier request hops response := by
  induction left generalizing earlier elapsed request with
  | zero =>
      unfold Client.follow at ends
      cases answered : (client.network earlier request).answer with
      | response last =>
          cases asked : client.redirects request last with
          | none =>
              simp only [answered, asked, Ending.response.injEq] at ends
              exact ⟨0, Nat.le_refl _, .stop (ends ▸ answered) (ends ▸ asked)⟩
          | some next => simp [answered, asked] at ends
      | _ => simp [answered] at ends
  | succ left ih =>
      unfold Client.follow at ends
      cases answered : (client.network earlier request).answer with
      | response last =>
          cases asked : client.redirects request last with
          | none =>
              simp only [answered, asked, Ending.response.injEq] at ends
              exact ⟨0, Nat.zero_le _, .stop (ends ▸ answered) (ends ▸ asked)⟩
          | some next =>
              simp only [answered, asked] at ends
              split at ends
              · next sendable =>
                  rcases ih ends with ⟨hops, within, leads⟩
                  exact ⟨hops + 1, Nat.succ_le_succ within,
                    .hop answered asked (by simpa using sendable) leads⟩
              · cases ends
      | _ => simp [answered] at ends

theorem follow_of_leads {hops : ℕ} {response : Response}
    (leads : Leads client earlier request hops response) (left elapsed : ℕ)
    (within : hops ≤ left) :
    (client.follow left earlier elapsed request).ending = .response response := by
  induction leads generalizing left elapsed with
  | stop answered final => exact follow_of_final left elapsed answered final
  | hop answered asks sendable leads ih =>
      cases left with
      | zero => cases within
      | succ left =>
          rw [follow_of_redirect left elapsed answered asks sendable]
          exact ih left _ (Nat.le_of_succ_le_succ within)

theorem ending_send_iff {response : Response} :
    (client.send request).ending = .response response ↔
      ∃ hops ≤ redirectLimit, Leads client [] request hops response := by
  constructor
  · exact leads_of_follow
  · rintro ⟨hops, within, leads⟩
    exact follow_of_leads leads redirectLimit 0 within

/-- A response is final if its code is none of a redirect, or if it does not say where to. -/
theorem Redirects.Lawful.eq_none {redirects : Redirects} (lawful : redirects.Lawful)
    {response : Response}
    (final : response.code ∉ redirectCodes ∨ response.header? "location" = none) :
    redirects request response = none := by
  cases asks : redirects request response with
  | none => rfl
  | some next =>
      rcases final with unlike | nowhere
      · exact absurd (lawful.code asks) unlike
      · rcases lawful.location asks with ⟨location, located⟩
        rw [nowhere] at located
        cases located

theorem lawful_redirect? : Redirects.Lawful redirect? where
  code := by
    intro request response next asks
    by_contra unlike
    simp [redirect?, unlike] at asks
  location := by
    intro request response next asks
    cases located : response.header? "location" with
    | some location => exact ⟨location, rfl⟩
    | none => simp [redirect?, located] at asks

end Http

namespace Result

/-- The detail of a key. -/
def detail? (result : Result) (key : String) : Option Value :=
  result.details.bind (Named.get? · key)

variable {result : Result} {key other : String} {value : Value}

@[simp]
theorem status_withDetail : (result.withDetail key value).status = result.status := rfl

@[simp]
theorem message_withDetail : (result.withDetail key value).message = result.message := rfl

theorem detail?_withDetail :
    (result.withDetail key value).detail? other =
      if other = key then some value else result.detail? other := by
  unfold detail? withDetail
  rw [Option.bind_some, Named.get?_insert]
  cases result.details <;> rfl

end Result

namespace Config.HttpCheck

/-- The check takes a code for healthy: it returns a healthy result that has no message and tells
the code. -/
def Honours (check : HttpCheck) (client : Http.Client) (name method : String) (code : ℕ) : Prop :=
  ∃ elapsed result, check.behaviour client name method = .ends elapsed (.returned result) ∧
    result.status = .healthy ∧ result.message = none ∧
      result.detail? "status_code" = some (.ofNat code)

/-- The codes that a check takes for healthy. -/
def Expects (check : HttpCheck) (code : ℕ) : Prop := ∃ own ∈ check.expectedCodes, own.toNat = code

/-- The result of a response is the plain verdict on its code, with details. -/
theorem resultOf_eq (check : HttpCheck) (name : String) (response : Http.Response)
    {verdict : Result}
    (judged : verdict = if check.expectedCodes.any (·.toNat == response.code) then
        Result.healthy name
      else
        .unhealthy name ("HTTP " ++ toString response.code ++ " " ++ Http.phrase response.code)) :
    let result := check.resultOf name response
    result.status = verdict.status ∧ result.message = verdict.message ∧
      result.detail? "status_code" = some (.ofNat response.code) := by
  intro result
  simp only [result]
  rw [resultOf, ← judged]
  cases response.header? "server" with
  | none => simp [Result.detail?_withDetail]
  | some server =>
      dsimp only
      split <;> simp [Result.detail?_withDetail]

section Answers

variable {check : HttpCheck} {client : Http.Client} {redirects : Http.Redirects}
  {name method : String} {request : Http.Request} {response : Http.Response} {code : ℕ}

theorem any_iff_expects :
    check.expectedCodes.any (·.toNat == code) = true ↔ check.Expects code := by
  simp [Expects]

theorem healthy_resultOf (name : String) (expected : check.Expects response.code) :
    let result := check.resultOf name response
    result.status = .healthy ∧ result.message = none ∧
      result.detail? "status_code" = some (.ofNat response.code) :=
  check.resultOf_eq name response (if_pos (any_iff_expects.mpr expected)).symm

/-- An expected code is honoured if and only if the exchange ends in a response with that code. -/
theorem honours_iff (client : Http.Client) (name : String)
    (sent : check.request method = .ok request) (expected : check.Expects code) :
    check.Honours client name method code ↔
      ∃ last, (client.send request).ending = .response last ∧ last.code = code := by
  simp only [Honours, behaviour, exchange, sent]
  cases ending : (client.send request).ending with
  | failure failure => simp
  | never => simp
  | response last =>
      simp only [Behaviour.ends.injEq, Outcome.returned.injEq, Http.Ending.response.injEq]
      constructor
      · rintro ⟨elapsed, result, ⟨-, rfl⟩, -, -, told⟩
        refine ⟨last, rfl, ?_⟩
        rw [(check.resultOf_eq name last rfl).2.2] at told
        simp only [Value.ofNat, Option.some.injEq, Value.int.injEq] at told
        omega
      · rintro ⟨_, rfl, rfl⟩
        exact ⟨_, _, ⟨rfl, rfl⟩, healthy_resultOf name expected⟩

/-- An expected code is honoured if and only if the request leads back to it over ten redirects at
most. -/
theorem honours_iff_leads (client : Http.Client) (name : String)
    (sent : check.request method = .ok request) (expected : check.Expects code) :
    check.Honours client name method code ↔ ∃ hops ≤ Http.redirectLimit, ∃ last,
      Http.Leads client [] request hops last ∧ last.code = code := by
  rw [honours_iff client name sent expected]
  simp only [Http.ending_send_iff]
  constructor
  · rintro ⟨last, ⟨hops, within, leads⟩, same⟩
    exact ⟨hops, within, last, leads, same⟩
  · rintro ⟨hops, within, last, leads, same⟩
    exact ⟨last, ⟨hops, within, leads⟩, same⟩

/-- A network in which one request gets a response, and nobody is there for any other. -/
def lonely (request : Http.Request) (response : Http.Response) : Http.Network :=
  fun earlier other =>
    if earlier = [] ∧ other = request then ⟨.response response, 0⟩ else ⟨.refused, 0⟩

theorem answer_lonely : (lonely request response [] request).answer = .response response := by
  simp [lonely]

/-- A redirect alone ends in no response. -/
theorem not_leads_lonely {next : Http.Request} (asks : redirects request response = some next)
    {hops : ℕ} {last : Http.Response} :
    ¬ Http.Leads ⟨redirects, lonely request response⟩ [] request hops last := by
  intro leads
  cases leads with
  | stop answered final =>
      rw [answer_lonely, Http.Answer.response.injEq] at answered
      subst answered
      exact Option.some_ne_none next (asks.symm.trans final)
  | hop answered other sendable leads =>
      cases leads with
      | stop answered final => simp [lonely] at answered
      | hop answered other sendable leads => simp [lonely] at answered

/-- An HTTP probe that keeps its rules, whose request gets a response with an expected code, takes
that code for healthy if and only if the redirects that the response begins end, after ten at most,
in a response with the same code. The response alone decides only where the client reads no redirect
in it, as in any response whose code is not that of a redirect or that names no location. Where it
is a redirect, there are networks in which the code is not taken for healthy. -/
theorem honours_of_answer (redirects : Http.Redirects) (lawful : redirects.Lawful)
    (check : HttpCheck) (name : String) (request : Http.Request) (response : Http.Response) :
    let method := Text.capitals check.method
    let honours (network : Http.Network) :=
      check.Honours ⟨redirects, network⟩ name method response.code
    check.fault? = none → check.request method = .ok request → check.Expects response.code →
      check.requestMethod? = some method ∧
      (∀ network : Http.Network, (network [] request).answer = .response response →
        (honours network ↔ ∃ hops ≤ Http.redirectLimit, ∃ last,
          Http.Leads ⟨redirects, network⟩ [] request hops last ∧ last.code = response.code)) ∧
      ((∀ network : Http.Network, (network [] request).answer = .response response →
        honours network) ↔ redirects request response = none) ∧
      (response.code ∉ Http.redirectCodes ∨ response.header? "location" = none →
        ∀ network : Http.Network, (network [] request).answer = .response response →
          honours network) := by
  intro method honours valid sent expected
  have token : Http.isToken method = true :=
    isToken_of_mem_methods _ (method_mem_of_fault?_eq_none valid)
  have decided (network : Http.Network) : honours network ↔
      ∃ hops ≤ Http.redirectLimit, ∃ last,
        Http.Leads ⟨redirects, network⟩ [] request hops last ∧ last.code = response.code :=
    honours_iff_leads ⟨redirects, network⟩ name sent expected
  have honoured_of_final (final : redirects request response = none) (network : Http.Network)
      (answered : (network [] request).answer = .response response) : honours network :=
    (decided network).mpr ⟨0, Nat.zero_le _, response, .stop answered final, rfl⟩
  refine ⟨if_pos token, fun network _ => decided network, ⟨?_, honoured_of_final⟩,
    fun final => honoured_of_final (lawful.eq_none final)⟩
  intro honoured
  cases asks : redirects request response with
  | none => rfl
  | some next =>
      rcases (decided _).mp (honoured (lonely request response) answer_lonely) with
        ⟨hops, -, last, leads, -⟩
      exact absurd leads (not_leads_lonely asks)

end Answers

/-- A server that sends to another page, from which the same code comes back. -/
theorem honours_of_returning_redirect :
    let check : HttpCheck := ⟨"http://db.local/", "get", [200, 302], []⟩
    let url : Http.Url := ⟨"http", none, some "db.local", none, .segments [""], none, none⟩
    let request : Http.Request :=
      ⟨"GET", url, [("accept", "*/*"), ("user-agent", "vitals-registry/0.1.0")]⟩
    let network : Http.Network := fun earlier _ =>
      if earlier = [] then ⟨.response ⟨302, [("Location", "/login")]⟩, 5⟩
      else ⟨.response ⟨302, []⟩, 7⟩
    Http.Redirects.Lawful Http.redirect? ∧
      check.fault? = none ∧ check.request "GET" = .ok request ∧
      (network [] request).answer = .response ⟨302, [("Location", "/login")]⟩ ∧
      check.Honours (.atWork network) "api" "GET" 302 := by
  intro check url request network
  have valid : check.fault? = none := by decide +kernel
  have capitals : Text.capitals check.method = "GET" := by decide +kernel
  have sent : check.request "GET" = .ok request := by decide +kernel
  have chains := honours_of_answer Http.redirect? Http.lawful_redirect? check "api" request
    ⟨302, [("Location", "/login")]⟩ valid (capitals ▸ sent) ⟨302, by simp [check], rfl⟩
  rw [capitals] at chains
  refine ⟨Http.lawful_redirect?, valid, sent, rfl, (chains.2.1 network rfl).mpr ?_⟩
  have ending : ((Http.Client.atWork network).send request).ending = .response ⟨302, []⟩ := by
    decide +kernel
  rcases Http.ending_send_iff.mp ending with ⟨hops, within, leads⟩
  exact ⟨hops, within, _, leads, rfl⟩

/-- A server that sends to another page, which is in order, is not taken for healthy. -/
theorem not_honours_of_redirect :
    let check : HttpCheck := ⟨"http://db.local/", "GET", [302], []⟩
    let url : Http.Url := ⟨"http", none, some "db.local", none, .segments [""], none, none⟩
    let request : Http.Request :=
      ⟨"GET", url, [("accept", "*/*"), ("user-agent", "vitals-registry/0.1.0")]⟩
    let network : Http.Network := fun earlier _ =>
      if earlier = [] then ⟨.response ⟨302, [("Location", "/login")]⟩, 0⟩
      else ⟨.response ⟨200, []⟩, 0⟩
    check.fault? = none ∧ check.requestMethod? = some "GET" ∧
      check.request "GET" = .ok request ∧
      (network [] request).answer = .response ⟨302, [("Location", "/login")]⟩ ∧
      check.Expects 302 ∧ ¬ check.Honours (.atWork network) "api" "GET" 302 := by
  intro check url request network
  have sent : check.request "GET" = .ok request := by decide +kernel
  have expected : check.Expects 302 := ⟨302, by simp [check], rfl⟩
  refine ⟨by decide +kernel, by decide +kernel, sent, rfl, expected, ?_⟩
  rw [honours_iff (.atWork network) "api" sent expected]
  rintro ⟨last, ending, code⟩
  have actual : ((Http.Client.atWork network).send request).ending = .response ⟨200, []⟩ := by
    decide +kernel
  rw [actual, Http.Ending.response.injEq] at ending
  rw [← ending] at code
  cases code

end Config.HttpCheck

end Vitals
