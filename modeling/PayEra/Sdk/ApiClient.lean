import PayEra.Api.Serialization

/-!
# The client of the API

`packages/sdk/src/core/ApiClient.ts`, from the response on. It takes the `data` out of every body that
has one, which a page has too.
-/

namespace PayEra.Sdk

open Api.Pagination
open Api.Serialization

/-! ### Requests -/

/-- What `fetch` comes back with: the name and the message of an error, or a response. The body is `none`
if it is not JSON. -/
inductive Fetched where
  | error (name message : String)
  | response (status : ℕ) (statusText : String) (body : Option Json)

structure ApiError where
  status : ℕ
  code : Json
  message : Json
  details : Option Json

inductive Thrown where
  | apiError (error : ApiError)
  | syntaxError

/-- `json?.key`. -/
def property (key : String) (json : Json) : Option Json := (json.get key).toOption.join

/-- `value || s`. -/
def orElse (value : Option Json) (s : String) : Json := (value.filter Json.truthy).getD (.str s)

/-- `ApiClient.request`, which a type parameter lets every caller take for its own type. -/
def request : Fetched → Except Thrown Json
  | .error name message =>
    if name = "AbortError" then
      .error (.apiError ⟨408, .str "TIMEOUT", .str "Request timed out", none⟩)
    else
      .error (.apiError ⟨0, .str "NETWORK_ERROR",
        .str (if message = "" then "Network Error" else message), none⟩)
  | .response status statusText body =>
    if 200 ≤ status ∧ status < 300 then
      if status = 204 then .ok (.obj [])
      else
        match body with
        | none => .error .syntaxError
        | some data => .ok ((property "data" data).getD data)
    else
      match body with
      | none => .error (.apiError ⟨status, .str "UNKNOWN_ERROR", .str statusText, none⟩)
      | some errorBody =>
        let error := property "error" errorBody
        .error (.apiError ⟨status, orElse (error.bind (property "code")) "API_ERROR",
          orElse (error.bind (property "message")) statusText, error.bind (property "details")⟩)

/-! ### Pages -/

/-- The response of the API to a list, which both interceptors have seen. An error in its making would be
the server's. -/
def answer (query : Query) (response : PaginatedResponse Value) : Fetched :=
  match stringify (ofPaginated (intercept query (serializeResponse response))) with
  | .ok body => .response 200 "OK" body
  | .error _ =>
    .response 500 "Internal Server Error"
      (some (.obj [("statusCode", .num 500), ("message", .str "Internal server error")]))

/-- `PaginationResponse`: what the callers declare, with the items and the metadata of the list. -/
structure IsPaginationResponse (query : Query) (response : PaginatedResponse Value) (value : Json) :
    Prop where
  data : ∃ items, Encodes (.arr response.items) items ∧ property "data" value = some items
  metadata : ∃ metadata, Encodes (ofMetadata (intercept query response).metadata) metadata ∧
    property "meta" value = some metadata

/-- A body that has `data` is unwrapped. -/
lemma request_of_data {status : ℕ} {statusText : String} {body data : Json}
    (hok : 200 ≤ status ∧ status < 300) (hcontent : status ≠ 204) (h : property "data" body = some data) :
    request (.response status statusText (some body)) = .ok data := by
  rw [request, if_pos hok, if_neg hcontent, h, Option.getD_some]

/-- The client returns the items alone. -/
lemma request_answer (query : Query) (response : PaginatedResponse Value) :
    ∃ items, Encodes (.arr response.items) (.arr items) ∧
      request (answer query response) = .ok (.arr items) := by
  obtain ⟨items, metadata, hitems, -, hbody⟩ := stringify_ofPaginated query response
  refine ⟨items, hitems, ?_⟩
  rw [answer, hbody]
  exact request_of_data (by decide) (by decide) rfl

lemma not_isPaginationResponse_arr (query : Query) (response : PaginatedResponse Value)
    (items : List Json) : ¬IsPaginationResponse query response (.arr items) := by
  rintro ⟨⟨data, -, hdata⟩, -⟩
  cases hdata

/-- **What the client returns is never what its callers declare.** -/
theorem request_not_isPaginationResponse (query : Query) (response : PaginatedResponse Value) :
    ∃ value, request (answer query response) = .ok value ∧
      ¬IsPaginationResponse query response value := by
  obtain ⟨items, -, hrequest⟩ := request_answer query response
  exact ⟨.arr items, hrequest, not_isPaginationResponse_arr query response items⟩

namespace OneWallet

/-- The query of `listWallets`. -/
def query : Query := ⟨none, none, none, none⟩

def response : PaginatedResponse Value where
  items := [.obj [("id", .str "wallet"), ("createdAt", .date "2026-01-01T00:00:00.000Z")]]
  total := 1

/-- The one wallet comes back as a list, which has neither `data` nor `meta`. -/
theorem listWallets_undecoded : ¬∃ value, request (answer query response) = .ok value ∧
    IsPaginationResponse query response value := by
  rintro ⟨value, hrequest, hvalue⟩
  obtain ⟨items, -, hitems⟩ := request_answer query response
  obtain rfl := Except.ok.inj (hitems.symm.trans hrequest)
  exact not_isPaginationResponse_arr query response items hvalue

end OneWallet

end PayEra.Sdk
