import PayEra.Api.Processor
import PayEra.Lib.Base64
import PayEra.Lib.Transcript

/-!
# Access tokens of the payout provider

`apps/api/src/settlement/settlement.service.ts`. Payouts and status checks share one access token, which
is kept in memory until a minute before it expires. A request that finds none authenticates and replaces
it, and others may do so in the meantime. Whatever token is sent was granted by the provider, either to
the same request or in time, and what is reported as accepted the provider has accepted.
-/

namespace PayEra.Api.AccessTokens

open Async (Program Event Journal Setting Exchange told told_of_reachable invariant_of_told upon
  admits_told_mono)
open Async.Program Async.Script

/-! ### Data -/

structure DecentroConfig where
  clientId : String
  clientSecret : String
  moduleSecret : String
  baseUrl : String

/-- There are credentials. -/
def DecentroConfig.Configured (config : DecentroConfig) : Prop :=
  config.clientId ≠ "" ∧ config.clientSecret ≠ "" ∧ config.moduleSecret ≠ ""

instance (config : DecentroConfig) : Decidable config.Configured := inferInstanceAs (Decidable (_ ∧ _))

/-- An answer over HTTP; its body may not be what is expected. -/
structure Response (α : Type) where
  ok : Bool
  status : ℕ
  text : Except String String
  json : Except String α

structure AuthData where
  access_token : Option String
  expires_in : Option ℚ

/-- `data` may be missing, like everything in it. -/
structure DecentroAuthResponse where
  status : Option String
  data : Option AuthData

/-- The token that is taken from a successful answer. -/
def DecentroAuthResponse.grant (body : DecentroAuthResponse) : Option (String × AuthData) :=
  if body.status = some "success" then
    body.data.bind fun data => (truthy data.access_token).map fun token => (token, data)
  else none

structure DecentroPayoutRequest where
  beneficiary_name : String
  beneficiary_account_number : String := "0000000000"
  beneficiary_ifsc : String := "N/A"
  amount : ℚ
  purpose : String
  reference_id : String
  upi_vpa : String

structure PayoutData where
  transaction_id : Option String
  status : Option String

structure DecentroPayoutResponse where
  status : Option String
  data : Option PayoutData

structure StatusData where
  status : Option String
  utr_number : Option String

structure DecentroStatusResponse where
  status : Option String
  data : Option StatusData

/-- What is kept in memory; without a number an expiry is `NaN`. -/
structure Cache where
  accessToken : Option String := none
  tokenExpiry : Option ℚ := some 0

/-- What a condition on the cache looks at, in one go. -/
structure Snapshot extends Cache where
  now : ℕ

/-- The token, if it is still valid in a minute. -/
def Snapshot.valid (snapshot : Snapshot) : Option String :=
  (truthy snapshot.accessToken).filter fun _ =>
    snapshot.tokenExpiry.any fun tokenExpiry => (snapshot.now : ℚ) < tokenExpiry - 60000

/-- What the language does with numbers, strings and objects. -/
structure Js where
  /-- `Number(amountPaise) / 100` -/
  rupees : ℤ → ℚ
  /-- `${number}` -/
  decimal : ℕ → String
  /-- `referenceId.slice(-8)` -/
  lastEight : String → String
  /-- `JSON.stringify(data)` -/
  stringifyAuth : DecentroAuthResponse → String
  stringifyPayout : DecentroPayoutResponse → String

/-! ### Calls -/

inductive Op where
  | now
  /-- `this.accessToken`, `this.tokenExpiry` and `Date.now()`. -/
  | snapshot
  /-- `this.accessToken = ...; this.tokenExpiry = Date.now() + ... * 1000` -/
  | keep (data : AuthData)
  | authenticate (url basic moduleSecret : String)
  | payout (url bearer moduleSecret : String) (request : DecentroPayoutRequest)
  | payoutStatus (url bearer moduleSecret : String)

/-- `now` and `keep` answer the time. -/
abbrev Op.Res : Op → Type
  | .now | .keep _ => ℕ
  | .snapshot => Snapshot
  | .authenticate .. => Response DecentroAuthResponse
  | .payout .. => Response DecentroPayoutResponse
  | .payoutStatus .. => Response DecentroStatusResponse

/-- What happens within the process. -/
def Op.Local : Op → Prop
  | .now | .snapshot | .keep _ => True
  | .authenticate .. | .payout .. | .payoutStatus .. => False

/-- The token that is sent. -/
def Op.bearer : Op → Option String
  | .payout _ bearer _ _ | .payoutStatus _ bearer _ => some bearer
  | .now | .snapshot | .keep _ | .authenticate .. => none

def Cache.keep (data : AuthData) (now : ℕ) : Cache where
  accessToken := data.access_token
  tokenExpiry := data.expires_in.map fun expires_in => now + expires_in * 1000

/-- The time and the provider's answers are arbitrary. -/
def Returns : (op : Op) → Cache → op.Res → Cache → Prop
  | .keep data, _, now, c' => c' = Cache.keep data now
  | .snapshot, c, snapshot, c' => snapshot.toCache = c ∧ c' = c
  | .now, c, _, c' | .authenticate .., c, _, c' | .payout .., c, _, c' | .payoutStatus .., c, _, c' =>
    c' = c

/-! ### The service -/

abbrev Service (α : Type) := Program Op Op.Res String α

def call (op : Op) : Service op.Res := Program.perform op

namespace SettlementService

variable (js : Js) (config : DecentroConfig)

/-- `Basic ${Buffer.from(...).toString('base64')}` -/
def basic : String :=
  "Basic " ++ String.ofList (Base64.encode (Base64.bytes (config.clientId ++ ":" ++ config.clientSecret)))

/-- The body of an answer that is `ok`. -/
def body {α : Type} (what : String) (response : Response α) : Service α :=
  if response.ok then Program.done response.json
  else do
    let error ← Program.done response.text
    throw s!"Decentro {what} failed: {js.decimal response.status} {error}"

/-- `data.data.field` -/
def fields {α : Type} (data : Option α) : Service α :=
  Program.done (data.elim (.error "Cannot read properties of undefined") .ok)

/-- The token of an answer replaces the one in memory. -/
def keepToken (response : Response DecentroAuthResponse) : Service String := do
  let data ← body js "auth" response
  match data.grant with
  | none => throw s!"Decentro auth failed: {js.stringifyAuth data}"
  | some (token, granted) => do
    let _ ← call (.keep granted)
    pure token

def getAccessToken : Service String := do
  let snapshot : Snapshot ← call .snapshot
  match snapshot.valid with
  | some token => pure token
  | none =>
    let response : Response DecentroAuthResponse ←
      call (.authenticate (config.baseUrl ++ "/v2/auth/token") (basic config) config.moduleSecret)
    keepToken js response

def mockPayout (params : UpiPayout) : Service PayoutData := do
  let now : ℕ ← call .now
  pure { transaction_id := some s!"MOCK_{js.decimal now}_{js.lastEight params.referenceId}"
         status := some "SUCCESS" }

def payoutRequest (params : UpiPayout) : DecentroPayoutRequest where
  beneficiary_name := params.merchantName
  amount := js.rupees params.amountPaise
  purpose := params.purpose
  reference_id := params.referenceId
  upi_vpa := params.merchantUpiVpa

def initiateUpiPayout (params : UpiPayout) : Service PayoutData :=
  if ¬config.Configured then mockPayout js params
  else do
    let token ← getAccessToken js config
    let response : Response DecentroPayoutResponse ←
      call (.payout (config.baseUrl ++ "/v2/payouts/upi") token config.moduleSecret
        (payoutRequest js params))
    let data ← body js "payout" response
    if data.status ≠ some "success" then
      throw s!"Decentro payout failed: {js.stringifyPayout data}"
    else fields data.data

def mockStatusCheck (transactionId : String) : StatusData where
  status := some "SUCCESS"
  utr_number := some s!"UTR_{transactionId}"

def checkPayoutStatus (transactionId : String) : Service StatusData :=
  if ¬config.Configured then pure (mockStatusCheck transactionId)
  else do
    let token ← getAccessToken js config
    let response : Response DecentroStatusResponse ←
      call (.payoutStatus (config.baseUrl ++ "/v2/payouts/status?transaction_id=" ++ transactionId) token
        config.moduleSecret)
    let data ← body js "status check" response
    fields data.data

end SettlementService

open SettlementService

/-! ### Sessions -/

inductive Asked where
  | initiateUpiPayout (params : UpiPayout)
  | checkPayoutStatus (transactionId : String)

inductive Reply where
  | initiated (data : PayoutData)
  | checked (data : StatusData)

def Asked.program (js : Js) (config : DecentroConfig) : Asked → Service Reply
  | .initiateUpiPayout params => do
    let data ← SettlementService.initiateUpiPayout js config params
    pure (.initiated data)
  | .checkPayoutStatus transactionId => do
    let data ← SettlementService.checkPayoutStatus js config transactionId
    pure (.checked data)

abbrev Happening := Event Asked Op (Except String Reply)

abbrev Ledger := Journal Cache Asked Op Op.Res String Reply

section Gateway

variable (js : Js) (config : DecentroConfig)

/-- Any interleaving of payouts and status checks, from a cache that is empty. -/
abbrev gatewayTraffic : Setting Ledger Happening (Event.Res Op.Res) String :=
  Async.sessions Returns Op.Local Op.Local (Asked.program js config) (fun c => c = {})
    (fun c c' => c' = c) fun _ _ _ _ => True

abbrev gateway := Async.system (gatewayTraffic js config)

end Gateway

abbrev GatewayState := Async.Pool Ledger Happening (Event.Res Op.Res) String

/-! ### Programs -/

abbrev Transcript := List (Exchange Op Op.Res String)

abbrev Place := Asked × Transcript

/-- The answer is what the service takes for a grant. -/
def Response.Grants (response : Response DecentroAuthResponse) (token : String) (data : AuthData) :
    Prop :=
  response.ok ∧ ∃ body, response.json = .ok body ∧ body.grant = some (token, data)

/-- The provider has granted the token to the session. -/
def Granted (config : DecentroConfig) (l : Transcript) (token : String) (data : AuthData) : Prop :=
  ∃ response : Response DecentroAuthResponse, ⟨.authenticate (config.baseUrl ++ "/v2/auth/token")
    (basic config) config.moduleSecret, .ok response⟩ ∈ l ∧ response.Grants token data

/-- The session has a token: a new one, or a valid one that was kept. -/
def HasToken (config : DecentroConfig) (l : Transcript) (token : String) : Prop :=
  (∃ data, Granted config l token data) ∨
    ∃ snapshot : Snapshot, ⟨.snapshot, .ok snapshot⟩ ∈ l ∧ snapshot.valid = some token

/-- No token was sent yet. -/
def Silent (l : Transcript) : Prop := ∀ e ∈ l, e.1.bearer = none

/-- What calls a session makes. -/
def Orderly (js : Js) (config : DecentroConfig) (q : Asked) (l : Transcript) : Op → Prop
  | .now => ¬config.Configured
  | .snapshot => config.Configured
  | .authenticate url credentials moduleSecret => config.Configured ∧
    url = config.baseUrl ++ "/v2/auth/token" ∧ credentials = basic config ∧
      moduleSecret = config.moduleSecret
  | .keep data => ∃ token, data.access_token = some token ∧ Granted config l token data
  | .payout url token moduleSecret request => config.Configured ∧ Silent l ∧ HasToken config l token ∧
    url = config.baseUrl ++ "/v2/payouts/upi" ∧ moduleSecret = config.moduleSecret ∧
      ∃ params, q = .initiateUpiPayout params ∧ request = payoutRequest js params
  | .payoutStatus url token moduleSecret => config.Configured ∧ Silent l ∧ HasToken config l token ∧
    moduleSecret = config.moduleSecret ∧ ∃ transactionId, q = .checkPayoutStatus transactionId ∧
      url = config.baseUrl ++ "/v2/payouts/status?transaction_id=" ++ transactionId

/-- The provider has accepted the payout. -/
def Accepted (js : Js) (config : DecentroConfig) (l : Transcript) (params : UpiPayout)
    (data : PayoutData) : Prop :=
  ∃ (token : String) (response : Response DecentroPayoutResponse) (body : DecentroPayoutResponse),
    ⟨.payout (config.baseUrl ++ "/v2/payouts/upi") token config.moduleSecret (payoutRequest js params),
      .ok response⟩ ∈ l ∧ response.ok ∧ response.json = .ok body ∧ body.status = some "success" ∧
        body.data = some data

/-- The provider has told the status of the payout. -/
def Stated (config : DecentroConfig) (l : Transcript) (transactionId : String) (data : StatusData) :
    Prop :=
  ∃ (token : String) (response : Response DecentroStatusResponse) (body : DecentroStatusResponse),
    ⟨.payoutStatus (config.baseUrl ++ "/v2/payouts/status?transaction_id=" ++ transactionId) token
      config.moduleSecret, .ok response⟩ ∈ l ∧ response.ok ∧ response.json = .ok body ∧
        body.data = some data

/-- The result that is made up when there are no credentials. -/
def Mocked (js : Js) (l : Transcript) (params : UpiPayout) (data : PayoutData) : Prop :=
  ∃ now : ℕ, ⟨.now, .ok now⟩ ∈ l ∧
    data = { transaction_id := some s!"MOCK_{js.decimal now}_{js.lastEight params.referenceId}"
             status := some "SUCCESS" }

/-- What is reported was said by the provider; without credentials it is made up. -/
def Reported (js : Js) (config : DecentroConfig) (q : Asked) (l : Transcript) : Reply → Prop
  | .initiated data => ∃ params, q = .initiateUpiPayout params ∧
    (Accepted js config l params data ∨ ¬config.Configured ∧ Mocked js l params data)
  | .checked data => ∃ transactionId, q = .checkPayoutStatus transactionId ∧
    (Stated config l transactionId data ∨
      ¬config.Configured ∧ data = mockStatusCheck transactionId)

section Programs

variable {js : Js} {config : DecentroConfig} {q : Asked}

/-- An answer without a body is an error. -/
lemma admits_body {α β : Type} {C : Asked → Transcript → Op → Prop} {what : String}
    {response : Response α} {κ : Place} {f : α → Service β} {R : β → Place → Prop}
    (h : ∀ data, response.ok → response.json = .ok data →
      (told C).Admits (f data) κ (upon R fun _ => True)) :
    (told C).Admits (body js what response >>= f) κ (upon R fun _ => True) := by
  rw [body]
  split_ifs with hok
  · refine admits_bind (R := fun data κ' => κ' = κ ∧ response.json = .ok data)
      (admits_done (fun data hdata => ⟨rfl, hdata⟩) fun _ _ => trivial) ?_
    rintro data κ' ⟨rfl, hdata⟩
    exact h data hok hdata
  · refine admits_bind (R := fun _ _ => False) ?_ fun _ _ hfalse => hfalse.elim
    refine admits_bind (R := fun _ _ => True) (admits_done (fun _ _ => trivial) fun _ _ => trivial) ?_
    exact fun _ _ _ => trivial

lemma grant_token {data : DecentroAuthResponse} {token : String} {granted : AuthData}
    (h : data.grant = some (token, granted)) : granted.access_token = some token := by
  rw [DecentroAuthResponse.grant] at h
  split_ifs at h
  obtain ⟨granted', -, hgranted⟩ := Option.bind_eq_some_iff.mp h
  obtain ⟨token', htoken, heq⟩ := Option.map_eq_some_iff.mp hgranted
  cases heq
  exact (Option.filter_eq_some_iff.mp htoken).1

lemma Granted.mono {l l' : Transcript} {token : String} {data : AuthData}
    (h : Granted config l token data) (hl : l ⊆ l') : Granted config l' token data := by
  obtain ⟨response, hmem, hgrants⟩ := h
  exact ⟨response, hl hmem, hgrants⟩

lemma Silent.snoc {l : Transcript} {op : Op} {r : Except String op.Res} (h : Silent l)
    (hop : op.bearer = none) : Silent (l ++ [⟨op, r⟩]) := by
  intro e he
  rcases List.mem_append.mp he with he | he
  · exact h e he
  · rw [List.mem_singleton.mp he]
    exact hop

/-- There is a token, and it was not sent yet. -/
abbrev WithToken (config : DecentroConfig) (q : Asked) : Except String String → Place → Prop :=
  upon (fun token κ => κ.1 = q ∧ HasToken config κ.2 token ∧ Silent κ.2) fun _ => True

/-- The token of an answer is granted. -/
lemma admits_keepToken {l : Transcript} {response : Response DecentroAuthResponse}
    (hmem : ⟨.authenticate (config.baseUrl ++ "/v2/auth/token") (basic config) config.moduleSecret,
      .ok response⟩ ∈ l) (hsilent : Silent l) :
    (told (Orderly js config)).Admits (keepToken js response) (q, l) (WithToken config q) := by
  refine admits_body fun data hok hdata => ?_
  cases hgrant : data.grant with
  | none => trivial
  | some grant =>
    obtain ⟨token, granted⟩ := grant
    have hgranted : Granted config l token granted := ⟨response, hmem, hok, data, hdata, hgrant⟩
    refine admits_call ⟨token, grant_token hgrant, hgranted⟩ (fun _ _ _ => trivial) ?_
    rintro now κ rfl
    refine ⟨rfl, .inl ⟨granted, ?_⟩, hsilent.snoc rfl⟩
    exact hgranted.mono (List.subset_append_left ..)

/-- Tokens are granted, or kept and valid. -/
lemma admits_getAccessToken (hconfig : config.Configured) :
    (told (Orderly js config)).Admits (getAccessToken js config) (q, []) (WithToken config q) := by
  have hnil : Silent [] := fun _ he => by cases he
  refine admits_call hconfig (fun _ _ _ => trivial) ?_
  rintro snapshot κ rfl
  dsimp only
  cases hvalid : snapshot.valid with
  | some token =>
    exact ⟨rfl, .inr ⟨snapshot, List.mem_singleton_self _, hvalid⟩, hnil.snoc rfl⟩
  | none =>
    refine admits_call ⟨hconfig, rfl, rfl, rfl⟩ (fun _ _ _ => trivial) ?_
    rintro response κ rfl
    exact admits_keepToken (List.mem_append_right _ (List.mem_singleton_self _))
      ((hnil.snoc rfl).snoc rfl)

/-- What is left of a request when it has its answer. -/
lemma admits_fields {α : Type} {C : Asked → Transcript → Op → Prop} {data : Option α} {κ : Place}
    {R : α → Place → Prop} (h : ∀ a, data = some a → R a κ) :
    (told C).Admits (fields data) κ (upon R fun _ => True) := by
  cases data with
  | none => trivial
  | some a => exact h a rfl

lemma admits_initiateUpiPayout {params : UpiPayout} :
    (told (Orderly js config)).Admits (SettlementService.initiateUpiPayout js config params)
      (.initiateUpiPayout params, []) (upon (fun data κ =>
        Reported js config κ.1 κ.2 (.initiated data)) fun _ => True) := by
  rw [SettlementService.initiateUpiPayout]
  split_ifs with hconfig
  · refine admits_bind (admits_getAccessToken hconfig) ?_
    rintro token ⟨q, l⟩ ⟨rfl, htoken, hsilent⟩
    refine admits_call ⟨hconfig, hsilent, htoken, rfl, rfl, params, rfl, rfl⟩ (fun _ _ _ => trivial) ?_
    rintro response κ rfl
    refine admits_body fun body hok hbody => ?_
    by_cases hsuccess : body.status = some "success"
    · rw [if_neg (not_not.mpr hsuccess)]
      refine admits_fields fun data hdata => ⟨params, rfl, .inl ?_⟩
      refine ⟨token, response, body, ?_, hok, hbody, hsuccess, hdata⟩
      exact List.mem_append_right _ (List.mem_singleton_self _)
    · rw [if_pos hsuccess]
      trivial
  · refine admits_call hconfig (fun _ _ _ => trivial) ?_
    rintro now κ rfl
    refine ⟨params, rfl, .inr ⟨hconfig, now, ?_, rfl⟩⟩
    exact List.mem_append_right _ (List.mem_singleton_self _)

lemma admits_checkPayoutStatus {transactionId : String} :
    (told (Orderly js config)).Admits (SettlementService.checkPayoutStatus js config transactionId)
      (.checkPayoutStatus transactionId, []) (upon (fun data κ =>
        Reported js config κ.1 κ.2 (.checked data)) fun _ => True) := by
  rw [SettlementService.checkPayoutStatus]
  split_ifs with hconfig
  · refine admits_bind (admits_getAccessToken hconfig) ?_
    rintro token ⟨q, l⟩ ⟨rfl, htoken, hsilent⟩
    refine admits_call ⟨hconfig, hsilent, htoken, rfl, transactionId, rfl, rfl⟩
      (fun _ _ _ => trivial) ?_
    rintro response κ rfl
    refine admits_body fun body hok hbody => admits_fields fun data hdata => ?_
    refine ⟨transactionId, rfl, .inl ⟨token, response, body, ?_, hok, hbody, hdata⟩⟩
    exact List.mem_append_right _ (List.mem_singleton_self _)
  · exact ⟨transactionId, rfl, .inr ⟨hconfig, rfl⟩⟩

/-- **Requests are orderly**, and report what they were told. -/
theorem admits_program (q : Asked) : (told (Orderly js config)).Admits (q.program js config) (q, [])
    (upon (fun reply κ => Reported js config κ.1 κ.2 reply) fun _ => True) := by
  cases q with
  | initiateUpiPayout params => exact admits_bind admits_initiateUpiPayout fun _ _ h => h
  | checkPayoutStatus transactionId => exact admits_bind admits_checkPayoutStatus fun _ _ h => h

end Programs

/-! ### The gateway -/

/-- The cache is as it was at first, or as a session has left it. -/
def Kept (w : Ledger) (c : Cache) : Prop :=
  c = {} ∨ ∃ m data now, w.Answered m (.keep data) (.ok now) ∧ c = Cache.keep data now

/-- What is in memory, and what was ever read from it, was kept by a session. -/
structure Traced (w : Ledger) : Prop where
  cache : Kept w w.state
  snapshots : ∀ n (snapshot : Snapshot), w.Answered n .snapshot (.ok snapshot) →
    Kept w snapshot.toCache

section Gateway

variable {js : Js} {config : DecentroConfig} {w w' : Ledger} {n : ℕ} {op : Op}

lemma Kept.mono {c : Cache} (h : Kept w c) (hentries : w.entries ⊆ w'.entries) : Kept w' c := by
  rcases h with rfl | ⟨m, data, now, hkeep, rfl⟩
  · exact .inl rfl
  · exact .inr ⟨m, data, now, hentries hkeep, rfl⟩

/-- Nothing else writes to the cache. -/
lemma Returns.eq_of_ne {c c' : Cache} {v : op.Res} (h : Returns op c v c')
    (hop : ∀ data, op ≠ .keep data) : c' = c := by
  cases op with
  | keep data => exact absurd rfl (hop data)
  | snapshot => exact h.2
  | now | authenticate | payout | payoutStatus => exact h

lemma Traced.call {r : Except String op.Res} (h : Traced w)
    (hhappens : Async.happens Returns Op.Local Op.Local (.call n op) w r w') : Traced w' := by
  have hentries : w.entries ⊆ w'.entries := by
    rw [hhappens.1]
    exact List.subset_append_left ..
  have hlast : w'.Answered n op r := by
    rw [Journal.Answered, hhappens.1]
    exact List.mem_append_right _ (List.mem_singleton_self _)
  have hcache : Kept w' w'.state := by
    by_cases hop : ∀ data, op ≠ .keep data
    · rcases Async.happens_call hhappens with ⟨hstate, -⟩ | ⟨⟨v, hreturns⟩, -⟩
      · rw [hstate]
        exact h.cache.mono hentries
      · rw [hreturns.eq_of_ne hop]
        exact h.cache.mono hentries
    · push Not at hop
      obtain ⟨data, rfl⟩ := hop
      cases r with
      | ok now => exact .inr ⟨n, data, now, hlast, hhappens.2.1⟩
      | error e => exact absurd trivial hhappens.2.1
  refine ⟨hcache, fun m snapshot hm => ?_⟩
  rcases Async.answered_happens hhappens hm with hm | heq
  · exact (h.snapshots m snapshot hm).mono hentries
  · cases heq
    rw [hhappens.2.1.1]
    exact h.cache.mono hentries

/-- **The cache is traced** to the sessions that filled it. -/
theorem traced_of_reachable {s : GatewayState} (hs : (gateway js config).Reachable s) :
    Traced s.world := by
  refine invariant_of_told admits_program ?_ (fun n q op w r w' h hcall _ _ => h.call hcall) ?_ hs
  · intro w hstate hentries _
    refine ⟨.inl hstate, fun n snapshot hn => ?_⟩
    rw [Journal.Answered, hentries] at hn
    cases hn
  · intro w w' h hentries hanswered _ hstate
    have heq : w'.state = w.state := hstate.elim (fun h => h) fun h => h
    refine ⟨heq ▸ h.cache.mono hentries, fun n snapshot hn => ?_⟩
    exact (h.snapshots n snapshot (hanswered n _ _ hn)).mono hentries

lemma valid_eq_some {snapshot : Snapshot} {token : String} (h : snapshot.valid = some token) :
    snapshot.accessToken = some token ∧
      ∃ tokenExpiry, snapshot.tokenExpiry = some tokenExpiry ∧ snapshot.now < tokenExpiry - 60000 := by
  obtain ⟨htoken, hexpiry⟩ := Option.filter_eq_some_iff.mp h
  refine ⟨(Option.filter_eq_some_iff.mp htoken).1, ?_⟩
  obtain ⟨tokenExpiry, heq, hlt⟩ := (Option.any_eq_true ..).mp hexpiry
  exact ⟨tokenExpiry, heq, of_decide_eq_true hlt⟩

/-- A session with this transcript has the token from the provider; or another session had it from the
provider and has kept it, and this one has read it in time. -/
def Sourced (config : DecentroConfig) (w : Ledger) (l : Transcript) (token : String) : Prop :=
  (∃ data, Granted config l token data) ∨
    ∃ (m : ℕ) (before : Transcript) (data : AuthData) (kept : ℕ) (snapshot : Snapshot) (expires_in : ℚ),
      w.Called m before (.keep data) (.ok kept) ∧ Granted config before token data ∧
        data.expires_in = some expires_in ∧ ⟨.snapshot, .ok snapshot⟩ ∈ l ∧
          snapshot.accessToken = some token ∧ snapshot.now < kept + expires_in * 1000 - 60000

/-- **Tokens.** However payouts and status checks interleave and whatever fails: a token is sent with
credentials only, and it was granted by the provider to the session before it sends it, or to one that
kept it, and then it was read from memory more than a minute before it expires. -/
theorem bearer_sourced {s : GatewayState} (hs : (gateway js config).Reachable s) {l : Transcript}
    {r : Except String op.Res} (hr : s.world.Called n l op r) {token : String}
    (hbearer : op.bearer = some token) : config.Configured ∧ Sourced config s.world l token := by
  obtain ⟨q, -, horderly⟩ := Async.checked_of_called admits_program hs hr
  have hhas : config.Configured ∧ HasToken config l token := by
    cases op with
    | payout | payoutStatus =>
      cases hbearer
      exact ⟨horderly.1, horderly.2.2.1⟩
    | now | snapshot | keep | authenticate => cases hbearer
  refine ⟨hhas.1, ?_⟩
  rcases hhas.2 with ⟨data, hgranted⟩ | ⟨snapshot, hsnapshot, hvalid⟩
  · exact .inl ⟨data, hgranted⟩
  · obtain ⟨htoken, tokenExpiry, hexpiry, hlt⟩ := valid_eq_some hvalid
    have hread := Async.mem_own.mp (hr.sublist.subset hsnapshot)
    rcases (traced_of_reachable hs).snapshots n snapshot hread with
      hempty | ⟨m, data, kept, hkeep, hcache⟩
    · rw [hempty] at htoken
      cases htoken
    · obtain ⟨before, hcalled⟩ := Async.exists_called hkeep
      obtain ⟨q, -, token', htoken', hgranted⟩ := Async.checked_of_called admits_program hs hcalled
      have hsame : data.access_token = some token := by rw [← htoken, hcache, Cache.keep]
      obtain rfl := Option.some.inj (htoken'.symm.trans hsame)
      rw [hcache] at hexpiry
      obtain ⟨expires_in, hexpires, rfl⟩ := Option.map_eq_some_iff.mp hexpiry
      exact .inr ⟨m, before, data, kept, snapshot, expires_in, hcalled, hgranted, hexpires, hsnapshot,
        htoken, hlt⟩

lemma countP_le_one {α : Type} {P : α → Bool} {l : List α}
    (h : ∀ l₁ a l₂, l = l₁ ++ a :: l₂ → P a → ∀ b ∈ l₁, ¬P b) : l.countP P ≤ 1 := by
  induction l using List.reverseRecOn with
  | nil => exact Nat.zero_le 1
  | append_singleton l a ih =>
    rw [List.countP_append, List.countP_singleton]
    split_ifs with ha
    · rw [List.countP_eq_zero.mpr (h l a [] rfl ha)]
    · refine ih fun l₁ b l₂ hl hb => h l₁ b (l₂ ++ [a]) ?_ hb
      rw [hl, List.append_assoc, List.cons_append]

/-- **Payouts.** A session sends a token at most once, for a payout with its own parameters if that is what
it was asked for, and what it reports is what the provider has answered; or there are no credentials. -/
theorem payout_reported {s : GatewayState} (hs : (gateway js config).Reachable s) {q : Asked}
    (hq : s.world.Begun n q) :
    ((s.world.own n).countP fun e => e.1.bearer.isSome) ≤ 1 ∧
    (∀ url token moduleSecret request r, s.world.Answered n (.payout url token moduleSecret request) r →
      ∃ params, q = .initiateUpiPayout params ∧ request = payoutRequest js params) ∧
    ∀ reply, s.world.Finished n (.ok reply) → Reported js config q (s.world.own n) reply := by
  obtain ⟨hcalls, hfinished⟩ := told_of_reachable admits_program hs hq
  refine ⟨countP_le_one ?_, ?_, fun reply hreply => hfinished _ hreply⟩
  · rintro l₁ ⟨op, r⟩ l₂ hl hop e he hsent
    have horderly := hcalls l₁ op r l₂ hl
    have hsilent : Silent l₁ := by
      cases op with
      | payout | payoutStatus => exact horderly.2.1
      | now | snapshot | keep | authenticate => cases hop
    rw [hsilent e he] at hsent
    cases hsent
  · intro url token moduleSecret request r hr
    obtain ⟨l₁, l₂, hl⟩ := List.append_of_mem (Async.mem_own.mpr hr)
    exact (hcalls l₁ _ r l₂ hl).2.2.2.2.2

end Gateway

/-! ### A payout and a status check -/

namespace OneToken

def js : Js where
  rupees amountPaise := amountPaise / 100
  decimal n := toString n
  lastEight s := String.ofList (s.toList.drop (s.length - 8))
  stringifyAuth _ := "{}"
  stringifyPayout _ := "{}"

def config : DecentroConfig where
  clientId := "id"
  clientSecret := "secret"
  moduleSecret := "module"
  baseUrl := "https://in.staging.decentro.tech"

def accept {α : Type} (body : α) : Response α where
  ok := true
  status := 200
  text := .ok ""
  json := .ok body

def hour : AuthData where
  access_token := some "token"
  expires_in := some 3600

def pending : PayoutData where
  transaction_id := some "1"
  status := some "PENDING"

def success : StatusData where
  status := some "SUCCESS"
  utr_number := none

/-- The provider grants tokens for an hour, and accepts. -/
def reply : (op : Op) → Cache → Except String op.Res × Cache
  | .now, c => (.ok 1000, c)
  | .snapshot, c => (.ok { toCache := c, now := 2000 }, c)
  | .keep data, _ => (.ok (1000 : ℕ), Cache.keep data 1000)
  | .authenticate .., c => (.ok (accept { status := some "success", data := some hour }), c)
  | .payout .., c => (.ok (accept { status := some "success", data := some pending }), c)
  | .payoutStatus .., c => (.ok (accept { status := some "success", data := some success }), c)

lemma played_reply (op : Op) (c : Cache) : Async.Played Returns Op.Local op c (reply op c) := by
  cases op with
  | keep | now | authenticate | payout | payoutStatus => rfl
  | snapshot => exact ⟨rfl, rfl⟩

abbrev InProgress := Async.Program Happening (Event.Res Op.Res) String Unit

def after (n : ℕ) (q : Asked) (w : Ledger) : InProgress × Ledger :=
  (Async.session n q (q.program js config)).runFor (Async.journalled reply) 7 w

lemma run_after {n : ℕ} {q : Asked} {w : Ledger} {threads : Multiset InProgress}
    (h : (Async.session n q (q.program js config)).checkFor (Async.journalled reply)
      (fun e w _ => Async.unused e w) 7 w) :
    ∃ tr, (gateway js config).Run ⟨w, threads⟩ tr ⟨(after n q w).2, (after n q w).1 ::ₘ threads⟩ :=
  Async.run_session played_reply (fun _ _ _ => trivial) h

def params : UpiPayout where
  referenceId := "transaction"
  amountPaise := 5000
  merchantUpiVpa := "shop@upi"
  merchantName := "Shop"
  purpose := "payment"

def paid : InProgress × Ledger := after 0 (.initiateUpiPayout params) { state := {} }

def asked : InProgress × Ledger := after 1 (.checkPayoutStatus "1") paid.2

lemma paid_reachable : (gateway js config).Reachable ⟨paid.2, paid.1 ::ₘ 0⟩ := by
  have hinit : (gateway js config).Init ⟨{ state := {} }, 0⟩ := ⟨⟨rfl, rfl, rfl⟩, rfl⟩
  have hpaid : ∃ tr, (gateway js config).Run ⟨{ state := {} }, 0⟩ tr ⟨paid.2, paid.1 ::ₘ 0⟩ :=
    run_after (by decide +kernel)
  obtain ⟨tr, hrun⟩ := hpaid
  exact (Transition.System.Reachable.init hinit).run hrun

/-- The entry is a call that sends the token. -/
def sends (n : ℕ) (token : String) (e : Async.Entry Asked Op Op.Res String Reply) : Bool :=
  match e.1 with
  | .call m op => m = n ∧ op.bearer = some token
  | _ => false

lemma answered_of_sends {n : ℕ} {token : String} {w : Ledger} (h : w.entries.any (sends n token)) :
    ∃ op r, w.Answered n op r ∧ op.bearer = some token := by
  obtain ⟨⟨e, r⟩, he, hsends⟩ := List.any_eq_true.mp h
  cases e with
  | call m op =>
    obtain ⟨rfl, hbearer⟩ := of_decide_eq_true hsends
    exact ⟨op, r, he, hbearer⟩
  | begin | finish => cases hsends

end OneToken

/-- The status check sends the token that the payout has kept. -/
theorem bearer_sourced_of_kept : ∃ (js : Js) (config : DecentroConfig) (s : GatewayState) (op : Op)
    (r : Except String op.Res) (l : Transcript) (token : String), (gateway js config).Reachable s ∧
      s.world.Called 1 l op r ∧ op.bearer = some token ∧ config.Configured ∧
        Sourced config s.world l token := by
  have hasked : ∃ tr, (gateway OneToken.js OneToken.config).Run ⟨OneToken.paid.2, OneToken.paid.1 ::ₘ 0⟩ tr
      ⟨OneToken.asked.2, OneToken.asked.1 ::ₘ OneToken.paid.1 ::ₘ 0⟩ :=
    OneToken.run_after (by decide +kernel)
  obtain ⟨tr, hrun⟩ := hasked
  have hreach := OneToken.paid_reachable.run hrun
  have hsends : OneToken.asked.2.entries.any (OneToken.sends 1 "token") := by decide +kernel
  obtain ⟨op, r, hr, hbearer⟩ := OneToken.answered_of_sends hsends
  obtain ⟨l, hcalled⟩ := Async.exists_called hr
  exact ⟨_, _, _, op, r, l, _, hreach, hcalled, hbearer, bearer_sourced hreach hcalled hbearer⟩

/-- The payout is reported as the provider has answered. -/
theorem payout_reported_of_accepted : ∃ (js : Js) (config : DecentroConfig) (s : GatewayState)
    (q : Asked) (data : PayoutData), (gateway js config).Reachable s ∧ s.world.Begun 0 q ∧
      s.world.Finished 0 (.ok (.initiated data)) ∧
        Reported js config q (s.world.own 0) (.initiated data) := by
  have hbegun : OneToken.paid.2.entries[0]? =
      some ⟨.begin 0 (.initiateUpiPayout OneToken.params), .ok ()⟩ := rfl
  have hfinished : OneToken.paid.2.entries[5]? =
      some ⟨.finish 0 (.ok (.initiated OneToken.pending)), .ok ()⟩ := rfl
  have hq : OneToken.paid.2.Begun 0 (.initiateUpiPayout OneToken.params) := List.mem_of_getElem? hbegun
  have hreply : OneToken.paid.2.Finished 0 (.ok (.initiated OneToken.pending)) :=
    List.mem_of_getElem? hfinished
  exact ⟨_, _, _, _, _, OneToken.paid_reachable, hq, hreply,
    (payout_reported OneToken.paid_reachable hq).2.2 _ hreply⟩

end PayEra.Api.AccessTokens
