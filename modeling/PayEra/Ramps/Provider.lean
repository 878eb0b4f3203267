import PayEra.Ramps.Database

/-!
# Ramp providers

`apps/api/src/ramps/providers`: the interface of a provider, the registry, and the MoneyGram adapter.
A response's body is read together with the response. Log messages, and the status codes and bodies
that only the adapter's errors carry, are left out.
-/

namespace PayEra.Ramps

open Async (Program)
open Async.Program

/-- The services' code. -/
abbrev Service (α : Type) := Program Op Op.Res Thrown α

def call (op : Op) : Service op.Res := Program.perform op

structure InitiateRampParams where
  userStellarAddress : String
  amount : Option String
  assetCode : Option String

structure InitiateRampResult where
  providerTxId : String
  interactiveUrl : String

structure RampStatusResult where
  status : RampStatus
  rawStatus : String
  amountIn : Option String := none
  amountOut : Option String := none
  amountFee : Option String := none
  referenceNumber : Option String := none
  stellarMemo : Option String := none
  stellarMemoType : Option String := none
  anchorAccount : Option String := none
  stellarTxHash : Option String := none

structure FiatRampProvider where
  id : String
  supportsOnRamp : Bool
  supportsOffRamp : Bool
  supportsStatusCallback : Bool
  authenticate : (userStellarAddress : String) → Service String
  initiateOnRamp : (sessionToken : String) → InitiateRampParams → Service InitiateRampResult
  initiateOffRamp : (sessionToken : String) → InitiateRampParams → Service InitiateRampResult
  getStatus : (sessionToken providerTxId : String) → Service RampStatusResult

/-- `RampProviderRegistry.get`. -/
def RampProviderRegistry.get (byId : List FiatRampProvider) (id : String) :
    Except Thrown FiatRampProvider :=
  match byId.find? (·.id = id) with
  | some provider => .ok provider
  | none =>
    let registered := ", ".intercalate (byId.map (·.id))
    .error (.notFound ("Unknown ramp provider \"" ++ id ++ "\". Registered: " ++
      if registered = "" then "(none)" else registered))

/-- A string that a condition takes for true. -/
def given (s : Option String) : Option String := s.filter (· ≠ "")

/-- The configuration of the adapter, and the libraries that it uses. -/
structure Anchor where
  homeDomain : String
  appHomeDomain : String
  networkPassphrase : String
  /-- `/TRANSFER_SERVER_SEP0024\s*=\s*"([^"]+)"/`, and likewise for the other endpoint -/
  transferServer : String → Option String
  webAuthEndpoint : String → Option String
  /-- The URL with its search parameters; a malformed URL throws. -/
  withSearchParams : String → List (String × String) → Except Thrown String
  /-- The challenge, signed with the platform's key. -/
  signTransaction : String → Except Thrown String
  encodeURIComponent : String → String

namespace MoneyGramProvider

variable (anchor : Anchor)

structure Toml where
  transferServerUrl : String
  webAuthEndpoint : String

def getToml : Service Toml := do
  let tomlUrl := "https://" ++ anchor.homeDomain ++ "/.well-known/stellar.toml"
  let response : Response String ← call (.fetchToml tomlUrl)
  if response.ok then
    let tomlText ← Program.done response.body
    match anchor.transferServer tomlText, anchor.webAuthEndpoint tomlText with
    | some transferServerUrl, some webAuthEndpoint => pure { transferServerUrl, webAuthEndpoint }
    | _, _ => throw (.error
        "MoneyGram stellar.toml missing TRANSFER_SERVER_SEP0024 or WEB_AUTH_ENDPOINT")
  else throw (.error ("Failed to fetch stellar.toml from " ++ tomlUrl))

/-- The guard on the network of a challenge. -/
def checkNetwork (challengeData : Challenge) : Except Thrown Unit :=
  match given challengeData.network_passphrase with
  | some passphrase =>
    if passphrase = anchor.networkPassphrase then .ok ()
    else .error (.error ("SEP-10 network mismatch: challenge is for \"" ++ passphrase ++
      "\", expected \"" ++ anchor.networkPassphrase ++ "\""))
  | none => .ok ()

def authenticate (userStellarAddress : String) : Service String := do
  let toml ← getToml anchor
  let challengeUrl ← Program.done (anchor.withSearchParams toml.webAuthEndpoint
    [("account", userStellarAddress), ("home_domain", anchor.appHomeDomain)])
  let challengeRes : Response Challenge ← call (.fetchChallenge challengeUrl)
  if challengeRes.ok then
    let challengeData ← Program.done challengeRes.body
    Program.done (checkNetwork anchor challengeData)
    let transaction ← Program.done (anchor.signTransaction challengeData.transaction)
    let tokenRes : Response String ← call (.fetchToken toml.webAuthEndpoint transaction)
    if tokenRes.ok then
      let token ← Program.done tokenRes.body
      if token = "" then throw (.error "SEP-10 response missing token") else pure token
    else throw (.error "SEP-10 authentication failed")
  else throw (.error "SEP-10 challenge request failed")

/-- The form of an interactive initiation. The adapter does not support callbacks, so it never names
a callback URL. -/
def interactiveForm (params : InitiateRampParams) : List (String × String) :=
  [("asset_code", (given params.assetCode).getD "USDC"), ("account", params.userStellarAddress),
    ("lang", "en")] ++ match given params.amount with
  | some amount => [("amount", amount)]
  | none => []

def initiateInteractive (kind sessionToken : String) (params : InitiateRampParams) :
    Service InitiateRampResult := do
  let toml ← getToml anchor
  let response : Response Interactive ← call (.postInteractive
    (toml.transferServerUrl ++ "/transactions/" ++ kind ++ "/interactive") sessionToken
    (interactiveForm params))
  if response.ok then
    let data ← Program.done response.body
    pure { providerTxId := data.id, interactiveUrl := data.url }
  else throw (.error ("SEP-24 " ++ kind ++ " initiation failed"))

def initiateOnRamp (sessionToken : String) (params : InitiateRampParams) :
    Service InitiateRampResult :=
  initiateInteractive anchor "deposit" sessionToken params

def initiateOffRamp (sessionToken : String) (params : InitiateRampParams) :
    Service InitiateRampResult :=
  match given params.amount with
  | none => throw (.error "Off-ramp (withdraw) requires an amount")
  | some _ => initiateInteractive anchor "withdraw" sessionToken params

/-- The statuses of SEP-24 in the application's vocabulary. -/
def mapStatus (raw : String) : RampStatus :=
  if raw = "incomplete" ∨ raw = "pending_user_transfer_start" then .PENDING_USER_TRANSFER
  else if raw = "pending_anchor" ∨ raw = "pending_trust" ∨ raw = "pending_user" then .PENDING_ANCHOR
  else if raw = "pending_stellar" then .PENDING_STELLAR
  else if raw = "pending_user_transfer_complete" ∨ raw = "pending_external" then .PENDING_EXTERNAL
  else if raw = "completed" then .COMPLETED
  else if raw = "refunded" then .REFUNDED
  else if raw = "expired" ∨ raw = "too_late" then .EXPIRED
  else if raw = "error" ∨ raw = "no_market" ∨ raw = "pending_customer_info_update" then
    if raw = "error" ∨ raw = "no_market" then .ERROR else .PENDING_USER_TRANSFER
  else .ERROR

def getStatus (sessionToken providerTxId : String) : Service RampStatusResult := do
  let toml ← getToml anchor
  let response : Response AnchorTransaction ← call (.fetchTransaction
    (toml.transferServerUrl ++ "/transaction?id=" ++ anchor.encodeURIComponent providerTxId)
    sessionToken)
  if response.ok then
    let transaction ← Program.done response.body
    pure
      { status := mapStatus transaction.status
        rawStatus := transaction.status
        amountIn := transaction.amount_in
        amountOut := transaction.amount_out
        amountFee := transaction.amount_fee
        referenceNumber := transaction.external_transaction_id
        stellarMemo := transaction.withdraw_memo
        stellarMemoType := transaction.withdraw_memo_type
        anchorAccount := transaction.withdraw_anchor_account
        stellarTxHash := transaction.stellar_transaction_id }
  else throw (.error "SEP-24 status check failed")

end MoneyGramProvider

/-- The adapter as a provider. -/
def moneyGramProvider (anchor : Anchor) : FiatRampProvider where
  id := "MONEYGRAM"
  supportsOnRamp := true
  supportsOffRamp := true
  supportsStatusCallback := false
  authenticate := MoneyGramProvider.authenticate anchor
  initiateOnRamp := MoneyGramProvider.initiateOnRamp anchor
  initiateOffRamp := MoneyGramProvider.initiateOffRamp anchor
  getStatus := MoneyGramProvider.getStatus anchor

/-- `RAMP_PROVIDERS`, as the module collects them. -/
def RAMP_PROVIDERS (anchor : Anchor) : List FiatRampProvider := [moneyGramProvider anchor]

end PayEra.Ramps
