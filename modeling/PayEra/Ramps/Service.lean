import PayEra.Ramps.Provider

/-!
# The ramps service

`apps/api/src/ramps/ramps.service.ts` and `ramp-reconciliation.service.ts`, and everything that they
are asked for as a session. Log messages are left out; `publicId` stands for what `createReadableId`
returns.
-/

namespace PayEra.Ramps

open Async (Program Event Journal Setting)
open Async.Program

structure InitiateArgs where
  userId : String
  providerId : String
  userStellarAddress : String
  amount : Option String
  assetCode : Option String

namespace RampsService

variable (anchor : Anchor)

def appendEvent (rampTransactionId : String) (status : Option RampStatus) (eventType source : String)
    (payload : Api.Metadata) : Service Unit := do
  let last : Option ℕ ← call (.lastSequence rampTransactionId)
  call (.createEvent
    { rampTransactionId, sequence := last.getD 0 + 1, status, eventType, source, payload })

/-- `if (backoff[attempt]) await ...`. -/
def pause (ms : ℕ) : Service Unit := if ms = 0 then pure () else call (.sleep ms)

/-- The attempts after each of the pauses; `lastErr` is what the attempt before has thrown. -/
def retryAfter {α : Type} (fn : Service α) : List ℕ → (lastErr : Thrown) → Service α
  | [], lastErr => throw lastErr
  | ms :: backoff, _ => do
    pause ms
    match ← fn.attempt with
    | .ok a => pure a
    | .error err => retryAfter fn backoff err

def withRetry {α : Type} (fn : Service α) : Service α :=
  retryAfter fn [0, 500, 2000] (.error "undefined")

def isTerminal (status : RampStatus) : Bool :=
  status = .COMPLETED ∨ status = .REFUNDED ∨ status = .EXPIRED ∨ status = .ERROR

/-! ### Starting a ramp -/

def assertKycVerified (userId : String) : Service Unit := do
  let kycStatus : Option KycStatus ← call (.findKycStatus userId)
  match kycStatus with
  | none => throw (.error "User not found")
  | some kycStatus =>
    if kycStatus = .VERIFIED then pure ()
    else throw (.forbidden ("KYC verification required to use fiat ramps (current status: " ++
      kycStatus.name ++ ")"))

/-- The `try` block of `initiate` up to the result of the provider. -/
def openInteractive (type : RampType) (provider : FiatRampProvider) (args : InitiateArgs) :
    Service InitiateRampResult := do
  let sessionToken ← withRetry (provider.authenticate args.userStellarAddress)
  let params : InitiateRampParams :=
    { userStellarAddress := args.userStellarAddress, amount := args.amount
      assetCode := args.assetCode }
  withRetry (if type = .ONRAMP then provider.initiateOnRamp sessionToken params
    else provider.initiateOffRamp sessionToken params)

/-- The rest of it. -/
def recordInteractive (rampId : String) (result : InitiateRampResult) : Service RampTransaction := do
  let updated : RampTransaction ← call (.updateRamp rampId
    { providerTxId := some result.providerTxId, interactiveUrl := some result.interactiveUrl
      status := some .PENDING_USER_TRANSFER })
  appendEvent rampId (some .PENDING_USER_TRANSFER) "ramp.initiated" "system"
    [("providerTxId", result.providerTxId)]
  pure updated

/-- The `catch` block, up to the error that it throws again. -/
def recordFailure (rampId message : String) : Service Unit := do
  let _ : RampTransaction ← call (.updateRamp rampId
    { status := some .ERROR, failureCode := some "INITIATION_FAILED"
      failureMessage := some message })
  appendEvent rampId (some .ERROR) "ramp.initiation_failed" "system" [("message", message)]

def newRamp (publicId : String) (type : RampType) (provider : FiatRampProvider)
    (args : InitiateArgs) : NewRamp where
  publicId := publicId
  userId := args.userId
  provider := provider.id
  type := type
  status := .INITIATED
  userStellarAddress := args.userStellarAddress
  assetCode := (given args.assetCode).getD "USDC"
  amountIn := args.amount

/-- `initiate`; of the updated row the caller is given a part. -/
def initiate (publicId : String) (type : RampType) (provider : FiatRampProvider)
    (args : InitiateArgs) : Service RampTransaction := do
  let ramp : RampTransaction ← call (.createRamp (newRamp publicId type provider args))
  appendEvent ramp.id (some .INITIATED) "ramp.created" "system"
    [("type", type.name), ("provider", provider.id)]
  match ← (openInteractive type provider args >>= recordInteractive ramp.id).attempt with
  | .ok updated => pure updated
  | .error err => do
    recordFailure ramp.id err.message
    throw err

def initiateOnRamp (publicId : String) (args : InitiateArgs) : Service RampTransaction := do
  assertKycVerified args.userId
  let provider ← Program.done (RampProviderRegistry.get (RAMP_PROVIDERS anchor) args.providerId)
  if provider.supportsOnRamp then initiate publicId .ONRAMP provider args
  else throw (.badRequest ("Provider " ++ args.providerId ++ " does not support on-ramp"))

def initiateOffRamp (publicId : String) (args : InitiateArgs) : Service RampTransaction := do
  assertKycVerified args.userId
  let provider ← Program.done (RampProviderRegistry.get (RAMP_PROVIDERS anchor) args.providerId)
  if provider.supportsOffRamp then
    match given args.amount with
    | some _ => initiate publicId .OFFRAMP provider args
    | none => throw (.badRequest "Off-ramp requires an amount")
  else throw (.badRequest ("Provider " ++ args.providerId ++ " does not support off-ramp"))

/-! ### Reading a ramp -/

/-- `getRamp`, which the controller's `getRamp` returns; of the row the caller is given a part. -/
def getRamp (userId publicId : String) : Service RampTransaction := do
  let ramp : Option RampTransaction ← call (.findOwned publicId userId)
  match ramp with
  | none => throw (.notFound "Ramp transaction not found")
  | some ramp => pure ramp

/-! ### Refreshing a ramp -/

/-- What is written for a result when the status has changed. -/
def changedData (nextStatus : RampStatus) (rawStatus : String) (completedAt : Option ℕ)
    (data : RampTransactionData) : RampTransactionData :=
  { data with
    status := some nextStatus
    completedAt
    failureCode := if nextStatus = .ERROR then some "PROVIDER_ERROR" else none
    failureMessage := if nextStatus = .ERROR then
      some ("Provider reported status \"" ++ rawStatus ++ "\"") else none }

/-- The columns that are written in any case. -/
def polledData (result : RampStatusResult) (lastPolledAt : ℕ) : RampTransactionData where
  lastPolledAt := some lastPolledAt
  amountIn := result.amountIn
  amountOut := result.amountOut
  amountFee := result.amountFee
  referenceNumber := result.referenceNumber
  stellarMemo := result.stellarMemo
  stellarMemoType := result.stellarMemoType
  anchorAccount := result.anchorAccount
  stellarTxHash := result.stellarTxHash

/-- `if (nextStatus === RampStatus.COMPLETED) data.completedAt = new Date()`. -/
def completionDate (nextStatus : RampStatus) : Service (Option ℕ) :=
  if nextStatus = .COMPLETED then do
    let date : ℕ ← call .now
    pure (some date)
  else pure none

def applyStatus (rampId : String) (previousStatus : RampStatus) (result : RampStatusResult)
    (source : String) : Service RampStatus := do
  let lastPolledAt : ℕ ← call .now
  let data := polledData result lastPolledAt
  if result.status ≠ previousStatus then
    let completedAt ← completionDate result.status
    let _ : RampTransaction ← call (.updateRamp rampId
      (changedData result.status result.rawStatus completedAt data))
    appendEvent rampId (some result.status) "ramp.status_changed" source
      [("from", previousStatus.name), ("to", result.status.name), ("rawStatus", result.rawStatus)]
    pure result.status
  else
    let _ : RampTransaction ← call (.updateRamp rampId data)
    pure result.status

/-- What `refreshStatus` asks the provider. -/
def fetchStatus (ramp : RampTransaction) (providerTxId : String) : Service RampStatusResult := do
  let provider ← Program.done (RampProviderRegistry.get (RAMP_PROVIDERS anchor) ramp.provider)
  let sessionToken ← provider.authenticate ramp.userStellarAddress
  provider.getStatus sessionToken providerTxId

def refreshStatus (rampId : String) : Service RampStatus := do
  let ramp : Option RampTransaction ← call (.findRamp rampId)
  match ramp with
  | none => throw (.notFound "Ramp transaction not found")
  | some ramp =>
    if isTerminal ramp.status then pure ramp.status
    else match given ramp.providerTxId with
    | none => pure ramp.status
    | some providerTxId => do
      let result ← fetchStatus anchor ramp providerTxId
      applyStatus ramp.id ramp.status result "poller"

/-! ### The poller -/

def maxAgeMs : ℕ := 1000 * 60 * 60 * 24

def reconcilePending : Service Unit := do
  let now : ℕ ← call .now
  let pending : List RampTransaction ← call (.findPending (now - maxAgeMs))
  pending.forM fun ramp => do
    let _ ← (refreshStatus anchor ramp.id).attempt

end RampsService

/-! ### Sessions -/

/-- What the service is asked for. -/
inductive Asked where
  | initiateOnRamp (publicId : String) (args : InitiateArgs)
  | initiateOffRamp (publicId : String) (args : InitiateArgs)
  | refreshStatus (rampId : String)
  | reconcilePending

def Asked.program (anchor : Anchor) : Asked → Service Unit
  | .initiateOnRamp publicId args => (RampsService.initiateOnRamp anchor publicId args).discard
  | .initiateOffRamp publicId args => (RampsService.initiateOffRamp anchor publicId args).discard
  | .refreshStatus rampId => (RampsService.refreshStatus anchor rampId).discard
  | .reconcilePending => RampsService.reconcilePending anchor

end PayEra.Ramps
