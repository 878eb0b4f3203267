import PayEra.Api.Backend

/-!
# The transaction processor

`apps/api/src/transaction-processor/transaction-processor.service.ts`. The `try` block of
`processTransaction` is cut where `hash` is assigned, since its `catch` block looks at `hash`;
log messages are left out.
-/

namespace PayEra.Api

open Async (Program)
open Async.Program

/-- JavaScript's numbers and dates: the conversions that the services use. A `BigInt` of something
that is not an integer throws. -/
structure Js where
  /-- `BigInt(Math.round((Number(amountInPaise) / 100) / usdcRate * 1_000_000))` -/
  usdcUnits : ℤ → ℚ → Except String ℤ
  /-- `BigInt(Math.round((Number(amountInPaise) / 100) / Number(quoteRate) * 10_000_000))` -/
  assetUnits : ℤ → Option ℚ → Except String ℤ
  /-- `Number(amountInPaise) / 100 / rate`, to 18 digits -/
  amountInCrypto : ℤ → ℚ → ℚ
  /-- `rate.toFixed(18)` -/
  toFixed : ℚ → ℚ
  decimalString : ℚ → String
  isoString : ℕ → String
  sha256Hex : String → String

/-- A string that a condition takes for true. -/
def truthy (s : Option String) : Option String := s.filter (· ≠ "")

def TransactionStatus.toLowerCase : TransactionStatus → String
  | .CREATED => "created"
  | .QUOTED => "quoted"
  | .AUTHORIZED => "authorized"
  | .CONVERTING => "converting"
  | .ROUTING_STELLAR => "routing_stellar"
  | .SETTLING => "settling"
  | .REWARDING => "rewarding"
  | .COMPLETED => "completed"
  | .FAILED => "failed"
  | .CANCELLED => "cancelled"

def now (source : Source) : Service ℕ := call source .now

/-- `key ? await query(key) : null`. -/
def ifPresent {α : Type} (key : Option String) (query : String → Service (Option α)) :
    Service (Option α) :=
  match key with
  | some key => query key
  | none => pure none

namespace Processor

variable (js : Js)

def logEvent (transactionId : String) (status : TransactionStatus) (payload : Metadata) :
    Service Unit := do
  let maxEvent : Option ℕ ← call (.run transactionId) (.maxEventSequence transactionId)
  call (.run transactionId) (.createEvent
    { transactionId, sequence := maxEvent.getD 0 + 1, status
      eventType := "transaction." ++ status.toLowerCase, payload })

/-- `...(status === TransactionStatus.COMPLETED ? { completedAt: new Date() } : {})`. -/
def completionDate (transactionId : String) (status : TransactionStatus) : Service (Option ℕ) :=
  if status = .COMPLETED then do
    let date ← now (.run transactionId)
    pure (some date)
  else pure none

def failurePayload : Option (String × String) → Metadata
  | some (failureCode, failureMessage) =>
    [("failureCode", failureCode), ("failureMessage", failureMessage)]
  | none => []

/-- `updateStatus`; `failure` is the failure code with its message. -/
def updateStatus (transactionId : String) (status : TransactionStatus)
    (failure : Option (String × String)) : Service Unit := do
  let completedAt ← completionDate transactionId status
  let _ ← call (.run transactionId) (.updateTransaction transactionId
    { status := some status, completedAt
      failureCode := failure.map (·.1), failureMessage := failure.map fun f => some f.2 })
  logEvent transactionId status (failurePayload failure)

def getUsdcRate (transactionId : String) : Service ℚ := do
  match ← (call (.run transactionId) .fetchUsdcRate).attempt with
  | .ok (some rate) => pure (if rate = 0 then 83 else rate)
  | _ => pure 83

/-! ### Steps 1 to 4 -/

/-- What step 1 looks up for `createPayment`. -/
structure Lookup where
  reward : Reward
  qrCode : Option MerchantQrCode
  wallet : Option Wallet

/-- Step 1, up to the call. -/
def prepare (tx : Transaction) : Service Lookup := do
  updateStatus tx.id .AUTHORIZED none
  let reward : Option Reward ← call (.run tx.id) (.findSpendReward tx.id)
  match reward with
  | none => throw "No spend reward found for transaction"
  | some reward =>
    let qrCode ← ifPresent (truthy tx.merchantQrCodeId) fun id =>
      call (.run tx.id) (.findQrCode id)
    let wallet ← ifPresent (truthy tx.walletId) fun id => call (.run tx.id) (.findWallet id)
    pure { reward, qrCode, wallet }

def paymentParams (tx : Transaction) (l : Lookup) : CreatePayment :=
  { paymentId := tx.id, payer := (l.wallet.map (·.address)).getD "", merchantId := tx.merchantId
    asset := tx.assetIn, amountInPaise := tx.amountInPaise
    qrHash := ((l.qrCode.map (·.qrPayloadHash)) <|> tx.qrPayloadHash).getD
      (String.ofList (List.replicate 64 '0'))
    rewardId := l.reward.id }

def quote (tx : Transaction) : Service Unit := do
  updateStatus tx.id .QUOTED none
  let usdcRate ← getUsdcRate tx.id
  let usdcAmount ← Program.done (js.usdcUnits tx.amountInPaise usdcRate)
  let assetAmount ← Program.done (js.assetUnits tx.amountInPaise tx.quoteRateInrPerAsset)
  let _ ← call (.run tx.id) (.quotePayment
    { paymentId := tx.id, assetAmount, usdcAmount, networkFeePaise := 0 })
  updateStatus tx.id .CONVERTING none

def convert (tx : Transaction) : Service StellarResult := do
  let _ ← call (.run tx.id) (.markConverted tx.id)
  updateStatus tx.id .ROUTING_STELLAR none
  call (.run tx.id) (.submitPayment
    { transactionPublicId := tx.publicId, assetCode := tx.assetIn
      amountCrypto := (truthy (tx.amountInCrypto.map js.decimalString)).getD "0.0000001" })

/-- The `try` block up to the assignment of `hash`. -/
def route (tx : Transaction) : Service StellarResult := do
  let lookup ← prepare tx
  let _ ← call (.run tx.id) (.createPayment (paymentParams tx lookup))
  quote js tx
  convert js tx

/-! ### Steps 5 to 7 -/

def markSettled (tx : Transaction) (stellar : StellarResult) : Service Unit := do
  let _ ← call (.run tx.id) (.updateTransaction tx.id
    { status := some .SETTLING, stellarTransactionHash := some stellar.hash
      stellarLedger := some stellar.ledger })
  logEvent tx.id .SETTLING []
  let _ ← call (.run tx.id) (.markSettled tx.id)
  updateStatus tx.id .SETTLING none

/-- The payout that step 5.5 asks for. -/
def payoutRequest (tx : Transaction) (merchantUpiVpa merchantName : String) : UpiPayout :=
  { referenceId := "SETTLE_" ++ tx.id, amountPaise := tx.amountInPaise, merchantUpiVpa, merchantName
    purpose := "Payment settlement for transaction " ++ tx.publicId }

/-- Step 5.5, which is skipped if the merchant has no UPI VPA. -/
def payMerchant (tx : Transaction) : Service Unit := do
  let merchant : Option Merchant ← call (.run tx.id) (.findMerchant tx.merchantId)
  match merchant with
  | none => pure ()
  | some merchant =>
    match truthy merchant.defaultUpiVpa with
    | none => pure ()
    | some vpa =>
      let result : PayoutResult ← call (.run tx.id)
        (.initiateUpiPayout (payoutRequest tx vpa merchant.displayName))
      let _ ← call (.run tx.id) (.updateSettlements tx.id
        { status := some .SENT, settlementReference := some result.transactionId
          metadata := some [("settlementStatus", result.status)] })

/-- `rewardResult`. -/
abbrev RewardResult := Option (String × ℤ)

/-- The `try` block of one reward. -/
def mintOnChain (tx : Transaction) (reward : Reward) (walletAddress : String) :
    Service String := do
  let hash : String ← call (.run tx.id) (.issueStarReward
    { rewardId := reward.id, userId := reward.userId, userWalletAddress := walletAddress
      starAmount := reward.starAmount })
  let mintedAt ← now (.run tx.id)
  call (.run tx.id) (.updateReward reward.id
    { status := some .MINTED, mintedAt := some mintedAt, stellarMintHash := some (some hash) })
  pure hash

/-- One reward of step 6: a mint that fails does not fail the payment. -/
def issueStarReward (tx : Transaction) (rewardResult : RewardResult) (r : PendingReward) :
    Service RewardResult := do
  match truthy r.walletAddress with
  | some walletAddress =>
    match ← (mintOnChain tx r.reward walletAddress).attempt with
    | .ok hash => pure (some (hash, r.reward.starAmount))
    | .error _ =>
      call (.run tx.id) (.updateReward r.reward.id
        { status := some .FAILED, stellarMintHash := some none })
      pure rewardResult
  | none =>
    let mintedAt ← now (.run tx.id)
    let hash := "db-only-no-wallet-" ++ r.reward.id
    call (.run tx.id) (.updateReward r.reward.id
      { status := some .MINTED, mintedAt := some mintedAt, stellarMintHash := some (some hash) })
    pure (some (hash, r.reward.starAmount))

def issueStarRewards (tx : Transaction) : Service RewardResult := do
  let pendingRewards : List PendingReward ← call (.run tx.id) (.findPendingRewards tx.id)
  pendingRewards.foldlM (issueStarReward tx) none

def logCompletion (tx : Transaction) (stellar : StellarResult) (attempt : ℕ) :
    RewardResult → Service Unit
  | some (_, starAmount) =>
    match truthy (some stellar.hash) with
    | some hash =>
      call (.run tx.id) (.createAdminLog
        { actorUserId := none, action := "TRANSACTION_COMPLETED", targetType := "TRANSACTION"
          targetId := tx.id
          metadata := [("stellarHash", hash), ("ledger", toString stellar.ledger),
            ("processorAttempt", toString attempt), ("starAmount", toString starAmount)] })
    | none => pure ()
  | none => pure ()

/-- Step 7. The settlement is confirmed here, whatever the provider has said. -/
def complete (tx : Transaction) (stellar : StellarResult) (attempt : ℕ)
    (rewardResult : RewardResult) : Service Unit := do
  updateStatus tx.id .REWARDING none
  let _ ← call (.run tx.id) (.completePayment tx.id)
  updateStatus tx.id .COMPLETED none
  let confirmedAt ← now (.run tx.id)
  let _ ← call (.run tx.id) (.updateSettlements tx.id
    { status := some .CONFIRMED, confirmedAt := some confirmedAt
      mockReference := some stellar.hash })
  logCompletion tx stellar attempt rewardResult

/-- The `try` block from the assignment of `hash` on. -/
def settle (tx : Transaction) (stellar : StellarResult) (attempt : ℕ) : Service Unit := do
  markSettled tx stellar
  payMerchant tx
  let rewardResult ← issueStarRewards tx
  complete tx stellar attempt rewardResult

/-! ### The whole run -/

/-- The write of the hash in the `catch` block, whose failure is ignored. -/
def saveHash (tx : Transaction) (hash : Option String) : Service Unit :=
  match truthy hash with
  | some hash => do
    let _ ← (call (.run tx.id) (.updateTransaction tx.id
      { stellarTransactionHash := some hash })).attempt
    pure ()
  | none => pure ()

/-- The `catch` block. -/
def abort (tx : Transaction) (hash : Option String) (message : String) : Service Unit := do
  saveHash tx hash
  updateStatus tx.id .FAILED (some ("STELLAR_ERROR",
    (truthy (some message)).getD "Unknown error during Stellar routing"))

def processTransaction (tx : Transaction) (attempt : ℕ) : Service Unit := do
  match ← (route js tx).attempt with
  | .error message => abort tx none message
  | .ok stellar =>
    match ← (settle tx stellar attempt).attempt with
    | .error message => abort tx (some stellar.hash) message
    | .ok _ => pure ()

def MAX_ATTEMPTS : ℕ := 3

def BACKOFF_MS : List ℕ := [0, 2000, 8000]

/-- `MAX_RETRIES_EXCEEDED`. -/
def giveUp (tx : Transaction) (message : String) : Service Unit := do
  let _ ← call (.run tx.id) (.updateTransaction tx.id
    { status := some .FAILED, failureCode := some "MAX_RETRIES_EXCEEDED"
      failureMessage := some (some ("Failed after " ++ toString MAX_ATTEMPTS ++
        " attempts. Last error: " ++ message))
      metadata := some (tx.metadata.spread "retryAttempts" (toString MAX_ATTEMPTS)) })
  pure ()

/-- The attempts from the last but `remaining` on. -/
def retryFrom (tx : Transaction) : (remaining : ℕ) → Service Unit
  | 0 => do
    match ← (processTransaction js tx MAX_ATTEMPTS).attempt with
    | .ok _ => pure ()
    | .error message => giveUp tx message
  | remaining + 1 => do
    let attempt := MAX_ATTEMPTS - (remaining + 1)
    match ← (processTransaction js tx attempt).attempt with
    | .ok _ => pure ()
    | .error _ =>
      call (.run tx.id) (.sleep (BACKOFF_MS.getD attempt 8000))
      retryFrom tx remaining

def processTransactionWithRetry (tx : Transaction) : Service Unit :=
  retryFrom js tx (MAX_ATTEMPTS - 1)

/-- One tick of the cron job. -/
def handlePendingTransactions : Service Unit := do
  let now₁ ← now .tick
  let now₂ ← now .tick
  let claimed : ℕ ← call .tick (.claimTransactions now₁ now₂)
  if claimed = 0 then pure () else
    let now₃ ← now .tick
    let transactions : List Transaction ← call .tick (.findAuthorized (now₃ - 6000))
    transactions.forM (processTransactionWithRetry js)

/-! ### The settlement poller -/

/-- What is written for the provider's answer. -/
def recordStatus (s : SettlementInstruction) (result : PayoutStatus) : Service Unit :=
  if result.status = "SUCCESS" ∨ result.status = "COMPLETED" then do
    let confirmedAt ← now .poller
    call .poller (.updateSettlement s.id
      { status := some .CONFIRMED, confirmedAt := some confirmedAt
        mockReference := s.settlementReference
        metadata := some ((s.metadata.spreadOption "utrNumber" result.utrNumber).spread
          "settlementStatus" result.status) })
  else if result.status = "FAILED" ∨ result.status = "REJECTED" then
    call .poller (.updateSettlement s.id
      { status := some .FAILED, failureReason := some ("Decentro status: " ++ result.status) })
  else do
    let lastPolledAt ← now .poller
    call .poller (.updateSettlement s.id
      { metadata := some ((s.metadata.spread "settlementStatus" result.status).spread
          "lastPolledAt" (js.isoString lastPolledAt)) })

/-- The `try` block of one settlement. -/
def pollSettlement (s : SettlementInstruction) : Service Unit := do
  let result : PayoutStatus ← call .poller (.checkPayoutStatus (s.settlementReference.getD ""))
  recordStatus js s result

def handlePendingSettlements : Service Unit := do
  let pendingSettlements : List SettlementInstruction ← call .poller .findSentSettlements
  pendingSettlements.forM fun s => do
    let _ ← (pollSettlement js s).attempt

end Processor

end PayEra.Api
